/-
Which fields of a Java class are captured.

A method that refers to a field by its bare name gets a parameter or a local variable instead, if
one has the name.  The variables of the generated methods have fixed names, but for two kinds: the
sets of IRIs that loading looks up are named after a property, and the parameter of a method that
adds to an inverse collection is named after the class of its entities.  Fields have whatever names
the local names of the ontology give.

So a field is captured by its name alone: each kind of property is referred to in fixed places, and
each place has its variables.  Sets of IRIs are declared in the order of the properties, which are
sorted by name, so that each one comes before the property that it would hide.  Inverse collections
are never captured, since their names are plurals and the names of variables are not.  For the
parameter this rests on the plural: no word starts with its own plural, so that nothing put behind
the plural gives the word back.
-/
import OntoCode.Proofs.CollectionNames
import OntoCode.Proofs.DepthOrder
import OntoCode.Proofs.Scopes

namespace OntoCode

open OntoCode.Generate OntoCode.Naming OntoCode.Ontology OntoCode.Rdf OntoCode.Text

/-! ### Plurals are other words -/

namespace Naming

/-- A longer text does not start a shorter one. -/
theorem not_prefix_of_append {part ending : List Char} (hending : ending ≠ []) :
    ¬ part ++ ending <+: part := by
  intro hprefix
  have hlength := hprefix.length_le
  have hpositive := List.length_pos_of_ne_nil hending
  rw [List.length_append] at hlength
  omega

/-- A final part does not start with its plural. -/
theorem not_prefix_pluralPart {part : List Char} (hchars : IsNameText part) (hpart : part ≠ []) :
    ¬ pluralPart part <+: part := by
  unfold pluralPart
  split
  · rename_i singular plural hfound
    have hlower : singular.toList = lower part := by simpa using List.find?_some hfound
    have htable : ∀ entry ∈ irregularPlurals,
        ¬ (entry.2.toList.drop 1).map lowerAscii <+: entry.1.toList.drop 1 := by decide
    obtain ⟨c, tail, rfl⟩ := List.exists_cons_of_ne_nil hpart
    rw [lower_of_isNameText hchars] at hlower
    intro hprefix
    have htail : plural.toList.drop 1 <+: tail := (List.cons_prefix_cons.mp hprefix).2
    refine htable _ (List.mem_of_find?_eq_some hfound) ?_
    dsimp only
    rw [hlower]
    exact htail.map lowerAscii
  · split
    case h_6 before more hreverse =>
      obtain rfl : part = (more.reverse ++ [before]) ++ ['y'] := by
        rw [← List.reverse_reverse part, hreverse, List.reverse_cons, List.reverse_cons]
      split
      · exact not_prefix_of_append (by decide)
      · rw [List.dropLast_concat, List.prefix_append_right_inj]
        decide
    all_goals exact not_prefix_of_append (by decide)

/-- **A word does not start with its plural.** -/
theorem not_prefix_plural? {word p : List Char} (hchars : IsNameText word) (hne : word ≠ [])
    (h : plural? word = some p) : ¬ p <+: word := by
  obtain ⟨head, part, hlongest, hplural⟩ := plural?_of_line hchars.newline_not_mem hne
  obtain rfl := Option.some.inj (h.symm.trans hplural)
  split
  · exact not_prefix_of_append (by decide)
  · rename_i hpart
    obtain rfl := hlongest.append
    rw [List.prefix_append_right_inj]
    exact not_prefix_pluralPart (fun c hc => hchars c (List.mem_append_right head hc)) hpart

end Naming

namespace InverseCollection

variable {i : InverseCollection}

/-- A collection does not have the name of its parameter, whatever is put behind its plural. -/
theorem name_ne_parameterName (i : InverseCollection) : i.name ≠ i.parameterName := by
  obtain ⟨hword, hne, hplural, -⟩ := i.exists_plural_plainName
  refine fun heq => not_prefix_plural? hword hne hplural ⟨i.suffix.toList, ?_⟩
  rw [← String.toList_append]
  exact (congrArg String.toList heq).trans String.toList_ofList

/-- The name of a collection ends like a plural or has a capital. -/
theorem HasSuffix.name_cases (h : i.HasSuffix) : i.name.toList.getLast? = some 's' ∨
    (∃ ending ∈ irregularEndings, ending <:+ i.name.toList) ∨ 'B' ∈ i.name.toList := by
  obtain ⟨-, -, -, hform⟩ := i.exists_plural_plainName
  have hname : i.name.toList = i.plainName.toList ++ i.suffix.toList := String.toList_append
  rcases h with hnone | hby
  · rw [hnone, String.toList_empty, List.append_nil] at hname
    rw [hname]
    rcases hform.eq_or_ending with heq | ⟨ending, hending, hsuffix⟩
    · left
      rw [heq, List.getLast?_concat]
    · exact .inr (.inl ⟨ending, hending, hsuffix⟩)
  · right; right
    rw [hname, hby, String.toList_append]
    exact List.mem_append_right _ (List.mem_append_left _ (by decide))

/-- The name of a collection is none of the fixed names of parameters. -/
theorem HasSuffix.name_ne {v : String} (h : i.HasSuffix) (hv : v ∈ ["iri", "target"]) :
    i.name ≠ v := by
  have hlast : ∀ v ∈ ["iri", "target"], v.toList.getLast? ≠ some 's' := by decide
  have hirregular : ∀ v ∈ ["iri", "target"], ∀ ending ∈ irregularEndings,
      ¬ ending <:+ v.toList := by decide
  have hsmall : ∀ v ∈ ["iri", "target"], 'B' ∉ v.toList := by decide
  intro heq
  have hcases := h.name_cases
  rw [heq] at hcases
  rcases hcases with hs | ⟨ending, hending, hsuffix⟩ | hcapital
  · exact hlast v hv hs
  · exact hirregular v hv ending hending hsuffix
  · exact hsmall v hv hcapital

end InverseCollection

namespace Generate.Java

/-! ### Bodies in a scope -/

section Bodies

variable {scope : List String} {name : String}

theorem mem_hidden {line : List Piece} :
    name ∈ hidden scope line ↔ .field name ∈ line ∧ name ∈ scope := by
  have hfield : name ∈ line.filterMap Piece.field? ↔ .field name ∈ line := by
    rw [List.mem_filterMap]
    constructor
    · rintro ⟨piece, hpiece, hname⟩
      cases piece with
      | field other =>
          cases hname
          exact hpiece
      | text | own | binds => cases hname
    · exact fun hpiece => ⟨_, hpiece, rfl⟩
  rw [hidden, List.mem_filter, hfield, List.contains_iff_mem]

theorem hiddenInBody_append (a b : List BodyPart) : hiddenInBody scope (a ++ b) =
    hiddenInBody scope a ++ hiddenInBody (scope ++ a.flatMap BodyPart.declares) b := by
  induction a generalizing scope with
  | nil => simp [hiddenInBody]
  | cons part rest ih =>
      rw [List.cons_append, hiddenInBody, hiddenInBody, ih, List.flatMap_cons, List.append_assoc,
        List.append_assoc]

/-- Statements that declare nothing hide the fields they refer to that have a name in the scope. -/
theorem mem_hiddenInBody_statements {lines : List (List Piece)}
    (hplain : ∀ line ∈ lines, declared line = []) :
    name ∈ hiddenInBody scope (statements lines) ↔ name ∈ scope ∧ .field name ∈ lines.flatten := by
  induction lines with
  | nil => simp [statements, hiddenInBody]
  | cons line rest ih =>
      obtain ⟨hline, hrest⟩ := List.forall_mem_cons.mp hplain
      have hsplit : hiddenInBody scope (statements (line :: rest)) =
          hidden scope line ++ hiddenInBody scope (statements rest) := by
        rw [statements, List.map_cons, hiddenInBody, BodyPart.hides, BodyPart.declares, hline,
          List.append_nil]
        rfl
      rw [hsplit, List.mem_append, mem_hidden, ih hrest, List.flatten_cons, List.mem_append]
      grind

/-- Lines for some things refer to the fields that they are for. -/
theorem mem_flatten_map {α : Type} {l : List α} {line : α → List Piece} (fieldOf : α → String)
    (hline : ∀ a, .field name ∈ line a ↔ fieldOf a = name) :
    .field name ∈ (l.map line).flatten ↔ ∃ a ∈ l, fieldOf a = name := by
  rw [← List.flatMap_def, List.mem_flatMap]
  exact exists_congr fun a => and_congr_right fun _ => hline a

/-- What is hidden in the parts for one of several things, in the scope of those for the things
before. -/
theorem mem_hiddenInBody_flatMap {α : Type} {l : List α} {parts : α → List BodyPart} :
    name ∈ hiddenInBody scope (l.flatMap parts) ↔
      ∃ before a after, l = before ++ a :: after ∧ name ∈
        hiddenInBody (scope ++ (before.flatMap parts).flatMap BodyPart.declares) (parts a) := by
  induction l generalizing scope with
  | nil => simp [hiddenInBody]
  | cons first rest ih =>
      rw [List.flatMap_cons, hiddenInBody_append, List.mem_append, ih]
      constructor
      · rintro (h | ⟨before, a, after, rfl, h⟩)
        · exact ⟨[], first, rest, rfl, by simpa using h⟩
        · refine ⟨first :: before, a, after, rfl, ?_⟩
          rwa [List.flatMap_cons, List.flatMap_append, ← List.append_assoc]
      · rintro ⟨before, a, after, heq, h⟩
        cases before with
        | nil =>
            cases heq
            exact .inl (by simpa using h)
        | cons b before =>
            cases heq
            rw [List.flatMap_cons, List.flatMap_append, ← List.append_assoc] at h
            exact .inr ⟨before, a, after, rfl, h⟩

end Bodies

/-! ### What each method captures -/

section Methods

variable {style : Style} {c : ClassDescription} {f : Field} {i : InverseCollection} {p : Property}
  {name : String}

theorem mem_initialising : .field name ∈ (initialising p).flatten ↔
    p.kind.isMultiValued = true ∧ p.name = name := by
  unfold initialising
  cases p.kind <;> simp [PropertyKind.isMultiValued, @eq_comm _ name]

theorem declared_initialising : ∀ line ∈ initialising p, declared line = [] := by
  unfold initialising
  cases p.kind <;> simp [declared, Piece.binds?]

theorem captures_constructor : name ∈ (constructorOf c).captures ↔ name = "iri" ∧
    ((∃ f ∈ c.fields, f.property.kind.isMultiValued = true ∧ f.property.name = name) ∨
      ∃ i ∈ c.inverses, i.name = name) := by
  have hscope : declared (constructorOf c).header = ["iri"] := rfl
  have hmade : .field name ∈ (c.fields.flatMap fun f => initialising f.property).flatten ↔
      ∃ f ∈ c.fields, f.property.kind.isMultiValued = true ∧ f.property.name = name := by
    rw [List.flatMap_def, List.flatten_flatten, List.map_map, ← List.flatMap_def, List.mem_flatMap]
    exact exists_congr fun f => and_congr_right fun _ => mem_initialising
  rw [Method.captures, hscope, constructorOf]
  rw [mem_hiddenInBody_statements, List.mem_singleton]
  · refine and_congr_right fun _ => ?_
    rw [List.flatten_append, List.flatten_append, List.mem_append, List.mem_append, hmade,
      mem_flatten_map InverseCollection.name fun i => by simp [@eq_comm _ name]]
    simp
  · simp only [List.forall_mem_append, List.forall_mem_flatMap, List.forall_mem_map]
    exact ⟨⟨by decide, fun f _ => declared_initialising⟩, fun i _ => rfl⟩

theorem captures_classIri : (classIri c).captures = [] := rfl

theorem captures_getter : (getterOf p).captures = [] := rfl

/-- A setter refers to the field behind `this`. -/
theorem captures_setter : (setterOf f).captures = [] := by
  unfold setterOf Method.captures
  cases f.property.kind <;> cases f.inverse <;> rfl

theorem captures_adder : name ∈ (adderOf f).captures ↔ name = "item" ∧ f.property.name = name := by
  have hscope : declared (adderOf f).header = ["item"] := rfl
  rw [Method.captures, hscope, adderOf]
  cases f.inverse <;> dsimp only <;>
    rw [mem_hiddenInBody_statements (by simp [declared, Piece.binds?])] <;> simp [eq_comm]

theorem captures_collectionGetter : (collectionGetterOf i).captures = [] := rfl

theorem captures_collectionAdder :
    name ∈ (collectionAdderOf i).captures ↔ name = i.parameterName ∧ i.name = name := by
  have hscope : declared (collectionAdderOf i).header = [i.parameterName] := rfl
  rw [Method.captures, hscope, collectionAdderOf]
  rw [mem_hiddenInBody_statements (by simp [declared, Piece.binds?]), List.mem_singleton]
  refine and_congr_right fun _ => ?_
  simp [@eq_comm _ name]

theorem captures_writing : name ∈ (writingOf style c).captures ↔ name = "target" ∧
    ((∃ f ∈ c.fields, f.property.name = name) ∨ ∃ i ∈ c.inverses, i.name = name) := by
  have hscope : declared (writingOf style c).header = ["target"] := rfl
  rw [Method.captures, hscope, writingOf]
  rw [mem_hiddenInBody_statements, List.mem_singleton]
  · refine and_congr_right fun _ => ?_
    rw [List.flatten_append, List.flatten_append, List.mem_append, List.mem_append,
      mem_flatten_map (fun f : Field => f.property.name) fun f => by simp [@eq_comm _ name],
      mem_flatten_map InverseCollection.name fun i => by simp [@eq_comm _ name]]
    simp
  · simp only [List.forall_mem_append, List.forall_mem_map]
    exact ⟨⟨by decide, fun f _ => rfl⟩, fun i _ => rfl⟩

/-- The variable for a property that refers to entities. -/
theorem declares_loading : (loading style p).flatMap BodyPart.declares =
    if p.kind.isReference then [p.name ++ "IRIs"] else [] := by
  unfold loading
  cases p.kind <;> rfl

/-- Loading a property captures it if its name is in the scope or is that of a variable that loading
this kind of property declares. -/
theorem mem_hiddenInBody_loading {scope : List String} :
    name ∈ hiddenInBody scope (loading style p) ↔ p.name = name ∧ (name ∈ scope ∨
      (p.kind.isReference = true ∧ name = "iri") ∨ (p.kind = .collection ∧ name = "item")) := by
  have hiris : p.name ++ "IRIs" ≠ p.name := by
    intro heq
    have hlength := congrArg String.length heq
    have hfour : ("IRIs" : String).length = 4 := rfl
    rw [String.length_append] at hlength
    omega
  unfold loading
  by_cases hname : p.name = name
  · subst hname
    have hiri : "iri" = p.name ↔ p.name = "iri" := eq_comm
    have hitem : "item" = p.name ↔ p.name = "item" := eq_comm
    cases p.kind <;>
      simp [hiddenInBody, BodyPart.hides, BodyPart.declares, hiddenInBlock, mem_hidden, declared,
        Piece.binds?, PropertyKind.isReference, hiris, hiri, hitem]
    exact Or.inl
  · cases p.kind <;>
      simp [hiddenInBody, BodyPart.hides, hiddenInBlock, mem_hidden, hname, @eq_comm _ name]

/-- The properties are in the order of their names. -/
def Sorted (fields : List Field) : Prop :=
  fields.Pairwise fun e f => e.property.name ≤ f.property.name

/-- The set of IRIs for a property is declared before a property that has its name. -/
theorem Sorted.mem_before {before after : List Field} (h : Sorted (before ++ f :: after))
    {e : Field} (he : e ∈ before ++ f :: after)
    (hname : f.property.name = e.property.name ++ "IRIs") : e ∈ before := by
  have hlt : e.property.name < f.property.name := by
    have hlonger := (Hierarchy.append_lt_append_iff e.property.name.toList).mpr
      (show [] < "IRIs".toList by decide)
    rwa [List.append_nil, ← String.toList_append, ← hname, ← String.lt_iff_toList_lt] at hlonger
  rcases List.mem_append.mp he with he | he
  · exact he
  · have hafter := (List.pairwise_cons.mp (List.pairwise_append.mp h).2.1).1
    rcases List.mem_cons.mp he with rfl | he
    · exact absurd hlt (lt_irrefl _)
    · exact absurd hlt (not_lt_of_ge (hafter e he))

/-- The variables that are declared before any property is loaded. -/
theorem declares_preparing (usesFactory : Bool) :
    (preparing style usesFactory).flatMap BodyPart.declares =
      (if usesFactory then ["factory"] else []) ++ ["m"] := by
  cases usesFactory <;> rfl

theorem hiddenInBody_preparing {scope : List String} (usesFactory : Bool) :
    hiddenInBody scope (preparing style usesFactory) = [] := by
  cases usesFactory <;> rfl

/-- Loading captures a property by the variables that are declared for all, by those of its own
kind, and by the set of IRIs for another property. -/
theorem captures_loadingOf (hsorted : Sorted c.fields) : name ∈ (loadingOf style c).captures ↔
    ∃ f ∈ c.fields, f.property.name = name ∧
      (name ∈ ["model", "efactory", "m"] ∨ (c.usesFactory = true ∧ name = "factory") ∨
        (f.property.kind.isReference = true ∧ name = "iri") ∨
        (f.property.kind = .collection ∧ name = "item") ∨
        ∃ e ∈ c.fields, e.property.kind.isReference = true ∧ name = e.property.name ++ "IRIs") := by
  have hscope : declared (loadingOf style c).header = ["model", "efactory"] := rfl
  have hiris : ∀ before : List Field,
      name ∈ (before.flatMap fun f => loading style f.property).flatMap BodyPart.declares ↔
        ∃ e ∈ before, e.property.kind.isReference = true ∧ name = e.property.name ++ "IRIs" := by
    intro before
    have hone : ∀ f : Field, name ∈ (loading style f.property).flatMap BodyPart.declares ↔
        f.property.kind.isReference = true ∧ name = f.property.name ++ "IRIs" := by
      intro f
      rw [declares_loading]
      cases f.property.kind.isReference <;> simp
    rw [List.flatMap_assoc, List.mem_flatMap]
    exact exists_congr fun f => and_congr_right fun _ => hone f
  have hfactory : name ∈ (if c.usesFactory then ["factory"] else []) ↔
      c.usesFactory = true ∧ name = "factory" := by
    cases c.usesFactory <;> simp
  rw [Method.captures, hscope, loadingOf, hiddenInBody_append, hiddenInBody_preparing,
    declares_preparing, List.nil_append, mem_hiddenInBody_flatMap]
  simp only [mem_hiddenInBody_loading, List.mem_append, hiris, hfactory]
  have hbefore : ∀ {before f after}, c.fields = before ++ f :: after → f.property.name = name →
      ((∃ e ∈ before, e.property.kind.isReference = true ∧ name = e.property.name ++ "IRIs") ↔
        ∃ e ∈ c.fields, e.property.kind.isReference = true ∧ name = e.property.name ++ "IRIs") := by
    rintro before f after heq rfl
    rw [heq] at hsorted ⊢
    refine exists_congr fun e => and_congr_left fun hname => ⟨List.mem_append_left _, fun he => ?_⟩
    exact hsorted.mem_before he hname.2
  have hfixed : name ∈ ["model", "efactory", "m"] ↔ name ∈ ["model", "efactory"] ∨ name ∈ ["m"] :=
    @List.mem_append _ name ["model", "efactory"] ["m"]
  have hreorder : ∀ {fixed factory model iris iri item : Prop},
      ((fixed ∨ factory ∨ model) ∨ iris) ∨ iri ∨ item ↔
        (fixed ∨ model) ∨ factory ∨ iri ∨ item ∨ iris := by grind
  rw [hfixed]
  constructor
  · rintro ⟨before, f, after, heq, hname, hhidden⟩
    rw [hbefore heq hname] at hhidden
    exact ⟨f, heq ▸ List.mem_append_right _ List.mem_cons_self, hname, hreorder.mp hhidden⟩
  · rintro ⟨f, hf, hname, hhidden⟩
    obtain ⟨before, after, heq⟩ := List.append_of_mem hf
    refine ⟨before, f, after, heq, hname, ?_⟩
    rw [hbefore heq hname]
    exact hreorder.mpr hhidden

end Methods

/-! ### What a class captures -/

/-- **A property is captured:** it has the name of a variable of a method that refers to it. -/
inductive Captured (c : ClassDescription) (f : Field) : Prop
  | fixed (hname : f.property.name ∈ ["target", "model", "efactory", "m"])
  | factory (hname : f.property.name = "factory") (huses : c.usesFactory = true)
  | iri (hname : f.property.name = "iri") (hkind : f.property.kind ≠ .value)
  | item (hname : f.property.name = "item") (hkind : f.property.kind = .collection)
  /-- Loading another property looks up a set of IRIs under this name. -/
  | iris {e : Field} (he : e ∈ c.fields) (hkind : e.property.kind.isReference = true)
      (hname : f.property.name = e.property.name ++ "IRIs")

section Classes

variable {style : Style} {c : ClassDescription} {f : Field} {m : Method} {name : String}

theorem mem_accessorsOf : m ∈ accessorsOf f → m = getterOf f.property ∨ m = setterOf f ∨
    f.property.kind = .collection ∧ m = adderOf f := by
  unfold accessorsOf
  intro hm
  rcases List.mem_append.mp hm with hm | hm
  · exact .inl (List.mem_singleton.mp hm)
  · split at hm
    · exact .inr (.inl (List.mem_singleton.mp hm))
    · split at hm
      · rename_i hkind
        exact .inr (.inr ⟨hkind, List.mem_singleton.mp hm⟩)
      · cases hm

/-- What a method captures is a captured property. -/
theorem captured_of_mem (hsorted : Sorted c.fields) (hsuffix : ∀ i ∈ c.inverses, i.HasSuffix)
    (hm : m ∈ methods style c) (hname : name ∈ m.captures) :
    ∃ f ∈ c.fields, f.property.name = name ∧ Captured c f := by
  simp only [methods, methodsBeforeLoading, List.mem_append, List.mem_cons, List.mem_flatMap,
    List.not_mem_nil, or_false] at hm
  rcases hm with (((((rfl | rfl) | ⟨f, hf, hm⟩) | ⟨i, hi, rfl | rfl⟩) | rfl) | rfl)
  · obtain ⟨rfl, ⟨f, hf, hkind, hname⟩ | ⟨i, hi, hname⟩⟩ := captures_constructor.mp hname
    · refine ⟨f, hf, hname, .iri hname fun hvalue => ?_⟩
      rw [hvalue] at hkind
      cases hkind
    · exact absurd hname ((hsuffix i hi).name_ne (by decide))
  · rw [captures_classIri] at hname
    cases hname
  · rcases mem_accessorsOf hm with rfl | rfl | ⟨hkind, rfl⟩
    · rw [captures_getter] at hname
      cases hname
    · rw [captures_setter] at hname
      cases hname
    · obtain ⟨rfl, hname⟩ := captures_adder.mp hname
      exact ⟨f, hf, hname, .item hname hkind⟩
  · rw [captures_collectionGetter] at hname
    cases hname
  · obtain ⟨hparameter, hname⟩ := captures_collectionAdder.mp hname
    exact absurd (hname.trans hparameter) i.name_ne_parameterName
  · obtain ⟨rfl, ⟨f, hf, hname⟩ | ⟨i, hi, hname⟩⟩ := captures_writing.mp hname
    · exact ⟨f, hf, hname, .fixed (hname ▸ List.mem_cons_self)⟩
    · exact absurd hname ((hsuffix i hi).name_ne (by decide))
  · obtain ⟨f, hf, rfl, hvariable⟩ := (captures_loadingOf hsorted).mp hname
    refine ⟨f, hf, rfl, ?_⟩
    rcases hvariable with hfixed | ⟨huses, hname⟩ | ⟨hkind, hname⟩ | ⟨hkind, hname⟩ |
      ⟨e, he, hkind, hname⟩
    · exact .fixed (List.mem_cons_of_mem _ hfixed)
    · exact .factory hname huses
    · refine .iri hname fun hvalue => ?_
      rw [hvalue] at hkind
      cases hkind
    · exact .item hname hkind
    · exact .iris he hkind hname

/-- A captured property is one that a method captures. -/
theorem Captured.exists_mem (hsorted : Sorted c.fields) (hf : f ∈ c.fields) (h : Captured c f) :
    ∃ m ∈ methods style c, f.property.name ∈ m.captures := by
  have hconstructor : constructorOf c ∈ methods style c := by simp [methods, methodsBeforeLoading]
  have hwriting : writingOf style c ∈ methods style c := by simp [methods, methodsBeforeLoading]
  have hloading : loadingOf style c ∈ methods style c := by simp [methods]
  cases h with
  | fixed hname =>
      rcases List.mem_cons.mp hname with htarget | hfixed
      · exact ⟨_, hwriting, captures_writing.mpr ⟨htarget, .inl ⟨f, hf, rfl⟩⟩⟩
      · exact ⟨_, hloading, (captures_loadingOf hsorted).mpr ⟨f, hf, rfl, .inl hfixed⟩⟩
  | factory hname huses =>
      exact ⟨_, hloading, (captures_loadingOf hsorted).mpr ⟨f, hf, rfl, .inr (.inl ⟨huses, hname⟩)⟩⟩
  | iri hname hkind =>
      cases hmulti : f.property.kind.isMultiValued with
      | true =>
          exact ⟨_, hconstructor, captures_constructor.mpr ⟨hname, .inl ⟨f, hf, hmulti, rfl⟩⟩⟩
      | false =>
          -- What has one value and is no literal is loaded as a reference.
          have hreference : f.property.kind.isReference = true := by
            cases hcase : f.property.kind with
            | value => exact absurd hcase hkind
            | object | collection => rfl
            | array =>
                rw [hcase] at hmulti
                cases hmulti
          exact ⟨_, hloading, (captures_loadingOf hsorted).mpr
            ⟨f, hf, rfl, .inr (.inr (.inl ⟨hreference, hname⟩))⟩⟩
  | item hname hkind =>
      exact ⟨_, hloading, (captures_loadingOf hsorted).mpr
        ⟨f, hf, rfl, .inr (.inr (.inr (.inl ⟨hkind, hname⟩)))⟩⟩
  | iris he hkind hname =>
      exact ⟨_, hloading, (captures_loadingOf hsorted).mpr
        ⟨f, hf, rfl, .inr (.inr (.inr (.inr ⟨_, he, hkind, hname⟩)))⟩⟩

end Classes

end Generate.Java

/-! ### The names of a described class -/

namespace ClassDescription

variable {target : Target} {o : Ontology} {class_ : Iri} {c : ClassDescription}

/-- Properties and collections of a class have names of their own. -/
theorem names_nodup (h : c.fieldNames.Pairwise FieldName.Apart) :
    (c.fields.map (·.property.name) ++ c.inverses.map (·.name)).Nodup := by
  have hnames : c.fields.map (·.property.name) ++ c.inverses.map (·.name) =
      c.fieldNames.map (·.camel) := by
    simp [fieldNames, Function.comp_def]
  rw [hnames]
  exact List.pairwise_map.mpr (h.imp fun hapart => hapart.1)

theorem sorted_of_describe (h : describe target o class_ = .ok c) : Java.Sorted c.fields := by
  obtain ⟨_, fields, -, -, -, hassembled, -⟩ := describe_ok h
  rw [hassembled]
  refine (sortByTexts_sorted _ fields).imp ?_
  intro e f hsorted
  rcases (notAfter_cons _ _ _ _).mp hsorted with hlt | ⟨heq, -⟩
  · exact le_of_lt hlt
  · exact le_of_eq heq

end ClassDescription

/-- **The fields that a Java class captures are known by their names.**

Take a session with a Java generator, in which any steps were made before, and a class that it
describes.  The text of its file consists of the comments, the fields and the methods.  One of the
methods captures a property, by referring to it with the name of a parameter or of a local variable,
exactly if

  * its name is `target`, `model`, `efactory` or `m`;
  * its name is `factory`, and the class refers to other entities;
  * its name is `iri`, and it is not a single literal;
  * its name is `item`, and it is a collection;
  * its name is that of a property which refers to entities, followed by `IRIs`.

No method captures an inverse collection. -/
theorem captured_fields_iff {g : Generator} (hjava : g.target = .java) (earlier : List Step)
    (files : FileTree) {class_ : Iri} {c : ClassDescription}
    (h : (Step.describe class_).outcome g (session g earlier files) = .ok c) (style : Style) :
    g.classText style c = textOf (Java.front style c ++
      (Java.methodsBeforeLoading style c).flatMap (fun m => m.lines style ++ [""]) ++
      (Java.loadingOf style c).lines style ++ ["\x7d"]) ∧
    (∀ f ∈ c.fields, (∃ m ∈ Java.methods style c, f.property.name ∈ m.captures) ↔
      Java.Captured c f) ∧
    ∀ i ∈ c.inverses, ∀ m ∈ Java.methods style c, i.name ∉ m.captures := by
  have hdescribe : describe g.target g.ontology class_ = .ok c :=
    (Step.describe class_).outcome_session.symm.trans h
  have hsorted := ClassDescription.sorted_of_describe hdescribe
  have hsuffix : ∀ i ∈ c.inverses, i.HasSuffix := fun i hi =>
    (keeps_of_inverseCollections (inverses_of_describe hdescribe)).hasSuffix hi
  obtain ⟨hproperties, -, hapart⟩ := List.nodup_append.mp
    (ClassDescription.names_nodup (ClassDescription.apart_of_describe hdescribe))
  refine ⟨?_, fun f hf => ⟨?_, Java.Captured.exists_mem hsorted hf⟩, ?_⟩
  · rw [Generator.classText, hjava, Java.classLines_eq]
  · rintro ⟨m, hm, hname⟩
    obtain ⟨e, he, hsame, hcaptured⟩ := Java.captured_of_mem hsorted hsuffix hm hname
    cases List.inj_on_of_nodup_map hproperties he hf hsame
    exact hcaptured
  · intro i hi m hm hname
    obtain ⟨e, he, hsame, -⟩ := Java.captured_of_mem hsorted hsuffix hm hname
    exact hapart _ (List.mem_map_of_mem he) _ (List.mem_map_of_mem hi) hsame

/-! ### The target of a link -/

namespace Links

/-- A link has a source and a target. -/
def statements : List Triple :=
  [⟨.iri ⟨"http://ex.org/a#source"⟩, rdfType, .iri (owl "DatatypeProperty")⟩,
   ⟨.iri ⟨"http://ex.org/a#source"⟩, rdfs "domain", .iri ⟨"http://ex.org/a#Link"⟩⟩,
   ⟨.iri ⟨"http://ex.org/a#target"⟩, rdfType, .iri (owl "DatatypeProperty")⟩,
   ⟨.iri ⟨"http://ex.org/a#target"⟩, rdfs "domain", .iri ⟨"http://ex.org/a#Link"⟩⟩]

/-- A generator of Java classes for links. -/
def generator : Generator :=
  .make .java { plainSettings with vocabularyName := some "Links" } (ontologyOf statements)

/-- The style of the classes. -/
def style : Style := ⟨generator.settings, "Links", generator.indent⟩

theorem properties_eq : Ontology.properties generator.ontology.graph =
    [⟨"http://ex.org/a#source"⟩, ⟨"http://ex.org/a#target"⟩] := by
  unfold Ontology.properties
  rw [sortByTexts_of_sorted (by decide)]
  decide

/-- A property of links that is a text. -/
def text (iri : String) : Property :=
  { iri := ⟨iri⟩, kind := .value, fieldType := "String", elementType := "String",
    functional := false }

/-- The class of links. -/
def link : ClassDescription :=
  { iri := ⟨"http://ex.org/a#Link"⟩
    fields := [⟨text "http://ex.org/a#source", none⟩, ⟨text "http://ex.org/a#target", none⟩] }

theorem link_described (files : FileTree) :
    (Step.describe link.iri).outcome generator (session generator [] files) = .ok link := by
  rw [Step.outcome_session]
  have hdeclared : propertiesOf generator.ontology.graph link.iri .domain =
      .ok (link.fields.map (·.property.iri)) := by
    delta propertiesOf
    simp only [properties_eq]
    decide +kernel
  have hfields : (link.fields.map (·.property.iri)).mapM (fun iri =>
      fieldWith (inverseCollections generator.target generator.ontology)
        (propertyOf generator.target generator.ontology iri)) = .ok link.fields := by
    decide +kernel
  have hinverses : inverseCollections generator.target generator.ontology link.iri = .ok [] := by
    delta inverseCollections propertiesOf
    simp only [properties_eq]
    decide +kernel
  have hassembled : assemble generator.ontology link.iri link.fields [] = link := by
    unfold assemble
    rw [sortByTexts_of_sorted (by decide +kernel)]
    decide +kernel
  refine bind_eq_ok.mpr ⟨_, hdeclared, bind_eq_ok.mpr ⟨_, hfields, bind_eq_ok.mpr
    ⟨_, hinverses, ?_⟩⟩⟩
  rw [hassembled]
  decide +kernel

end Links

/-- The source of a link is not captured. -/
theorem source_not_captured :
    (Links.generator.target = .java ∧
      (Step.describe Links.link.iri).outcome Links.generator
        (session Links.generator [] { root := "/" }) = .ok Links.link) ∧
    ∀ m ∈ Java.methods Links.style Links.link, "source" ∉ m.captures := by
  obtain ⟨-, hcaptured, -⟩ := captured_fields_iff (g := Links.generator) rfl [] { root := "/" }
    (Links.link_described _) Links.style
  have hname : (Links.text "http://ex.org/a#source").name = "source" := by decide +kernel
  refine ⟨⟨rfl, Links.link_described _⟩, fun m hm hsource => ?_⟩
  have hsome := (hcaptured _ List.mem_cons_self).mp ⟨m, hm, hname.symm ▸ hsource⟩
  cases hsome with
  | fixed h => exact absurd (hname ▸ h) (by decide)
  | factory h => exact absurd (hname.symm.trans h) (by decide)
  | iri h => exact absurd (hname.symm.trans h) (by decide)
  | item h => exact absurd (hname.symm.trans h) (by decide)
  | iris he hkind =>
      have hvalues : ∀ e ∈ Links.link.fields, e.property.kind.isReference = false := by decide
      exact absurd hkind (by rw [hvalues _ he]; decide)

/-- The target of a link is captured: what is added to the model is the model. -/
theorem link_target_captured :
    (Step.describe Links.link.iri).outcome Links.generator
      (session Links.generator [] { root := "/" }) = .ok Links.link ∧
    Links.generator.style? = .ok Links.style ∧
    (∃ f ∈ Links.link.fields, f.property.name = "target") ∧
    "target" ∈ (Java.writingOf Links.style Links.link).captures ∧
    "\tpublic void addToModel(TargetModel target) \x7b" ∈
      Java.classLines Links.style Links.link ∧
    "\t\taddValue(target, Links.target, target);" ∈ Java.classLines Links.style Links.link :=
  ⟨Links.link_described _, rfl, ⟨_, List.mem_cons_of_mem _ List.mem_cons_self, by decide +kernel⟩,
    by decide +kernel, by decide +kernel, by decide +kernel⟩

/-! ### The parameter of a collection -/

/-- **A parameter hides no collection.**

A name that is made of letters, digits and underscores has a plural.  The plural is another name,
and it keeps all that stands before the longest ending made of small letters and digits behind a
capital or none.

So a collection never has the name of the parameter with which entities are added to it, whatever
class the entities have and whatever suffix tells the collection apart.  The method that adds to it,
the second one that is generated for the collection in Java, does not capture it. -/
theorem parameter_hides_no_collection :
    (∀ word : List Char, IsNameText word → word ≠ [] →
      ∃ p head part ending, plural? word = some p ∧ p ≠ word ∧ IsLongestPart word head part ∧
        p = head ++ ending) ∧
    ∀ i : InverseCollection, i.name ≠ i.parameterName ∧
      (Java.collectionAdderOf i).captures = [] ∧
      ∀ style, Java.inverseLines style i =
        (Java.collectionGetterOf i).lines style ++ [""] ++
          (Java.collectionAdderOf i).lines style ++ [""] := by
  refine ⟨fun word hchars hne => ?_, fun i => ⟨i.name_ne_parameterName, ?_, fun style => ?_⟩⟩
  · obtain ⟨head, part, hlongest, hplural⟩ := plural?_of_line hchars.newline_not_mem hne
    have hother := not_prefix_plural? hchars hne hplural
    refine ⟨_, head, part, if part = [] then ['s'] else pluralPart part, hplural,
      fun heq => hother (by rw [heq]), hlongest, ?_⟩
    split
    · rename_i hnone
      rw [← hlongest.append, hnone, List.append_nil]
    · rfl
  · refine List.eq_nil_iff_forall_not_mem.mpr fun name hname => ?_
    obtain ⟨hparameter, hcollection⟩ := Java.captures_collectionAdder.mp hname
    exact i.name_ne_parameterName (hcollection.trans hparameter)
  · rw [← Java.lines_collection, List.flatMap_cons, List.flatMap_singleton]
    simp only [List.append_assoc]

/-- The plural of "rawDatum" keeps the first word, and the letters before a letter are not
hidden. -/
theorem raw_data_keep_first_word :
    (IsNameText "rawDatum".toList ∧ "rawDatum".toList ≠ []) ∧
    (∃ p head part ending, plural? "rawDatum".toList = some p ∧ p ≠ "rawDatum".toList ∧
      IsLongestPart "rawDatum".toList head part ∧ p = head ++ ending) ∧
    plural? "rawDatum".toList = some "rawData".toList ∧
    (Java.collectionAdderOf Letters.predecessors).captures = [] := by
  obtain ⟨hplurals, hcollections⟩ := parameter_hides_no_collection
  have hname : IsNameText "rawDatum".toList := by decide
  have hne : "rawDatum".toList ≠ [] := by decide
  exact ⟨⟨hname, hne⟩, hplurals _ hname hne, by decide, (hcollections Letters.predecessors).2.1⟩

end OntoCode
