/-
What the generated code of a property relies on.

Generated code asks four questions about a property, in each of three languages, and the answers
have to fit: to the kind of the property, to each other, and across the languages.  All of that
follows from the rules for properties.

A Python class is where it shows.  It loads an entity through the property's own accessors: one that
refers to a single entity through its setter, one that refers to several through the method that
adds to it.  But it has setters for functional properties only, and methods that add only where
there are several values.  The lines that use an accessor are told from the others by their form: a
line that uses a setter is the only one with an open bracket at its end, and one that adds is the
only call of the entity's own that is so deep in the body of the method.
-/
import OntoCode.Proofs.Kinds

namespace OntoCode

open OntoCode.Generate OntoCode.Naming OntoCode.Ontology OntoCode.Rdf OntoCode.Text

/-! ### The lines that use an accessor -/

/-- Texts without a character are the same if one of them stands before the character where the
other one does. -/
theorem eq_before_mark {α : Type} {a : α} {s t rest : List α} (hs : a ∉ s) (ht : a ∉ t)
    (h : s ++ [a] <+: t ++ a :: rest) : s = t := by
  induction s generalizing t with
  | nil =>
      cases t with
      | nil => rfl
      | cons c t =>
          rw [List.nil_append, List.cons_append, List.cons_prefix_cons] at h
          exact absurd List.mem_cons_self (h.1 ▸ ht)
  | cons b s ih =>
      rw [List.mem_cons, not_or] at hs
      cases t with
      | nil =>
          rw [List.cons_append, List.nil_append, List.cons_prefix_cons] at h
          exact absurd h.1.symm hs.1
      | cons c t =>
          rw [List.mem_cons, not_or] at ht
          rw [List.cons_append, List.cons_append, List.cons_prefix_cons] at h
          rw [h.1, ih hs.2 ht.2 h.2]

namespace Generate.Python

/-- The line that passes what the next lines give to a setter. -/
def settingLine (name : String) : String := "        self." ++ (name ++ " = (")

/-- What a line of a loop that calls a method to add starts with. -/
def addingStart (name : String) : String := "            self.add_" ++ (name ++ "(")

/-- The lines that the definition of a setter starts with. -/
def setterHead (name type : String) : Code :=
  ["    @" ++ name ++ ".setter", "    def " ++ name ++ "(self, value: " ++ type ++ "):"]

/-- The line starts with some text. -/
def Starts (line start : String) : Prop := start.toList <+: line.toList

/-- The last character of a line. -/
def lastChar? (line : String) : Option Char := line.toList.getLast?

section Forms

variable {line s t : String}

theorem lastChar?_append {c : Char} (h : lastChar? t = some c) : lastChar? (s ++ t) = some c := by
  rw [lastChar?, String.toList_append, List.getLast?_append, ← lastChar?, h]
  rfl

/-- A line that starts with two texts starts with both where the shorter one ends. -/
theorem Starts.agree (h : Starts line s) (ht : Starts line t) :
    s.toList <+: t.toList ∨ t.toList <+: s.toList :=
  List.prefix_or_prefix_of_prefix h ht

theorem starts_append : Starts (s ++ t) s := by
  rw [Starts, String.toList_append]
  exact List.prefix_append _ _

theorem Starts.of_append {start rest : String} (h : Starts line (start ++ rest)) :
    Starts line start := by
  rw [Starts, String.toList_append] at h
  exact (List.prefix_append _ _).trans h

theorem starts_append_left {start : String} : Starts (start ++ s) (start ++ t) ↔ Starts s t := by
  rw [Starts, String.toList_append, String.toList_append, List.prefix_append_right_inj, Starts]

theorem not_starts_blank {name rest : String} (h : IsIdentifier name.toList) :
    ¬ Starts (name ++ rest) "    self.add_" := by
  obtain ⟨c, others, hcons⟩ := List.exists_cons_of_ne_nil h.nonempty
  intro hstarts
  rw [Starts, String.toList_append, hcons] at hstarts
  have hblank : ' ' = c := (List.cons_prefix_cons.mp hstarts).1
  have hc : isNameChar ' ' = true := hblank ▸ h.chars c (hcons ▸ List.mem_cons_self)
  exact absurd hc (by decide)

/-- Calls start with the same text only if they are of the same function. -/
theorem eq_of_starts_call {name other rest : String} (hname : IsIdentifier name.toList)
    (hother : IsIdentifier other.toList)
    (h : Starts (other ++ ("(factory.resolve(graph, URIRef(\"" ++ rest)) (name ++ "(")) :
    name = other := by
  have hbracket : ∀ text : List Char, IsIdentifier text → '(' ∉ text :=
    fun text htext hin => absurd (htext.chars _ hin) (by decide)
  rw [Starts, String.toList_append, String.toList_append, String.toList_append] at h
  exact String.toList_inj.mp (eq_before_mark (hbracket _ hname) (hbracket _ hother) h)

end Forms

section Lines

variable {style : Style} {p : Property} {c : ClassDescription} {line name : String}

theorem settingLine_inj {other : String} : settingLine name = settingLine other ↔ name = other := by
  refine ⟨fun h => ?_, congrArg settingLine⟩
  rw [settingLine, settingLine, ← String.toList_inj] at h
  simp only [String.toList_append] at h
  exact String.toList_inj.mp (List.append_cancel_right (List.append_cancel_left h))

/-- Among the lines that load a property, the one that ends in an open bracket uses its setter. -/
theorem settingLine_of_mem (h : line ∈ loadLines style p) (hlast : lastChar? line = some '(') :
    p.kind = .object ∧ line = settingLine p.pythonName := by
  have hnot : ∀ {s t : String} {c : Char}, lastChar? t = some c → c ≠ '(' → line ≠ s ++ t := by
    rintro s t c ht hc rfl
    rw [lastChar?_append ht] at hlast
    exact hc (Option.some.inj hlast)
  unfold loadLines at h
  cases hkind : p.kind with
  | value | array =>
      simp only [hkind, List.mem_singleton] at h
      exact absurd h (hnot rfl (by decide))
  | object =>
      simp only [hkind, List.mem_cons, List.not_mem_nil, or_false] at h
      rcases h with h | h | h | h | h | h
      · exact absurd h (hnot rfl (by decide))
      · exact ⟨rfl, h.trans String.append_assoc⟩
      · exact absurd h (hnot rfl (by decide))
      · exact absurd h (hnot rfl (by decide))
      · exact absurd (h.trans String.empty_append.symm) (hnot rfl (by decide))
      · exact absurd (h.trans String.empty_append.symm) (hnot rfl (by decide))
  | collection =>
      simp only [hkind, List.mem_cons, List.not_mem_nil, or_false] at h
      rcases h with h | h | h
      · exact absurd h (hnot rfl (by decide))
      · exact absurd h (hnot rfl (by decide))
      · exact absurd h (hnot rfl (by decide))

/-- Among the lines that load a property, one that adds in a loop adds to this property. -/
theorem adding_of_mem (hp : IsIdentifier p.pythonName.toList) (hname : IsIdentifier name.toList)
    (h : line ∈ loadLines style p) (hstart : Starts line (addingStart name)) :
    p.kind = .collection ∧ p.pythonName = name := by
  have hadds : Starts line "            self.add_" := Starts.of_append hstart
  have hnot : ∀ {s t : String}, line = s ++ t → ¬ (s.toList <+: "            self.add_".toList ∨
      "            self.add_".toList <+: s.toList) → False := by
    rintro s t rfl hapart
    exact hapart (starts_append.agree hadds)
  unfold loadLines at h
  cases hkind : p.kind with
  | value | array =>
      simp only [hkind, List.mem_singleton, String.append_assoc] at h
      exact (hnot h (by decide +kernel)).elim
  | object =>
      simp only [hkind, List.mem_cons, List.not_mem_nil, or_false, String.append_assoc] at h
      rcases h with rfl | h | h | h | h | h
      · -- Both lines begin with eight blanks, and only one goes on with another one.
        have hdeeper : "            self.add_" = "        " ++ "    self.add_" := by decide
        rw [hdeeper, starts_append_left] at hadds
        exact absurd hadds (not_starts_blank hp)
      · exact (hnot h (by decide +kernel)).elim
      · exact (hnot h (by decide +kernel)).elim
      · exact (hnot h (by decide +kernel)).elim
      · exact (hnot (h.trans String.append_empty.symm) (by decide +kernel)).elim
      · exact (hnot (h.trans String.append_empty.symm) (by decide +kernel)).elim
  | collection =>
      simp only [hkind, List.mem_cons, List.not_mem_nil, or_false, String.append_assoc] at h
      rcases h with h | h | rfl
      · exact (hnot h (by decide +kernel)).elim
      · exact (hnot h (by decide +kernel)).elim
      · refine ⟨rfl, ?_⟩
        unfold addingStart at hstart
        rw [starts_append_left] at hstart
        exact (eq_of_starts_call hname hp hstart).symm

/-- The lines in front of those that load the properties. -/
def loadingHead : Code :=
  ["",
   "    def load_from_model(self, graph: Graph, factory: EntityFactory):",
   "        super().load_from_model(graph, factory)",
   "        self.check_factory(factory)",
   "        statements = self.own_statements(graph)"]

theorem mem_loadFromModelLines (h : line ∈ loadFromModelLines style c) :
    line ∈ loadingHead ∨ ∃ f ∈ c.fields, line ∈ loadLines style f.property := by
  simp only [loadFromModelLines, given, List.mem_append, List.mem_flatMap] at h
  rcases h with ((h | h) | h) | h
  · exact .inl (List.mem_append_left _ h)
  · split at h
    · rw [List.mem_singleton.mp h]
      exact .inl (by decide)
    · cases h
  · rw [List.mem_singleton.mp h]
    exact .inl (by decide)
  · exact .inr h

theorem loadLines_subset {f : Field} (hf : f ∈ c.fields) (h : line ∈ loadLines style f.property) :
    line ∈ loadFromModelLines style c :=
  List.mem_append_right _ (List.mem_flatMap.mpr ⟨f, hf, h⟩)

/-- **The setters that loading uses** are those of the properties that refer to a single entity. -/
theorem settingLine_mem_iff : settingLine name ∈ loadFromModelLines style c ↔
    ∃ f ∈ c.fields, f.property.kind = .object ∧ f.property.pythonName = name := by
  have hlast : lastChar? (settingLine name) = some '(' :=
    lastChar?_append (lastChar?_append rfl)
  have hhead : ∀ line ∈ loadingHead, lastChar? line ≠ some '(' := by decide
  constructor
  · intro h
    rcases mem_loadFromModelLines h with h | ⟨f, hf, h⟩
    · exact absurd hlast (hhead _ h)
    · obtain ⟨hkind, hline⟩ := settingLine_of_mem h hlast
      exact ⟨f, hf, hkind, (settingLine_inj.mp hline).symm⟩
  · rintro ⟨f, hf, hkind, rfl⟩
    refine loadLines_subset hf ?_
    unfold settingLine
    simp only [loadLines, hkind, String.append_assoc]
    simp

/-- **The methods to add that loading calls** are those of the properties that refer to several
entities. -/
theorem adding_mem_iff (hname : IsIdentifier name.toList) :
    (∃ line ∈ loadFromModelLines style c, Starts line (addingStart name)) ↔
      ∃ f ∈ c.fields, f.property.kind = .collection ∧ f.property.pythonName = name := by
  have hhead : ∀ line ∈ loadingHead, ¬ "            self.add_".toList <+: line.toList := by
    decide +kernel
  constructor
  · rintro ⟨line, h, hstart⟩
    rcases mem_loadFromModelLines h with h | ⟨f, hf, h⟩
    · exact absurd (Starts.of_append hstart) (hhead line h)
    · have hp := (property_names_usable f.property).2.1.1.toIsIdentifier
      exact ⟨f, hf, adding_of_mem hp hname h hstart⟩
  · rintro ⟨f, hf, hkind, rfl⟩
    refine ⟨_, loadLines_subset hf (?_ : addingStart f.property.pythonName ++
      ("factory.resolve(graph, URIRef(\"" ++ (f.property.range.map (·.text)).getD "" ++
        "\"), iri))") ∈ loadLines style f.property), starts_append⟩
    have hcall : "(factory.resolve(graph, URIRef(\"" =
        "(" ++ "factory.resolve(graph, URIRef(\"" := by decide
    unfold addingStart
    simp only [loadLines, hkind, hcall, String.append_assoc]
    simp

end Lines

end Generate.Python

namespace ClassDescription

variable {style : Style} {o : Ontology} {class_ : Iri} {c : ClassDescription} {f : Field}

/-- The kind of a field of a described class fits to whether its property is functional. -/
theorem functional_of_kind {target : Target} (h : describe target o class_ = .ok c)
    (hf : f ∈ c.fields) :
    (f.property.kind = .object → f.property.functional = true) ∧
      (f.property.kind.isMultiValued = true → f.property.functional = false) := by
  rw [(field_of_describe h hf).1]
  exact (ruled target o.graph f.property.iri).functional

theorem setterHead_infix (hf : f ∈ c.fields) (hfunctional : f.property.functional = true) :
    Python.setterHead f.property.pythonName (Python.annotation f.property) <:+:
      Python.classLines style c := by
  have hsetter : Python.setterHead f.property.pythonName (Python.annotation f.property) <:+:
      Python.setterLines f := ⟨[""], _, rfl⟩
  have haccessors : Python.setterLines f <:+: Python.accessorLines f := by
    rw [Python.accessorLines, if_pos hfunctional]
    exact (List.suffix_append _ _).isInfix
  have hfields : Python.accessorLines f <:+: c.fields.flatMap Python.accessorLines :=
    List.infix_of_mem_flatten (List.mem_map_of_mem hf)
  have hclass : c.fields.flatMap Python.accessorLines <:+: Python.classLines style c :=
    ((List.infix_append _ _ _).trans (List.prefix_append _ _).isInfix).trans
      (List.prefix_append _ _).isInfix
  exact (hsetter.trans haccessors).trans (hfields.trans hclass)

end ClassDescription

/-! ### The answers of a session -/

/-- What a session with a generator answers about a property. -/
structure Answers (g : Generator) (w : Workspace) (iri : Iri) (kind : PropertyKind)
    (element field : String) (class? : Option Iri) : Prop where
  kind : (Step.ask (.kind iri)).outcome g w = .ok kind
  element : (Step.ask (.elementType iri)).outcome g w = .ok element
  field : (Step.ask (.fieldType iri)).outcome g w = .ok field
  class? : (Step.ask (.rangeClass iri)).outcome g w = .ok class?

theorem answers_session (g : Generator) (earlier : List Step) (files : FileTree) (iri : Iri) :
    Answers g (session g earlier files) iri (kindOf g.ontology.graph iri)
      (g.target.elementType g.ontology.graph iri) (g.target.fieldType g.ontology.graph iri)
      (rangeClass? g.ontology.graph iri) :=
  ⟨(Step.ask (.kind iri)).outcome_session, (Step.ask (.elementType iri)).outcome_session,
    (Step.ask (.fieldType iri)).outcome_session, (Step.ask (.rangeClass iri)).outcome_session⟩

/-- **The answers about a property agree, and generated code can rely on them.**

Take a session with a generator, in which any steps were made before, and ask it about a property,
once for each language.

  * The kind is the same in all languages, and so is the class that the property refers to.  A
    property that refers to a single entity is functional, one with several values is not.
  * The values have the type of a reference to the first range exactly if the property refers to
    entities, or if in Java the name of the first range is that of the type of strings.  Literals
    have the type that the table has for the first range, or the default type; there are several
    only of a datatype of the table.
  * The field has the type of the values, wrapped for several literals or for several entities, and
    it has another type exactly if there are several.
  * There is a class that the property refers to exactly if it refers to entities, and it is the
    first range.

Let the session describe a class for Python as well.  Loading uses the setters of the properties
that refer to a single entity, and the methods to add of those that refer to several.  Each of them
is defined in the class. -/
theorem answers_agree (g : Generator) (earlier : List Step) (files : FileTree) :
    let graph := g.ontology.graph
    let generatorFor (target : Target) : Generator := { g with target }
    let w (target : Target) : Workspace := session (generatorFor target) earlier files
    (∀ iri, ∃ (kind : PropertyKind) (element field : Target → String) (class? : Option Iri),
      (∀ target, Answers (generatorFor target) (w target) iri kind (element target)
        (field target) class?) ∧
      (kind = .object → isFunctional graph (.iri iri) = true) ∧
      (kind.isMultiValued = true → isFunctional graph (.iri iri) = false) ∧
      (class?.isSome = true ↔ kind.isReference = true) ∧
      (∀ class_, class? = some class_ → range? graph (.iri iri) = some class_) ∧
      ∀ target : Target,
        (∀ class_, range? graph (.iri iri) = some class_ →
          (element target = target.referenceType class_ ↔
            kind.isReference = true ∨ target = .java ∧ className class_ = "String")) ∧
        (kind = .array → ∃ datatype, range? graph (.iri iri) = some datatype ∧
          (datatype, element target) ∈ target.table) ∧
        (kind = .value → (∃ datatype, range? graph (.iri iri) = some datatype ∧
          (datatype, element target) ∈ target.table) ∨ element target = target.defaultType) ∧
        field target = target.wrapped kind (element target) ∧
        (field target ≠ element target ↔ kind.isMultiValued = true)) ∧
    ∀ (class_ : Iri) (c : ClassDescription) (style : Style) (name : String),
      (Step.describe class_).outcome (generatorFor .python) (w .python) = .ok c →
      IsIdentifier name.toList →
      let loading := Python.loadFromModelLines style c
      (Python.settingLine name ∈ loading ↔
        ∃ f ∈ c.fields, f.property.kind = .object ∧ f.property.pythonName = name) ∧
      (Python.settingLine name ∈ loading →
        ∃ type, Python.setterHead name type <:+: Python.classLines style c) ∧
      ((∃ line ∈ loading, Python.Starts line (Python.addingStart name)) ↔
        ∃ f ∈ c.fields, f.property.kind = .collection ∧ f.property.pythonName = name) ∧
      ((∃ line ∈ loading, Python.Starts line (Python.addingStart name)) →
        ∃ parameters, ClassDescription.definition ("add_" ++ name) parameters ∈
          Python.classLines style c) := by
  intro graph generatorFor w
  constructor
  · intro iri
    have hruled := fun target => ruled target graph iri
    refine ⟨kindOf graph iri, fun target => target.elementType graph iri,
      fun target => target.fieldType graph iri, rangeClass? graph iri,
      fun target => answers_session (generatorFor target) earlier files iri,
      (hruled .java).functional.1, (hruled .java).functional.2,
      (hruled .java).class?.1, (hruled .java).class?.2, fun target => ?_⟩
    have hfield : target.fieldType graph iri = _ := (hruled target).field
    have hplain := fun hkind => ((hruled target).plain hkind).2
    refine ⟨fun class_ => (hruled target).reference_iff, fun hkind => ?_, fun hkind => ?_, hfield,
      ?_⟩
    · rw [hkind] at hplain
      exact (hplain rfl).resolve_right nofun
    · rw [hkind] at hplain
      exact (hplain rfl).imp_right And.right
    · dsimp only
      rw [hfield]
      exact Target.wrapped_ne_iff
  · intro class_ c style name h hname loading
    have hdescribe : describe .python g.ontology class_ = .ok c :=
      (Step.describe class_).outcome_session.symm.trans h
    refine ⟨Python.settingLine_mem_iff, fun hsetting => ?_, Python.adding_mem_iff hname,
      fun hadding => ?_⟩
    · obtain ⟨f, hf, hkind, rfl⟩ := Python.settingLine_mem_iff.mp hsetting
      exact ⟨_, ClassDescription.setterHead_infix hf
        ((ClassDescription.functional_of_kind hdescribe hf).1 hkind)⟩
    · obtain ⟨f, hf, hkind, rfl⟩ := (Python.adding_mem_iff hname).mp hadding
      have hmulti : f.property.kind.isMultiValued = true := by
        rw [hkind]
        rfl
      exact ⟨_, ClassDescription.definition_adder hf
        ((ClassDescription.functional_of_kind hdescribe hf).2 hmulti) hmulti⟩

/-- The values that tell which persons a team has are persons, a team is loaded by adding persons to
it, and it has the method for that. -/
theorem team_loads_persons :
    (∃ kind element field class?, Answers ClassDescription.teams
        (session ClassDescription.teams [] { root := "/" }) ⟨"http://ex.org/a#person"⟩
        kind element field class? ∧
      (element = "Person" ↔ kind.isReference = true)) ∧
    ∀ style : Style,
      (∃ line ∈ Python.loadFromModelLines style ClassDescription.team,
        Python.Starts line (Python.addingStart "person")) ∧
      ∃ parameters, ClassDescription.definition ("add_" ++ "person") parameters ∈
        Python.classLines style ClassDescription.team := by
  have hagree := answers_agree ClassDescription.teams [] { root := "/" }
  refine ⟨?_, fun style => ?_⟩
  · obtain ⟨kind, element, field, class?, hanswers, -, -, -, -, htarget⟩ :=
      hagree.1 ⟨"http://ex.org/a#person"⟩
    obtain ⟨helement, -⟩ := htarget .python
    have hperson := helement ⟨"http://ex.org/a#Person"⟩ (by decide)
    refine ⟨kind, element .python, field .python, class?, hanswers .python, ?_⟩
    exact hperson.trans (or_iff_left nofun)
  · obtain ⟨-, -, hadded, hdefined⟩ := hagree.2
      ClassDescription.team.iri ClassDescription.team style "person" ClassDescription.team_described
      (by decide)
    have hloading := hadded.mpr ⟨_, List.mem_cons_self, rfl, by decide +kernel⟩
    exact ⟨hloading, hdefined hloading⟩

/-- A generator of Java classes for names, which are strings. -/
def stringNames : Generator :=
  .make .java plainSettings
    (ontologyOf [⟨.iri ⟨"http://ex.org/a#name"⟩, rdfs "range", .iri (xsd "string")⟩])

/-- An array of strings has values of the type of its range: the name of the range is that of the
Java type of strings. -/
theorem names_have_range_type :
    range? stringNames.ontology.graph (.iri ⟨"http://ex.org/a#name"⟩) = some (xsd "string") ∧
    Answers stringNames (session stringNames [] { root := "/" }) ⟨"http://ex.org/a#name"⟩ .array
      (Target.java.referenceType (xsd "string")) "String[]" none := by
  refine ⟨by decide, ?_⟩
  have hanswers := answers_session stringNames [] { root := "/" } ⟨"http://ex.org/a#name"⟩
  have hkind : kindOf stringNames.ontology.graph ⟨"http://ex.org/a#name"⟩ = .array := by decide
  have hclass : rangeClass? stringNames.ontology.graph ⟨"http://ex.org/a#name"⟩ = none := by decide
  have helement : stringNames.target.elementType stringNames.ontology.graph
      ⟨"http://ex.org/a#name"⟩ = Target.java.referenceType (xsd "string") := by decide +kernel
  have hfield : stringNames.target.fieldType stringNames.ontology.graph
      ⟨"http://ex.org/a#name"⟩ = "String[]" := by decide +kernel
  rwa [hkind, hclass, helement, hfield] at hanswers

end OntoCode
