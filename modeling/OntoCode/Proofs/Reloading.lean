/-
Loading depends on the data alone.

A graph may hold its statements in any order, a factory may list what it makes in any
order and may have loaded much before.  None of that has a part in what loading gives.

What is read from a graph is sorted by texts that tell IRIs apart, so IRIs are read
alike from graphs that hold the same statements.  Literals are sorted by their texts,
datatypes and languages, but what is read is the value that a literal stands for, which
is no part of what a literal is.  So literals of one text and one datatype have to stand
for one value: then the sorted values are the same, though the literals may be spelled
with other capitals in their languages.

A traversal that reads the same goes the same way.  What was loaded before only shifts
the numbers of the entities.
-/
import OntoCode.Proofs.Renumbering
import OntoCode.Proofs.Sorting
import OntoCode.Proofs.Statements

namespace OntoCode

open OntoCode.Rdf OntoCode.Text

/-! ### Reading literals -/

/-- Lists that agree in a key agree in all that the key determines. -/
theorem map_eq_of_map_eq {α β κ : Type} {key : α → κ} {f : α → β} {l m : List α}
    (hkey : l.map key = m.map key) (hf : ∀ a ∈ l, ∀ b ∈ m, key a = key b → f a = f b) :
    l.map f = m.map f := by
  induction l generalizing m with
  | nil =>
      obtain rfl := List.map_eq_nil_iff.mp hkey.symm
      rfl
  | cons a l ih =>
      obtain ⟨b, m, rfl, hab, hrest⟩ := List.map_eq_cons_iff.mp hkey.symm
      rw [List.map_cons, List.map_cons, hf a List.mem_cons_self b List.mem_cons_self hab.symm]
      rw [ih hrest.symm fun c hc d hd =>
        hf c (List.mem_cons_of_mem _ hc) d (List.mem_cons_of_mem _ hd)]

namespace Rdf

/-- The text of the datatype of a literal, empty if it has none. -/
def Literal.datatypeText (l : Literal) : String := (l.datatype.map (·.text)).getD ""

/-- What a literal reads as depends on what it stands for. -/
theorem Literal.readAs_congr {l m : Literal} (h : l.native = m.native) (type : Option ValueType) :
    l.readAs type = m.readAs type := by
  unfold readAs
  rw [h]

namespace Graph

/-- Literals with one text and one datatype that two graphs hold for a subject and a predicate
stand for one value. -/
def ReadAlike (g h : Graph) : Prop :=
  ∀ s p, ∀ l ∈ g.literals (.iri s) p, ∀ m ∈ h.literals (.iri s) p,
    l.text = m.text → l.datatypeText = m.datatypeText → l.native = m.native

/-- The texts and datatypes of sorted literals are sorted. -/
theorem sortedLiterals_sorted (g : Graph) (s p : Iri) :
    ((g.sortedLiterals s p).map fun l => [l.text, l.datatypeText]).Pairwise fun a b =>
      notAfter a b = true := by
  refine List.pairwise_map.mpr ((sortByTexts_sorted _ _).imp fun {l m} hle => ?_)
  exact @notAfter_of_append [l.text, l.datatypeText] [m.text, m.datatypeText] _ _ rfl hle

/-- Graphs that are built of the same statements are read alike if the statements are. -/
theorem readAlike_ofList {ts us : List Triple} (hperm : ts.Perm us)
    (halike : ∀ l ∈ ts.filterMap (·.object.literal?), ∀ m ∈ ts.filterMap (·.object.literal?),
      l.text = m.text → l.datatypeText = m.datatypeText → l.native = m.native) :
    (ofList ts).ReadAlike (ofList us) := by
  have hmem : ∀ {vs : List Triple} {s : Term} {p : Iri} {l : Literal},
      l ∈ (ofList vs).literals s p → l ∈ vs.filterMap (·.object.literal?) := by
    intro vs s p l hl
    obtain ⟨t, ht, -, -, hobject⟩ := mem_objects.mp (mem_literals.mp hl)
    refine List.mem_filterMap.mpr ⟨t, ?_, Term.literal?_eq_some.mpr hobject⟩
    exact (mem_insertAll ht).resolve_left List.not_mem_nil
  intro s p l hl m hm
  exact halike l (hmem hl) m ((hperm.filterMap _).mem_iff.mpr (hmem hm))

variable {g h : Graph} (hsame : SameStatements g h)

include hsame

/-- **Graphs that hold the same statements stand for the same values, in one order**, if their
literals are read alike. -/
theorem SameStatements.natives_eq (halike : g.ReadAlike h) (s p : Iri) :
    (g.sortedLiterals s p).map Literal.native = (h.sortedLiterals s p).map Literal.native := by
  let key (l : Literal) : List String := [l.text, l.datatypeText]
  -- The languages are left out of the key: the graphs may spell them with different capitals.
  have hperm : ((g.sortedLiterals s p).map key).Perm ((h.sortedLiterals s p).map key) := by
    have hfactor : ∀ literals : List Literal,
        literals.map key = (literals.map Literal.key).map key := by
      intro literals
      rw [List.map_map]
      rfl
    have hliterals := (hsame.literals_perm (.iri s) p).map key
    rw [← hfactor, ← hfactor] at hliterals
    exact ((sortByTexts_perm _ _).map key).trans
      (hliterals.trans ((sortByTexts_perm _ _).map key).symm)
  have hkeys : (g.sortedLiterals s p).map key = (h.sortedLiterals s p).map key :=
    eq_of_sorted hperm (g.sortedLiterals_sorted s p) (h.sortedLiterals_sorted s p)
  refine map_eq_of_map_eq hkeys fun l hl m hm heq => ?_
  have htexts : l.text = m.text ∧ l.datatypeText = m.datatypeText := by simpa [key] using heq
  exact halike s p l (mem_sortByTexts.mp hl) m (mem_sortByTexts.mp hm) htexts.1 htexts.2

theorem SameStatements.values_eq (halike : g.ReadAlike h) (s p : Iri) (type : Option ValueType) :
    g.values s p type = h.values s p type := by
  have hread : ∀ {l m : List Literal}, l.map Literal.native = m.map Literal.native →
      l.mapM (Literal.readAs · type) = m.mapM (Literal.readAs · type) := by
    intro l
    induction l with
    | nil =>
        intro m heq
        obtain rfl := List.map_eq_nil_iff.mp heq.symm
        rfl
    | cons a l ih =>
        intro m heq
        obtain ⟨b, m, rfl, hab, hrest⟩ := List.map_eq_cons_iff.mp heq.symm
        rw [List.mapM_cons, List.mapM_cons, Literal.readAs_congr hab.symm, ih hrest.symm]
  unfold values
  rw [hread (hsame.natives_eq halike s p)]

/-- IRIs are read in one order. -/
theorem SameStatements.sortedIris_eq (s p : Iri) : g.sortedIris s p = h.sortedIris s p :=
  sortByTexts_congr (hsame.objectIris_perm (.iri s) p) fun i _ j _ heq =>
    Iri.text_inj.mp (by simpa using heq)

end Graph

end Rdf

/-! ### Loading from graphs with the same statements -/

section Sources

variable {g h : Graph} {f f' : EntityFactory} (hsame : g.SameStatements h)
  (hcreators : ∀ iri, f.creator? iri = f'.creator? iri)

include hsame hcreators

/-- Factories that make the same choose the same. -/
theorem EntityFactory.choose_congr (classes : EntityClasses) (expected iri : Iri) :
    f.choose classes g expected iri = f'.choose classes h expected iri := by
  have hcreator : f.creator? = f'.creator? := funext hcreators
  have htypes : f.knownTypes g iri = f'.knownTypes h iri := by
    have hiris := hsame.sortedIris_eq iri rdfType
    unfold Graph.sortedIris at hiris
    unfold knownTypes
    rw [hiris, hcreator]
  unfold choose creator
  rw [htypes, hcreator]

variable (halike : g.ReadAlike h)

include halike

namespace EntitySource

variable {classes : EntityClasses}

omit hcreators in
theorem loadFields_congr (resolve : Resolver) (id : EntityId) :
    (⟨classes, g, some f⟩ : EntitySource).loadFields resolve id =
      (⟨classes, h, some f'⟩ : EntitySource).loadFields resolve id := by
  have hfield : (⟨classes, g, some f⟩ : EntitySource).loadField resolve =
      (⟨classes, h, some f'⟩ : EntitySource).loadField resolve := by
    funext id iri field
    unfold loadField
    simp only [hsame.values_eq halike, hsame.sortedIris_eq]
  unfold loadFields loadClass
  rw [hfield]
  rfl

theorem resolveWithin_congr (depth : Nat) :
    (⟨classes, g, some f⟩ : EntitySource).resolveWithin f depth =
      (⟨classes, h, some f'⟩ : EntitySource).resolveWithin f' depth := by
  induction depth with
  | zero => rfl
  | succ depth ih =>
      have hfields : ∀ resolve id, (⟨classes, g, some f⟩ : EntitySource).loadFields resolve id =
          (⟨classes, h, some f'⟩ : EntitySource).loadFields resolve id :=
        loadFields_congr hsame halike
      funext expected iri
      unfold resolveWithin
      simp only [EntityFactory.choose_congr hsame hcreators, ih, hfields]

/-- Loading goes the same way through both graphs. -/
theorem load_congr :
    (⟨classes, g, some f⟩ : EntitySource).load = (⟨classes, h, some f'⟩ : EntitySource).load := by
  have hdepth : (⟨classes, g, some f⟩ : EntitySource).depth =
      (⟨classes, h, some f'⟩ : EntitySource).depth := congrArg (· + 2) hsame.size_eq
  have hresolve : (⟨classes, g, some f⟩ : EntitySource).resolve =
      (⟨classes, h, some f'⟩ : EntitySource).resolve := by
    funext expected iri
    unfold resolve
    simp only [hdepth, resolveWithin_congr hsame hcreators halike]
  unfold load
  rw [hresolve]

end EntitySource

end Sources

namespace EntitySource

/-- **Loading depends on the data alone.**

Take two graphs that hold the same statements, in whatever order, and whose literals of one text and
one datatype stand for one value where they are read together.  Take as well two factories that make
the same, and ask them for an entity.  There are entities, numbered from zero, and an outcome, such
that both factories make these entities from their graphs on top of all entities there were, and end
with that outcome: they fail for one reason, or give the same of the new entities.  What was met or
loaded before, well or not, shifts the numbers and has no other part in it. -/
theorem load_depends_on_data (classes : EntityClasses) {g h : Graph} (hsame : g.SameStatements h)
    (halike : g.ReadAlike h) {f f' : EntityFactory}
    (hcreators : ∀ iri, f.creator? iri = f'.creator? iri) (expected root : Iri) :
    ∃ (outcome : Except EntityFailure EntityId) (made : Loaded), ∀ before : Loaded,
      ((⟨classes, g, some f⟩ : EntitySource).load expected root).run.run before =
          (outcome.map (before.store.next + ·), made.above before.store) ∧
        ((⟨classes, h, some f'⟩ : EntitySource).load expected root).run.run before =
          (outcome.map (before.store.next + ·), made.above before.store) := by
  refine ⟨_, _, fun before => ⟨load_above expected root before, ?_⟩⟩
  rw [← load_congr hsame hcreators halike]
  exact load_above expected root before

end EntitySource

/-! ### Things with codes

A thing has a code, which is read as it is, and parts, which are things themselves.
-/

namespace Things

/-- The class of things. -/
def classes : EntityClasses :=
  .ofList [{ name := "Thing", iri := some ⟨"http://ex.org/a#Thing"⟩, inverses := ["wholes"],
             fields := [
    { name := "code", kind := .value, predicate := ⟨"http://ex.org/a#code"⟩ },
    { name := "parts", kind := .collection, predicate := ⟨"http://ex.org/a#part"⟩,
      range := ⟨"http://ex.org/a#Thing"⟩, inverse := some "wholes" }] }]

/-- A factory that makes things, and also makes them for another class. -/
def factory : EntityFactory :=
  ⟨[(⟨"http://ex.org/a#Thing"⟩, "Thing"), (⟨"http://ex.org/a#Part"⟩, "Thing")]⟩

/-- The factory with its classes the other way around. -/
def backwards : EntityFactory :=
  ⟨[(⟨"http://ex.org/a#Part"⟩, "Thing"), (⟨"http://ex.org/a#Thing"⟩, "Thing")]⟩

theorem creators_eq (iri : Iri) : factory.creator? iri = backwards.creator? iri := by
  simp only [EntityFactory.creator?, factory, backwards, List.lookup_cons]
  cases iri == ⟨"http://ex.org/a#Thing"⟩ <;> cases iri == ⟨"http://ex.org/a#Part"⟩ <;> rfl

/-- That the thing has a code, as a literal. -/
def code (l : Literal) : Triple :=
  ⟨.iri ⟨"http://ex.org/a#t"⟩, ⟨"http://ex.org/a#code"⟩, .literal l⟩

/-- A text that is read from its spelling. -/
def read : Literal := .ofText "1" (some (xsd "string")) none

/-- The same literal, made of a number. -/
def made : Literal := .ofValue (.integer 1) (some (xsd "string"))

/-- That the thing has a name, as a literal. -/
def name (l : Literal) : Triple :=
  ⟨.iri ⟨"http://ex.org/a#t"⟩, ⟨"http://ex.org/a#name"⟩, .literal l⟩

/-- A text without a datatype. -/
def plain : Literal := .ofText "a" none none

/-- The text with an empty datatype. -/
def typed : Literal := .ofText "a" (some ⟨""⟩) none

/-- The names that are read from statements. -/
def names (statements : List Triple) : Except EntityFailure (List Native) :=
  (Graph.ofList statements).values ⟨"http://ex.org/a#t"⟩ ⟨"http://ex.org/a#name"⟩ none

/-- Both names are read in the order in which they were added. -/
theorem names_eq (l m : Literal) (h : l = plain ∧ m = typed ∨ l = typed ∧ m = plain) :
    names [name l, name m] = .ok [l.native, m.native] := by
  have hsorted : (Graph.ofList [name l, name m]).sortedLiterals ⟨"http://ex.org/a#t"⟩
      ⟨"http://ex.org/a#name"⟩ = [l, m] := by
    unfold Graph.sortedLiterals
    rcases h with ⟨rfl, rfl⟩ | ⟨rfl, rfl⟩
    · rw [sortByTexts_of_sorted (by decide +kernel)]
      decide +kernel
    · rw [sortByTexts_of_sorted (by decide +kernel)]
      decide +kernel
  unfold names Graph.values
  rw [hsorted]
  rcases h with ⟨rfl, rfl⟩ | ⟨rfl, rfl⟩ <;> decide +kernel

/-- That the thing is a part of itself. -/
def part : Triple :=
  ⟨.iri ⟨"http://ex.org/a#t"⟩, ⟨"http://ex.org/a#part"⟩, .iri ⟨"http://ex.org/a#t"⟩⟩

/-- Loads the thing from statements. -/
def load (statements : List Triple) (f : EntityFactory) : Loading EntityId :=
  (⟨classes, .ofList statements, some f⟩ : EntitySource).load ⟨"http://ex.org/a#Thing"⟩
    ⟨"http://ex.org/a#t"⟩

/-- A state in which the thing was met before, but not loaded. -/
def history : Loaded where
  store := ⟨[.ofClass classes "Thing" ⟨"http://ex.org/a#t"⟩]⟩
  resolved := [(⟨"http://ex.org/a#t"⟩, 0)]

/-- A thing whose statements were added in another order is made again after it was met before. -/
theorem load_shuffled :
    ((Graph.ofList [code read, part]).SameStatements (.ofList [part, code read]) ∧
      (Graph.ofList [code read, part]).ReadAlike (.ofList [part, code read]) ∧
      ∀ iri, factory.creator? iri = backwards.creator? iri) ∧
    ((load [code read, part] factory).run.run {}).1 = .ok 0 ∧
    ((load [part, code read] backwards).run.run history).1 = .ok 1 ∧
    ((load [part, code read] backwards).run.run history).2.store.content? 1 "wholes" =
      some (.set [.entity 1]) := by
  have hperm : [code read, part].Perm [part, code read] := .swap _ _ _
  have hsame := Graph.sameStatements_ofList hperm
  have halike : (Graph.ofList [code read, part]).ReadAlike (.ofList [part, code read]) :=
    Graph.readAlike_ofList hperm (by decide +kernel)
  obtain ⟨outcome, made, hall⟩ := EntitySource.load_depends_on_data classes hsame halike creators_eq
    ⟨"http://ex.org/a#Thing"⟩ ⟨"http://ex.org/a#t"⟩
  have hfirst : ((load [code read, part] factory).run.run {}).1 = .ok 0 := by decide +kernel
  have houtcome : outcome.map (0 + ·) = .ok 0 := by
    rw [← hfirst]
    exact (congrArg Prod.fst (hall {}).1).symm
  have hsecond := congrArg Prod.fst (hall history).2
  refine ⟨⟨hsame, halike, creators_eq⟩, hfirst, hsecond.trans ?_, by decide +kernel⟩
  cases outcome with
  | error failure => cases houtcome
  | ok id =>
      obtain rfl : id = 0 := (Nat.zero_add id).symm.trans (Except.ok.inj houtcome)
      rfl

/-- Literals that are the same may stand for different values: the one that was added first is
read.  And of a text without a datatype and one with an empty datatype, the one that was added first
is read first. -/
theorem order_decides_values :
    [code read, code made].Perm [code made, code read] ∧
    (Graph.ofList [code read, code made]).SameStatements (.ofList [code made, code read]) ∧
    ((load [code read, code made] factory).run.run {}).2.store.content? 0 "code" =
      some (.single (.native (.value (.text "1")))) ∧
    ((load [code made, code read] factory).run.run {}).2.store.content? 0 "code" =
      some (.single (.native (.value (.integer 1)))) ∧
    (Graph.ofList [name plain, name typed]).SameStatements (.ofList [name typed, name plain]) ∧
    names [name plain, name typed] = .ok [.value (.text "a"), .unread typed] ∧
    names [name typed, name plain] = .ok [.unread typed, .value (.text "a")] :=
  ⟨.swap _ _ _, Graph.sameStatements_ofList (.swap _ _ _), by decide +kernel, by decide +kernel,
    Graph.sameStatements_ofList (.swap _ _ _), names_eq _ _ (.inl ⟨rfl, rfl⟩),
    names_eq _ _ (.inr ⟨rfl, rfl⟩)⟩

end Things

end OntoCode
