/-
The superclasses of described classes.

Classes that a generator describes have different names, and as they are named after
their IRIs they have different IRIs as well.  A superclass link is by IRI, so it leads
to one of them at most.

Where nothing is reported about their order, the links run in no circle, and what a
link leads to stands before the class it starts from.
-/
import OntoCode.Proofs.FileNames
import OntoCode.Proofs.InsertionOrder

namespace OntoCode

open OntoCode.Naming OntoCode.Ontology OntoCode.Rdf OntoCode.Text

namespace Hierarchy

variable {classes : List ClassDescription}

/-- If nothing is reported, the order is one with superclasses first. -/
theorem order_quiet (h : (order classes).2 = []) :
    topological? classes = some (order classes).1 := by
  unfold order at h ⊢
  cases hfound : topological? classes with
  | some ordered => rfl
  | none =>
      rw [hfound] at h
      cases h

/-- Sorted classes that are taken as they stand are in order. -/
theorem order_of_taken (hsorted : byName classes = classes)
    (htaken : take? (links classes) classes.length (ranked classes) = some classes) :
    order classes = (classes, []) := by
  unfold order topological?
  rw [hsorted]
  dsimp only
  rw [htaken]

end Hierarchy

namespace Generator

variable {g : Generator} {classes : List ClassDescription} {c d : ClassDescription}

/-! ### Different classes -/

theorem Describes.iris_nodup (h : g.Describes classes) : (classes.map (·.iri)).Nodup := by
  have hnames : (classes.map (·.iri)).map className = classes.map (·.name) := by
    rw [List.map_map]
    exact List.map_congr_left fun c hc => (h.named c hc).symm
  exact List.Nodup.of_map className (hnames ▸ h.distinct)

theorem Describes.eq_of_name (h : g.Describes classes) (hc : c ∈ classes) (hd : d ∈ classes)
    (heq : c.name = d.name) : c = d :=
  List.inj_on_of_nodup_map h.distinct hc hd heq

/-- A class that the superclass link leads to has the name of the superclass. -/
theorem Describes.superclassName_of_below (h : g.Describes classes)
    (hbelow : Hierarchy.Below classes c d) : c.superclassName? = some d.name := by
  rw [ClassDescription.superclassName?, hbelow.2.2, Option.map_some, ← h.named d hbelow.2.1]

/-! ### Classes in order -/

/-- What is reported about the order of the classes to generate. -/
def orderNotices (g : Generator) : Except Failure (List Notice) := do
  return (Hierarchy.order (← g.classesToGenerate.mapM (describe g.target g.ontology))).2

/-- The classes are described in an order that nothing is reported about. -/
structure Ordered (g : Generator) (classes : List ClassDescription) : Prop where
  described : g.described = .ok classes
  quiet : g.orderNotices = .ok []

/-- Classes that are found in order, with different names, are described in it. -/
theorem ordered_of_found
    (hfound : g.classesToGenerate.mapM (describe g.target g.ontology) = .ok classes)
    (hnames : checkClassNames [] classes = .ok ())
    (horder : Hierarchy.order classes = (classes, [])) : g.Ordered classes := by
  refine ⟨bind_eq_ok.mpr ⟨classes, hfound, bind_eq_ok.mpr ⟨(), hnames, ?_⟩⟩,
    bind_eq_ok.mpr ⟨classes, hfound, ?_⟩⟩
  · rw [horder]
    rfl
  · rw [horder]
    rfl

namespace Ordered

theorem describes (h : g.Ordered classes) : g.Describes classes := described_spec h.described

/-- The classes are found in some order, and there is one with superclasses first. -/
theorem topological (h : g.Ordered classes) :
    ∃ found : List ClassDescription, classes.Perm found ∧
      Hierarchy.topological? found = some classes := by
  obtain ⟨found, hfound, hchecked⟩ := bind_eq_ok.mp h.described
  obtain ⟨⟨⟩, -, hclasses⟩ := bind_eq_ok.mp hchecked
  have hquiet := h.quiet
  rw [orderNotices, hfound] at hquiet
  cases hclasses
  exact ⟨found, Hierarchy.order_perm found, Hierarchy.order_quiet (Except.ok.inj hquiet)⟩

theorem distinct_found (h : g.Ordered classes) {found : List ClassDescription}
    (hperm : classes.Perm found) : (found.map (·.iri)).Nodup :=
  (hperm.map _).nodup_iff.mp h.describes.iris_nodup

/-- The superclass links run in no circle. -/
theorem not_cyclic (h : g.Ordered classes) : ¬ Hierarchy.Cyclic classes := by
  obtain ⟨found, hperm, htopological⟩ := h.topological
  rw [Hierarchy.Cyclic, Hierarchy.below_perm hperm]
  exact (Hierarchy.topological?_isSome_iff (h.distinct_found hperm)).mp ⟨classes, htopological⟩

/-- A superclass stands before the classes below it. -/
theorem standsBefore (h : g.Ordered classes) (hbelow : Hierarchy.Below classes c d) :
    Hierarchy.StandsBefore classes d c := by
  obtain ⟨found, hperm, htopological⟩ := h.topological
  refine Hierarchy.standsBefore_of_idxOf_lt hbelow.1 (Hierarchy.idxOf_lt_of_ancestor hperm
    (Hierarchy.topological?_ordered (h.distinct_found hperm) htopological) (.single ?_))
  rwa [← Hierarchy.below_perm hperm]

/-- No class is its own superclass. -/
theorem ne_of_below (h : g.Ordered classes) (hbelow : Hierarchy.Below classes c d) : c ≠ d := by
  rintro rfl
  exact h.not_cyclic ⟨c, .single hbelow⟩

end Ordered

end Generator

/-! ### Students and persons

A small ontology for the theorems that rest on what is proved here: a class below one of another
namespace, which has the same name and is not generated, and a class below that class.
-/

namespace People

/-- Persons, and students below them. -/
def statements : List Triple :=
  [⟨.iri ⟨"http://ex.org/a#Person"⟩, rdfType, .iri (owl "Class")⟩,
   ⟨.iri ⟨"http://ex.org/a#Person"⟩, rdfs "subClassOf", .iri ⟨"http://xmlns.com/foaf/0.1/Person"⟩⟩,
   ⟨.iri ⟨"http://ex.org/a#Student"⟩, rdfType, .iri (owl "Class")⟩,
   ⟨.iri ⟨"http://ex.org/a#Student"⟩, rdfs "subClassOf", .iri ⟨"http://ex.org/a#Person"⟩⟩]

/-- A generator of code for persons. -/
def generator (target : Target) : Generator :=
  .make target { plainSettings with vocabularyName := some "People" } (ontologyOf statements)

/-- The class of persons. -/
def person : ClassDescription :=
  { iri := ⟨"http://ex.org/a#Person"⟩, superclass := some ⟨"http://xmlns.com/foaf/0.1/Person"⟩ }

/-- The class of students. -/
def student : ClassDescription :=
  { iri := ⟨"http://ex.org/a#Student"⟩, superclass := some ⟨"http://ex.org/a#Person"⟩ }

/-- The classes in the order they are generated in. -/
def classes : List ClassDescription := [person, student]

theorem classesToGenerate_eq (target : Target) :
    (generator target).classesToGenerate = [person.iri, student.iri] := by
  have hclasses : Ontology.classes (generator target).ontology.graph =
      [.iri person.iri, .iri student.iri] := by
    show Ontology.classes (ontologyOf statements).graph = _
    unfold Ontology.classes
    rw [sortByTexts_of_sorted (by decide)]
    decide
  unfold Generator.classesToGenerate
  rw [hclasses]
  rfl

/-- The classes are described in order. -/
theorem ordered (target : Target) : (generator target).Ordered classes := by
  have hfound : (generator target).classesToGenerate.mapM
      (describe (generator target).target (generator target).ontology) = .ok classes := by
    rw [classesToGenerate_eq]
    cases target <;> decide +kernel
  exact Generator.ordered_of_found hfound (by decide)
    (Hierarchy.order_of_taken (sortByTexts_of_sorted (by decide)) (by decide))

theorem student_below_person : Hierarchy.Below classes student person :=
  ⟨by simp [classes], by simp [classes], rfl⟩

/-- The superclass of persons is not generated. -/
theorem person_not_below : ∀ b ∈ classes, person.superclass ≠ some b.iri := by decide

end People

end OntoCode
