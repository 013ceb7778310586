/-
Which queries of an ontology end.

All that a query does is done once for each statement or resource of a graph, except
for one thing: it walks along the list of each union that it comes by.  A list whose
rests lead into a circle has no last node, and nothing in the walk notices.  So a
query ends exactly if none of the lists it walks along is of that kind.  It does not
take a whole circle of lists: one node that is its own rest is enough.
-/
import OntoCode.Ontology.ReferencedTypes
import OntoCode.Proofs.Steps
import OntoCode.Proofs.Walks

namespace OntoCode.Ontology

open OntoCode.Rdf OntoCode.Rdf.Graph

/-- No list of a union that a node describes leads into a circle. -/
def UnionsEnd (g : Graph) (node : Term) : Prop :=
  ∀ head ∈ g.objects node (owl "unionOf"), ¬ g.LeadsIntoCircle head

/-- No list of a union that a domain or range describes leads into a circle. -/
def TypesEnd (g : Graph) (subject : Term) (predicate : Iri) : Prop :=
  ∀ node, .blank node ∈ g.objects subject predicate → UnionsEnd g (.blank node)

variable {g : Graph}

theorem exists_unionTypes_iff {node : Term} :
    (∃ types, unionTypes g node = .ok types) ↔ UnionsEnd g node := by
  unfold unionTypes UnionsEnd
  rw [exists_bind_pure_iff, exists_mapM_ok_iff]
  refine forall₂_congr fun head _ => ?_
  rw [← exists_listMembers?_iff]
  cases g.listMembers? head <;> simp

theorem exists_referencedTypes_iff {subject : Term} {predicate : Iri} :
    (∃ types, referencedTypes g subject predicate = .ok types) ↔ TypesEnd g subject predicate := by
  unfold referencedTypes
  rw [exists_bind_pure_iff, exists_mapM_ok_iff]
  constructor
  · exact fun h node hnode => exists_unionTypes_iff.mp (h _ hnode)
  · intro h o ho
    cases o with
    | iri i => exact ⟨[i], rfl⟩
    | blank node => exact exists_unionTypes_iff.mpr (h node ho)
    | literal l => exact ⟨[], rfl⟩

theorem exists_propertiesOf_iff {class_ : Iri} {side : PropertyEnd} :
    (∃ found, propertiesOf g class_ side = .ok found) ↔
      ∀ property ∈ properties g, TypesEnd g (.iri property) side.predicate := by
  unfold propertiesOf
  rw [exists_filterM_ok_iff]
  refine forall₂_congr fun property _ => ?_
  rw [← exists_referencedTypes_iff, exists_bind_pure_iff]

/--
**A query ends unless it walks along a list that leads into a circle.**

The walk along such a list never comes to an end, and along any other one it does: its
nodes are then those of the list, and what it collects are their first members.  The
classes of a union, those of a domain or range, and the properties of a class are found
exactly if every list on the way ends.
-/
theorem queries_end_unless_circle (g : Graph) :
    (∀ head, (g.LeadsIntoCircle head ∧ g.listMembers? head = none ∧
        ∀ steps, (g.nodeAfter? head steps).isSome) ∨
      ∃ nodes : List Term, (∀ steps, nodes[steps]? = g.nodeAfter? head steps) ∧
        ¬ g.LeadsIntoCircle head ∧
        g.listMembers? head = some (nodes.filterMap fun node => (g.objects node rdfFirst).head?)) ∧
    (∀ node, (∃ types, unionTypes g node = .ok types) ↔
      ∀ head ∈ g.objects node (owl "unionOf"), ¬ g.LeadsIntoCircle head) ∧
    (∀ subject predicate, (∃ types, referencedTypes g subject predicate = .ok types) ↔
      ∀ node, .blank node ∈ g.objects subject predicate → UnionsEnd g (.blank node)) ∧
    ∀ class_ side, (∃ found, propertiesOf g class_ side = .ok found) ↔
      ∀ property ∈ properties g, TypesEnd g (.iri property) side.predicate := by
  refine ⟨fun head => ?_, fun node => exists_unionTypes_iff,
    fun subject predicate => exists_referencedTypes_iff,
    fun class_ side => exists_propertiesOf_iff⟩
  cases hnodes : g.listNodes? head with
  | none =>
      have hcircle := listNodes?_eq_none_iff.mp hnodes
      exact .inl ⟨hcircle, by rw [listMembers?, hnodes]; rfl, leadsIntoCircle_iff.mp hcircle⟩
  | some nodes =>
      refine .inr ⟨nodes, listNodes?_eq_some_iff.mp hnodes, ?_, by rw [listMembers?, hnodes]; rfl⟩
      rw [← listNodes?_eq_none_iff, hnodes]
      simp

/-! ### A list that is its own rest -/

/-- A node with one member that is its own rest. -/
def ownRest : Term := .blank ⟨"l", false⟩

/-- A union of the classes in the list that starts at that node. -/
def endlessUnion : Term := .blank ⟨"u", false⟩

/-- A property that has the union as its range. -/
def endlessRange : Graph :=
  .ofList [⟨.iri ⟨"http://ex.org/a#p"⟩, rdfType, .iri (owl "ObjectProperty")⟩,
    ⟨.iri ⟨"http://ex.org/a#p"⟩, rdfs "range", endlessUnion⟩,
    ⟨endlessUnion, owl "unionOf", ownRest⟩,
    ⟨ownRest, rdfFirst, .iri ⟨"http://ex.org/a#A"⟩⟩,
    ⟨ownRest, rdfRest, ownRest⟩]

/-- None of the queries that come by the node that is its own rest ends. -/
theorem ownRest_never_ends :
    (∀ steps, (endlessRange.nodeAfter? ownRest steps).isSome) ∧
    endlessRange.listMembers? ownRest = none ∧
    (∀ types, unionTypes endlessRange endlessUnion ≠ .ok types) ∧
    (∀ types, referencedTypes endlessRange (.iri ⟨"http://ex.org/a#p"⟩) (rdfs "range") ≠
      .ok types) ∧
    ∀ found, propertiesOf endlessRange ⟨"http://ex.org/a#A"⟩ .range ≠ .ok found := by
  have hcircle : endlessRange.LeadsIntoCircle ownRest :=
    ⟨by decide, ownRest, .refl, .single (show endlessRange.next? ownRest = some ownRest by decide)⟩
  have hunion : ¬ UnionsEnd endlessRange endlessUnion := fun h => h ownRest (by decide) hcircle
  have htypes : ¬ TypesEnd endlessRange (.iri ⟨"http://ex.org/a#p"⟩) (rdfs "range") :=
    fun h => hunion (h ⟨"u", false⟩ (by decide))
  refine ⟨leadsIntoCircle_iff.mp hcircle, ?_, fun types h => ?_, fun types h => ?_,
    fun found h => ?_⟩
  · rw [listMembers?, listNodes?_eq_none_iff.mpr hcircle]
    rfl
  · exact hunion (exists_unionTypes_iff.mp ⟨types, h⟩)
  · exact htypes (exists_referencedTypes_iff.mp ⟨types, h⟩)
  · exact htypes (exists_propertiesOf_iff.mp ⟨found, h⟩ ⟨"http://ex.org/a#p"⟩
      (by decide +kernel))

end OntoCode.Ontology
