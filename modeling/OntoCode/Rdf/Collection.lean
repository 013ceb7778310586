/-
Lists in a graph: nodes with a first member and a rest.

The walk along the nodes ends at the empty list or at a node without a rest.  Where
the rests lead back to a node the walk has passed, the list never ends and has no
members to speak of.
-/
import OntoCode.Rdf.Graph
import OntoCode.Rdf.Vocabulary

namespace OntoCode.Rdf

namespace Graph

/-- The next node of a list, if there is one that is not the empty list. -/
def next? (g : Graph) (node : Term) : Option Term :=
  (g.objects node rdfRest).head?.bind fun rest => if rest = .iri rdfNil then none else some rest

/-- The nodes that rests can lead to. -/
def restTargets (g : Graph) : List Term :=
  (g.triples.filter (·.predicate = rdfRest)).map (·.object)

theorem next?_mem {g : Graph} {node next : Term} (h : g.next? node = some next) :
    next ∈ g.restTargets := by
  unfold next? at h
  obtain ⟨rest, hrest, hnext⟩ := Option.bind_eq_some_iff.1 h
  have hmem : rest ∈ g.objects node rdfRest := List.mem_of_head? hrest
  have heq : rest = next := by
    split at hnext
    · simp at hnext
    · simpa using hnext
  subst heq
  obtain ⟨t, ht, rfl⟩ := List.mem_map.1 hmem
  exact List.mem_map.2 ⟨t, by simp_all [List.mem_filter], rfl⟩

/-- The nodes from the given one on, unless they run in a circle.  `left` holds the nodes that
rests may still lead to. -/
def nodesFrom? (g : Graph) (left : List Term) (node : Term) : Option (List Term) :=
  match g.next? node with
  | none => some [node]
  | some next =>
    if next ∈ left then (g.nodesFrom? (left.erase next) next).map (node :: ·) else none
termination_by left.length
decreasing_by
  have := List.length_erase_of_mem ‹next ∈ left›
  have := List.length_pos_of_mem ‹next ∈ left›
  omega

/-- The nodes of the list that starts at a node, unless it never ends. -/
def listNodes? (g : Graph) (head : Term) : Option (List Term) :=
  if head = .iri rdfNil then some [] else g.nodesFrom? (g.restTargets.eraseDups.erase head) head

/-- The members of the list that starts at a node, unless it never ends. -/
def listMembers? (g : Graph) (head : Term) : Option (List Term) :=
  (g.listNodes? head).map fun nodes =>
    nodes.filterMap fun node => (g.objects node rdfFirst).head?

end Graph

end OntoCode.Rdf
