/-
Walks along lists.

A list is followed from its first node, each node's first rest leading to the next
one, until there is no rest or the rest is the empty list.  `nodeAfter?` says where
the walk stands after so many steps.  It is the walk itself: nothing in it looks out
for nodes that were met before, so it goes on for ever where rests lead into a circle.

`listNodes?` counts the nodes that rests may still lead to, and answers in any case.
It gives the nodes that the walk comes by if the walk ends, and nothing if it does
not.  There is no third case, for a node that is met a second time lies on a circle.
-/
import Mathlib.Logic.Relation
import OntoCode.Rdf.Collection

namespace OntoCode.Rdf.Graph

/-- Where the walk from a node stands after a number of steps, unless it has ended. -/
def nodeFrom? (g : Graph) (node : Term) : Nat → Option Term
  | 0 => some node
  | steps + 1 => (g.next? node).bind fun next => g.nodeFrom? next steps

/-- Where the walk along the list that starts at a node stands after a number of steps, unless it
has ended.  The empty list has no node. -/
def nodeAfter? (g : Graph) (head : Term) (steps : Nat) : Option Term :=
  if head = .iri rdfNil then none else g.nodeFrom? head steps

/-- The walk leads from a node to the next one. -/
def Follows (g : Graph) (node next : Term) : Prop := g.next? node = some next

/-- The walk from a node comes to one that it comes back to. -/
def Circles (g : Graph) (node : Term) : Prop :=
  ∃ again, Relation.ReflTransGen g.Follows node again ∧ Relation.TransGen g.Follows again again

/-- The rests of the list that starts at a node lead into a circle. -/
def LeadsIntoCircle (g : Graph) (head : Term) : Prop := head ≠ .iri rdfNil ∧ g.Circles head

variable {g : Graph}

/-! ### Walks that never end -/

/-- A walk into a circle goes on, and stays one into a circle. -/
theorem Circles.next {node : Term} (h : g.Circles node) :
    ∃ next, g.next? node = some next ∧ g.Circles next := by
  obtain ⟨again, hpath, hcircle⟩ := h
  rcases Relation.ReflTransGen.cases_head hpath with rfl | ⟨next, hnext, hrest⟩
  · obtain ⟨next, hnext, hback⟩ := Relation.TransGen.head'_iff.mp hcircle
    exact ⟨next, hnext, node, hback, hcircle⟩
  · exact ⟨next, hnext, again, hrest, hcircle⟩

/-- **A walk into a circle never ends.** -/
theorem Circles.nodeFrom?_isSome : ∀ (steps : Nat) {node : Term}, g.Circles node →
    (g.nodeFrom? node steps).isSome := by
  intro steps
  induction steps with
  | zero => intro node _; rfl
  | succ steps ih =>
      intro node h
      obtain ⟨next, hnext, hcircles⟩ := h.next
      rw [nodeFrom?, hnext]
      exact ih hcircles

/-! ### The nodes of a list -/

/-- The nodes that are found are those that the walk comes by. -/
theorem getElem?_nodesFrom? {left : List Term} {node : Term} {nodes : List Term}
    (h : g.nodesFrom? left node = some nodes) (steps : Nat) :
    nodes[steps]? = g.nodeFrom? node steps := by
  fun_induction nodesFrom? g left node generalizing nodes steps with
  | case1 left node hend =>
      cases h
      cases steps with
      | zero => rfl
      | succ steps => simp [nodeFrom?, hend]
  | case2 left node next hnext hin ih =>
      obtain ⟨rest, hrest, rfl⟩ := Option.map_eq_some_iff.mp h
      cases steps with
      | zero => rfl
      | succ steps => simpa [nodeFrom?, hnext] using ih hrest steps
  | case3 left node next hnext hout => cases h

/-- Where no nodes are found, the walk runs in a circle.  What `left` has lost are nodes that lead
to the one the walk is at. -/
theorem circles_of_nodesFrom? {left : List Term} {node : Term}
    (hleft : ∀ m ∈ g.restTargets, m ∈ left ∨ Relation.ReflTransGen g.Follows m node)
    (h : g.nodesFrom? left node = none) : g.Circles node := by
  fun_induction nodesFrom? g left node with
  | case1 left node hend => cases h
  | case2 left node next hnext hin ih =>
      have hstep : g.Follows node next := hnext
      obtain ⟨again, hpath, hcircle⟩ := ih (by
        intro m hm
        rcases hleft m hm with hm | hm
        · by_cases heq : m = next
          · exact .inr (heq ▸ .refl)
          · exact .inl ((List.mem_erase_of_ne heq).mpr hm)
        · exact .inr (hm.tail hstep)) (Option.map_eq_none_iff.mp h)
      exact ⟨again, .head hstep hpath, hcircle⟩
  | case3 left node next hnext hout =>
      have hback := (hleft next (next?_mem hnext)).resolve_left hout
      exact ⟨node, .refl, .head' hnext hback⟩

theorem getElem?_listNodes? {head : Term} {nodes : List Term}
    (h : g.listNodes? head = some nodes) (steps : Nat) :
    nodes[steps]? = g.nodeAfter? head steps := by
  unfold listNodes? at h
  unfold nodeAfter?
  split at h
  · rename_i hnil
    cases h
    rw [if_pos hnil]
    rfl
  · rename_i hnil
    rw [if_neg hnil]
    exact getElem?_nodesFrom? h steps

theorem leadsIntoCircle_of_listNodes? {head : Term} (h : g.listNodes? head = none) :
    g.LeadsIntoCircle head := by
  unfold listNodes? at h
  split at h
  · cases h
  · rename_i hnil
    refine ⟨hnil, circles_of_nodesFrom? (fun m hm => ?_) h⟩
    by_cases heq : m = head
    · exact .inr (heq ▸ .refl)
    · exact .inl ((List.mem_erase_of_ne heq).mpr (List.mem_eraseDups.mpr hm))

/-- The walk along a list never ends if its rests lead into a circle. -/
theorem LeadsIntoCircle.nodeAfter?_isSome {head : Term} (h : g.LeadsIntoCircle head)
    (steps : Nat) : (g.nodeAfter? head steps).isSome := by
  unfold nodeAfter?
  rw [if_neg h.1]
  exact h.2.nodeFrom?_isSome steps

/-- The walk along a list ends behind its last node. -/
theorem nodeAfter?_length {head : Term} {nodes : List Term} (h : g.listNodes? head = some nodes) :
    g.nodeAfter? head nodes.length = none := by
  rw [← getElem?_listNodes? h, List.getElem?_eq_none (Nat.le_refl _)]

/-- **The walk along a list goes on for ever exactly if its rests lead into a circle.** -/
theorem leadsIntoCircle_iff {head : Term} :
    g.LeadsIntoCircle head ↔ ∀ steps, (g.nodeAfter? head steps).isSome := by
  refine ⟨fun h => h.nodeAfter?_isSome, fun hgoes => ?_⟩
  cases hnodes : g.listNodes? head with
  | none => exact leadsIntoCircle_of_listNodes? hnodes
  | some nodes =>
      have hend := hgoes nodes.length
      rw [nodeAfter?_length hnodes] at hend
      cases hend

/-- **The nodes of a list are those that the walk comes by,** one after the other, and no more. -/
theorem listNodes?_eq_some_iff {head : Term} {nodes : List Term} :
    g.listNodes? head = some nodes ↔ ∀ steps, nodes[steps]? = g.nodeAfter? head steps := by
  refine ⟨getElem?_listNodes?, fun h => ?_⟩
  cases hfound : g.listNodes? head with
  | none =>
      have hgoes := (leadsIntoCircle_of_listNodes? hfound).nodeAfter?_isSome nodes.length
      rw [← h, List.getElem?_eq_none (Nat.le_refl _)] at hgoes
      cases hgoes
  | some found =>
      rw [Option.some.injEq]
      exact List.ext_getElem? fun steps => by rw [h, getElem?_listNodes? hfound]

/-- **A list has no nodes to give exactly if its rests lead into a circle.** -/
theorem listNodes?_eq_none_iff {head : Term} :
    g.listNodes? head = none ↔ g.LeadsIntoCircle head := by
  refine ⟨leadsIntoCircle_of_listNodes?, fun h => ?_⟩
  cases hnodes : g.listNodes? head with
  | none => rfl
  | some nodes =>
      have hgoes := h.nodeAfter?_isSome nodes.length
      rw [nodeAfter?_length hnodes] at hgoes
      cases hgoes

theorem exists_listMembers?_iff {head : Term} :
    (∃ members, g.listMembers? head = some members) ↔ ¬ g.LeadsIntoCircle head := by
  rw [← listNodes?_eq_none_iff, ← ne_eq, Option.ne_none_iff_exists']
  unfold listMembers?
  constructor
  · rintro ⟨members, h⟩
    obtain ⟨nodes, hnodes, -⟩ := Option.map_eq_some_iff.mp h
    exact ⟨nodes, hnodes⟩
  · rintro ⟨nodes, hnodes⟩
    rw [hnodes]
    exact ⟨_, rfl⟩

end OntoCode.Rdf.Graph
