/-
Meeting entities.

An IRI that is met for the first time gets a new entity, which is remembered for it.
From then on the IRI leads to that entity, and there is one less to be met: this is
what loading a graph comes to an end by, wherever its references lead.
-/
import OntoCode.Proofs.Linking

namespace OntoCode.Loaded

open OntoCode.Rdf

variable {classes : EntityClasses} {className : String} {iri asked : Iri} {targets : List Iri}
  {l m : Loaded}

/-! ### New entities -/

/-- A new entity, remembered for its IRI. -/
def meet (classes : EntityClasses) (className : String) (iri : Iri) (l : Loaded) : Loaded :=
  (l.create classes className iri).remember iri l.store.next

theorem key?_meet_self (classes : EntityClasses) (className : String) (iri : Iri) (l : Loaded) :
    (l.meet classes className iri).store.key? l.store.next = some (className, iri) := by
  show (l.store.add (.ofClass classes className iri)).key? l.store.next = _
  rw [Store.key?_add_self, Entity.key_ofClass]

theorem key?_meet {x : EntityId} {key : String × Iri} (h : l.store.key? x = some key) :
    (l.meet classes className iri).store.key? x = some key := by
  have hlt : x < l.store.next := by
    obtain ⟨e, he, -⟩ := Option.map_eq_some_iff.mp h
    exact Store.entity?_isSome_iff.mp ⟨e, he⟩
  show (l.store.add (.ofClass classes className iri)).key? x = _
  rw [Store.key?_add_of_lt hlt, h]

theorem next_le_meet (classes : EntityClasses) (className : String) (iri : Iri) (l : Loaded) :
    l.store.next ≤ (l.meet classes className iri).store.next := by
  show l.store.next ≤ (l.store.add _).next
  rw [Store.next_add]
  exact Nat.le_succ _

theorem lookup_meet (hnew : l.resolved.lookup iri = none) :
    (l.meet classes className iri).resolved.lookup asked =
      if asked = iri then some l.store.next else l.resolved.lookup asked := by
  show (l.resolved ++ [(iri, l.store.next)]).lookup asked = _
  rw [List.lookup_append, List.lookup_cons, List.lookup_nil]
  by_cases h : asked = iri
  · rw [if_pos h, h, hnew]
    simp
  · rw [if_neg h, beq_false_of_ne h]
    simp

theorem lookup_meet_self (hnew : l.resolved.lookup iri = none) :
    (l.meet classes className iri).resolved.lookup iri = some l.store.next := by
  rw [lookup_meet hnew, if_pos rfl]

/-- An IRI that was met keeps its entity when another one is met. -/
theorem lookup_meet_of_some {id : EntityId} (hnew : l.resolved.lookup iri = none)
    (h : l.resolved.lookup asked = some id) :
    (l.meet classes className iri).resolved.lookup asked = some id := by
  rw [lookup_meet hnew, if_neg, h]
  rintro rfl
  simp [hnew] at h

/-! ### What is still to be met -/

/-- How many of some IRIs have not been met. -/
def unmet (targets : List Iri) (l : Loaded) : Nat :=
  (targets.filter fun iri => (l.resolved.lookup iri).isNone).length

theorem unmet_le_length (targets : List Iri) (l : Loaded) : l.unmet targets ≤ targets.length :=
  List.length_filter_le ..

theorem unmet_le (h : ∀ i x, l.resolved.lookup i = some x → m.resolved.lookup i = some x) :
    m.unmet targets ≤ l.unmet targets := by
  unfold unmet
  rw [← List.countP_eq_length_filter, ← List.countP_eq_length_filter]
  refine List.countP_mono_left ?_
  intro i _ hi
  cases hl : l.resolved.lookup i with
  | none => rfl
  | some x => simp [h i x hl] at hi

/-- Meeting one of the IRIs leaves fewer of them. -/
theorem unmet_meet_lt (hnew : l.resolved.lookup iri = none) (hiri : iri ∈ targets) :
    (l.meet classes className iri).unmet targets < l.unmet targets := by
  have hsplit : (targets.filter fun i => ((l.meet classes className iri).resolved.lookup i).isNone) =
      (targets.filter fun i => (l.resolved.lookup i).isNone).filter (· ≠ iri) := by
    rw [List.filter_filter]
    refine List.filter_congr fun i _ => ?_
    rw [lookup_meet hnew]
    by_cases hi : i = iri <;> simp [hi]
  unfold unmet
  rw [hsplit]
  refine Nat.lt_of_le_of_ne (List.length_filter_le ..) fun heq => ?_
  have hall := List.length_filter_eq_length_iff.mp heq iri
    (List.mem_filter.mpr ⟨hiri, by simp [hnew]⟩)
  simp at hall

end OntoCode.Loaded
