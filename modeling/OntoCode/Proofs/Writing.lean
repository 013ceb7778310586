/-
Writing entities writes all that can be reached, and every entity once.

`run` keeps the steps that are left on one list.  `Runs` says the same the way it is
meant: an entity that is met first is noted, its own steps are run to their end, and
only then those behind it.  It also lists the entities whose steps are run.  All that
is said about writing is proved by induction on it.

That the entities reached are written needs no argument about the order of the visits.
Whatever is on the list when writing ends has had all its references visited, so what
is written is closed under references, and the roots are in it.
-/
import Mathlib.Logic.Relation
import Mathlib.Tactic.IntervalCases
import OntoCode.Entities.Writing
import OntoCode.Proofs.Statements

namespace OntoCode

open OntoCode.Rdf OntoCode.Rdf.Graph

/-- No two entities are equal. -/
def Store.Distinct (s : Store) : Prop :=
  ∀ a < s.next, ∀ b < s.next, s.same a b = true → a = b

/-- Steps that only state and visit, and visit entities of the store. -/
structure Store.Writable (s : Store) (steps : List WritingStep) : Prop where
  visits : ∀ id, .visit id ∈ steps → id < s.next
  accepts : .refuse ∉ steps

theorem Store.Writable.tail {s : Store} {step : WritingStep} {rest : List WritingStep}
    (h : s.Writable (step :: rest)) : s.Writable rest :=
  ⟨fun id hid => h.visits id (List.mem_cons_of_mem _ hid),
    fun hrefuse => h.accepts (List.mem_cons_of_mem _ hrefuse)⟩

/-- Steps visit the same entities and make the same statements in whatever order they are. -/
theorem Store.Writable.perm {s : Store} {steps other : List WritingStep} (h : s.Writable steps)
    (hperm : other.Perm steps) : s.Writable other :=
  ⟨fun id hid => h.visits id (hperm.mem_iff.mp hid),
    fun hrefuse => h.accepts (hperm.mem_iff.mp hrefuse)⟩

/-- Some step makes a statement. -/
def States (steps : List WritingStep) (triple : Triple) : Prop :=
  ∃ own, .state own ∈ steps ∧ triple.same own = true

/-- Writing the first entity visits the second one. -/
def References (script : EntityId → List WritingStep) (a b : EntityId) : Prop := .visit b ∈ script a

/-- References lead to an entity from one that the steps visit. -/
def ReachedFrom (script : EntityId → List WritingStep) (steps : List WritingStep) (id : EntityId) :
    Prop :=
  ∃ root, .visit root ∈ steps ∧ Relation.ReflTransGen (References script) root id

namespace EntityTarget

variable {s : Store} {script : EntityId → List WritingStep}

theorem contains_of_mem {t : EntityTarget} {id : EntityId} (h : id ∈ t.written) :
    t.contains s id = true :=
  List.any_eq_true.mpr ⟨id, h, Store.same_self s id⟩

/-- Where no two entities are equal, those that are found are the ones written. -/
theorem contains_iff_mem (hdistinct : s.Distinct) {t : EntityTarget}
    (hwritten : ∀ id ∈ t.written, id < s.next) {id : EntityId} (hid : id < s.next) :
    t.contains s id = true ↔ id ∈ t.written := by
  refine ⟨fun h => ?_, contains_of_mem⟩
  obtain ⟨other, hother, hsame⟩ := List.any_eq_true.mp h
  rw [hdistinct id hid other (hwritten other hother) hsame]
  exact hother

/-! ### Runs -/

/-- **Steps run from a target to another one**, and run the steps of the listed entities on the
way. -/
inductive Runs (s : Store) (script : EntityId → List WritingStep) :
    List WritingStep → EntityTarget → List EntityId → EntityTarget → Prop
  /-- Nothing is left to do. -/
  | done (t : EntityTarget) : Runs s script [] t [] t
  /-- A statement is added. -/
  | state {triple : Triple} {rest : List WritingStep} {t t' : EntityTarget} {trace : List EntityId}
      (hrest : Runs s script rest (t.insert triple) trace t') :
      Runs s script (.state triple :: rest) t trace t'
  /-- An entity that is written is left alone. -/
  | old {id : EntityId} {rest : List WritingStep} {t t' : EntityTarget} {trace : List EntityId}
      (hseen : t.contains s id = true) (hrest : Runs s script rest t trace t') :
      Runs s script (.visit id :: rest) t trace t'
  /-- An entity that is not written is noted, then its own steps are run. -/
  | new {id : EntityId} {rest : List WritingStep} {t between t' : EntityTarget}
      {inner outer : List EntityId} (hid : id < s.next) (hunseen : t.contains s id = false)
      (hown : Runs s script (script id) (t.note id) inner between)
      (hrest : Runs s script rest between outer t') :
      Runs s script (.visit id :: rest) t (id :: (inner ++ outer)) t'

namespace Runs

variable {steps : List WritingStep} {t t' : EntityTarget} {trace : List EntityId}

/-- What is written is what was, then the entities whose steps were run. -/
theorem written_eq (h : Runs s script steps t trace t') : t'.written = t.written ++ trace := by
  induction h with
  | done => simp
  | state _ ih => exact ih
  | old _ _ ih => exact ih
  | new _ _ _ _ ihown ihrest => simp [ihrest, ihown, note]

theorem contains_mono (h : Runs s script steps t trace t') {id : EntityId}
    (hid : t.contains s id = true) : t'.contains s id = true := by
  unfold EntityTarget.contains at hid ⊢
  rw [h.written_eq, List.any_append, hid, Bool.true_or]

theorem contains_trace (h : Runs s script steps t trace t') {id : EntityId} (hid : id ∈ trace) :
    t'.contains s id = true :=
  contains_of_mem (by rw [h.written_eq]; exact List.mem_append_right _ hid)

theorem unwritten_le (h : Runs s script steps t trace t') : t'.unwritten s ≤ t.unwritten s := by
  unfold unwritten
  rw [← List.countP_eq_length_filter, ← List.countP_eq_length_filter]
  refine List.countP_mono_left ?_
  intro id _ hid
  rw [Bool.not_eq_true'] at hid ⊢
  rw [← Bool.not_eq_true] at hid ⊢
  exact fun hold => hid (h.contains_mono hold)

/-- Only entities that were not written have their steps run. -/
theorem fresh (h : Runs s script steps t trace t') :
    ∀ id ∈ trace, id < s.next ∧ t.contains s id = false := by
  induction h with
  | done => simp
  | state _ ih => exact ih
  | old _ _ ih => exact ih
  | @new id rest t between t' inner outer hid hunseen hown hrest ihown ihrest =>
      intro x hx
      rcases List.mem_cons.mp hx with rfl | hx
      · exact ⟨hid, hunseen⟩
      rcases List.mem_append.mp hx with hx | hx
      · obtain ⟨hlt, hnew⟩ := ihown x hx
        rw [contains_note, Bool.or_eq_false_iff] at hnew
        exact ⟨hlt, hnew.1⟩
      · obtain ⟨hlt, hnew⟩ := ihrest x hx
        refine ⟨hlt, ?_⟩
        rw [← Bool.not_eq_true] at hnew ⊢
        intro hold
        exact hnew (hown.contains_mono (by rw [contains_note, hold, Bool.true_or]))

/-- **No entity has its steps run twice.** -/
theorem nodup (h : Runs s script steps t trace t') : trace.Nodup := by
  induction h with
  | done => exact .nil
  | state _ ih => exact ih
  | old _ _ ih => exact ih
  | @new id rest t between t' inner outer hid hunseen hown hrest ihown ihrest =>
      have hbetween : ∀ x ∈ outer, between.contains s x ≠ true := by
        intro x hx
        rw [(hrest.fresh x hx).2]
        simp
      refine List.nodup_cons.mpr ⟨?_, ?_⟩
      · intro hmem
        rcases List.mem_append.mp hmem with hmem | hmem
        · have := (hown.fresh id hmem).2
          simp at this
        · exact hbetween id hmem (hown.contains_mono (by simp))
      · refine List.nodup_append.mpr ⟨ihown, ihrest, ?_⟩
        intro x hx y hy heq
        exact hbetween y hy (hown.contains_trace (heq ▸ hx))

/-- The steps and those of the entities on the way are what is stated, and nothing else is. -/
theorem contains_graph (h : Runs s script steps t trace t') (triple : Triple) :
    t'.graph.contains triple = true ↔ t.graph.contains triple = true ∨ States steps triple ∨
      ∃ id ∈ trace, States (script id) triple := by
  induction h with
  | done => simp [States]
  | state _ ih =>
      rw [ih]
      simp [EntityTarget.insert, contains_insert_iff, States, or_and_right, exists_or, or_assoc]
  | old _ _ ih =>
      rw [ih]
      simp [States]
  | @new id rest t between t' inner outer hid hunseen hown hrest ihown ihrest =>
      have hrests : States (.visit id :: rest) triple ↔ States rest triple := by simp [States]
      have hnote : (t.note id).graph = t.graph := rfl
      have htrace : (∃ x ∈ id :: (inner ++ outer), States (script x) triple) ↔
          States (script id) triple ∨ (∃ x ∈ inner, States (script x) triple) ∨
            ∃ x ∈ outer, States (script x) triple := by
        simp only [List.mem_cons, List.mem_append, or_and_right, exists_or, exists_eq_left]
      rw [ihrest, ihown, hrests, hnote, htrace]
      simp only [or_assoc, or_left_comm]

/-- Statements get into the graph as they are made. -/
theorem mem_graph (h : Runs s script steps t trace t') : ∀ triple ∈ t'.graph.triples,
    triple ∈ t.graph.triples ∨ .state triple ∈ steps ∨ ∃ id ∈ trace, .state triple ∈ script id := by
  induction h with
  | done => exact fun triple h => Or.inl h
  | state _ ih =>
      intro triple htriple
      rcases ih triple htriple with h | h | h
      · rcases mem_insert h with h | rfl
        · exact Or.inl h
        · exact Or.inr (Or.inl List.mem_cons_self)
      · exact Or.inr (Or.inl (List.mem_cons_of_mem _ h))
      · exact Or.inr (Or.inr h)
  | old _ _ ih =>
      intro triple htriple
      rcases ih triple htriple with h | h | h
      · exact Or.inl h
      · exact Or.inr (Or.inl (List.mem_cons_of_mem _ h))
      · exact Or.inr (Or.inr h)
  | @new id rest t between t' inner outer hid hunseen hown hrest ihown ihrest =>
      intro triple htriple
      rcases ihrest triple htriple with h | h | ⟨x, hx, h⟩
      · rcases ihown triple h with h | h | ⟨x, hx, h⟩
        · exact Or.inl h
        · exact Or.inr (Or.inr ⟨id, List.mem_cons_self, h⟩)
        · exact Or.inr (Or.inr ⟨x, List.mem_cons_of_mem _ (List.mem_append_left _ hx), h⟩)
      · exact Or.inr (Or.inl (List.mem_cons_of_mem _ h))
      · exact Or.inr (Or.inr ⟨x, List.mem_cons_of_mem _ (List.mem_append_right _ hx), h⟩)

/-- No statement gets into the graph twice. -/
theorem distinct_graph (h : Runs s script steps t trace t') (hgraph : t.graph.Distinct) :
    t'.graph.Distinct := by
  induction h with
  | done => exact hgraph
  | state _ ih => exact ih (hgraph.insert _)
  | old _ _ ih => exact ih hgraph
  | new _ _ _ _ ihown ihrest => exact ihrest (ihown hgraph)

/-- Entities whose steps are run are reached from one that is visited. -/
theorem reached (h : Runs s script steps t trace t') :
    ∀ id ∈ trace, ReachedFrom script steps id := by
  induction h with
  | done => simp
  | state _ ih =>
      intro x hx
      obtain ⟨root, hroot, hpath⟩ := ih x hx
      exact ⟨root, List.mem_cons_of_mem _ hroot, hpath⟩
  | old _ _ ih =>
      intro x hx
      obtain ⟨root, hroot, hpath⟩ := ih x hx
      exact ⟨root, List.mem_cons_of_mem _ hroot, hpath⟩
  | @new id rest t between t' inner outer hid hunseen hown hrest ihown ihrest =>
      intro x hx
      rcases List.mem_cons.mp hx with rfl | hx
      · exact ⟨x, List.mem_cons_self, .refl⟩
      rcases List.mem_append.mp hx with hx | hx
      · obtain ⟨next, hnext, hpath⟩ := ihown x hx
        exact ⟨id, List.mem_cons_self, hpath.head hnext⟩
      · obtain ⟨root, hroot, hpath⟩ := ihrest x hx
        exact ⟨root, List.mem_cons_of_mem _ hroot, hpath⟩

/-- What is visited is written in the end, from the steps and from all entities on the way. -/
theorem covers (h : Runs s script steps t trace t') :
    (∀ id, .visit id ∈ steps → t'.contains s id = true) ∧
      ∀ a ∈ trace, ∀ b, References script a b → t'.contains s b = true := by
  induction h with
  | done => simp
  | state _ ih =>
      refine ⟨fun id hid => ih.1 id ?_, ih.2⟩
      simpa using hid
  | old hseen hrest ih =>
      refine ⟨fun id hid => ?_, ih.2⟩
      rcases List.mem_cons.mp hid with heq | hid
      · rw [WritingStep.visit.injEq] at heq
        exact hrest.contains_mono (heq ▸ hseen)
      · exact ih.1 id hid
  | @new id rest t between t' inner outer hid hunseen hown hrest ihown ihrest =>
      refine ⟨fun x hx => ?_, fun a ha b hab => ?_⟩
      · rcases List.mem_cons.mp hx with heq | hx
        · rw [WritingStep.visit.injEq] at heq
          subst heq
          exact hrest.contains_mono (hown.contains_mono (by simp))
        · exact ihrest.1 x hx
      · rcases List.mem_cons.mp ha with rfl | ha
        · exact hrest.contains_mono (ihown.1 b hab)
        rcases List.mem_append.mp ha with ha | ha
        · exact hrest.contains_mono (ihown.2 a ha b hab)
        · exact ihrest.2 a ha b hab

end Runs

/-- **Steps that do not refuse run to their end**, and those behind them go on from there. -/
theorem exists_runs (hscript : ∀ id < s.next, s.Writable (script id)) :
    ∀ (count : Nat) (steps : List WritingStep) (t : EntityTarget), t.unwritten s ≤ count →
      s.Writable steps → ∃ trace t', Runs s script steps t trace t' ∧
        ∀ rest, run s script (steps ++ rest) t = run s script rest t' := by
  intro count
  induction count using Nat.strongRecOn with
  | ind count ihcount =>
      intro steps
      induction steps with
      | nil => exact fun t _ _ => ⟨[], t, .done t, fun rest => rfl⟩
      | cons step later ih =>
          intro t hcount hsteps
          cases step with
          | state triple =>
              obtain ⟨trace, t', hruns, hrun⟩ := ih (t.insert triple) hcount hsteps.tail
              refine ⟨trace, t', .state hruns, fun rest => ?_⟩
              rw [List.cons_append, run, hrun]
          | refuse => exact absurd List.mem_cons_self hsteps.accepts
          | visit id =>
              have hid : id < s.next := hsteps.visits id List.mem_cons_self
              cases hseen : t.contains s id with
              | true =>
                  obtain ⟨trace, t', hruns, hrun⟩ := ih t hcount hsteps.tail
                  refine ⟨trace, t', .old hseen hruns, fun rest => ?_⟩
                  rw [List.cons_append, run, if_neg (by simp [hseen]), hrun]
              | false =>
                  -- One entity fewer is left, so that its own steps end, and then the later ones.
                  have hless := unwritten_note_lt hid hseen
                  obtain ⟨inner, between, hown, hrunown⟩ :=
                    ihcount ((t.note id).unwritten s) (by omega) (script id) (t.note id)
                      (Nat.le_refl _) (hscript id hid)
                  have hleft := hown.unwritten_le
                  obtain ⟨outer, t', hruns, hrun⟩ := ih between (by omega) hsteps.tail
                  refine ⟨id :: (inner ++ outer), t', .new hid hseen hown hruns, fun rest => ?_⟩
                  rw [List.cons_append, run, if_pos ⟨hid, hseen⟩, hrunown, hrun]

/-! ### What is written -/

section Closure

variable (hscript : ∀ id < s.next, s.Writable (script id))

include hscript

variable {t t' : EntityTarget} {steps : List WritingStep} {trace : List EntityId}
  (hdistinct : s.Distinct) (hsteps : s.Writable steps)
  (hold : ∀ id ∈ t.written, id < s.next)
  (hclosed : ∀ a ∈ t.written, ∀ b, References script a b → b ∈ t.written)
  (hruns : Runs s script steps t trace t')

include hdistinct hsteps hold hclosed hruns

/-- **Written is what was, and what is reached.** -/
theorem Runs.mem_written_iff {id : EntityId} :
    id ∈ t'.written ↔ id ∈ t.written ∨ ReachedFrom script steps id := by
  have hwritten : ∀ id ∈ t'.written, id < s.next := by
    intro id hid
    rw [hruns.written_eq, List.mem_append] at hid
    exact hid.elim (hold id) fun h => (hruns.fresh id h).1
  have hin : ∀ {id}, id < s.next → t'.contains s id = true → id ∈ t'.written :=
    fun hlt h => (contains_iff_mem hdistinct hwritten hlt).mp h
  constructor
  · intro h
    rw [hruns.written_eq, List.mem_append] at h
    exact h.imp_right (hruns.reached id)
  · rintro (h | ⟨root, hroot, hpath⟩)
    · rw [hruns.written_eq]
      exact List.mem_append_left _ h
    · induction hpath with
      | refl => exact hin (hsteps.visits root hroot) (hruns.covers.1 root hroot)
      | @tail a b _ hlink ih =>
          have hb := (hscript a (hwritten a ih)).visits b hlink
          have ha := ih
          rw [hruns.written_eq, List.mem_append] at ha
          rcases ha with ha | ha
          · rw [hruns.written_eq]
            exact List.mem_append_left _ (hclosed a ha b hlink)
          · exact hin hb (hruns.covers.2 a ha b hlink)

/-- The entities whose steps are run are those that are reached and were not written. -/
theorem Runs.mem_trace_iff {id : EntityId} :
    id ∈ trace ↔ ReachedFrom script steps id ∧ id ∉ t.written := by
  constructor
  · intro h
    refine ⟨hruns.reached id h, fun hmem => ?_⟩
    have := (hruns.fresh id h).2
    rw [contains_of_mem hmem] at this
    simp at this
  · rintro ⟨hreached, hnew⟩
    have hmem := (hruns.mem_written_iff hscript hdistinct hsteps hold hclosed).mpr (.inr hreached)
    rw [hruns.written_eq, List.mem_append] at hmem
    exact hmem.resolve_left hnew

end Closure

/-- References lead to an entity from one of the roots. -/
def Reachable (script : EntityId → List WritingStep) (roots : List EntityId) (id : EntityId) :
    Prop :=
  ∃ root ∈ roots, Relation.ReflTransGen (References script) root id

theorem reachedFrom_visits {roots : List EntityId} {id : EntityId} :
    ReachedFrom script (roots.map .visit) id ↔ Reachable script roots id := by
  simp [ReachedFrom, Reachable]

theorem writable_visits {roots : List EntityId} (hroots : ∀ id ∈ roots, id < s.next) :
    s.Writable (roots.map .visit) := by
  refine ⟨fun id hid => hroots id ?_, ?_⟩
  · simpa using hid
  · simp

section Whole

variable {t : EntityTarget} {roots : List EntityId} (hdistinct : s.Distinct)
  (hscript : ∀ id < s.next, s.Writable (script id)) (hroots : ∀ id ∈ roots, id < s.next)
  (hold : ∀ id ∈ t.written, id < s.next)
  (hclosed : ∀ a ∈ t.written, ∀ b, References script a b → b ∈ t.written)

include hdistinct hscript hroots hold hclosed

/-- Writing roots ends, and what it has run, written and stated is told by what they reach. -/
theorem exists_closure :
    ∃ trace t', run s script (roots.map .visit) t = (t', none) ∧
      Runs s script (roots.map .visit) t trace t' ∧
      (∀ id, id ∈ trace ↔ Reachable script roots id ∧ id ∉ t.written) ∧
      (∀ id, id ∈ t'.written ↔ id ∈ t.written ∨ Reachable script roots id) ∧
      ∀ triple, t'.graph.contains triple = true ↔
        t.graph.contains triple = true ∨ ∃ id ∈ trace, States (script id) triple := by
  have hsteps := writable_visits hroots
  obtain ⟨trace, t', hruns, hrun⟩ := exists_runs hscript _ _ t (Nat.le_refl _) hsteps
  refine ⟨trace, t', ?_, hruns, ?_, ?_, ?_⟩
  · have := hrun []
    rwa [List.append_nil, run] at this
  · intro id
    rw [hruns.mem_trace_iff hscript hdistinct hsteps hold hclosed, reachedFrom_visits]
  · intro id
    rw [hruns.mem_written_iff hscript hdistinct hsteps hold hclosed, reachedFrom_visits]
  · intro triple
    have hstates : ¬ States (roots.map .visit) triple := by simp [States]
    rw [hruns.contains_graph, or_iff_right hstates]

/--
**Writing roots writes what they reach, and every entity once.**

The entities of the store are pairwise different, and those written before are closed
under references.  Writing then ends, also where references run in circles.  It runs
the steps of the entities that are reached and were not written, of each of them once
and of no other.  What is written in the end is what was and what is reached, and the
graph has gained what these entities state of themselves.  Both are the same in
whatever order the roots come and every entity makes its steps.
-/
theorem run_writes_reachable_once :
    ∃ trace t', run s script (roots.map .visit) t = (t', none) ∧
      Runs s script (roots.map .visit) t trace t' ∧ trace.Nodup ∧
      t'.written = t.written ++ trace ∧
      (∀ id, id ∈ trace ↔ Reachable script roots id ∧ id ∉ t.written) ∧
      (∀ id, id ∈ t'.written ↔ id ∈ t.written ∨ Reachable script roots id) ∧
      (∀ triple, t'.graph.contains triple = true ↔
        t.graph.contains triple = true ∨ ∃ id ∈ trace, States (script id) triple) ∧
      ∀ (otherRoots : List EntityId) (otherScript : EntityId → List WritingStep),
        otherRoots.Perm roots → (∀ id, (otherScript id).Perm (script id)) →
        ∃ t'', run s otherScript (otherRoots.map .visit) t = (t'', none) ∧
          (∀ id, id ∈ t''.written ↔ id ∈ t'.written) ∧
          ∀ triple, t''.graph.contains triple = t'.graph.contains triple := by
  obtain ⟨trace, t', hrun, hruns, htrace, hwritten, hgraph⟩ :=
    exists_closure hdistinct hscript hroots hold hclosed
  refine ⟨trace, t', hrun, hruns, hruns.nodup, hruns.written_eq, htrace, hwritten, hgraph, ?_⟩
  intro otherRoots otherScript hpermRoots hpermScript
  have hreferences : References otherScript = References script := by
    funext a b
    exact propext (hpermScript a).mem_iff
  have hreachable : ∀ id, Reachable otherScript otherRoots id ↔ Reachable script roots id := by
    intro id
    simp only [Reachable, hreferences, hpermRoots.mem_iff]
  have hstates : ∀ id triple, States (otherScript id) triple ↔ States (script id) triple := by
    intro id triple
    simp only [States, (hpermScript id).mem_iff]
  obtain ⟨otherTrace, t'', hrun', -, htrace', hwritten', hgraph'⟩ :=
    exists_closure hdistinct (fun id hid => (hscript id hid).perm (hpermScript id))
      (fun id hid => hroots id (hpermRoots.mem_iff.mp hid)) hold (by rwa [hreferences])
  refine ⟨t'', hrun', ?_, ?_⟩
  · intro id
    rw [hwritten', hwritten, hreachable]
  · intro triple
    rw [Bool.eq_iff_iff, hgraph', hgraph]
    simp only [htrace', htrace, hreachable, hstates]

end Whole

/-- A class whose entities may have a friend. -/
def friendClasses : EntityClasses :=
  .ofList [{ name := "Person", iri := some ⟨"x:Person"⟩, fields :=
    [{ name := "friend", kind := .object, predicate := ⟨"x:friend"⟩, range := ⟨"x:Person"⟩ }] }]

/-- An entity with a friend. -/
def person (iri : String) (friend : EntityId) : Entity :=
  { className := "Person", iri := ⟨iri⟩, attributes := [("friend", .single (.entity friend))] }

/-- Two entities that refer to each other, and one that refers to itself. -/
def friendStore : Store := ⟨[person "x:a" 1, person "x:b" 0, person "x:c" 2]⟩

/-- What writing an entity with a friend consists of. -/
def personSteps (iri friendIri : String) (friend : EntityId) : List WritingStep :=
  [.state ⟨.iri ⟨iri⟩, rdfType, .iri ⟨"x:Person"⟩⟩,
   .state ⟨.iri ⟨iri⟩, ⟨"x:friend"⟩, .iri ⟨friendIri⟩⟩, .visit friend]

theorem run_writes_friends :
    (friendStore.Distinct ∧
      (∀ id < friendStore.next,
        friendStore.Writable (friendStore.entitySteps friendClasses id)) ∧
      (∀ id ∈ [0], id < friendStore.next) ∧
      (∀ id ∈ (⟨{}, [2]⟩ : EntityTarget).written, id < friendStore.next) ∧
      (∀ a ∈ (⟨{}, [2]⟩ : EntityTarget).written, ∀ b,
        References (friendStore.entitySteps friendClasses) a b →
          b ∈ (⟨{}, [2]⟩ : EntityTarget).written)) ∧
    ∃ trace t', run friendStore (friendStore.entitySteps friendClasses) [.visit 0] ⟨{}, [2]⟩ =
        (t', none) ∧ trace.Nodup ∧ t'.written = [2] ++ trace ∧ 0 ∈ trace ∧ 1 ∈ trace ∧ 2 ∉ trace := by
  have hzero : friendStore.entitySteps friendClasses 0 = personSteps "x:a" "x:b" 1 := by
    decide +kernel
  have hone : friendStore.entitySteps friendClasses 1 = personSteps "x:b" "x:a" 0 := by
    decide +kernel
  have htwo : friendStore.entitySteps friendClasses 2 = personSteps "x:c" "x:c" 2 := by
    decide +kernel
  have hdistinct : friendStore.Distinct := by
    unfold Store.Distinct
    decide +kernel
  have hfriend : ∀ iri friendIri friend, friend < friendStore.next →
      friendStore.Writable (personSteps iri friendIri friend) := by
    intro iri friendIri friend hfriend
    refine ⟨fun id hid => ?_, by simp [personSteps]⟩
    have : id = friend := by simpa [personSteps] using hid
    rwa [this]
  have hscript : ∀ id < friendStore.next,
      friendStore.Writable (friendStore.entitySteps friendClasses id) := by
    intro id hid
    have : id < 3 := hid
    interval_cases id
    · exact hzero ▸ hfriend _ _ _ (by decide)
    · exact hone ▸ hfriend _ _ _ (by decide)
    · exact htwo ▸ hfriend _ _ _ (by decide)
  have hclosed : ∀ a ∈ [2], ∀ b, References (friendStore.entitySteps friendClasses) a b → b ∈ [2] := by
    intro a ha b hab
    have hab' : .visit b ∈ friendStore.entitySteps friendClasses a := hab
    rw [List.mem_singleton.mp ha, htwo] at hab'
    simpa [personSteps] using hab'
  obtain ⟨trace, t', hrun, -, hnodup, hwritten, htrace, -⟩ :=
    @run_writes_reachable_once friendStore (friendStore.entitySteps friendClasses) ⟨{}, [2]⟩ [0]
      hdistinct hscript (by decide) (by decide) hclosed
  have hlink : References (friendStore.entitySteps friendClasses) 0 1 := by
    rw [References, hzero]
    simp [personSteps]
  refine ⟨⟨hdistinct, hscript, by decide, by decide, hclosed⟩, trace, t', hrun, hnodup, hwritten,
    ?_, ?_, ?_⟩
  · exact (htrace 0).mpr ⟨⟨0, by simp, .refl⟩, by simp⟩
  · exact (htrace 1).mpr ⟨⟨0, by simp, .single hlink⟩, by simp⟩
  · exact fun h => ((htrace 2).mp h).2 (by simp)

end EntityTarget

end OntoCode
