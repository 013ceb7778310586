/-
Steps that may fail, one after the other.

Work on a state that may fail is `ExceptT` over `StateM`: a run ends with an outcome
and a state, and what comes after a failure is left out.  The lemmas here say what a
run of each construct is, so that proofs about such work go from state to state and
never unfold the transformers.
-/

namespace OntoCode

/-! ### Steps that do not fail -/

section Outcomes

variable {ε α β : Type}

theorem mapM_ok {f : α → Except ε β} {result : α → β} {l : List α}
    (h : ∀ a ∈ l, f a = .ok (result a)) : l.mapM f = .ok (l.map result) := by
  induction l with
  | nil => rfl
  | cons a rest ih =>
      rw [List.mapM_cons, h a (by simp), ih fun b hb => h b (by simp [hb])]
      rfl

theorem exists_mapM_ok {f : α → Except ε β} {l : List α} (h : ∀ a ∈ l, ∃ b, f a = .ok b) :
    ∃ results, l.mapM f = .ok results := by
  induction l with
  | nil => exact ⟨[], rfl⟩
  | cons a rest ih =>
      obtain ⟨b, hb⟩ := h a List.mem_cons_self
      obtain ⟨results, hresults⟩ := ih fun c hc => h c (List.mem_cons_of_mem _ hc)
      refine ⟨b :: results, ?_⟩
      rw [List.mapM_cons, hb, hresults]
      rfl

theorem filterM_ok {f : α → Except ε Bool} {result : α → Bool} {l : List α}
    (h : ∀ a ∈ l, f a = .ok (result a)) : l.filterM f = .ok (l.filter result) := by
  have key : ∀ (l kept : List α), (∀ a ∈ l, f a = .ok (result a)) →
      List.filterAuxM f l kept = .ok ((l.filter result).reverse ++ kept) := by
    intro l
    induction l with
    | nil => intro kept _; rfl
    | cons a rest ih =>
        intro kept h
        rw [List.filterAuxM, h a (by simp)]
        show List.filterAuxM f rest (cond (result a) (a :: kept) kept) = _
        rw [ih _ fun b hb => h b (by simp [hb])]
        cases hr : result a <;> simp [hr]
  unfold List.filterM
  rw [key l [] h]
  simp [bind, Except.bind, pure, Except.pure]

/-- Two steps that end well end well one after the other. -/
theorem bind_eq_ok {first : Except ε α} {next : α → Except ε β} {b : β} :
    (first >>= next) = .ok b ↔ ∃ a, first = .ok a ∧ next a = .ok b := by
  cases first with
  | error e => simp [bind, Except.bind]
  | ok a => simp [bind, Except.bind]

/-- A step whose result is only passed on ends well exactly if it does by itself. -/
theorem exists_bind_pure_iff {first : Except ε α} {f : α → β} :
    (∃ b, (do let a ← first; return f a) = .ok b) ↔ ∃ a, first = .ok a := by
  cases first with
  | error e => simp [bind, Except.bind]
  | ok a => simp [bind, Except.bind, pure, Except.pure]

/-- Of two steps that fail one fails, the second one after the first has ended well. -/
theorem bind_eq_error {first : Except ε α} {next : α → Except ε β} {e : ε} :
    (first >>= next) = .error e ↔
      first = .error e ∨ ∃ a, first = .ok a ∧ next a = .error e := by
  cases first with
  | error e => simp [bind, Except.bind]
  | ok a => simp [bind, Except.bind]

/-- Before a step that ends well, only the first step fails. -/
theorem bind_eq_error_of_ok {first : Except ε α} {next : α → Except ε β} {e : ε}
    (h : ∀ a, ∃ b, next a = .ok b) : (first >>= next) = .error e ↔ first = .error e := by
  rw [bind_eq_error]
  refine or_iff_left ?_
  rintro ⟨a, -, hnext⟩
  obtain ⟨b, hb⟩ := h a
  rw [hb] at hnext
  cases hnext

/-- A list of steps ends well exactly if each of them does. -/
theorem exists_mapM_ok_iff {f : α → Except ε β} {l : List α} :
    (∃ results, l.mapM f = .ok results) ↔ ∀ a ∈ l, ∃ b, f a = .ok b := by
  refine ⟨?_, exists_mapM_ok⟩
  rintro ⟨results, h⟩
  induction l generalizing results with
  | nil => simp
  | cons a rest ih =>
      rw [List.mapM_cons] at h
      obtain ⟨b, hb, h⟩ := bind_eq_ok.mp h
      obtain ⟨bs, hbs, -⟩ := bind_eq_ok.mp h
      exact List.forall_mem_cons.mpr ⟨⟨b, hb⟩, ih bs hbs⟩

/-- A filter ends well exactly if it does for each element of the list. -/
theorem exists_filterM_ok_iff {f : α → Except ε Bool} {l : List α} :
    (∃ kept, l.filterM f = .ok kept) ↔ ∀ a ∈ l, ∃ b, f a = .ok b := by
  constructor
  · have key : ∀ (l before found : List α), List.filterAuxM f l before = .ok found →
        ∀ a ∈ l, ∃ b, f a = .ok b := by
      intro l
      induction l with
      | nil => simp
      | cons a rest ih =>
          intro before found h
          rw [List.filterAuxM] at h
          obtain ⟨keep, hkeep, h⟩ := bind_eq_ok.mp h
          exact List.forall_mem_cons.mpr ⟨⟨keep, hkeep⟩, ih _ found h⟩
    rintro ⟨kept, h⟩
    obtain ⟨found, hfound, -⟩ := bind_eq_ok.mp h
    exact key l [] found hfound
  · intro h
    refine ⟨l.filter fun a => (f a).toOption.getD false, filterM_ok fun a ha => ?_⟩
    obtain ⟨b, hb⟩ := h a ha
    rw [hb]
    rfl

/-- What passes a filter stands in the list in the same order, and the filter is true of it. -/
theorem sublist_of_filterM {f : α → Except ε Bool} {l kept : List α} (h : l.filterM f = .ok kept) :
    kept.Sublist l ∧ ∀ a ∈ kept, f a = .ok true := by
  have key : ∀ (l before found : List α), List.filterAuxM f l before = .ok found →
      ∃ passed : List α, passed.Sublist l ∧ (∀ a ∈ passed, f a = .ok true) ∧
        found = passed.reverse ++ before := by
    intro l
    induction l with
    | nil =>
        intro before found h
        cases h
        exact ⟨[], .slnil, by simp, rfl⟩
    | cons first rest ih =>
        intro before found h
        rw [List.filterAuxM] at h
        obtain ⟨keep, hkeep, h⟩ := bind_eq_ok.mp h
        obtain ⟨passed, hpassed, htrue, rfl⟩ := ih _ found h
        cases keep with
        | false => exact ⟨passed, hpassed.cons _, htrue, rfl⟩
        | true =>
            refine ⟨first :: passed, hpassed.cons_cons _, ?_, by simp⟩
            exact List.forall_mem_cons.mpr ⟨hkeep, htrue⟩
  obtain ⟨found, hfound, h⟩ := bind_eq_ok.mp h
  obtain ⟨passed, hpassed, htrue, rfl⟩ := key l [] found hfound
  cases h
  rw [List.append_nil, List.reverse_reverse]
  exact ⟨hpassed, htrue⟩

/-- What passes a filter is in the list, and the filter is true of it. -/
theorem mem_of_filterM {f : α → Except ε Bool} {l kept : List α} (h : l.filterM f = .ok kept) :
    ∀ a ∈ kept, a ∈ l ∧ f a = .ok true := by
  obtain ⟨hkept, htrue⟩ := sublist_of_filterM h
  exact fun a ha => ⟨hkept.subset ha, htrue a ha⟩

/-- All that a filter is true of passes it. -/
theorem mem_filterM {f : α → Except ε Bool} {l kept : List α} (h : l.filterM f = .ok kept) {a : α}
    (ha : a ∈ l) (htrue : f a = .ok true) : a ∈ kept := by
  have heach := exists_filterM_ok_iff.mp ⟨kept, h⟩
  have hkept : l.filterM f = .ok (l.filter fun b => (f b).toOption.getD false) := by
    refine filterM_ok fun b hb => ?_
    obtain ⟨passes, hpasses⟩ := heach b hb
    rw [hpasses]
    rfl
  rw [h, Except.ok.injEq] at hkept
  rw [hkept, List.mem_filter, htrue]
  exact ⟨ha, rfl⟩

/-- The result of each element is among the results of a list. -/
theorem mem_of_mapM {f : α → Except ε β} {l : List α} {results : List β}
    (h : l.mapM f = .ok results) {a : α} (ha : a ∈ l) {b : β} (hb : f a = .ok b) :
    b ∈ results := by
  induction l generalizing results with
  | nil => cases ha
  | cons first rest ih =>
      rw [List.mapM_cons] at h
      obtain ⟨c, hc, h⟩ := bind_eq_ok.mp h
      obtain ⟨cs, hcs, h⟩ := bind_eq_ok.mp h
      cases h
      rcases List.mem_cons.mp ha with rfl | ha
      · rw [hb, Except.ok.injEq] at hc
        exact hc ▸ List.mem_cons_self
      · exact List.mem_cons_of_mem c (ih hcs ha)

/-- Results that tell what they are results of are those of the elements of a list, in order. -/
theorem results_of_mapM {f : α → Except ε β} {key : β → α} {l : List α} {results : List β}
    (hkey : ∀ a b, f a = .ok b → key b = a) (h : l.mapM f = .ok results) :
    results.map key = l ∧ ∀ b ∈ results, f (key b) = .ok b := by
  induction l generalizing results with
  | nil =>
      cases h
      simp
  | cons a rest ih =>
      rw [List.mapM_cons] at h
      obtain ⟨b, hb, h⟩ := bind_eq_ok.mp h
      obtain ⟨bs, hbs, h⟩ := bind_eq_ok.mp h
      cases h
      obtain ⟨hmap, hall⟩ := ih hbs
      refine ⟨by rw [List.map_cons, hkey a b hb, hmap], fun c hc => ?_⟩
      rcases List.mem_cons.mp hc with rfl | hin
      · rw [hkey a c hb, hb]
      · exact hall c hin

end Outcomes

/-! ### Runs -/

section Runs

variable {ε σ α β : Type}

theorem run_bind (work : ExceptT ε (StateM σ) α) (next : α → ExceptT ε (StateM σ) β) (s : σ) :
    (work >>= next).run.run s =
      match work.run.run s with
      | (.ok a, t) => (next a).run.run t
      | (.error e, t) => (.error e, t) := by
  have hunfold : (work >>= next).run.run s =
      StateT.run (ExceptT.bindCont next (work.run.run s).1) (work.run.run s).2 := rfl
  rw [hunfold]
  cases hres : work.run.run s with
  | mk result t => cases result <;> rfl

theorem run_bind_ok {work : ExceptT ε (StateM σ) α} {next : α → ExceptT ε (StateM σ) β}
    {s t : σ} {a : α} (h : work.run.run s = (.ok a, t)) :
    (work >>= next).run.run s = (next a).run.run t := by
  rw [run_bind, h]

/-- Two steps that end well end well one after the other. -/
theorem run_bind_eq_ok {work : ExceptT ε (StateM σ) α} {next : α → ExceptT ε (StateM σ) β}
    {s t : σ} {b : β} (h : (work >>= next).run.run s = (.ok b, t)) :
    ∃ a u, work.run.run s = (.ok a, u) ∧ (next a).run.run u = (.ok b, t) := by
  rw [run_bind] at h
  cases hres : work.run.run s with
  | mk result u =>
      rw [hres] at h
      cases result with
      | ok a => exact ⟨a, u, rfl, h⟩
      | error e => cases h

theorem run_get_bind (next : σ → ExceptT ε (StateM σ) β) (s : σ) :
    (get >>= next).run.run s = (next s).run.run s := rfl

theorem run_modify_bind (f : σ → σ) (next : PUnit → ExceptT ε (StateM σ) β) (s : σ) :
    (modify f >>= next).run.run s = (next ()).run.run (f s) := rfl

end Runs

end OntoCode
