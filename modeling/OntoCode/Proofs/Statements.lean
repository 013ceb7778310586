/-
What a graph holds, apart from the order it was built in.

A graph keeps its statements in a list, oldest first, but what it stands for is a
set: `contains` asks whether some statement of the list is the same one.  Adding a
statement changes the set as it should and never puts the same statement in twice.

A query reads the list, so its answer may come in the order of the statements.
Which IRIs and literals are in it does not depend on that order, and no IRI is in it
twice.
-/
import Mathlib.Data.List.Nodup
import Mathlib.Data.List.Pairwise
import Mathlib.Data.List.Perm.Basic
import OntoCode.Rdf.Graph

namespace OntoCode.Rdf

/-! ### Same terms and same statements -/

theorem Term.same_iff {a b : Term} : a.same b = true ↔ a.key = b.key := by
  simp [Term.same]

theorem Term.same_trans {a b c : Term} (hab : a.same b = true) (hbc : b.same c = true) :
    a.same c = true :=
  Term.same_iff.mpr ((Term.same_iff.mp hab).trans (Term.same_iff.mp hbc))

theorem Term.same_symm {a b : Term} (h : a.same b = true) : b.same a = true := by
  rwa [Term.same_comm]

@[simp] theorem Term.iri_same {i : Iri} {a : Term} : (iri i).same a = true ↔ a = iri i := by
  rw [Term.same_comm, Term.same_iri]

@[simp] theorem Term.blank_same {b : BlankNode} {a : Term} :
    (blank b).same a = true ↔ a = blank b := by
  cases a <;> simp [Term.same, Term.key, eq_comm]

/-- Same terms are the same IRI or none. -/
theorem Term.iri?_of_same {a b : Term} (h : a.same b = true) : a.iri? = b.iri? := by
  cases a with
  | iri i => rw [Term.iri_same.mp h]
  | blank node => rw [Term.blank_same.mp h]
  | literal l =>
      cases b with
      | literal m => rfl
      | iri i => exact absurd (Term.same_iri.mp h) (by simp)
      | blank node => exact absurd (Term.blank_same.mp (Term.same_symm h)) (by simp)

/-- Same terms have one text. -/
theorem Term.text_of_same {a b : Term} (h : a.same b = true) : a.text = b.text := by
  rw [Term.same_iff] at h
  have htext : ∀ t : Term, t.key.text = t.text := by
    intro t
    cases t <;> rfl
  rw [← htext a, h, htext b]

theorem Term.iri?_eq_some {a : Term} {i : Iri} : a.iri? = some i ↔ a = iri i := by
  cases a <;> simp [Term.iri?]

theorem Term.literal?_eq_some {a : Term} {l : Literal} : a.literal? = some l ↔ a = literal l := by
  cases a <;> simp [Term.literal?]

theorem Triple.same_iff {a b : Triple} : a.same b = true ↔
    a.subject.same b.subject = true ∧ a.predicate = b.predicate ∧
      a.object.same b.object = true := by
  simp [Triple.same, and_assoc]

theorem Triple.same_symm {a b : Triple} (h : a.same b = true) : b.same a = true := by
  obtain ⟨hs, hp, ho⟩ := Triple.same_iff.mp h
  exact Triple.same_iff.mpr ⟨Term.same_symm hs, hp.symm, Term.same_symm ho⟩

theorem Triple.same_trans {a b c : Triple} (hab : a.same b = true) (hbc : b.same c = true) :
    a.same c = true := by
  obtain ⟨hs, hp, ho⟩ := Triple.same_iff.mp hab
  obtain ⟨hs', hp', ho'⟩ := Triple.same_iff.mp hbc
  exact Triple.same_iff.mpr ⟨Term.same_trans hs hs', hp.trans hp', Term.same_trans ho ho'⟩

namespace Graph

/-! ### Adding statements -/

/-- No statement is in the graph twice. -/
def Distinct (g : Graph) : Prop := g.triples.Pairwise fun a b => a.same b = false

theorem contains_iff {g : Graph} {t : Triple} :
    g.contains t = true ↔ ∃ u ∈ g.triples, t.same u = true := by
  simp [contains]

/-- Whether a statement is in a graph is the same for the same statement. -/
theorem contains_of_same {g : Graph} {t u : Triple} (h : t.same u = true) :
    g.contains t = true ↔ g.contains u = true := by
  rw [contains_iff, contains_iff]
  constructor
  · rintro ⟨v, hv, htv⟩
    exact ⟨v, hv, Triple.same_trans (Triple.same_symm h) htv⟩
  · rintro ⟨v, hv, huv⟩
    exact ⟨v, hv, Triple.same_trans h huv⟩

theorem mem_insert {g : Graph} {t u : Triple} (h : u ∈ (g.insert t).triples) :
    u ∈ g.triples ∨ u = t := by
  unfold insert at h
  split at h
  · exact Or.inl h
  · simpa using h

/-- **A graph that a statement was added to holds this statement and what it held.** -/
theorem contains_insert_iff {g : Graph} {t u : Triple} :
    (g.insert t).contains u = true ↔ g.contains u = true ∨ u.same t = true := by
  unfold insert
  split
  · rename_i hold
    constructor
    · exact Or.inl
    · rintro (h | h)
      · exact h
      · exact (contains_of_same h).mpr hold
  · simp [contains]

theorem contains_insertAll {ts : List Triple} {u : Triple} : ∀ {g : Graph},
    (g.insertAll ts).contains u = true ↔ g.contains u = true ∨ ∃ t ∈ ts, u.same t = true := by
  induction ts with
  | nil => intro g; simp [insertAll]
  | cons t rest ih =>
      intro g
      have hstep : (g.insertAll (t :: rest)) = (g.insert t).insertAll rest := rfl
      rw [hstep, ih, contains_insert_iff]
      simp [or_assoc]

/-- A statement of a graph is one of those that it was built of. -/
theorem mem_insertAll {ts : List Triple} {u : Triple} : ∀ {g : Graph},
    u ∈ (g.insertAll ts).triples → u ∈ g.triples ∨ u ∈ ts := by
  induction ts with
  | nil => exact fun h => .inl h
  | cons t rest ih =>
      intro g h
      rcases ih h with hin | hin
      · rcases mem_insert hin with hin | rfl
        · exact .inl hin
        · exact .inr List.mem_cons_self
      · exact .inr (List.mem_cons_of_mem _ hin)

theorem distinct_empty : Distinct ⟨[]⟩ := .nil

theorem Distinct.insert {g : Graph} (h : g.Distinct) (t : Triple) : (g.insert t).Distinct := by
  unfold Graph.insert
  split
  · exact h
  · rename_i hnew
    refine List.pairwise_append.mpr ⟨h, List.pairwise_singleton _ _, ?_⟩
    intro u hu v hv
    rw [List.mem_singleton] at hv
    subst hv
    rw [← Bool.not_eq_true]
    intro hsame
    exact hnew (contains_iff.mpr ⟨u, hu, Triple.same_symm hsame⟩)

theorem Distinct.insertAll {ts : List Triple} : ∀ {g : Graph}, g.Distinct →
    (g.insertAll ts).Distinct := by
  induction ts with
  | nil => intro g h; exact h
  | cons t rest ih => intro g h; exact ih (h.insert t)

/-! ### What queries find -/

variable {g : Graph} {s : Term} {p : Iri}

theorem mem_objects {o : Term} :
    o ∈ g.objects s p ↔
      ∃ t ∈ g.triples, t.subject.same s = true ∧ t.predicate = p ∧ t.object = o := by
  simp [objects, and_assoc]

/-- The same subject is related to the same terms. -/
theorem objects_of_same {s' : Term} (h : s.same s' = true) (p : Iri) :
    g.objects s p = g.objects s' p := by
  have hsubject : ∀ t : Triple, t.subject.same s = t.subject.same s' := by
    intro t
    rw [Term.same, Term.same, Term.same_iff.mp h]
  simp only [objects, hsubject]

/-- A term that is found is the object of a statement. -/
theorem contains_of_mem_objects {o : Term} (h : o ∈ g.objects s p) :
    g.contains ⟨s, p, o⟩ = true := by
  obtain ⟨t, ht, hs, rfl, rfl⟩ := mem_objects.mp h
  exact contains_iff.mpr ⟨t, ht, Triple.same_iff.mpr ⟨Term.same_symm hs, rfl, Term.same_self _⟩⟩

/-- The object of a statement, or the same term, is found. -/
theorem exists_mem_objects {o : Term} (h : g.contains ⟨s, p, o⟩ = true) :
    ∃ o' ∈ g.objects s p, o.same o' = true := by
  obtain ⟨t, ht, hsame⟩ := contains_iff.mp h
  obtain ⟨hs, hp, ho⟩ := Triple.same_iff.mp hsame
  exact ⟨t.object, mem_objects.mpr ⟨t, ht, Term.same_symm hs, hp.symm, rfl⟩, ho⟩

theorem mem_objects_iri {i : Iri} :
    Term.iri i ∈ g.objects s p ↔ g.contains ⟨s, p, .iri i⟩ = true := by
  refine ⟨contains_of_mem_objects, fun h => ?_⟩
  obtain ⟨o, ho, hsame⟩ := exists_mem_objects h
  rwa [← Term.iri_same.mp hsame]

theorem mem_objectIris {i : Iri} : i ∈ g.objectIris s p ↔ g.contains ⟨s, p, .iri i⟩ = true := by
  unfold objectIris
  rw [List.mem_filterMap, ← mem_objects_iri]
  simp [Term.iri?_eq_some]

theorem mem_literals {l : Literal} : l ∈ g.literals s p ↔ Term.literal l ∈ g.objects s p := by
  unfold literals
  rw [List.mem_filterMap]
  simp [Term.literal?_eq_some]

theorem mem_subjects_iri {i : Iri} {o : Term} :
    Term.iri i ∈ g.subjects p o ↔ g.contains ⟨.iri i, p, o⟩ = true := by
  rw [contains_iff]
  simp only [subjects, List.mem_map, List.mem_filter, Bool.and_eq_true, decide_eq_true_eq]
  constructor
  · rintro ⟨t, ⟨ht, hp, ho⟩, hs⟩
    exact ⟨t, ht, Triple.same_iff.mpr ⟨by simp [hs], hp.symm, Term.same_symm ho⟩⟩
  · rintro ⟨t, ht, hsame⟩
    obtain ⟨hs, hp, ho⟩ := Triple.same_iff.mp hsame
    exact ⟨t, ⟨ht, hp.symm, Term.same_symm ho⟩, Term.iri_same.mp hs⟩

/-- A statement about another subject or predicate adds nothing to what is found. -/
theorem objects_insert_of_apart {t : Triple} (h : ¬ (t.subject.same s = true ∧ t.predicate = p)) :
    (g.insert t).objects s p = g.objects s p := by
  unfold insert
  split
  · rfl
  · simpa [objects, List.filter_append] using h

theorem objects_insertAll_of_apart {ts : List Triple}
    (h : ∀ t ∈ ts, ¬ (t.subject.same s = true ∧ t.predicate = p)) :
    (g.insertAll ts).objects s p = g.objects s p := by
  induction ts generalizing g with
  | nil => rfl
  | cons t rest ih =>
      show ((g.insert t).insertAll rest).objects s p = _
      rw [ih fun u hu => h u (List.mem_cons_of_mem _ hu),
        objects_insert_of_apart (h t List.mem_cons_self)]

/-- The object of the first statement about a subject and a predicate is what is found. -/
theorem objects_insert_of_free {t : Triple} (h : g.objects t.subject t.predicate = []) :
    (g.insert t).objects t.subject t.predicate = [t.object] := by
  have hnew : ¬ g.contains t = true := by
    intro hin
    obtain ⟨o, ho, -⟩ := exists_mem_objects hin
    rw [h] at ho
    cases ho
  have hall : (g.insert t).objects t.subject t.predicate =
      g.objects t.subject t.predicate ++ [t.object] := by
    simp [insert, hnew, objects, List.filter_append]
  rw [hall, h, List.nil_append]

/-- **Of statements that are added in any order each one is found,** if there is one for each
subject and predicate. -/
theorem objects_insertAll {ts : List Triple} {t : Triple} (ht : t ∈ ts)
    (hts : ts.Pairwise fun t u => ¬ (t.subject.same u.subject = true ∧ t.predicate = u.predicate))
    (hfree : g.objects t.subject t.predicate = []) :
    (g.insertAll ts).objects t.subject t.predicate = [t.object] := by
  induction ts generalizing g with
  | nil => cases ht
  | cons u rest ih =>
      obtain ⟨hu, hrest⟩ := List.pairwise_cons.mp hts
      show ((g.insert u).insertAll rest).objects _ _ = _
      rcases List.mem_cons.mp ht with rfl | hin
      · rw [objects_insertAll_of_apart, objects_insert_of_free hfree]
        exact fun v hv ⟨hs, hp⟩ => hu v hv ⟨Term.same_symm hs, hp.symm⟩
      · refine ih hin hrest ?_
        rw [objects_insert_of_apart (hu t hin), hfree]

/-- No two objects that are found are the same. -/
theorem Distinct.objects_pairwise (h : g.Distinct) (s : Term) (p : Iri) :
    (g.objects s p).Pairwise fun a b => a.same b = false := by
  unfold objects
  rw [List.pairwise_map]
  refine (List.pairwise_filter.mpr ?_)
  refine h.imp ?_
  intro a b hab ha hb
  simp only [Bool.and_eq_true, decide_eq_true_eq] at ha hb
  rw [← Bool.not_eq_true]
  intro hsame
  have : a.same b = true := Triple.same_iff.mpr
    ⟨Term.same_trans ha.1 (Term.same_symm hb.1), ha.2.trans hb.2.symm, hsame⟩
  simp [hab] at this

/-- No IRI is found twice. -/
theorem Distinct.objectIris_nodup (h : g.Distinct) (s : Term) (p : Iri) :
    (g.objectIris s p).Nodup := by
  unfold objectIris
  refine List.pairwise_filterMap.mpr ?_
  refine (h.objects_pairwise s p).imp ?_
  intro a b hab i hi j hj heq
  have hai : a = .iri i := Term.iri?_eq_some.mp hi
  have hbj : b = .iri j := Term.iri?_eq_some.mp hj
  simp [hai, hbj, heq] at hab

/-- No two literals that are found are the same. -/
theorem Distinct.literals_pairwise (h : g.Distinct) (s : Term) (p : Iri) :
    (g.literals s p).Pairwise fun l m => (Term.literal l).same (.literal m) = false := by
  unfold literals
  refine List.pairwise_filterMap.mpr ?_
  refine (h.objects_pairwise s p).imp ?_
  intro a b hab l hl m hm
  rw [Term.literal?_eq_some] at hl hm
  rwa [← hl, ← hm]

/-! ### Graphs that hold the same statements -/

/-- Two graphs hold the same statements, in whatever order they were added. -/
structure SameStatements (g h : Graph) : Prop where
  left : g.Distinct
  right : h.Distinct
  contains : ∀ t, g.contains t = h.contains t

theorem SameStatements.symm {g h : Graph} (hsame : SameStatements g h) : SameStatements h g :=
  ⟨hsame.right, hsame.left, fun t => (hsame.contains t).symm⟩

/-- **Statements that are added in another order make a graph that holds the same.** -/
theorem sameStatements_ofList {ts us : List Triple} (hperm : ts.Perm us) :
    SameStatements (ofList ts) (ofList us) := by
  refine ⟨distinct_empty.insertAll, distinct_empty.insertAll, ?_⟩
  intro t
  rw [Bool.eq_iff_iff, ofList, ofList, contains_insertAll, contains_insertAll]
  simp [hperm.mem_iff]

theorem SameStatements.objectIris_perm {g h : Graph} (hsame : SameStatements g h) (s : Term)
    (p : Iri) : (g.objectIris s p).Perm (h.objectIris s p) := by
  rw [List.perm_ext_iff_of_nodup (hsame.left.objectIris_nodup s p)
    (hsame.right.objectIris_nodup s p)]
  intro i
  rw [mem_objectIris, mem_objectIris, hsame.contains]

theorem SameStatements.mem_literals_key {g h : Graph} (hsame : SameStatements g h) (s : Term)
    (p : Iri) {k : Literal} (hk : k ∈ (g.literals s p).map Literal.key) :
    k ∈ (h.literals s p).map Literal.key := by
  obtain ⟨l, hl, rfl⟩ := List.mem_map.mp hk
  have hcontains := contains_of_mem_objects (mem_literals.mp hl)
  rw [hsame.contains] at hcontains
  obtain ⟨o, ho, heq⟩ := exists_mem_objects hcontains
  cases o with
  | iri i => exact absurd (Term.same_iri.mp heq) (by simp)
  | blank node => exact absurd (Term.blank_same.mp (Term.same_symm heq)) (by simp)
  | literal m =>
      have hkey : l.key = m.key := Term.literal.inj (Term.same_iff.mp heq)
      exact hkey ▸ List.mem_map_of_mem (mem_literals.mpr ho)

/-- The literals that are found are the same ones. -/
theorem SameStatements.literals_perm {g h : Graph} (hsame : SameStatements g h) (s : Term)
    (p : Iri) : ((g.literals s p).map Literal.key).Perm ((h.literals s p).map Literal.key) := by
  have hnodup : ∀ {g : Graph}, g.Distinct → ((g.literals s p).map Literal.key).Nodup := by
    intro g hg
    refine List.pairwise_map.mpr ((hg.literals_pairwise s p).imp fun {l m} hne heq => ?_)
    have hsame : (Term.literal l).same (.literal m) = true :=
      Term.same_iff.mpr (congrArg Term.literal heq)
    rw [hsame] at hne
    cases hne
  exact (List.perm_ext_iff_of_nodup (hnodup hsame.left) (hnodup hsame.right)).mpr fun k =>
    ⟨hsame.mem_literals_key s p, hsame.symm.mem_literals_key s p⟩

/-- There are as many statements in both graphs. -/
theorem SameStatements.size_eq {g h : Graph} (hsame : SameStatements g h) : g.size = h.size := by
  have hle : ∀ {g h : Graph}, SameStatements g h → g.size ≤ h.size := by
    intro g h hsame
    let key (t : Triple) : Term × Iri × Term := (t.subject.key, t.predicate, t.object.key)
    have hkey : ∀ {t u : Triple}, key t = key u ↔ t.same u = true := by
      intro t u
      simp [key, Triple.same_iff, Term.same_iff]
    have hnodup : (g.triples.map key).Nodup := by
      refine List.pairwise_map.mpr (hsame.left.imp fun hne heq => ?_)
      rw [hkey.mp heq] at hne
      cases hne
    have hsubset : g.triples.map key ⊆ h.triples.map key := by
      intro k hk
      obtain ⟨t, ht, rfl⟩ := List.mem_map.mp hk
      have hcontains := contains_iff.mpr ⟨t, ht, Triple.same_self t⟩
      rw [hsame.contains] at hcontains
      obtain ⟨u, hu, heq⟩ := contains_iff.mp hcontains
      exact hkey.mpr heq ▸ List.mem_map_of_mem hu
    have hlength := (List.subperm_of_subset hnodup hsubset).length_le
    rwa [List.length_map, List.length_map] at hlength
  exact Nat.le_antisymm (hle hsame) (hle hsame.symm)

end Graph

end OntoCode.Rdf
