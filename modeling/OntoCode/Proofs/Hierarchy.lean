/-
Superclasses come first.

`take?` removes one class after the other, each time one that nothing left links to.
Two facts are needed of that, whatever key the free classes are compared by.

  * What it gives is a rearrangement of what it was given, in which no class is
    linked to by a later one.  So an ancestor stands before all its descendants,
    along a chain of any length.
  * It stops early only where every class that is left is linked to by another one
    that is left.  A finite hierarchy without a circle has no such part, so stopping
    early means a circle, and with a circle there is nothing it could end with.

The key decides between free classes only, so none of this depends on how many
digits a depth has.
-/
import Mathlib.Data.Fintype.Card
import Mathlib.Data.Set.Finite.Basic
import Mathlib.Logic.Relation
import Mathlib.Order.WellFounded
import OntoCode.Proofs.Sorting
import OntoCode.Schema.Order

namespace OntoCode.Hierarchy

open OntoCode.Rdf OntoCode.Ontology OntoCode.Text

/-- The superclass of `c` is `above`, and both are listed. -/
def Below (classes : List ClassDescription) (c above : ClassDescription) : Prop :=
  c ∈ classes ∧ above ∈ classes ∧ c.superclass = some above.iri

/-- The superclass links among the listed classes run in a circle. -/
def Cyclic (classes : List ClassDescription) : Prop :=
  ∃ c, Relation.TransGen (Below classes) c c

/-- One class stands somewhere before another. -/
def StandsBefore (classes : List ClassDescription) (first second : ClassDescription) : Prop :=
  ∃ i j : Nat, i < j ∧ classes[i]? = some first ∧ classes[j]? = some second

/-- Links that lower a rank do not run in a circle. -/
theorem not_cyclic_of_rank {classes : List ClassDescription} (rank : ClassDescription → Nat)
    (hrank : ∀ c above, Below classes c above → rank above < rank c) : ¬ Cyclic classes := by
  have hchain : ∀ c above, Relation.TransGen (Below classes) c above → rank above < rank c := by
    intro c above h
    induction h with
    | single h => exact hrank _ _ h
    | tail _ h ih => exact Nat.lt_trans (hrank _ _ h) ih
  rintro ⟨c, hc⟩
  exact Nat.lt_irrefl _ (hchain c c hc)

/-! ### The class to take next -/

theorem least?_some_or_none (candidates : List Ranked) :
    (∃ r ∈ candidates, least? candidates = some r) ∨
      (candidates = [] ∧ least? candidates = none) := by
  obtain ⟨step, hleast, hfirst, hstep⟩ : ∃ step : Option Ranked → Ranked → Option Ranked,
      (∀ l, least? l = l.foldl step none) ∧ (∀ r, step none r = some r) ∧
        ∀ b r, step (some b) r = if r.key < b.key then some r else some b :=
    ⟨_, fun _ => rfl, fun _ => rfl, fun _ _ => rfl⟩
  have key : ∀ (l : List Ranked) (best : Ranked),
      ∃ r, (r = best ∨ r ∈ l) ∧ l.foldl step (some best) = some r := by
    intro l
    induction l with
    | nil => intro best; exact ⟨best, Or.inl rfl, rfl⟩
    | cons x rest ih =>
        intro best
        rw [List.foldl_cons, hstep]
        by_cases hlt : x.key < best.key
        · rw [if_pos hlt]
          obtain ⟨r, hr, heq⟩ := ih x
          refine ⟨r, Or.inr ?_, heq⟩
          rcases hr with rfl | hr <;> simp [*]
        · rw [if_neg hlt]
          obtain ⟨r, hr, heq⟩ := ih best
          refine ⟨r, ?_, heq⟩
          rcases hr with rfl | hr <;> simp [*]
  cases candidates with
  | nil => exact Or.inr ⟨rfl, hleast []⟩
  | cons x rest =>
      obtain ⟨r, hr, heq⟩ := key rest x
      refine Or.inl ⟨r, by simpa using hr, ?_⟩
      rw [hleast, List.foldl_cons, hfirst, heq]

/-- The class to take next is free. -/
theorem next?_some {links : List (Nat × Nat)} {left : List Ranked} {r : Ranked}
    (h : next? links left = some r) : r ∈ left ∧ isFree links left r = true := by
  unfold next? at h
  rcases least?_some_or_none (left.filter (isFree links left)) with ⟨r', hr', heq⟩ | ⟨-, heq⟩
  · rw [heq, Option.some.injEq] at h
    subst h
    exact List.mem_filter.mp hr'
  · rw [heq] at h
    simp at h

/-- There is no class to take next only if none is free. -/
theorem next?_none {links : List (Nat × Nat)} {left : List Ranked}
    (h : next? links left = none) : ∀ r ∈ left, ∃ other ∈ left, (other.place, r.place) ∈ links := by
  unfold next? at h
  rcases least?_some_or_none (left.filter (isFree links left)) with ⟨r, -, heq⟩ | ⟨hnil, -⟩
  · rw [heq] at h
    simp at h
  · intro r hr
    have hfree : ¬ isFree links left r = true := List.filter_eq_nil_iff.mp hnil r hr
    simpa [isFree] using hfree

/-! ### Taking the classes one after the other -/

/-- The places of listed classes are all different. -/
def Placed (left : List Ranked) : Prop := (left.map (·.place)).Nodup

theorem placed_of_places {left : List Ranked} (h : left.Pairwise (·.place < ·.place)) :
    Placed left :=
  (List.pairwise_map.mpr h).imp fun hlt => Nat.ne_of_lt hlt

theorem Placed.eq_of_place {left : List Ranked} (h : Placed left) {a b : Ranked}
    (ha : a ∈ left) (hb : b ∈ left) (heq : a.place = b.place) : a = b :=
  List.inj_on_of_nodup_map h ha hb heq

theorem Placed.without {left : List Ranked} (h : Placed left) (p : Ranked → Bool) :
    Placed (left.filter p) :=
  List.Nodup.sublist (List.filter_sublist.map _) h

/-- A class and the classes at the other places are all there is. -/
theorem Placed.perm_cons {left : List Ranked} (h : Placed left) {r : Ranked} (hr : r ∈ left) :
    (r :: left.filter (·.place ≠ r.place)).Perm left := by
  have hleft : left.Nodup := List.Nodup.of_map _ h
  have hnew : (r :: left.filter (·.place ≠ r.place)).Nodup :=
    List.nodup_cons.mpr ⟨by simp, hleft.filter _⟩
  rw [List.perm_ext_iff_of_nodup hnew hleft]
  intro x
  simp only [List.mem_cons, List.mem_filter, decide_eq_true_eq]
  constructor
  · rintro (rfl | ⟨hx, -⟩)
    · exact hr
    · exact hx
  · intro hx
    by_cases heq : x.place = r.place
    · exact Or.inl (h.eq_of_place hx hr heq)
    · exact Or.inr ⟨hx, heq⟩

section Taking

variable {edges : List (Nat × Nat)} {R : ClassDescription → ClassDescription → Prop}

/-- Nothing in a list is linked to by itself or by what comes later. -/
structure SourcesFirst (R : ClassDescription → ClassDescription → Prop)
    (taken : List ClassDescription) : Prop where
  later : taken.Pairwise fun x y => ¬ R y x
  self : ∀ x ∈ taken, ¬ R x x

/-- What is taken is a rearrangement of what was left, and nothing in it is linked to by itself or
by what comes later. -/
theorem take?_spec :
    ∀ (count : Nat) (left : List Ranked) (taken : List ClassDescription),
      Placed left → left.length = count →
      (∀ x ∈ left, ∀ y ∈ left, R x.description y.description → (x.place, y.place) ∈ edges) →
      take? edges count left = some taken →
      taken.Perm (left.map (·.description)) ∧ SourcesFirst R taken := by
  intro count
  induction count with
  | zero =>
      intro left taken _ hlen _ h
      rw [take?, Option.some.injEq] at h
      rw [List.eq_nil_of_length_eq_zero hlen, ← h]
      exact ⟨.nil, .nil, by simp⟩
  | succ count ih =>
      intro left taken hplaced hlen hlinks h
      rw [take?] at h
      split at h
      · simp at h
      · rename_i r hnext
        obtain ⟨rest, hrest, rfl⟩ := Option.map_eq_some_iff.mp h
        obtain ⟨hr, hfree⟩ := next?_some hnext
        have hperm := hplaced.perm_cons hr
        have hsub : ∀ x ∈ left.filter (·.place ≠ r.place), x ∈ left :=
          fun x hx => (List.mem_filter.mp hx).1
        have hlen' : (left.filter (·.place ≠ r.place)).length = count := by
          have := hperm.length_eq
          simp only [List.length_cons] at this
          omega
        obtain ⟨hrestPerm, hrestOrder⟩ := ih _ rest (hplaced.without _) hlen'
          (fun x hx y hy => hlinks x (hsub x hx) y (hsub y hy)) hrest
        have hunlinked : ∀ other ∈ left, ¬ R other.description r.description := by
          intro other hother hR
          simp only [isFree, List.all_eq_true, Bool.not_eq_true'] at hfree
          simpa [hlinks other hother r hr hR] using hfree other hother
        refine ⟨(hrestPerm.cons r.description).trans (hperm.map Ranked.description), ?_, ?_⟩
        · refine List.pairwise_cons.mpr ⟨?_, hrestOrder.later⟩
          intro y hy
          obtain ⟨other, hother, rfl⟩ := List.mem_map.mp (hrestPerm.mem_iff.mp hy)
          exact hunlinked other (hsub other hother)
        · intro x hx
          rcases List.mem_cons.mp hx with rfl | hx
          · exact hunlinked r hr
          · exact hrestOrder.self x hx

/-- Of finitely many classes one is not linked to by the others, if no links run in a circle. -/
theorem exists_unlinked {left : List Ranked} (hne : left ≠ [])
    (hacyclic : ∀ c, ¬ Relation.TransGen R c c) :
    ∃ r ∈ left, ∀ other ∈ left, ¬ R other.description r.description := by
  have hfinite : Finite {r // r ∈ left} := (List.finite_toSet left).to_subtype
  let above : {r // r ∈ left} → {r // r ∈ left} → Prop :=
    fun a b => Relation.TransGen R a.1.description b.1.description
  have htrans : IsTrans {r // r ∈ left} above := ⟨fun _ _ _ hab hbc => hab.trans hbc⟩
  have hirrefl : Std.Irrefl above := ⟨fun a => hacyclic a.1.description⟩
  have hwf : WellFounded above := Finite.wellFounded_of_trans_of_irrefl above
  obtain ⟨x, hx⟩ := List.exists_mem_of_ne_nil left hne
  obtain ⟨r, -, hmin⟩ := hwf.has_min Set.univ ⟨⟨x, hx⟩, trivial⟩
  exact ⟨r.1, r.2, fun other hother h => hmin ⟨other, hother⟩ trivial (.single h)⟩

/-- Without a circle all classes are taken. -/
theorem take?_isSome (hacyclic : ∀ c, ¬ Relation.TransGen R c c) :
    ∀ (count : Nat) (left : List Ranked), Placed left → left.length = count →
      (∀ x ∈ left, ∀ y ∈ left, (x.place, y.place) ∈ edges → R x.description y.description) →
      ∃ taken, take? edges count left = some taken := by
  intro count
  induction count with
  | zero => intro left _ _ _; exact ⟨[], rfl⟩
  | succ count ih =>
      intro left hplaced hlen hlinks
      have hne : left ≠ [] := by
        rintro rfl
        simp at hlen
      obtain ⟨free, hfree, hunlinked⟩ := exists_unlinked hne hacyclic
      rw [take?]
      split
      · rename_i hnone
        obtain ⟨other, hother, hlink⟩ := next?_none hnone free hfree
        exact absurd (hlinks other hother free hfree hlink) (hunlinked other hother)
      · rename_i r hnext
        have hr := (next?_some hnext).1
        have hsub : ∀ x ∈ left.filter (·.place ≠ r.place), x ∈ left :=
          fun x hx => (List.mem_filter.mp hx).1
        have hlen' : (left.filter (·.place ≠ r.place)).length = count := by
          have := (hplaced.perm_cons hr).length_eq
          simp only [List.length_cons] at this
          omega
        obtain ⟨taken, htaken⟩ := ih _ (hplaced.without _) hlen'
          (fun x hx y hy => hlinks x (hsub x hx) y (hsub y hy))
        exact ⟨r.description :: taken, by rw [htaken]; rfl⟩

end Taking

/-! ### The places of distinct classes -/

section Distinct

variable {sorted : List ClassDescription}

/-- With distinct IRIs a class is found at its place. -/
theorem placeOf?_eq_some (hdistinct : (sorted.map (·.iri)).Nodup) {iri : Iri} {i : Nat} :
    placeOf? sorted iri = some i ↔ ∃ c, sorted[i]? = some c ∧ c.iri = iri := by
  have hinj : ∀ {i j : Nat} {c d : ClassDescription}, sorted[i]? = some c → sorted[j]? = some d →
      c.iri = d.iri → i = j := by
    intro i j c d hc hd heq
    have hi : i < (sorted.map (·.iri)).length := by
      simpa using (List.getElem?_eq_some_iff.mp hc).1
    exact (List.getElem?_inj hi hdistinct).mp (by simp [hc, hd, heq])
  have hforward : ∀ {j : Nat}, placeOf? sorted iri = some j →
      ∃ c, sorted[j]? = some c ∧ c.iri = iri := by
    intro j h
    obtain ⟨⟨c, k⟩, hfind, rfl⟩ := Option.map_eq_some_iff.mp h
    have hmem : (c, k) ∈ sorted.zipIdx := by simpa using List.mem_of_find?_eq_some hfind
    have hc : sorted[k]? = some c := List.mem_zipIdx_iff_getElem?.mp hmem
    exact ⟨c, hc, by simpa using List.find?_some hfind⟩
  refine ⟨hforward, ?_⟩
  rintro ⟨c, hc, rfl⟩
  have hmem : (c, i) ∈ sorted.zipIdx.reverse :=
    List.mem_reverse.mpr (List.mem_zipIdx_iff_getElem?.mpr hc)
  have hsome : (placeOf? sorted c.iri).isSome = true := by
    unfold placeOf?
    rw [Option.isSome_map, List.find?_isSome]
    exact ⟨(c, i), hmem, by simp⟩
  obtain ⟨j, hj⟩ := Option.isSome_iff_exists.mp hsome
  obtain ⟨d, hd, heq⟩ := hforward hj
  rw [hj, hinj hd hc heq]

/-- The links lead from the place of a superclass to the place of a class below it. -/
theorem mem_links (hdistinct : (sorted.map (·.iri)).Nodup) {i j : Nat} {above c : ClassDescription}
    (hi : sorted[i]? = some above) (hj : sorted[j]? = some c) :
    (i, j) ∈ links sorted ↔ Below sorted c above := by
  have hplace := @placeOf?_eq_some sorted hdistinct
  unfold links Below
  rw [List.mem_filterMap]
  constructor
  · rintro ⟨d, hd, hlink⟩
    simp only [Option.bind_eq_bind, Option.bind_eq_some_iff, Option.pure_def, Option.some.injEq,
      Prod.mk.injEq] at hlink
    obtain ⟨superclass, hsuper, i', hi', j', hj', rfl, rfl⟩ := hlink
    obtain ⟨above', habove', rfl⟩ := hplace.mp hi'
    obtain ⟨d', hd', heq⟩ := hplace.mp hj'
    have hd'c : d' = c := by rw [hj, Option.some.injEq] at hd'; exact hd'.symm
    have habove : above' = above := by rw [hi, Option.some.injEq] at habove'; exact habove'.symm
    have hdc : d = c :=
      List.inj_on_of_nodup_map hdistinct hd (List.mem_of_getElem? hj) (by rw [← heq, hd'c])
    exact ⟨List.mem_of_getElem? hj, List.mem_of_getElem? hi, by rw [← hdc, hsuper, habove]⟩
  · rintro ⟨-, -, hsuper⟩
    refine ⟨c, List.mem_of_getElem? hj, ?_⟩
    simp [hsuper, hplace.mpr ⟨above, hi, rfl⟩, hplace.mpr ⟨c, hj, rfl⟩]

end Distinct

theorem mem_ranked {sorted : List ClassDescription} {r : Ranked} (h : r ∈ ranked sorted) :
    sorted[r.place]? = some r.description := by
  obtain ⟨⟨c, i⟩, hmem, rfl⟩ := List.mem_map.mp h
  exact List.mem_zipIdx_iff_getElem?.mp hmem

/-- Classes are ranked in the order of their places. -/
theorem ranked_places (sorted : List ClassDescription) :
    (ranked sorted).Pairwise (·.place < ·.place) := by
  have heq : (ranked sorted).map (·.place) = sorted.zipIdx.map (·.2) := by
    simp [ranked, List.map_map, Function.comp_def]
  refine List.pairwise_map.mp ?_
  rw [heq, List.zipIdx_map_snd]
  exact List.pairwise_lt_range'

theorem placed_ranked (sorted : List ClassDescription) : Placed (ranked sorted) :=
  placed_of_places (ranked_places sorted)

theorem map_description_ranked (sorted : List ClassDescription) :
    (ranked sorted).map (·.description) = sorted := by
  have heq : (ranked sorted).map (·.description) = sorted.zipIdx.map (·.1) := by
    simp [ranked, List.map_map, Function.comp_def]
  rw [heq, List.zipIdx_map_fst]

/-! ### The order of a hierarchy -/

variable {classes : List ClassDescription}

theorem byName_perm (classes : List ClassDescription) : (byName classes).Perm classes :=
  sortByTexts_perm _ classes

theorem below_perm {ordered : List ClassDescription} (h : ordered.Perm classes) :
    Below ordered = Below classes := by
  funext c above
  simp only [Below, h.mem_iff]

theorem distinct_byName (hdistinct : (classes.map (·.iri)).Nodup) :
    ((byName classes).map (·.iri)).Nodup :=
  ((byName_perm classes).map _).nodup_iff.mpr hdistinct

/-- The links between ranked classes are those of the hierarchy. -/
theorem ranked_links (hdistinct : (classes.map (·.iri)).Nodup) {x y : Ranked}
    (hx : x ∈ ranked (byName classes)) (hy : y ∈ ranked (byName classes)) :
    (x.place, y.place) ∈ links (byName classes) ↔ Below classes y.description x.description := by
  rw [mem_links (distinct_byName hdistinct) (mem_ranked hx) (mem_ranked hy),
    below_perm (byName_perm classes)]

/-- An order that is found holds the classes it was found for. -/
theorem topological?_perm {ordered : List ClassDescription}
    (h : topological? classes = some ordered) : ordered.Perm classes := by
  have hspec := take?_spec (R := fun _ _ => False) _ _ _ (placed_ranked (byName classes))
    (by simp [ranked]) (fun _ _ _ _ hfalse => hfalse.elim) h
  rw [map_description_ranked] at hspec
  exact hspec.1.trans (byName_perm classes)

/-- In an order that is found no class stands before its superclass. -/
theorem topological?_ordered (hdistinct : (classes.map (·.iri)).Nodup)
    {ordered : List ClassDescription} (h : topological? classes = some ordered) :
    SourcesFirst (fun above c => Below classes c above) ordered :=
  (take?_spec (R := fun above c => Below classes c above) _ _ _
    (placed_ranked (byName classes)) (by simp [ranked])
    (fun _ hx _ hy => (ranked_links hdistinct hx hy).mpr) h).2

/-- A hierarchy without a circle has an order. -/
theorem topological?_isSome (hdistinct : (classes.map (·.iri)).Nodup)
    (hacyclic : ¬ Cyclic classes) :
    ∃ ordered, topological? classes = some ordered := by
  refine take?_isSome (R := fun above c => Below classes c above) ?_ _ _
    (placed_ranked (byName classes)) (by simp [ranked])
    (fun x hx y hy => (ranked_links hdistinct hx hy).mp)
  intro c hc
  exact hacyclic ⟨c, Relation.transGen_swap.mp hc⟩

/-- Where no class stands before its superclass, an ancestor is found before its descendants. -/
theorem idxOf_lt_of_ancestor {ordered : List ClassDescription} (hperm : ordered.Perm classes)
    (hfirst : SourcesFirst (fun above c => Below classes c above) ordered)
    {c above : ClassDescription} (h : Relation.TransGen (Below classes) c above) :
    ordered.idxOf above < ordered.idxOf c := by
  have hstep : ∀ {c above}, Below classes c above → ordered.idxOf above < ordered.idxOf c := by
    intro c above hbelow
    have hc : c ∈ ordered := hperm.mem_iff.mpr hbelow.1
    have habove : above ∈ ordered := hperm.mem_iff.mpr hbelow.2.1
    rcases Nat.lt_trichotomy (ordered.idxOf above) (ordered.idxOf c) with hlt | heq | hgt
    · exact hlt
    · have hsame : above = c := (List.idxOf_inj habove).mp heq
      rw [hsame] at hbelow
      exact absurd hbelow (hfirst.self c hc)
    · have hlater := List.pairwise_iff_getElem.mp hfirst.later _ _
        (List.idxOf_lt_length_iff.mpr hc) (List.idxOf_lt_length_iff.mpr habove) hgt
      rw [List.getElem_idxOf, List.getElem_idxOf] at hlater
      exact absurd hbelow hlater
  induction h with
  | single h => exact hstep h
  | tail _ h ih => exact Nat.lt_trans (hstep h) ih

/-- An order is found exactly if the hierarchy has no circle. -/
theorem topological?_isSome_iff (hdistinct : (classes.map (·.iri)).Nodup) :
    (∃ ordered, topological? classes = some ordered) ↔ ¬ Cyclic classes := by
  refine ⟨?_, topological?_isSome hdistinct⟩
  rintro ⟨ordered, h⟩ ⟨c, hc⟩
  exact Nat.lt_irrefl _ (idxOf_lt_of_ancestor (topological?_perm h)
    (topological?_ordered hdistinct h) hc)

theorem standsBefore_of_idxOf_lt {ordered : List ClassDescription} {first second : ClassDescription}
    (hsecond : second ∈ ordered) (h : ordered.idxOf first < ordered.idxOf second) :
    StandsBefore ordered first second := by
  have hlt := List.idxOf_lt_length_iff.mpr hsecond
  refine ⟨_, _, h, ?_, ?_⟩
  · rw [List.getElem?_eq_getElem (Nat.lt_trans h hlt), List.getElem_idxOf]
  · rw [List.getElem?_eq_getElem hlt, List.getElem_idxOf]

/-- Of classes with different IRIs, the one that is not after the other one is before it. -/
theorem name_or_iri_lt {a b : ClassDescription}
    (h : notAfter [a.name, a.iri.text] [b.name, b.iri.text] = true) (hne : a.iri ≠ b.iri) :
    a.name < b.name ∨ a.name = b.name ∧ a.iri.text < b.iri.text := by
  rw [notAfter_cons, notAfter_cons] at h
  rcases h with hlt | ⟨hname, hlt | ⟨htext, -⟩⟩
  · exact .inl hlt
  · exact .inr ⟨hname, hlt⟩
  · exact absurd (Iri.text_inj.mp htext) hne

/-- Classes with distinct IRIs that are sorted by name stand in the order of name and IRI. -/
theorem byName_sorted (hdistinct : (classes.map (·.iri)).Nodup) :
    (byName classes).Pairwise fun a b =>
      a.name < b.name ∨ a.name = b.name ∧ a.iri.text < b.iri.text := by
  have hne : (byName classes).Pairwise fun a b => a.iri ≠ b.iri :=
    List.pairwise_map.mp (distinct_byName hdistinct)
  exact ((sortByTexts_sorted _ classes).and hne).imp fun ⟨hsorted, hiri⟩ =>
    name_or_iri_lt hsorted hiri

/-- Nothing is lost or doubled. -/
theorem order_perm (classes : List ClassDescription) : (order classes).1.Perm classes := by
  unfold order
  split
  · exact topological?_perm (by assumption)
  · exact byName_perm classes

/--
**Classes are ordered with superclasses first.**

Nothing is lost or doubled.  If no two classes have one IRI and the superclass links
run in no circle, every class comes after all its listed ancestors, and nothing is
reported.  If they do run in a circle, the classes are sorted by name and IRI, with a
single warning.
-/
theorem order_superclasses_first (classes : List ClassDescription) :
    (order classes).1.Perm classes ∧
    ((classes.map (·.iri)).Nodup → ¬ Cyclic classes →
      (∀ c above, Relation.TransGen (Below classes) c above →
        StandsBefore (order classes).1 above c) ∧
      (order classes).2 = []) ∧
    ((classes.map (·.iri)).Nodup → Cyclic classes →
      ((order classes).1.Pairwise fun a b =>
        a.name < b.name ∨ a.name = b.name ∧ a.iri.text < b.iri.text) ∧
      (order classes).2 = [.cyclicHierarchy] ∧ Notice.level .cyclicHierarchy = .warning) := by
  unfold order
  split
  · rename_i ordered hsome
    have hperm := topological?_perm hsome
    refine ⟨hperm, ?_, ?_⟩
    · intro hdistinct _
      refine ⟨?_, rfl⟩
      intro c above h
      obtain ⟨next, hbelow, -⟩ := Relation.TransGen.head'_iff.mp h
      exact standsBefore_of_idxOf_lt (hperm.mem_iff.mpr hbelow.1)
        (idxOf_lt_of_ancestor hperm (topological?_ordered hdistinct hsome) h)
    · intro hdistinct hcyclic
      exact absurd hcyclic ((topological?_isSome_iff hdistinct).mp ⟨ordered, hsome⟩)
  · rename_i hnone
    refine ⟨byName_perm classes, ?_, ?_⟩
    · intro hdistinct hacyclic
      obtain ⟨ordered, hsome⟩ := topological?_isSome hdistinct hacyclic
      simp [hsome] at hnone
    · intro hdistinct _
      exact ⟨byName_sorted hdistinct, rfl, rfl⟩

/-- A class that is named like its IRI. -/
def named (name : String) (superclass : Option String := none) : ClassDescription :=
  { iri := ⟨name⟩, name, superclass := superclass.map Iri.mk }

theorem order_small_hierarchies :
    (¬ Cyclic [named "C" "B", named "A", named "B" "A"] ∧
      StandsBefore (order [named "C" "B", named "A", named "B" "A"]).1 (named "A") (named "C" "B") ∧
      (order [named "C" "B", named "A", named "B" "A"]).2 = []) ∧
    (Cyclic [named "B" "A", named "A" "B"] ∧
      (order [named "B" "A", named "A" "B"]).2 = [.cyclicHierarchy]) := by
  have hacyclic : ¬ Cyclic [named "C" "B", named "A", named "B" "A"] := by
    refine not_cyclic_of_rank
      (fun c => if c.name = "A" then 0 else if c.name = "B" then 1 else 2) ?_
    rintro c above ⟨hc, habove, hsuper⟩
    simp only [List.mem_cons, List.not_mem_nil, or_false] at hc habove
    rcases hc with rfl | rfl | rfl <;> rcases habove with rfl | rfl | rfl <;>
      simp [named] at hsuper ⊢
  have hcyclic : Cyclic [named "B" "A", named "A" "B"] :=
    ⟨named "A" "B", .tail (.single ⟨by simp, by simp, rfl⟩ :
      Relation.TransGen _ (named "A" "B") (named "B" "A")) ⟨by simp, by simp, rfl⟩⟩
  have hchain : Relation.TransGen (Below [named "C" "B", named "A", named "B" "A"])
      (named "C" "B") (named "A") :=
    .tail (.single ⟨by simp, by simp, rfl⟩ :
      Relation.TransGen _ (named "C" "B") (named "B" "A")) ⟨by simp, by simp, rfl⟩
  have hforest := (order_superclasses_first _).2.1 (by decide) hacyclic
  have hcircle := (order_superclasses_first _).2.2 (by decide) hcyclic
  exact ⟨⟨hacyclic, hforest.1 _ _ hchain, hforest.2⟩, hcyclic, hcircle.2.1⟩

end OntoCode.Hierarchy
