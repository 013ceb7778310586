/-
The order of a hierarchy is a plain sort.

A superclass is one less deep than the classes below it, so its key is less as well, as
long as the digits of a depth do not outgrow the six places kept for them.  Where keys
rise along all links, the class with the least key of all that are left is free: what
links to it would have a lesser one.  Taking free classes by their keys is then taking
classes by their keys, and the links decide nothing.

Keys compare like depths and then names, and of equal keys the one at the earlier place
is taken.  Places are given by name and IRI.  So what comes out is sorted by depth, name
and IRI, whatever the order the classes are given in.
-/
import OntoCode.Proofs.Hierarchy
import Mathlib.Data.List.Lex

namespace OntoCode.Hierarchy

open OntoCode.Rdf OntoCode.Ontology OntoCode.Text

/-! ### Digits in front of a name -/

theorem toNat_of_isDigit {c : Char} (h : c.isDigit = true) : 48 ≤ c.toNat ∧ c.toNat ≤ 57 := by
  have hbounds : c.val ≥ '0'.val ∧ c.val ≤ '9'.val := by
    simpa only [Char.isDigit, Bool.and_eq_true, decide_eq_true_eq] using h
  exact hbounds

/-- Of equally long digits those are worth more that start from more. -/
theorem ofDigitChars_lt_of_lt : ∀ {a b : List Char} {i j : Nat}, a.length = b.length →
    (∀ c ∈ a, c.isDigit = true) → i < j → Nat.ofDigitChars 10 a i < Nat.ofDigitChars 10 b j := by
  intro a
  induction a with
  | nil =>
      intro b i j hlength _ hij
      rw [List.eq_nil_of_length_eq_zero hlength.symm]
      exact hij
  | cons c a ih =>
      intro b i j hlength hdigits hij
      cases b with
      | nil => simp at hlength
      | cons d b =>
          rw [Nat.ofDigitChars_cons, Nat.ofDigitChars_cons]
          refine ih (by simpa using hlength) (fun e he => hdigits e (List.mem_cons_of_mem _ he)) ?_
          have hc := (toNat_of_isDigit (hdigits c List.mem_cons_self)).2
          show 10 * i + (c.toNat - 48) < 10 * j + (d.toNat - 48)
          omega

/-- Equally long digits compare like what they are worth. -/
theorem ofDigitChars_lt : ∀ {a b : List Char} {i : Nat}, a.length = b.length →
    (∀ c ∈ a, c.isDigit = true) → (∀ c ∈ b, c.isDigit = true) → a < b →
      Nat.ofDigitChars 10 a i < Nat.ofDigitChars 10 b i := by
  intro a
  induction a with
  | nil =>
      intro b i hlength _ _ hlt
      rw [List.eq_nil_of_length_eq_zero hlength.symm] at hlt
      exact absurd hlt (List.lt_irrefl _)
  | cons c a ih =>
      intro b i hlength ha hb hlt
      cases b with
      | nil => simp at hlength
      | cons d b =>
          rw [Nat.ofDigitChars_cons, Nat.ofDigitChars_cons]
          have hrest : a.length = b.length := by simpa using hlength
          have hdigits := fun e he => ha e (List.mem_cons_of_mem _ he)
          rcases List.cons_lt_cons_iff.mp hlt with hcd | ⟨rfl, htail⟩
          · refine ofDigitChars_lt_of_lt hrest hdigits ?_
            have hc := (toNat_of_isDigit (ha c List.mem_cons_self)).1
            have hcd : c.toNat < d.toNat := hcd
            show 10 * i + (c.toNat - 48) < 10 * i + (d.toNat - 48)
            omega
          · exact ih hrest hdigits (fun e he => hb e (List.mem_cons_of_mem _ he)) htail

/-- Texts that start with equally long parts compare like these where they differ. -/
theorem append_lt_append : ∀ {a b x y : List Char}, a.length = b.length → a < b →
    a ++ x < b ++ y := by
  intro a
  induction a with
  | nil =>
      intro b x y hlength hlt
      rw [List.eq_nil_of_length_eq_zero hlength.symm] at hlt
      exact absurd hlt (List.lt_irrefl _)
  | cons c a ih =>
      intro b x y hlength hlt
      cases b with
      | nil => simp at hlength
      | cons d b =>
          rw [List.cons_append, List.cons_append, List.cons_lt_cons_iff]
          exact (List.cons_lt_cons_iff.mp hlt).imp_right fun ⟨hcd, hlt⟩ =>
            ⟨hcd, ih (by simpa using hlength) hlt⟩

theorem append_lt_append_iff (a : List Char) {x y : List Char} : a ++ x < a ++ y ↔ x < y := by
  induction a with
  | nil => rfl
  | cons c a ih =>
      rw [List.cons_append, List.cons_append, List.cons_lt_cons_iff, ih]
      simp

/-- The digits of a depth, at least six. -/
def depthDigits (depth : Nat) : List Char :=
  List.replicate (6 - (Nat.toDigits 10 depth).length) '0' ++ Nat.toDigits 10 depth

theorem toList_sortKey (depth : Nat) (name : String) :
    (sortKey depth name).toList = depthDigits depth ++ name.toList := by
  have hdigits : (toString depth).toList = Nat.toDigits 10 depth := by
    rw [Nat.toString_eq_repr, Nat.toList_repr]
  unfold sortKey depthDigits
  rw [String.toList_append, String.toList_append, String.toList_ofList, ← String.length_toList,
    hdigits]

theorem isDigit_of_mem_depthDigits {depth : Nat} {c : Char} (h : c ∈ depthDigits depth) :
    c.isDigit = true := by
  rcases List.mem_append.mp h with h | h
  · rw [List.eq_of_mem_replicate h]
    rfl
  · exact Nat.isDigit_of_mem_toDigits (by decide) (by decide) h

theorem ofDigitChars_replicate (n : Nat) : Nat.ofDigitChars 10 (List.replicate n '0') 0 = 0 := by
  induction n with
  | zero => rfl
  | succ n ih =>
      rw [List.replicate_succ, Nat.ofDigitChars_cons]
      exact ih

theorem ofDigitChars_depthDigits (depth : Nat) :
    Nat.ofDigitChars 10 (depthDigits depth) 0 = depth := by
  rw [depthDigits, Nat.ofDigitChars_append, ofDigitChars_replicate, Nat.ofDigitChars_ten_toDigits]

theorem length_depthDigits {depth : Nat} (h : depth < 1000000) :
    (depthDigits depth).length = 6 := by
  have hle : (Nat.toDigits 10 depth).length ≤ 6 :=
    (Nat.length_toDigits_le_iff (by decide) (by decide)).mpr h
  rw [depthDigits, List.length_append, List.length_replicate]
  omega

section Keys

variable {depth other : Nat} {name otherName : String} (hdepth : depth < 1000000)
  (hother : other < 1000000)

include hdepth hother

theorem depthDigits_lt (h : depth < other) : depthDigits depth < depthDigits other := by
  have hlength : (depthDigits depth).length = (depthDigits other).length := by
    rw [length_depthDigits hdepth, length_depthDigits hother]
  rcases lt_trichotomy (depthDigits depth) (depthDigits other) with hlt | heq | hgt
  · exact hlt
  · rw [← ofDigitChars_depthDigits depth, heq, ofDigitChars_depthDigits] at h
    exact absurd h (Nat.lt_irrefl _)
  · have hvalue := @ofDigitChars_lt _ _ 0 hlength.symm (fun _ => isDigit_of_mem_depthDigits)
      (fun _ => isDigit_of_mem_depthDigits) hgt
    rw [ofDigitChars_depthDigits, ofDigitChars_depthDigits] at hvalue
    exact absurd h (Nat.lt_asymm hvalue)

/-- A key is less than another one if its depth is. -/
theorem sortKey_lt_of_depth (h : depth < other) : sortKey depth name < sortKey other otherName := by
  rw [String.lt_iff, toList_sortKey, toList_sortKey]
  exact append_lt_append (by rw [length_depthDigits hdepth, length_depthDigits hother])
    (depthDigits_lt hdepth hother h)

/-- **Keys compare like depths, and like names where depths are the same.** -/
theorem sortKey_lt_iff :
    sortKey depth name < sortKey other otherName ↔
      depth < other ∨ depth = other ∧ name < otherName := by
  rcases Nat.lt_trichotomy depth other with hlt | rfl | hgt
  · exact iff_of_true (sortKey_lt_of_depth hdepth hother hlt) (.inl hlt)
  · rw [String.lt_iff, toList_sortKey, toList_sortKey, append_lt_append_iff, ← String.lt_iff]
    simp
  · refine iff_of_false (lt_asymm (sortKey_lt_of_depth hother hdepth hgt)) ?_
    omega

theorem sortKey_inj (h : sortKey depth name = sortKey other otherName) :
    depth = other ∧ name = otherName := by
  have hlists := congrArg String.toList h
  rw [toList_sortKey, toList_sortKey] at hlists
  obtain ⟨hdigits, hnames⟩ := List.append_inj hlists
    (by rw [length_depthDigits hdepth, length_depthDigits hother])
  refine ⟨?_, String.toList_injective hnames⟩
  rw [← ofDigitChars_depthDigits depth, hdigits, ofDigitChars_depthDigits]

end Keys

/-! ### Depths -/

section Depth

variable {classes other : List ClassDescription} {c above : ClassDescription} {iri : Iri}

/-- The chain of superclasses of a class has so many links.  It ends at a class without a
superclass, or at a superclass that is not listed, which counts. -/
inductive ChainLength (classes : List ClassDescription) : ClassDescription → Nat → Prop
  | root {c : ClassDescription} (hroot : c.superclass = none) : ChainLength classes c 0
  | outside {c : ClassDescription} {iri : Iri} (hsuper : c.superclass = some iri)
      (houtside : ∀ d ∈ classes, d.iri ≠ iri) : ChainLength classes c 1
  | link {c above : ClassDescription} {n : Nat} (habove : above ∈ classes)
      (hsuper : c.superclass = some above.iri) (hchain : ChainLength classes above n) :
      ChainLength classes c (n + 1)

/-- Only the members of the list matter. -/
theorem ChainLength.perm {n : Nat} (h : ChainLength classes c n) (hperm : classes.Perm other) :
    ChainLength other c n := by
  induction h with
  | root hroot => exact .root hroot
  | outside hsuper houtside =>
      exact .outside hsuper fun d hd => houtside d (hperm.mem_iff.mpr hd)
  | link habove hsuper _ ih => exact .link (hperm.mem_iff.mp habove) hsuper ih

/-- With distinct IRIs a class has one chain. -/
theorem ChainLength.unique (hdistinct : (classes.map (·.iri)).Nodup) {n m : Nat}
    (hn : ChainLength classes c n) (hm : ChainLength classes c m) : n = m := by
  induction hn generalizing m with
  | root hroot =>
      cases hm with
      | root _ => rfl
      | outside hsuper _ => simp [hroot] at hsuper
      | link _ hsuper _ => simp [hroot] at hsuper
  | outside hsuper houtside =>
      cases hm with
      | root hroot => simp [hroot] at hsuper
      | outside _ _ => rfl
      | link habove hsuper' _ =>
          exact absurd (Option.some.inj (hsuper'.symm.trans hsuper)) (houtside _ habove)
  | link habove hsuper _ ih =>
      cases hm with
      | root hroot => simp [hroot] at hsuper
      | outside hsuper' houtside =>
          exact absurd (Option.some.inj (hsuper.symm.trans hsuper')) (houtside _ habove)
      | link habove' hsuper' hchain' =>
          have hiri := Option.some.inj (hsuper.symm.trans hsuper')
          obtain rfl := List.inj_on_of_nodup_map hdistinct habove habove' hiri
          rw [ih hchain']

theorem lastWith?_eq_some (hdistinct : (classes.map (·.iri)).Nodup) :
    lastWith? classes iri = some c ↔ c ∈ classes ∧ c.iri = iri := by
  refine ⟨lastWith?_mem, ?_⟩
  rintro ⟨hc, rfl⟩
  have hsome : (lastWith? classes c.iri).isSome = true := by
    unfold lastWith?
    rw [List.find?_isSome]
    exact ⟨c, List.mem_reverse.mpr hc, by simp⟩
  obtain ⟨d, hd⟩ := Option.isSome_iff_exists.mp hsome
  obtain ⟨hmem, hiri⟩ := lastWith?_mem hd
  rw [hd, List.inj_on_of_nodup_map hdistinct hmem hc hiri]

theorem lastWith?_eq_none : lastWith? classes iri = none ↔ ∀ d ∈ classes, d.iri ≠ iri := by
  unfold lastWith?
  simp [List.find?_eq_none]

/-- A depth is found among the classes that are not below the one it is the depth of. -/
theorem chainLength_depthAmong (hdistinct : (classes.map (·.iri)).Nodup)
    (hacyclic : ¬ Cyclic classes) (others : List ClassDescription) (c : ClassDescription)
    (hc : c ∈ classes) (hothers : others.Sublist classes)
    (hpassed : ∀ d ∈ classes, d ∉ others → Relation.ReflTransGen (Below classes) d c) :
    ChainLength classes c (depthAmong others c) := by
  -- No class above `c` is passed already, as the links run in no circle.
  have hfound : ∀ above, Below classes c above → above ∈ others := by
    intro above hbelow
    by_contra hnot
    exact hacyclic ⟨above, .tail' (hpassed above hbelow.2.1 hnot) hbelow⟩
  unfold depthAmong
  split
  · rename_i hroot
    exact .root hroot
  · rename_i superclass hsuper
    split
    · rename_i hnone
      refine .outside hsuper fun d hd hiri => ?_
      have hd' := hfound d ⟨hc, hd, by rw [hsuper, hiri]⟩
      exact lastWith?_eq_none.mp hnone d hd' hiri
    · rename_i next hnext
      have hfewer := length_without_lt hnext
      obtain ⟨hmem, rfl⟩ := lastWith?_mem hnext
      have hmem := hothers.subset hmem
      refine .link hmem hsuper (chainLength_depthAmong hdistinct hacyclic _ next hmem
        (List.filter_sublist.trans hothers) fun d hd hnot => ?_)
      by_cases hd' : d ∈ others
      · have hiri : d.iri = next.iri := by simpa [without, hd'] using hnot
        rw [List.inj_on_of_nodup_map hdistinct hd hmem hiri]
      · exact (hpassed d hd hd').tail ⟨hc, hmem, hsuper⟩
termination_by others.length

/-- **The depth of a class is the length of its chain of superclasses.** -/
theorem chainLength_depth (hdistinct : (classes.map (·.iri)).Nodup) (hacyclic : ¬ Cyclic classes)
    (hc : c ∈ classes) : ChainLength classes c (depth classes c) := by
  refine chainLength_depthAmong hdistinct hacyclic _ c hc List.filter_sublist fun d hd hnot => ?_
  have hiri : d.iri = c.iri := by simpa [without, hd] using hnot
  rw [List.inj_on_of_nodup_map hdistinct hd hc hiri]

end Depth

/-! ### Taking the least key -/

/-- One class is taken before another where both are free. -/
def Ranked.Before (r other : Ranked) : Prop :=
  r.key < other.key ∨ r.key = other.key ∧ r.place < other.place

namespace Ranked.Before

variable {r other third : Ranked}

theorem trans (h : r.Before other) (hnext : other.Before third) : r.Before third := by
  rcases h with hlt | ⟨heq, hplace⟩
  · rcases hnext with hlt' | ⟨heq', -⟩
    · exact .inl (lt_trans hlt hlt')
    · exact .inl (heq' ▸ hlt)
  · rcases hnext with hlt' | ⟨heq', hplace'⟩
    · exact .inl (heq ▸ hlt')
    · exact .inr ⟨heq.trans heq', Nat.lt_trans hplace hplace'⟩

theorem irrefl : ¬ r.Before r := by
  rintro (hlt | ⟨-, hlt⟩)
  · exact lt_irrefl _ hlt
  · exact Nat.lt_irrefl _ hlt

theorem not_key_lt (h : r.Before other) : ¬ other.key < r.key := by
  intro hlt
  rcases h with hlt' | ⟨heq, -⟩
  · exact lt_asymm hlt hlt'
  · exact lt_irrefl _ (heq ▸ hlt)

end Ranked.Before

/-- In the order of their places, the class to take is before all others. -/
theorem least?_before {candidates : List Ranked} {r : Ranked}
    (hplaces : candidates.Pairwise (·.place < ·.place)) (h : least? candidates = some r) :
    ∀ other ∈ candidates, other = r ∨ r.Before other := by
  obtain ⟨step, hleast, hfirst, hstep⟩ : ∃ step : Option Ranked → Ranked → Option Ranked,
      (∀ l, least? l = l.foldl step none) ∧ (∀ r, step none r = some r) ∧
        ∀ b r, step (some b) r = if r.key < b.key then some r else some b :=
    ⟨_, fun _ => rfl, fun _ => rfl, fun _ _ => rfl⟩
  have key : ∀ (l : List Ranked) (best : Ranked), (best :: l).Pairwise (·.place < ·.place) →
      l.foldl step (some best) = some r → ∀ other ∈ best :: l, other = r ∨ r.Before other := by
    intro l
    induction l with
    | nil =>
        intro best _ hbest other hother
        rw [List.mem_singleton.mp hother]
        exact .inl (Option.some.inj hbest)
    | cons x rest ih =>
        intro best hplaces hfold
        rw [List.foldl_cons, hstep] at hfold
        obtain ⟨hbest, hrest⟩ := List.pairwise_cons.mp hplaces
        split at hfold
        · rename_i hlt
          have hleast := ih x hrest hfold
          refine List.forall_mem_cons.mpr ⟨?_, hleast⟩
          rcases hleast x List.mem_cons_self with rfl | hx
          · exact .inr (.inl hlt)
          · exact .inr (hx.trans (.inl hlt))
        · rename_i hnot
          have hleast := ih best (hplaces.sublist (by simp)) hfold
          refine List.forall_mem_cons.mpr ⟨hleast best List.mem_cons_self, ?_⟩
          refine List.forall_mem_cons.mpr ⟨?_, fun y hy => hleast y (List.mem_cons_of_mem _ hy)⟩
          have hbefore : best.Before x := by
            rcases lt_or_eq_of_le (not_lt.mp hnot) with hlt | heq
            · exact .inl hlt
            · exact .inr ⟨heq, hbest x List.mem_cons_self⟩
          rcases hleast best List.mem_cons_self with rfl | hr
          · exact .inr hbefore
          · exact .inr (hr.trans hbefore)
  cases candidates with
  | nil => simp
  | cons x rest =>
      rw [hleast, List.foldl_cons, hfirst] at h
      exact key rest x hplaces h

section Taking

variable {edges : List (Nat × Nat)}

/-- **Where keys rise along all links, the class to take is before all that are left.** -/
theorem exists_next? {left : List Ranked} (hne : left ≠ [])
    (hplaces : left.Pairwise (·.place < ·.place))
    (hrise : ∀ x ∈ left, ∀ y ∈ left, (x.place, y.place) ∈ edges → x.key < y.key) :
    ∃ r, next? edges left = some r ∧ r ∈ left ∧ ∀ other ∈ left, other = r ∨ r.Before other := by
  obtain ⟨first, hfirst, hleast⟩ := (least?_some_or_none left).resolve_right fun h => hne h.1
  have hbefore := least?_before hplaces hleast
  -- What links to the first of all would have a lesser key than it.
  have hfree : isFree edges left first = true := by
    simp only [isFree, List.all_eq_true, Bool.not_eq_true', List.contains_eq_mem,
      decide_eq_false_iff_not]
    intro other hother hlink
    have hlt := hrise other hother first hfirst hlink
    rcases hbefore other hother with rfl | h
    · exact lt_irrefl _ hlt
    · exact h.not_key_lt hlt
  have hcandidate : first ∈ left.filter (isFree edges left) := List.mem_filter.mpr ⟨hfirst, hfree⟩
  obtain ⟨r, -, hnext⟩ := (least?_some_or_none (left.filter (isFree edges left))).resolve_right
    fun h => by simp [h.1] at hcandidate
  have hr := (next?_some hnext).1
  refine ⟨r, hnext, hr, ?_⟩
  rcases least?_before (hplaces.sublist List.filter_sublist) hnext first hcandidate with rfl | h
  · exact hbefore
  · rcases hbefore r hr with rfl | h'
    · exact hbefore
    · exact absurd (h.trans h') Ranked.Before.irrefl

/-- **Where keys rise along all links, the classes are taken in the order of their keys.** -/
theorem take?_sorted : ∀ (count : Nat) (left : List Ranked), left.length = count →
    left.Pairwise (·.place < ·.place) →
    (∀ x ∈ left, ∀ y ∈ left, (x.place, y.place) ∈ edges → x.key < y.key) →
    ∃ taken : List Ranked, take? edges count left = some (taken.map (·.description)) ∧
      taken.Perm left ∧ taken.Pairwise Ranked.Before := by
  intro count
  induction count with
  | zero =>
      intro left hlength _ _
      rw [List.eq_nil_of_length_eq_zero hlength]
      exact ⟨[], rfl, .nil, .nil⟩
  | succ count ih =>
      intro left hlength hplaces hrise
      have hne : left ≠ [] := by
        rintro rfl
        simp at hlength
      obtain ⟨r, hnext, hr, hbefore⟩ := exists_next? hne hplaces hrise
      have hperm := (placed_of_places hplaces).perm_cons hr
      have hsub : ∀ x ∈ left.filter (·.place ≠ r.place), x ∈ left :=
        fun x hx => (List.mem_filter.mp hx).1
      obtain ⟨rest, htake, hrest, hsorted⟩ := ih (left.filter (·.place ≠ r.place))
        (by have := hperm.length_eq; simp only [List.length_cons] at this; omega)
        (hplaces.sublist List.filter_sublist)
        (fun x hx y hy => hrise x (hsub x hx) y (hsub y hy))
      refine ⟨r :: rest, ?_, (hrest.cons r).trans hperm, List.pairwise_cons.mpr ⟨?_, hsorted⟩⟩
      · rw [take?, hnext]
        simp only [htake, Option.map_some, List.map_cons]
      · intro x hx
        have hx := hrest.mem_iff.mp hx
        refine (hbefore x (hsub x hx)).resolve_left ?_
        rintro rfl
        simp at hx

end Taking

/-! ### The order by depth -/

/-- Whether a class is less deep than another one, or as deep and not after it by name and IRI. -/
def notDeeper (classes : List ClassDescription) (a b : ClassDescription) : Bool :=
  depth classes a < depth classes b ||
    (depth classes a = depth classes b && notAfter [a.name, a.iri.text] [b.name, b.iri.text])

/-- The classes sorted by depth, name and IRI. -/
def byDepth (classes : List ClassDescription) : List ClassDescription :=
  classes.mergeSort (notDeeper classes)

section Depths

variable {classes : List ClassDescription}

theorem notDeeper_iff {a b : ClassDescription} :
    notDeeper classes a b = true ↔ depth classes a < depth classes b ∨
      depth classes a = depth classes b ∧
        notAfter [a.name, a.iri.text] [b.name, b.iri.text] = true := by
  simp [notDeeper]

theorem byDepth_sorted (classes : List ClassDescription) :
    (byDepth classes).Pairwise fun a b => notDeeper classes a b = true := by
  refine List.pairwise_mergeSort ?_ ?_ classes
  · intro a b c hab hbc
    rw [notDeeper_iff] at hab hbc ⊢
    rcases hab with hab | ⟨hab, htexts⟩
    · omega
    · rcases hbc with hbc | ⟨hbc, htexts'⟩
      · omega
      · exact .inr ⟨hab.trans hbc, notAfter_trans htexts htexts'⟩
  · intro a b
    rw [Bool.or_eq_true, notDeeper_iff, notDeeper_iff]
    rcases Nat.lt_trichotomy (depth classes a) (depth classes b) with hlt | heq | hgt
    · exact .inl (.inl hlt)
    · exact (notAfter_total _ _).imp (fun h => .inr ⟨heq, h⟩) fun h => .inr ⟨heq.symm, h⟩
    · exact .inr (.inl hgt)

variable (hdistinct : (classes.map (·.iri)).Nodup)

include hdistinct

/-- Classes with distinct IRIs can be sorted by depth, name and IRI in one way only. -/
theorem eq_byDepth {ordered : List ClassDescription} (hperm : ordered.Perm classes)
    (hsorted : ordered.Pairwise fun a b => notDeeper classes a b = true) :
    ordered = byDepth classes := by
  have hsame := hperm.trans (List.mergeSort_perm classes (notDeeper classes)).symm
  refine hsame.eq_of_pairwise ?_ hsorted (byDepth_sorted classes)
  intro a b ha hb hab hba
  rw [notDeeper_iff] at hab hba
  have hab : notAfter [a.name, a.iri.text] [b.name, b.iri.text] = true := by
    rcases hab with hlt | ⟨-, htexts⟩
    · omega
    · exact htexts
  have hba : notAfter [b.name, b.iri.text] [a.name, a.iri.text] = true := by
    rcases hba with hlt | ⟨-, htexts⟩
    · omega
    · exact htexts
  have htexts := notAfter_antisymm hab hba
  simp only [List.cons.injEq, Iri.text_inj, and_true] at htexts
  exact List.inj_on_of_nodup_map hdistinct (hperm.mem_iff.mp ha)
    (hperm.mem_iff.mp (hsame.mem_iff.mpr hb)) htexts.2

variable (hacyclic : ¬ Cyclic classes)

include hacyclic

/-- Depths do not depend on the order of the list. -/
theorem depth_perm {other : List ClassDescription} (hperm : other.Perm classes)
    {c : ClassDescription} (hc : c ∈ classes) : depth other c = depth classes c := by
  have hother : (other.map (·.iri)).Nodup := (hperm.map _).nodup_iff.mpr hdistinct
  have hchain := chainLength_depth hother (by rwa [Cyclic, below_perm hperm])
    (hperm.mem_iff.mpr hc)
  exact (hchain.perm hperm).unique hdistinct (chainLength_depth hdistinct hacyclic hc)

theorem byDepth_perm {other : List ClassDescription} (hperm : other.Perm classes) :
    byDepth other = byDepth classes := by
  have hsorted := (List.mergeSort_perm other (notDeeper other)).trans hperm
  refine eq_byDepth hdistinct hsorted ((byDepth_sorted other).imp_of_mem ?_)
  intro a b ha hb h
  have ha := hsorted.mem_iff.mp ha
  have hb := hsorted.mem_iff.mp hb
  rwa [notDeeper, depth_perm hdistinct hacyclic hperm ha, depth_perm hdistinct hacyclic hperm hb]
    at h

/-- A class is one deeper than its superclass. -/
theorem depth_of_below {c above : ClassDescription} (h : Below classes c above) :
    depth classes c = depth classes above + 1 :=
  (chainLength_depth hdistinct hacyclic h.1).unique hdistinct
    (.link h.2.1 h.2.2 (chainLength_depth hdistinct hacyclic h.2.1))

/-- The key of a class is made of its depth and its name. -/
theorem key_ranked {r : Ranked} (hr : r ∈ ranked (byName classes)) :
    r.description ∈ classes ∧
      r.key = sortKey (depth classes r.description) r.description.name := by
  obtain ⟨⟨c, i⟩, hmem, rfl⟩ := List.mem_map.mp hr
  have hsorted : c ∈ byName classes :=
    List.mem_of_getElem? (List.mem_zipIdx_iff_getElem?.mp hmem)
  have hc : c ∈ classes := (byName_perm classes).mem_iff.mp hsorted
  refine ⟨hc, ?_⟩
  dsimp only
  rw [(lastWith?_eq_some (distinct_byName hdistinct)).mpr ⟨hsorted, rfl⟩, Option.getD_some,
    depth_perm hdistinct hacyclic (byName_perm classes) hc]

variable (hdepth : ∀ c ∈ classes, depth classes c < 1000000)

include hdepth

/-- Keys rise along all links. -/
theorem key_lt_of_link {x y : Ranked} (hx : x ∈ ranked (byName classes))
    (hy : y ∈ ranked (byName classes)) (hlink : (x.place, y.place) ∈ links (byName classes)) :
    x.key < y.key := by
  obtain ⟨hxmem, hxkey⟩ := key_ranked hdistinct hacyclic hx
  obtain ⟨hymem, hykey⟩ := key_ranked hdistinct hacyclic hy
  have hbelow := (ranked_links hdistinct hx hy).mp hlink
  rw [hxkey, hykey]
  refine sortKey_lt_of_depth (hdepth _ hxmem) (hdepth _ hymem) ?_
  rw [depth_of_below hdistinct hacyclic hbelow]
  exact Nat.lt_succ_self _

/-- What is taken before another class is not deeper, nor after it by name and IRI. -/
theorem notDeeper_of_before {x y : Ranked} (hx : x ∈ ranked (byName classes))
    (hy : y ∈ ranked (byName classes)) (h : x.Before y) :
    notDeeper classes x.description y.description = true := by
  obtain ⟨hxmem, hxkey⟩ := key_ranked hdistinct hacyclic hx
  obtain ⟨hymem, hykey⟩ := key_ranked hdistinct hacyclic hy
  rw [notDeeper_iff]
  rcases h with hlt | ⟨heq, hplace⟩
  · rw [hxkey, hykey, sortKey_lt_iff (hdepth _ hxmem) (hdepth _ hymem)] at hlt
    exact hlt.imp_right fun ⟨hsame, hname⟩ => ⟨hsame, (notAfter_cons ..).mpr (.inl hname)⟩
  · rw [hxkey, hykey] at heq
    refine .inr ⟨(sortKey_inj (hdepth _ hxmem) (hdepth _ hymem) heq).1, ?_⟩
    -- Of equal keys that of the earlier place is taken, and places are given by name and IRI.
    obtain ⟨hxlt, hxat⟩ := List.getElem?_eq_some_iff.mp (mem_ranked hx)
    obtain ⟨hylt, hyat⟩ := List.getElem?_eq_some_iff.mp (mem_ranked hy)
    have hsorted := sortByTexts_sorted (fun c : ClassDescription => [c.name, c.iri.text]) classes
    have hnames := List.pairwise_iff_getElem.mp hsorted x.place y.place hxlt hylt hplace
    rw [← hxat, ← hyat]
    exact hnames

/-- The order that is found is the sort by depth. -/
theorem order_sorted : order classes = (byDepth classes, []) := by
  obtain ⟨taken, htake, hperm, hsorted⟩ :=
    @take?_sorted (links (byName classes)) _ (ranked (byName classes)) rfl (ranked_places _)
      fun x hx y hy => key_lt_of_link hdistinct hacyclic hdepth hx hy
  have hlength : (ranked (byName classes)).length = (byName classes).length := by simp [ranked]
  rw [hlength] at htake
  have hfound : topological? classes = some (taken.map (·.description)) := htake
  have heq : taken.map (·.description) = byDepth classes := by
    refine eq_byDepth hdistinct (topological?_perm hfound) (List.pairwise_map.mpr ?_)
    refine hsorted.imp_of_mem fun hx hy h => ?_
    exact notDeeper_of_before hdistinct hacyclic hdepth (hperm.mem_iff.mp hx)
      (hperm.mem_iff.mp hy) h
  rw [order, hfound, heq]

/--
**The order with superclasses first is the sort by depth, name and IRI.**

No two of the classes have one IRI, their superclass links run in no circle, and no depth
takes more than six digits.  The depth of a class is the length of its chain of superclasses,
where the first one that is not listed still counts.  Nothing is reported, and the classes
come in the same order however they are given.
-/
theorem order_eq_byDepth :
    order classes = (byDepth classes, []) ∧
    ((order classes).1.Pairwise fun a b =>
      depth classes a < depth classes b ∨ depth classes a = depth classes b ∧
        (a.name < b.name ∨ a.name = b.name ∧ a.iri.text < b.iri.text)) ∧
    (∀ c ∈ classes, ∀ n, ChainLength classes c n ↔ depth classes c = n) ∧
    ∀ other, other.Perm classes → order other = order classes := by
  have horder := order_sorted hdistinct hacyclic hdepth
  refine ⟨horder, ?_, fun c hc n => ?_, fun other hperm => ?_⟩
  · rw [horder]
    have hne : (byDepth classes).Pairwise fun a b => a.iri ≠ b.iri :=
      List.pairwise_map.mp (((List.mergeSort_perm classes _).map _).nodup_iff.mpr hdistinct)
    refine ((byDepth_sorted classes).and hne).imp ?_
    rintro a b ⟨hsorted, hiri⟩
    exact (notDeeper_iff.mp hsorted).imp_right fun ⟨hsame, htexts⟩ =>
      ⟨hsame, name_or_iri_lt htexts hiri⟩
  · have hchain := chainLength_depth hdistinct hacyclic hc
    constructor
    · exact fun hn => hchain.unique hdistinct hn
    · rintro rfl
      exact hchain
  · have hother : (other.map (·.iri)).Nodup := (hperm.map _).nodup_iff.mpr hdistinct
    have hshallow : ∀ c ∈ other, depth other c < 1000000 := by
      intro c hc
      rw [depth_perm hdistinct hacyclic hperm (hperm.mem_iff.mp hc)]
      exact hdepth c (hperm.mem_iff.mp hc)
    rw [horder, order_sorted hother (by rwa [Cyclic, below_perm hperm]) hshallow,
      byDepth_perm hdistinct hacyclic hperm]

end Depths

/-- Classes of a university.  One is below a class of another ontology. -/
def university : List ClassDescription := [
  named "PhdStudent" "Student", named "Agent", named "Student" "Person", named "Course",
  named "Person" "Agent", named "Alumni" "Archive", named "Organization" "Agent"]

/-- The same classes, the least deep ones first. -/
def universityByDepth : List ClassDescription := [
  named "Agent", named "Course", named "Alumni" "Archive", named "Organization" "Agent",
  named "Person" "Agent", named "Student" "Person", named "PhdStudent" "Student"]

theorem university_acyclic : ¬ Cyclic university := by
  refine not_cyclic_of_rank (depth university) fun c above h => ?_
  have hrank : ∀ c ∈ university, ∀ above ∈ university, c.superclass = some above.iri →
      depth university above < depth university c := by
    decide +kernel
  exact hrank c h.1 above h.2.1 h.2.2

theorem order_university_byDepth :
    ((university.map (·.iri)).Nodup ∧ ¬ Cyclic university ∧
      ∀ c ∈ university, depth university c < 1000000) ∧
    order university = (universityByDepth, []) ∧
    ChainLength university (named "PhdStudent" "Student") 3 ∧
    ChainLength university (named "Alumni" "Archive") 1 ∧
    order university.reverse = (universityByDepth, []) := by
  have hdistinct : (university.map (·.iri)).Nodup := by decide +kernel
  have hdepth : ∀ c ∈ university, depth university c < 1000000 := by decide +kernel
  obtain ⟨horder, -, hchain, hsame⟩ := order_eq_byDepth hdistinct university_acyclic hdepth
  have hsorted : universityByDepth = byDepth university :=
    eq_byDepth hdistinct (by decide +kernel) (by decide +kernel)
  have hstudent : depth university (named "PhdStudent" "Student") = 3 := by decide +kernel
  have halumni : depth university (named "Alumni" "Archive") = 1 := by decide +kernel
  refine ⟨⟨hdistinct, university_acyclic, hdepth⟩, by rw [horder, hsorted],
    (hchain _ (by decide +kernel) 3).mpr hstudent, (hchain _ (by decide +kernel) 1).mpr halumni, ?_⟩
  rw [hsame _ university.reverse_perm, horder, hsorted]

end OntoCode.Hierarchy
