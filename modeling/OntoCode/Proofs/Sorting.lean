/-
Sorting by texts does not depend on the order a list came in.

`notAfter` is a total order on lists of texts, so the sorted list is the only
ordered rearrangement of its members, as long as no two members have the same
texts.  That is what makes every sorted answer a function of a set.
-/
import Mathlib.Data.List.Sort
import Mathlib.Data.String.Basic
import OntoCode.Rdf.Graph

namespace OntoCode.Text

/-! ### The order of texts -/

theorem notAfter_cons (a b : String) (as bs : List String) :
    notAfter (a :: as) (b :: bs) = true ↔ a < b ∨ a = b ∧ notAfter as bs = true := by
  simp [notAfter]

theorem notAfter_trans : ∀ {as bs cs : List String}, notAfter as bs = true →
    notAfter bs cs = true → notAfter as cs = true := by
  intro as
  induction as with
  | nil => intro bs cs _ _; rfl
  | cons a as ih =>
      intro bs cs hab hbc
      cases bs with
      | nil => simp [notAfter] at hab
      | cons b bs =>
          cases cs with
          | nil => simp [notAfter] at hbc
          | cons c cs =>
              rw [notAfter_cons] at hab hbc ⊢
              rcases hab with hab | ⟨rfl, hab⟩
              · rcases hbc with hbc | ⟨rfl, -⟩
                · exact Or.inl (lt_trans hab hbc)
                · exact Or.inl hab
              · rcases hbc with hbc | ⟨rfl, hbc⟩
                · exact Or.inl hbc
                · exact Or.inr ⟨rfl, ih hab hbc⟩

theorem notAfter_total : ∀ (as bs : List String),
    notAfter as bs = true ∨ notAfter bs as = true := by
  intro as
  induction as with
  | nil => intro bs; exact Or.inl rfl
  | cons a as ih =>
      intro bs
      cases bs with
      | nil => exact Or.inr rfl
      | cons b bs =>
          rw [notAfter_cons, notAfter_cons]
          rcases lt_trichotomy a b with hab | rfl | hab
          · exact Or.inl (Or.inl hab)
          · rcases ih bs with h | h
            · exact Or.inl (Or.inr ⟨rfl, h⟩)
            · exact Or.inr (Or.inr ⟨rfl, h⟩)
          · exact Or.inr (Or.inl hab)

theorem notAfter_antisymm : ∀ {as bs : List String}, notAfter as bs = true →
    notAfter bs as = true → as = bs := by
  intro as
  induction as with
  | nil =>
      intro bs _ hba
      cases bs with
      | nil => rfl
      | cons b bs => simp [notAfter] at hba
  | cons a as ih =>
      intro bs hab hba
      cases bs with
      | nil => simp [notAfter] at hab
      | cons b bs =>
          rw [notAfter_cons] at hab hba
          rcases hab with hab | ⟨rfl, hab⟩
          · rcases hba with hba | ⟨rfl, -⟩
            · exact absurd hab (lt_asymm hba)
            · exact absurd hab (lt_irrefl _)
          · rcases hba with hba | ⟨-, hba⟩
            · exact absurd hba (lt_irrefl _)
            · rw [ih hab hba]

/-! ### Sorted lists -/

variable {α : Type} {key : α → List String}

/-- A sorted list is in order. -/
theorem sortByTexts_sorted (key : α → List String) (l : List α) :
    (sortByTexts key l).Pairwise fun a b => notAfter (key a) (key b) = true := by
  refine List.pairwise_mergeSort ?_ ?_ l
  · intro a b c hab hbc
    exact notAfter_trans hab hbc
  · intro a b
    rw [Bool.or_eq_true]
    exact notAfter_total (key a) (key b)

/-- Sorting leaves a list in order as it is. -/
theorem sortByTexts_of_sorted {l : List α}
    (h : l.Pairwise fun a b => notAfter (key a) (key b) = true) : sortByTexts key l = l :=
  List.mergeSort_of_pairwise h

/-- **A list is sorted alike in whatever order its members come**, if their texts tell them
apart. -/
theorem sortByTexts_congr {l₁ l₂ : List α} (hperm : l₁.Perm l₂)
    (hkey : ∀ a ∈ l₁, ∀ b ∈ l₁, key a = key b → a = b) :
    sortByTexts key l₁ = sortByTexts key l₂ := by
  have hperm' : (sortByTexts key l₁).Perm (sortByTexts key l₂) :=
    (sortByTexts_perm key l₁).trans (hperm.trans (sortByTexts_perm key l₂).symm)
  refine hperm'.eq_of_pairwise ?_ (sortByTexts_sorted key l₁) (sortByTexts_sorted key l₂)
  intro a b ha hb hab hba
  have hb₁ : b ∈ l₁ := hperm.mem_iff.mpr (mem_sortByTexts.mp hb)
  exact hkey a (mem_sortByTexts.mp ha) b hb₁ (notAfter_antisymm hab hba)

/-- A list that is sorted by some texts is sorted by those in front of them. -/
theorem notAfter_of_append : ∀ {as bs cs ds : List String}, as.length = bs.length →
    notAfter (as ++ cs) (bs ++ ds) = true → notAfter as bs = true := by
  intro as
  induction as with
  | nil => intro bs cs ds _ _; rfl
  | cons a as ih =>
      intro bs cs ds hlength h
      cases bs with
      | nil => simp at hlength
      | cons b bs =>
          rw [List.cons_append, List.cons_append, notAfter_cons] at h
          rw [notAfter_cons]
          exact h.imp_right fun ⟨heq, h⟩ => ⟨heq, ih (by simpa using hlength) h⟩

/-- Sorted lists of texts with the same members are the same. -/
theorem eq_of_sorted {l₁ l₂ : List (List String)} (hperm : l₁.Perm l₂)
    (h₁ : l₁.Pairwise fun a b => notAfter a b = true)
    (h₂ : l₂.Pairwise fun a b => notAfter a b = true) : l₁ = l₂ :=
  hperm.eq_of_pairwise (fun _ _ _ _ hab hba => notAfter_antisymm hab hba) h₁ h₂

end OntoCode.Text
