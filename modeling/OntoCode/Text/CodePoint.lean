/-
Sets of characters given as ranges of code points.

A property of characters that a standard lists is kept as the ranges of its code
points in increasing order.  Whether a character has it is then a walk along the
ranges that stops at the first one that begins behind the character, so the plain
letters, which come first in every table, are found at once.
-/
namespace OntoCode.Text

/-- Closed ranges of code points, in increasing order. -/
abbrev Ranges := List (Nat × Nat)

/-- Whether a code point lies in one of the ranges. -/
def Ranges.has : Ranges → Nat → Bool
  | [], _ => false
  | (low, high) :: rest, n => if n < low then false else n ≤ high || Ranges.has rest n

/-- The first code point of the range a code point lies in. -/
def Ranges.start? : Ranges → Nat → Option Nat
  | [], _ => none
  | (low, high) :: rest, n =>
    if n < low then none else if n ≤ high then some low else Ranges.start? rest n

theorem Ranges.has_of_mem {ranges : Ranges} {n : Nat} (h : ranges.has n = true) :
    ∃ range ∈ ranges, range.1 ≤ n ∧ n ≤ range.2 := by
  induction ranges with
  | nil => simp [Ranges.has] at h
  | cons range rest ih =>
    by_cases hlow : n < range.1
    · simp [Ranges.has, hlow] at h
    · simp only [Ranges.has, hlow, if_false, Bool.or_eq_true, decide_eq_true_eq] at h
      rcases h with hhigh | hrest
      · exact ⟨range, by simp, Nat.le_of_not_lt hlow, hhigh⟩
      · obtain ⟨found, hmem, hin⟩ := ih hrest
        exact ⟨found, by simp [hmem], hin⟩

end OntoCode.Text
