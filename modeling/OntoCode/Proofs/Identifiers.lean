/-
The characters of generated names.

Sanitising a local name leaves ASCII letters, digits and underscores.  Capitalising
words changes letters into letters and joins what is left, so that the name of a class
is made of such characters as well.
-/
import OntoCode.Proofs.FileNames

namespace OntoCode

open OntoCode.Naming OntoCode.Rdf OntoCode.Text

namespace Text

/-- The text is made of letters, digits and underscores. -/
def IsNameText (s : List Char) : Prop := ∀ c ∈ s, isNameChar c = true

instance (s : List Char) : Decidable (IsNameText s) :=
  List.decidableBAll (isNameChar · = true) s

theorem IsNameText.append {s t : List Char} (hs : IsNameText s) (ht : IsNameText t) :
    IsNameText (s ++ t) :=
  fun c hc => (List.mem_append.mp hc).elim (hs c) (ht c)

theorem IsNameText.newline_not_mem {s : List Char} (hs : IsNameText s) : '\n' ∉ s :=
  fun hline => absurd (hs _ hline) (by decide)

/-! ### The codes of characters -/

theorem isAsciiUpper_iff {c : Char} : isAsciiUpper c = true ↔ 65 ≤ c.toNat ∧ c.toNat ≤ 90 := by
  rw [isAsciiUpper, Bool.and_eq_true, decide_eq_true_iff, decide_eq_true_iff]
  exact Iff.rfl

theorem isAsciiLower_iff {c : Char} : isAsciiLower c = true ↔ 97 ≤ c.toNat ∧ c.toNat ≤ 122 := by
  rw [isAsciiLower, Bool.and_eq_true, decide_eq_true_iff, decide_eq_true_iff]
  exact Iff.rfl

theorem isAsciiDigit_iff {c : Char} : isAsciiDigit c = true ↔ 48 ≤ c.toNat ∧ c.toNat ≤ 57 := by
  rw [isAsciiDigit, Bool.and_eq_true, decide_eq_true_iff, decide_eq_true_iff]
  exact Iff.rfl

theorem isNameChar_iff {c : Char} : isNameChar c = true ↔
    (65 ≤ c.toNat ∧ c.toNat ≤ 90) ∨ (97 ≤ c.toNat ∧ c.toNat ≤ 122) ∨
      (48 ≤ c.toNat ∧ c.toNat ≤ 57) ∨ c.toNat = 95 := by
  have hunderscore : c = '_' ↔ c.toNat = 95 := Char.toNat_inj.symm
  rw [isNameChar, isAsciiLetter, Bool.or_eq_true, Bool.or_eq_true, Bool.or_eq_true,
    isAsciiUpper_iff, isAsciiLower_iff, isAsciiDigit_iff, decide_eq_true_iff, hunderscore, or_assoc,
    or_assoc]

theorem toNat_lt_of_isNameChar {c : Char} (h : isNameChar c = true) : c.toNat < 128 := by
  rw [isNameChar_iff] at h
  omega

theorem toNat_ofNat {n : Nat} (h : n < 128) : (Char.ofNat n).toNat = n := by
  have hvalid : n.isValidChar := .inl (by omega)
  rw [Char.ofNat, dif_pos hvalid]
  rfl

/-! ### Capitals -/

/-- The upper case of a character of ASCII. -/
def upperAscii (c : Char) : Char := if isAsciiLower c then Char.ofNat (c.toNat - 32) else c

theorem upperChar_of_isNameChar {c : Char} (h : isNameChar c = true) :
    upperChar c = [upperAscii c] := by
  rw [upperChar, if_pos (toNat_lt_of_isNameChar h)]
  rfl

theorem toNat_upperAscii (c : Char) : (upperAscii c).toNat =
    if 97 ≤ c.toNat ∧ c.toNat ≤ 122 then c.toNat - 32 else c.toNat := by
  rw [upperAscii]
  by_cases hsmall : isAsciiLower c = true
  · have hcode := isAsciiLower_iff.mp hsmall
    rw [if_pos hsmall, if_pos hcode, toNat_ofNat (by omega)]
  · rw [if_neg hsmall, if_neg (mt isAsciiLower_iff.mpr hsmall)]

theorem isNameChar_upperAscii {c : Char} (h : isNameChar c = true) :
    isNameChar (upperAscii c) = true := by
  rw [isNameChar_iff] at h
  rw [isNameChar_iff, toNat_upperAscii]
  split <;> omega

theorem isNameText_upperFirst {s : List Char} (h : IsNameText s) : IsNameText (upperFirst s) := by
  cases s with
  | nil => exact h
  | cons first rest =>
      intro c hc
      have hfirst := h first List.mem_cons_self
      rw [upperFirst, upperChar_of_isNameChar hfirst] at hc
      rcases List.mem_cons.mp hc with rfl | hc
      · exact isNameChar_upperAscii hfirst
      · exact h c (List.mem_cons_of_mem _ hc)

/-- The text is an identifier. -/
structure IsIdentifier (s : List Char) : Prop where
  nonempty : s ≠ []
  chars : IsNameText s
  start : ∀ c ∈ s.head?, isAsciiDigit c = false

theorem isIdentifier_cons {c : Char} {s : List Char} :
    IsIdentifier (c :: s) ↔ IsNameText (c :: s) ∧ isAsciiDigit c = false :=
  ⟨fun h => ⟨h.chars, h.start c rfl⟩,
    fun h => ⟨List.cons_ne_nil c s, h.1, fun _ hc => Option.some.inj hc ▸ h.2⟩⟩

instance : (s : List Char) → Decidable (IsIdentifier s)
  | [] => isFalse fun h => h.nonempty rfl
  | c :: s => decidable_of_iff (IsNameText (c :: s) ∧ isAsciiDigit c = false) isIdentifier_cons.symm

theorem IsIdentifier.append {s t : List Char} (hs : IsIdentifier s) (ht : IsNameText t) :
    IsIdentifier (s ++ t) := by
  refine ⟨List.append_ne_nil_of_left_ne_nil hs.nonempty t, hs.chars.append ht, ?_⟩
  rw [List.head?_append_of_ne_nil s hs.nonempty]
  exact hs.start

end Text

namespace Naming

theorem isNameText_sanitize (s : List Char) : IsNameText (sanitize s) := by
  have hkept : IsNameText (s.map fun c => if isNameChar c then c else '_') := by
    intro c hc
    obtain ⟨d, -, rfl⟩ := List.mem_map.mp hc
    by_cases hd : isNameChar d = true
    · rwa [if_pos hd]
    · rw [if_neg hd]
      decide
  unfold sanitize
  dsimp only
  split
  · exact fun c hc => List.mem_singleton.mp hc ▸ by decide
  · rename_i first rest heq
    split
    · intro c hc
      rcases List.mem_cons.mp hc with rfl | hc
      · decide
      · exact hkept c hc
    · exact hkept

theorem isNameText_pascalCase {s : List Char} (h : IsNameText s) : IsNameText (pascalCase s) := by
  unfold pascalCase
  split
  · rename_i first second more hruns
    intro c hc
    obtain ⟨word, hword, hc⟩ := List.mem_flatMap.mp hc
    rw [← hruns] at hword
    exact isNameText_upperFirst (fun d hd => h d (mem_of_mem_runs _ word hword d hd)) c hc
  · exact isNameText_upperFirst h

/-- **The name of a class is made of letters, digits and underscores.** -/
theorem isNameText_className (iri : Iri) : IsNameText (className iri).toList := by
  rw [className, onText, String.toList_ofList, Function.comp_apply]
  exact isNameText_pascalCase (isNameText_sanitize _)

end Naming

end OntoCode
