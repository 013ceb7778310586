/-
Which names of classes are identifiers.

An identifier is made of letters, digits and underscores and does not start with a digit.
Sanitising gives a local name this form: a digit in front gets an underscore before it.

The name of a class is the sanitised name in its capitalised spelling, which joins the words
that underscores stand between.  Where there are several words this drops all underscores,
also the one that was put before a digit.  So exactly the local names of several words whose
first one starts with a digit lead to a name that is no identifier.
-/
import OntoCode.Proofs.Identifiers

namespace OntoCode

open OntoCode.Naming OntoCode.Rdf OntoCode.Text

namespace Text

/-- Capitalising leaves no small letter. -/
theorem isAsciiLower_upperAscii (c : Char) : isAsciiLower (upperAscii c) = false := by
  rw [Bool.eq_false_iff, Ne, isAsciiLower_iff, toNat_upperAscii]
  split <;> omega

/-- Capitalising makes no digits and leaves those there are. -/
theorem isAsciiDigit_upperAscii (c : Char) : isAsciiDigit (upperAscii c) = isAsciiDigit c := by
  rw [Bool.eq_iff_iff, isAsciiDigit_iff, isAsciiDigit_iff, toNat_upperAscii]
  split <;> omega

end Text

namespace Naming

/-- Whether a character is a letter or a digit of ASCII. -/
def isAlphanumeric (c : Char) : Bool := isAsciiLetter c || isAsciiDigit c

theorem isNameChar_of_isAlphanumeric {c : Char} (h : isAlphanumeric c = true) :
    isNameChar c = true := by
  rw [isNameChar, show (isAsciiLetter c || isAsciiDigit c) = true from h, Bool.true_or]

theorem isBlank_of_isNameChar {c : Char} (h : isNameChar c = true) : isBlank c = false := by
  rw [Bool.eq_false_iff]
  intro hblank
  rw [isNameChar_iff] at h
  obtain ⟨range, hrange, hlow, hhigh⟩ := Ranges.has_of_mem hblank
  simp only [blankRanges, List.mem_cons, List.not_mem_nil, or_false] at hrange
  rcases hrange with rfl | rfl | rfl | rfl | rfl | rfl | rfl | rfl | rfl | rfl <;>
    dsimp only at hlow hhigh <;> omega

/-- Among the characters of names only the underscore stands between words. -/
theorem isWordGap_of_isNameChar {c : Char} (h : isNameChar c = true) :
    (!isWordGap c) = isAlphanumeric c := by
  have hhyphen : c ≠ '-' := fun heq => absurd (heq ▸ h) (by decide)
  rw [isWordGap, isBlank_of_isNameChar h, decide_eq_false hhyphen, Bool.or_false, Bool.or_false]
  rw [isNameChar, Bool.or_eq_true, decide_eq_true_iff] at h
  by_cases hunderscore : c = '_'
  · rw [hunderscore]
    rfl
  · rw [decide_eq_false hunderscore]
    exact (h.resolve_right hunderscore).symm

/-! ### The words of a name -/

theorem runs_cons_of_not {keep : Char → Bool} {c : Char} (h : keep c = false) (s : List Char) :
    runs keep (c :: s) = runs keep s := by
  rw [runs, if_neg (by rw [h]; decide)]

/-- What is kept of a text decides its runs. -/
theorem runs_map {keep kept : Char → Bool} {f : Char → Char} {s : List Char}
    (hkeep : ∀ c ∈ s, keep (f c) = kept c) (hsame : ∀ c ∈ s, kept c = true → f c = c) :
    runs keep (s.map f) = runs kept s := by
  induction s with
  | nil => rfl
  | cons c rest ih =>
      have hrest := ih (fun d hd => hkeep d (List.mem_cons_of_mem c hd))
        fun d hd => hsame d (List.mem_cons_of_mem c hd)
      have hnext : (rest.map f).head?.any keep = rest.head?.any kept := by
        cases rest with
        | nil => rfl
        | cons d more => exact hkeep d (by simp)
      have hc := hkeep c List.mem_cons_self
      rw [List.map_cons, runs, runs, hrest, hnext, hc]
      by_cases hkept : kept c = true
      · rw [hsame c List.mem_cons_self hkept]
      · rw [if_neg hkept, if_neg hkept]

/-- Runs are made of what is kept, and none is empty. -/
theorem ne_nil_of_mem_runs {keep : Char → Bool} {s : List Char} :
    ∀ word ∈ runs keep s, word ≠ [] := by
  induction s with
  | nil => simp [runs]
  | cons c rest ih =>
      intro word hword
      rw [runs] at hword
      split at hword
      · split at hword
        · rename_i first more hruns
          rw [hruns] at ih
          split at hword
          · rcases List.mem_cons.mp hword with rfl | hword
            · exact List.cons_ne_nil c first
            · exact ih word (List.mem_cons_of_mem first hword)
          · rcases List.mem_cons.mp hword with rfl | hword
            · exact List.cons_ne_nil c []
            · exact ih word hword
        · rw [List.mem_singleton.mp hword]
          exact List.cons_ne_nil c []
      · exact ih word hword

/-- The words of a local name, as they stand in the name of a class. -/
def alphanumericWords (s : List Char) : List (List Char) := runs isAlphanumeric s

theorem runs_of_isNameText {s : List Char} (h : IsNameText s) :
    runs (fun c => !isWordGap c) s = alphanumericWords s := by
  have hmap : runs (fun c => !isWordGap c) (s.map id) = alphanumericWords s :=
    runs_map (fun c hc => isWordGap_of_isNameChar (h c hc)) fun _ _ _ => rfl
  rwa [List.map_id] at hmap

/-- **Sanitising a name leaves its words.** -/
theorem alphanumericWords_sanitize (s : List Char) :
    alphanumericWords (sanitize s) = alphanumericWords s := by
  have hkept : alphanumericWords (s.map fun c => if isNameChar c then c else '_') =
      alphanumericWords s := by
    refine runs_map (fun c _ => ?_) fun c _ hc => if_pos (isNameChar_of_isAlphanumeric hc)
    by_cases hc : isNameChar c = true
    · rw [if_pos hc]
    · rw [if_neg hc]
      cases halpha : isAlphanumeric c with
      | false => rfl
      | true => exact absurd (isNameChar_of_isAlphanumeric halpha) hc
  unfold sanitize
  dsimp only
  split
  · rename_i hnil
    rw [← hkept, hnil]
    rfl
  · split
    · exact (runs_cons_of_not rfl _).trans hkept
    · exact hkept

/-- **A sanitised name is an identifier.** -/
theorem isIdentifier_sanitize (s : List Char) : IsIdentifier (sanitize s) := by
  have hchars := isNameText_sanitize s
  unfold sanitize at hchars ⊢
  generalize (s.map fun c => if isNameChar c then c else '_') = kept at hchars ⊢
  cases kept with
  | nil => exact isIdentifier_cons.mpr ⟨hchars, rfl⟩
  | cons c rest =>
      dsimp only at hchars ⊢
      by_cases hdigit : isAsciiDigit c = true
      · rw [if_pos hdigit] at hchars ⊢
        exact isIdentifier_cons.mpr ⟨hchars, rfl⟩
      · rw [if_neg hdigit] at hchars ⊢
        exact isIdentifier_cons.mpr ⟨hchars, Bool.not_eq_true _ ▸ hdigit⟩

/-! ### The capitalised spelling -/

/-- A capitalised word starts with no small letter, and with a digit exactly if the word does. -/
theorem exists_upperFirst_eq_cons {c : Char} (hc : isNameChar c = true) (word : List Char) :
    ∃ capital rest, upperFirst (c :: word) = capital :: rest ∧ isAsciiLower capital = false ∧
      isAsciiDigit capital = isAsciiDigit c := by
  refine ⟨upperAscii c, word, ?_, isAsciiLower_upperAscii c, isAsciiDigit_upperAscii c⟩
  rw [upperFirst, upperChar_of_isNameChar hc, List.singleton_append]

/-- The name consists of several words, and the first of them starts with a digit. -/
def StartsWithNumberedWord (s : List Char) : Prop :=
  ∃ digit first second more, alphanumericWords s = (digit :: first) :: second :: more ∧
    isAsciiDigit digit = true

/-- **What the capitalised spelling of an identifier starts with:** no small letter, and a digit
exactly if it consists of several words the first of which does. -/
theorem exists_pascalCase_eq_cons {s : List Char} (h : IsIdentifier s) :
    ∃ capital rest, pascalCase s = capital :: rest ∧ isAsciiLower capital = false ∧
      (isAsciiDigit capital = true ↔ StartsWithNumberedWord s) := by
  have hruns := runs_of_isNameText h.chars
  unfold pascalCase
  split
  · rename_i word second more hwords
    have hword : word ∈ runs (fun c => !isWordGap c) s := hwords ▸ List.mem_cons_self
    obtain ⟨c, first, rfl⟩ := List.exists_cons_of_ne_nil (ne_nil_of_mem_runs word hword)
    have hc := h.chars c (mem_of_mem_runs _ _ hword c List.mem_cons_self)
    obtain ⟨capital, rest, hupper, hsmall, hdigit⟩ := exists_upperFirst_eq_cons hc first
    refine ⟨capital, rest ++ (second :: more).flatMap upperFirst, ?_, hsmall, ?_⟩
    · rw [List.flatMap_cons, hupper, List.cons_append]
    · rw [hdigit]
      constructor
      · exact fun hc => ⟨c, first, second, more, hruns.symm.trans hwords, hc⟩
      · rintro ⟨digit, others, next, further, heq, hdigit⟩
        cases hwords.symm.trans (hruns.trans heq)
        exact hdigit
  · rename_i hfew
    obtain ⟨c, rest, rfl⟩ := List.exists_cons_of_ne_nil h.nonempty
    obtain ⟨capital, rest, hupper, hsmall, hdigit⟩ :=
      exists_upperFirst_eq_cons (h.chars c List.mem_cons_self) rest
    refine ⟨capital, rest, hupper, hsmall, iff_of_false ?_ ?_⟩
    · rw [hdigit, h.start c rfl]
      decide
    · rintro ⟨digit, first, second, more, heq, -⟩
      exact hfew _ _ _ (hruns.trans heq)

/-- **What the name of a class starts with,** read off the words of the local name. -/
theorem exists_className_eq_cons (iri : Iri) :
    ∃ capital rest, (className iri).toList = capital :: rest ∧ isAsciiLower capital = false ∧
      (isAsciiDigit capital = true ↔ StartsWithNumberedWord iri.localName.toList) := by
  obtain ⟨capital, rest, heq, hsmall, hdigit⟩ :=
    exists_pascalCase_eq_cons (isIdentifier_sanitize iri.localName.toList)
  rw [StartsWithNumberedWord, alphanumericWords_sanitize, ← StartsWithNumberedWord] at hdigit
  refine ⟨capital, rest, ?_, hsmall, hdigit⟩
  rw [className, onText, String.toList_ofList, Function.comp_apply, heq]

/-- **Which names of classes are identifiers.**

Whatever the text of an IRI is, the name of its class is not empty and is made of letters, digits
and underscores of ASCII.  It is an identifier exactly if its local name does not consist of several
words of which the first one starts with a digit. -/
theorem className_isIdentifier_iff (iri : Iri) :
    (className iri).toList ≠ [] ∧ IsNameText (className iri).toList ∧
    (IsIdentifier (className iri).toList ↔ ¬ StartsWithNumberedWord iri.localName.toList) := by
  obtain ⟨capital, rest, heq, -, hdigit⟩ := exists_className_eq_cons iri
  have hchars := isNameText_className iri
  rw [heq] at hchars ⊢
  refine ⟨List.cons_ne_nil capital rest, hchars, ?_⟩
  rw [isIdentifier_cons, and_iff_right hchars, ← hdigit, Bool.not_eq_true]

/-- The name of the class of three-dimensional models starts with a digit. -/
theorem model_starts_with_digit :
    className ⟨"http://ex.org/a#3d-model"⟩ = "3dModel" ∧
    ¬ IsIdentifier (className ⟨"http://ex.org/a#3d-model"⟩).toList := by
  have hname : className ⟨"http://ex.org/a#3d-model"⟩ = "3dModel" := by decide +kernel
  refine ⟨hname, fun h => ?_⟩
  rw [hname] at h
  exact absurd (h.start '3' rfl) (by decide)

end Naming

end OntoCode
