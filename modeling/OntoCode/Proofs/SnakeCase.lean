/-
The spelling of names with underscores.

Telling the words of a name apart puts underscores in, behind the first character and nowhere
else, and changes nothing else; small letters come last.  That is all that is needed of both
passes over a name, and it is said by `Spaced`.

Where no underscore appears, none was put in.  A name that starts with a small letter then has
no capital at all, because one behind a small letter or a digit would have been set off.  So the
spelling of a name without an underscore is the name.
-/
import OntoCode.Proofs.Identifiers

namespace OntoCode

open OntoCode.Text

namespace Text

/-! ### Small letters of ASCII -/

/-- The lower case of a character of ASCII. -/
def lowerAscii (c : Char) : Char :=
  if isAsciiUpper c then Char.ofNat (c.toNat + 32) else c

/-- The lower case of a name is taken character by character. -/
theorem lower_of_isNameText {s : List Char} (h : IsNameText s) : lower s = s.map lowerAscii := by
  unfold lower
  generalize ([] : List Char) = before
  induction s generalizing before with
  | nil => rfl
  | cons c rest ih =>
      have hc := h c List.mem_cons_self
      have hsigma : c ≠ 'Σ' := fun heq => absurd (heq ▸ hc) (by decide)
      rw [lowerFrom, ih fun d hd => h d (List.mem_cons_of_mem c hd), if_neg hsigma, lowerChar,
        if_pos (toNat_lt_of_isNameChar hc)]
      rfl

theorem toNat_lowerAscii (c : Char) : (lowerAscii c).toNat =
    if 65 ≤ c.toNat ∧ c.toNat ≤ 90 then c.toNat + 32 else c.toNat := by
  rw [lowerAscii]
  by_cases hcapital : isAsciiUpper c = true
  · have hcode := isAsciiUpper_iff.mp hcapital
    rw [if_pos hcapital, if_pos hcode, toNat_ofNat (by omega)]
  · rw [if_neg hcapital, if_neg (mt isAsciiUpper_iff.mpr hcapital)]

theorem isNameChar_lowerAscii {c : Char} (h : isNameChar c = true) :
    isNameChar (lowerAscii c) = true := by
  rw [isNameChar_iff] at h
  rw [isNameChar_iff, toNat_lowerAscii]
  split <;> omega

theorem isAsciiUpper_lowerAscii (c : Char) : isAsciiUpper (lowerAscii c) = false := by
  rw [Bool.eq_false_iff, Ne, isAsciiUpper_iff, toNat_lowerAscii]
  split <;> omega

theorem isAsciiDigit_lowerAscii (c : Char) : isAsciiDigit (lowerAscii c) = isAsciiDigit c := by
  rw [Bool.eq_iff_iff, isAsciiDigit_iff, isAsciiDigit_iff, toNat_lowerAscii]
  split <;> omega

theorem lowerAscii_eq_underscore {c : Char} : lowerAscii c = '_' ↔ c = '_' := by
  have hcode : '_'.toNat = 95 := rfl
  rw [← Char.toNat_inj, ← Char.toNat_inj, toNat_lowerAscii, hcode]
  split <;> omega

/-- A character that is no small letter and is spelt like one is its capital. -/
theorem toNat_of_lowerAscii_eq {c small : Char} (hc : isAsciiLower c = false)
    (hsmall : isAsciiLower small = true) (h : lowerAscii c = small) :
    c.toNat + 32 = small.toNat := by
  have hcode := congrArg Char.toNat h
  rw [toNat_lowerAscii] at hcode
  rw [Bool.eq_false_iff, Ne, isAsciiLower_iff] at hc
  rw [isAsciiLower_iff] at hsmall
  split at hcode <;> omega

theorem lowerAscii_of_not_upper {c : Char} (h : isAsciiUpper c = false) : lowerAscii c = c :=
  if_neg (Bool.eq_false_iff.mp h)

theorem map_lowerAscii_of_not_upper {s : List Char} (h : ∀ c ∈ s, isAsciiUpper c = false) :
    s.map lowerAscii = s :=
  (List.map_congr_left fun c hc => lowerAscii_of_not_upper (h c hc)).trans (List.map_id s)

end Text

namespace Naming

/-! ### Underscores that are put in -/

/-- The second text is the first one with underscores put in, none of them in front. -/
structure Spaced (s t : List Char) : Prop where
  head : t.head? = s.head?
  sublist : s.Sublist t
  others : t.filter (· ≠ '_') = s.filter (· ≠ '_')

namespace Spaced

variable {s t u : List Char}

theorem refl (s : List Char) : Spaced s s := ⟨rfl, .refl s, rfl⟩

theorem trans (hst : Spaced s t) (htu : Spaced t u) : Spaced s u :=
  ⟨htu.head.trans hst.head, hst.sublist.trans htu.sublist, htu.others.trans hst.others⟩

theorem cons (h : Spaced s t) (c : Char) : Spaced (c :: s) (c :: t) :=
  ⟨rfl, h.sublist.cons_cons c, by rw [List.filter_cons, List.filter_cons, h.others]⟩

theorem append (h : Spaced s t) (word : List Char) : Spaced (word ++ s) (word ++ t) := by
  induction word with
  | nil => exact h
  | cons c rest ih => exact ih.cons c

theorem space (h : Spaced s t) (c : Char) : Spaced (c :: s) (c :: '_' :: t) := by
  have hothers : ('_' :: t).filter (· ≠ '_') = s.filter (· ≠ '_') := h.others
  exact ⟨rfl, (h.sublist.cons '_').cons_cons c,
    by rw [List.filter_cons, hothers, List.filter_cons]⟩

/-- What is put in are underscores. -/
theorem eq_or_mem (h : Spaced s t) {c : Char} (hc : c ∈ t) : c = '_' ∨ c ∈ s := by
  by_cases heq : c = '_'
  · exact .inl heq
  · have hmem : c ∈ t.filter (· ≠ '_') := List.mem_filter.mpr ⟨hc, by simpa using heq⟩
    rw [h.others] at hmem
    exact .inr (List.mem_filter.mp hmem).1

theorem isNameText (h : Spaced s t) (hs : IsNameText s) : IsNameText t := by
  intro c hc
  rcases h.eq_or_mem hc with rfl | hc
  · decide
  · exact hs c hc

/-- A text without underscores had none put in. -/
theorem eq_of_not_mem (h : Spaced s t) (ht : '_' ∉ t) : t = s := by
  have hall : ∀ {u : List Char}, '_' ∉ u → u.filter (· ≠ '_') = u := fun hu =>
    List.filter_eq_self.mpr fun c hc => decide_eq_true fun heq : c = '_' => hu (heq ▸ hc)
  rw [← hall ht, h.others, hall fun hs => ht (h.sublist.subset hs)]

end Spaced

theorem spaced_splitWords (s : List Char) : Spaced s (splitWords s) := by
  fun_induction splitWords s with
  | case1 c upper small rest hword word ih =>
      have hrest := (ih.append word).cons small |>.cons upper |>.space c
      rwa [List.takeWhile_append_dropWhile] at hrest
  | case2 c upper small rest hword ih => exact ih.cons c
  | case3 s hshort => exact .refl s

theorem spaced_splitHumps (s : List Char) : Spaced s (splitHumps s) := by
  fun_induction splitHumps s with
  | case1 c upper rest hhump ih => exact (ih.cons upper).space c
  | case2 c upper rest hhump ih => exact ih.cons c
  | case3 s hshort => exact .refl s

/-- The name with underscores between its words, before small letters take over. -/
def spacedWords (s : List Char) : List Char := splitHumps (splitWords s)

theorem spaced_spacedWords (s : List Char) : Spaced s (spacedWords s) :=
  (spaced_splitWords s).trans (spaced_splitHumps _)

/-! ### The spelling of a name -/

theorem snakeCase_eq_map {s : List Char} (h : IsNameText s) :
    snakeCase s = (spacedWords s).map lowerAscii :=
  lower_of_isNameText ((spaced_spacedWords s).isNameText h)

theorem head?_snakeCase {s : List Char} (h : IsNameText s) :
    (snakeCase s).head? = s.head?.map lowerAscii := by
  rw [snakeCase_eq_map h, List.head?_map, (spaced_spacedWords s).head]

theorem isNameText_snakeCase {s : List Char} (h : IsNameText s) : IsNameText (snakeCase s) := by
  intro c hc
  rw [snakeCase_eq_map h] at hc
  obtain ⟨d, hd, rfl⟩ := List.mem_map.mp hc
  exact isNameChar_lowerAscii ((spaced_spacedWords s).isNameText h d hd)

theorem not_upper_of_mem_snakeCase {s : List Char} (h : IsNameText s) :
    ∀ c ∈ snakeCase s, isAsciiUpper c = false := by
  intro c hc
  rw [snakeCase_eq_map h] at hc
  obtain ⟨d, hd, rfl⟩ := List.mem_map.mp hc
  exact isAsciiUpper_lowerAscii d

/-- **The spelling of an identifier is one.** -/
theorem isIdentifier_snakeCase {s : List Char} (h : IsIdentifier s) :
    IsIdentifier (snakeCase s) := by
  have hchars := isNameText_snakeCase h.chars
  have hhead := head?_snakeCase h.chars
  obtain ⟨c, rest, rfl⟩ := List.exists_cons_of_ne_nil h.nonempty
  obtain ⟨others, heq⟩ := List.head?_eq_some_iff.mp hhead
  rw [heq] at hchars ⊢
  rw [isIdentifier_cons, isAsciiDigit_lowerAscii]
  exact ⟨hchars, h.start c rfl⟩

/-! ### Names that are spelled as they are -/

/-- Where no hump is set off and no underscore stands, nothing behind a small letter is a capital. -/
theorem not_upper_of_splitHumps {s : List Char} (hchars : IsNameText s)
    (hfirst : ∀ c ∈ s.head?, isAsciiUpper c = false) (hplain : '_' ∉ splitHumps s) :
    ∀ c ∈ s, isAsciiUpper c = false := by
  fun_induction splitHumps s with
  | case1 c upper rest hhump ih => simp at hplain
  | case2 c upper rest hhump ih =>
      rw [List.mem_cons, not_or] at hplain
      have hc : isAsciiUpper c = false := hfirst c rfl
      have hsmall : (isAsciiLower c || isAsciiDigit c) = true := by
        have hname := hchars c List.mem_cons_self
        rw [isNameChar, isAsciiLetter, hc, Bool.false_or, Bool.or_eq_true] at hname
        exact hname.resolve_right fun h => hplain.1 (of_decide_eq_true h).symm
      have hupper : isAsciiUpper upper = false := by
        rwa [hsmall, Bool.true_and, Bool.not_eq_true] at hhump
      have hrest := ih (fun d hd => hchars d (List.mem_cons_of_mem c hd))
        (fun d hd => Option.some.inj hd ▸ hupper) hplain.2
      exact List.forall_mem_cons.mpr ⟨hc, hrest⟩
  | case3 s hshort =>
      -- At most one character is left, and it is the first one.
      cases s with
      | nil => exact fun c hc => absurd hc List.not_mem_nil
      | cons c rest =>
          cases rest with
          | nil => exact List.forall_mem_singleton.mpr (hfirst c rfl)
          | cons d rest => exact absurd rfl (hshort c d rest)

/-- **A name that starts with no capital and whose spelling has no underscore is its spelling.** -/
theorem snakeCase_eq_self {s : List Char} (hchars : IsNameText s)
    (hfirst : ∀ c ∈ s.head?, isAsciiUpper c = false) (hplain : '_' ∉ snakeCase s) :
    snakeCase s = s := by
  rw [snakeCase_eq_map hchars] at hplain ⊢
  have hspaced : '_' ∉ spacedWords s := fun h => hplain (List.mem_map.mpr ⟨'_', h, by decide⟩)
  have hwords : splitWords s = s := (spaced_splitWords s).eq_of_not_mem fun h =>
    hspaced ((spaced_splitHumps _).sublist.subset h)
  have hhumps : spacedWords s = s := (spaced_spacedWords s).eq_of_not_mem hspaced
  rw [spacedWords, hwords] at hspaced
  have hsmall := not_upper_of_splitHumps hchars hfirst hspaced
  rw [hhumps, map_lowerAscii_of_not_upper hsmall]

end Naming

end OntoCode
