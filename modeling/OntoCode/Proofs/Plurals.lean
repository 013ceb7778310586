/-
Plurals of names.

A name on one line is taken apart before its final part, the longest ending made of small letters
and digits behind a capital or none.  Only this part changes in the plural, and there are four ways
in which it does: a letter or two are put behind it, a final "y" becomes "ies", or it is a word that
has a plural of its own.  `IsPlural` lists them.  What holds of plurals is read off this list: they
start like the name, they are longer than one letter, and they end in one of a few ways, which few
other words do.
-/
import Mathlib.Data.List.TakeWhile
import OntoCode.Proofs.Identifiers
import OntoCode.Naming.Plural

namespace OntoCode.Naming

open OntoCode.Text

/-! ### The final part -/

/-- The text has the form of a final part: small letters and digits, behind a capital or none. -/
inductive IsFinalPart : List Char → Prop
  | small {s : List Char} (hrest : ∀ c ∈ s, continuesPart c = true) : IsFinalPart s
  | capital {c : Char} {s : List Char} (hc : isAsciiUpper c = true)
      (hrest : ∀ d ∈ s, continuesPart d = true) : IsFinalPart (c :: s)

/-- The part is the longest ending of the text that has the form of a final part. -/
structure IsLongestPart (s head part : List Char) : Prop where
  append : head ++ part = s
  form : IsFinalPart part
  longest : ∀ ending, ending <:+ s → IsFinalPart ending → ending <:+ part

theorem not_upper_of_continuesPart {c : Char} (h : continuesPart c = true) :
    isAsciiUpper c = false := by
  rw [continuesPart, Bool.or_eq_true, isAsciiLower_iff, isAsciiDigit_iff] at h
  rw [Bool.eq_false_iff, ne_eq, isAsciiUpper_iff]
  omega

theorem finalPart?_of_form {s : List Char} (h : IsFinalPart s) : finalPart? s = some s := by
  cases h with
  | small hrest =>
      cases s with
      | nil => rfl
      | cons c rest =>
          have hc := not_upper_of_continuesPart (hrest c List.mem_cons_self)
          simp [finalPart?, hc, List.dropWhile_eq_nil_iff.mpr hrest,
            List.takeWhile_eq_self_iff.mpr hrest]
  | capital hc hrest =>
      simp [finalPart?, hc, List.dropWhile_eq_nil_iff.mpr hrest,
        List.takeWhile_eq_self_iff.mpr hrest]

/-- On one line a final part is the whole text. -/
theorem finalPart?_eq_some {s part : List Char} (hline : '\n' ∉ s) (h : finalPart? s = some part) :
    part = s ∧ IsFinalPart s := by
  unfold finalPart? at h
  split at h
  rename_i capital rest hsplit
  obtain ⟨happend, hform⟩ : capital ++ rest = s ∧
      ((∀ c ∈ rest, continuesPart c = true) → IsFinalPart s) := by
    split at hsplit
    · split at hsplit
      · rename_i hc
        cases hsplit
        exact ⟨rfl, .capital hc⟩
      · cases hsplit
        exact ⟨rfl, .small⟩
    · cases hsplit
      exact ⟨rfl, .small⟩
  have hrest : '\n' ∉ rest := fun hmem => hline (happend ▸ List.mem_append_right capital hmem)
  have hwhole := List.takeWhile_append_dropWhile (p := continuesPart) (l := rest)
  split at h
  · rename_i hnil
    rw [hnil, List.append_nil] at hwhole
    rw [← Option.some.inj h, hwhole]
    exact ⟨happend, hform (List.dropWhile_eq_nil_iff.mp hnil)⟩
  · rename_i hend
    rw [← hwhole, hend] at hrest
    simp at hrest
  · cases h

theorem splitFinal?_of_part {s part : List Char} (h : finalPart? s = some part) :
    splitFinal? s = some ([], part) := by
  unfold splitFinal?
  rw [h]

theorem splitFinal?_of_none {c : Char} {rest : List Char} (hc : c ≠ '\n')
    (h : finalPart? (c :: rest) = none) :
    splitFinal? (c :: rest) = (splitFinal? rest).map fun (head, part) => (c :: head, part) := by
  conv_lhs => unfold splitFinal?
  rw [h]
  exact if_neg hc

/-- **A name on one line is taken apart before its longest final part.** -/
theorem exists_splitFinal {s : List Char} (hline : '\n' ∉ s) :
    ∃ head part, splitFinal? s = some (head, part) ∧ IsLongestPart s head part := by
  induction s with
  | nil => exact ⟨[], [], rfl, rfl, .small (fun _ hc => absurd hc List.not_mem_nil), fun _ h _ => h⟩
  | cons c rest ih =>
      cases hpart : finalPart? (c :: rest) with
      | some part =>
          obtain ⟨rfl, hform⟩ := finalPart?_eq_some hline hpart
          exact ⟨[], _, splitFinal?_of_part hpart, rfl, hform, fun _ h _ => h⟩
      | none =>
          rw [List.mem_cons, not_or] at hline
          obtain ⟨head, part, hsplit, happend, hform, hlongest⟩ := ih hline.2
          refine ⟨c :: head, part, ?_, by rw [List.cons_append, happend], hform, ?_⟩
          · rw [splitFinal?_of_none (Ne.symm hline.1) hpart, hsplit]
            rfl
          · intro ending hending hother
            rcases List.suffix_cons_iff.mp hending with rfl | hshorter
            · rw [finalPart?_of_form hother] at hpart
              cases hpart
            · exact hlongest ending hshorter hother

/-- The plural of a name on one line keeps what stands before its longest final part. -/
theorem plural?_of_line {word : List Char} (hline : '\n' ∉ word) (hne : word ≠ []) :
    ∃ head part, IsLongestPart word head part ∧
      plural? word = some (if part = [] then word ++ ['s'] else head ++ pluralPart part) := by
  obtain ⟨head, part, hsplit, hlongest⟩ := exists_splitFinal hline
  refine ⟨head, part, hlongest, ?_⟩
  rw [plural?, if_neg hne, hsplit]
  rfl

/-! ### The ways of making a plural -/

/-- The second text is the first one as a plural. -/
inductive IsPlural (word : List Char) : List Char → Prop
  | s : IsPlural word (word ++ ['s'])
  | es : IsPlural word (word ++ ['e', 's'])
  | ies (stem : List Char) (hword : word = stem ++ ['y']) (hstem : stem ≠ []) :
      IsPlural word (stem ++ ['i', 'e', 's'])
  /-- The last word has a plural of its own, but keeps its first letter as it is spelled. -/
  | irregular (head : List Char) (c : Char) (tail : List Char) (singular plural : String)
      (hlisted : (singular, plural) ∈ irregularPlurals) (hword : word = head ++ c :: tail) :
      IsPlural word (head ++ c :: plural.toList.drop 1)

theorem isPlural_pluralPart (head : List Char) {part : List Char} (hpart : part ≠ []) :
    IsPlural (head ++ part) (head ++ pluralPart part) := by
  have hs : IsPlural (head ++ part) (head ++ (part ++ ['s'])) :=
    List.append_assoc head part _ ▸ .s
  have hes : IsPlural (head ++ part) (head ++ (part ++ ['e', 's'])) :=
    List.append_assoc head part _ ▸ .es
  unfold pluralPart
  split
  · rename_i singular plural hfound
    obtain ⟨c, tail, rfl⟩ := List.exists_cons_of_ne_nil hpart
    exact .irregular head c tail singular plural (List.mem_of_find?_eq_some hfound) rfl
  · split
    case h_6 before more hreverse =>
      obtain rfl : part = (more.reverse ++ [before]) ++ ['y'] := by
        rw [← List.reverse_reverse part, hreverse, List.reverse_cons, List.reverse_cons]
      split
      · exact hs
      · have hword : head ++ (more.reverse ++ [before] ++ ['y']) =
            head ++ (more.reverse ++ [before]) ++ ['y'] := (List.append_assoc head _ _).symm
        rw [List.dropLast_concat]
        exact List.append_assoc head _ ['i', 'e', 's'] ▸ .ies _ hword (by simp)
    case h_7 => exact hs
    -- The other parts end with a hissing sound.
    all_goals exact hes

/-- **A name on one line has a plural.** -/
theorem exists_plural {word : List Char} (hline : '\n' ∉ word) (hne : word ≠ []) :
    ∃ p, plural? word = some p ∧ IsPlural word p := by
  obtain ⟨head, part, hlongest, hplural⟩ := plural?_of_line hline hne
  refine ⟨_, hplural, ?_⟩
  split
  · exact .s
  · rename_i hpart
    exact hlongest.append ▸ isPlural_pluralPart head hpart

/-! ### What plurals are like -/

/-- The endings of the plurals that are not made with a single letter. -/
def irregularEndings : List (List Char) :=
  ['e', 's'] :: irregularPlurals.map fun (_, plural) => plural.toList.drop 1

namespace IsPlural

variable {word p : List Char}

/-- A plural starts like the word, and has at least one letter more than its first one. -/
theorem exists_cons (h : IsPlural word p) (hne : word ≠ []) :
    ∃ c rest more, word = c :: rest ∧ p = c :: more ∧ more ≠ [] := by
  obtain ⟨c, rest, rfl⟩ := List.exists_cons_of_ne_nil hne
  cases h with
  | s => exact ⟨c, rest, rest ++ ['s'], rfl, rfl, by simp⟩
  | es => exact ⟨c, rest, rest ++ ['e', 's'], rfl, rfl, by simp⟩
  | ies stem hword hstem =>
      obtain ⟨d, stem, rfl⟩ := List.exists_cons_of_ne_nil hstem
      cases hword
      exact ⟨c, stem ++ ['y'], stem ++ ['i', 'e', 's'], rfl, rfl, by simp⟩
  | irregular head d tail singular plural hlisted hword =>
      have hlong : ∀ entry ∈ irregularPlurals, entry.2.toList.drop 1 ≠ [] := by decide
      cases head with
      | nil =>
          cases hword
          exact ⟨c, rest, plural.toList.drop 1, rfl, rfl, hlong _ hlisted⟩
      | cons e head =>
          cases hword
          exact ⟨c, head ++ d :: tail, head ++ d :: plural.toList.drop 1, rfl, rfl, by simp⟩

theorem isNameText (h : IsPlural word p) (hword : IsNameText word) : IsNameText p := by
  cases h with
  | s => exact hword.append (by decide)
  | es => exact hword.append (by decide)
  | ies stem heq hstem =>
      have hstem : IsNameText stem := fun c hc => hword c (heq ▸ List.mem_append_left ['y'] hc)
      exact hstem.append (by decide)
  | irregular head c tail singular plural hlisted heq =>
      have hlisted : IsNameText (plural.toList.drop 1) :=
        (by decide : ∀ entry ∈ irregularPlurals, IsNameText (entry.2.toList.drop 1)) _ hlisted
      rw [heq, List.append_cons] at hword
      have hhead : IsNameText (head ++ [c]) := fun d hd => hword d (List.mem_append_left tail hd)
      rw [List.append_cons]
      exact hhead.append hlisted

theorem isIdentifier (h : IsPlural word p) (hword : IsIdentifier word) : IsIdentifier p := by
  have hchars := h.isNameText hword.chars
  obtain ⟨c, rest, more, rfl, rfl, -⟩ := h.exists_cons hword.nonempty
  exact isIdentifier_cons.mpr ⟨hchars, hword.start c rfl⟩

/-- **A plural is the word with an "s" unless it has one of a few endings.** -/
theorem eq_or_ending (h : IsPlural word p) :
    p = word ++ ['s'] ∨ ∃ ending ∈ irregularEndings, ending <:+ p := by
  cases h with
  | s => exact .inl rfl
  | es => exact .inr ⟨['e', 's'], by decide, List.suffix_append word _⟩
  | ies stem heq hstem => exact .inr ⟨['e', 's'], by decide, stem ++ ['i'], by simp⟩
  | irregular head c tail singular plural hlisted heq =>
      exact .inr ⟨plural.toList.drop 1,
        List.mem_cons_of_mem _ (List.mem_map_of_mem hlisted), head ++ [c], by simp⟩

end IsPlural

end OntoCode.Naming
