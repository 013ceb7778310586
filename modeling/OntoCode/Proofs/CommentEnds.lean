/-
The ends of comments in texts that are folded and wrapped.

A comment ends with a star and a slash.  `commentEnds` counts how often these stand next to each
other in a text.  Putting texts one behind the other adds their numbers up, unless a star at the
end of one meets a slash at the start of the next.

No step that prepares a text for a comment parts the two characters or brings them together.
Folding and wrapping cut a text at spaces and hyphens, which stand on one side of each cut, and put
the pieces together again with something in between.  So a text has the same number of ends
before and after.
-/
import OntoCode.Text.Wrap
import Mathlib.Algebra.GroupWithZero.Nat
import Mathlib.Data.List.Infix

namespace OntoCode.Text

/-- How often a text holds the end of a comment. -/
def commentEnds : List Char → Nat
  | [] => 0
  | c :: rest => (if c = '*' ∧ rest.head? = some '/' then 1 else 0) + commentEnds rest

/-- No end of a comment comes about where two texts meet. -/
def MeetSafely (s t : List Char) : Prop := s.getLast? = some '*' → t.head? ≠ some '/'

theorem commentEnds_append {s t : List Char} (h : MeetSafely s t) :
    commentEnds (s ++ t) = commentEnds s + commentEnds t := by
  induction s with
  | nil => simp [commentEnds]
  | cons c rest ih =>
      cases rest with
      | nil =>
          have hmeet : ¬ (c = '*' ∧ t.head? = some '/') :=
            fun hboth => h (by simp [hboth.1]) hboth.2
          simp [commentEnds, hmeet]
      | cons d more =>
          have hrest : MeetSafely (d :: more) t := fun hlast => h (by rwa [List.getLast?_cons_cons])
          rw [List.cons_append, commentEnds, commentEnds, ih hrest, Nat.add_assoc]
          rfl

theorem meetSafely_nil (s : List Char) : MeetSafely s [] := by simp [MeetSafely]

theorem nil_meetSafely (t : List Char) : MeetSafely [] t := by simp [MeetSafely]

/-- A text that starts with another character than a slash may follow any text. -/
theorem meetSafely_cons {c : Char} (hc : c ≠ '/') (s t : List Char) : MeetSafely s (c :: t) :=
  fun _ hfirst => absurd (by simpa using hfirst) hc

theorem MeetSafely.of_append {s t u : List Char} (hne : t ≠ []) (h : MeetSafely t u) :
    MeetSafely (s ++ t) u := by
  intro hlast
  rw [List.getLast?_append_of_ne_nil s hne] at hlast
  exact h hlast

/-- A text has all the ends that a text behind it or before it has. -/
theorem commentEnds_le_append (s t : List Char) :
    commentEnds s + commentEnds t ≤ commentEnds (s ++ t) := by
  induction s with
  | nil => simp [commentEnds]
  | cons c rest ih =>
      have hhead : rest.head? = some '/' → (rest ++ t).head? = some '/' := by
        intro h
        rw [List.head?_append, h, Option.some_or]
      rw [List.cons_append, commentEnds, commentEnds]
      by_cases hboth : c = '*' ∧ rest.head? = some '/'
      · rw [if_pos hboth, if_pos ⟨hboth.1, hhead hboth.2⟩]
        omega
      · rw [if_neg hboth]
        omega

/-- A text without an end of a comment holds no star in front of a slash. -/
theorem commentEnds_eq_zero_iff {s : List Char} : commentEnds s = 0 ↔ ¬ ['*', '/'] <:+: s := by
  induction s with
  | nil => simp [commentEnds]
  | cons c rest ih =>
      have hstart : ['*', '/'] <+: c :: rest ↔ c = '*' ∧ rest.head? = some '/' := by
        cases rest <;> simp [eq_comm]
      rw [commentEnds, List.infix_cons_iff, not_or, hstart, ← ih, Nat.add_eq_zero_iff]
      simp

/-! ### What keeps texts apart -/

/-- A text that has no end of a comment and makes none with what stands around it. -/
structure IsGap (gap : List Char) : Prop where
  nonempty : gap ≠ []
  first : gap.head? ≠ some '/'
  last : gap.getLast? ≠ some '*'
  none : commentEnds gap = 0

instance (gap : List Char) : Decidable (IsGap gap) :=
  decidable_of_iff
    (gap ≠ [] ∧ gap.head? ≠ some '/' ∧ gap.getLast? ≠ some '*' ∧ commentEnds gap = 0)
    ⟨fun ⟨hne, hfirst, hlast, hnone⟩ => ⟨hne, hfirst, hlast, hnone⟩,
      fun h => ⟨h.nonempty, h.first, h.last, h.none⟩⟩

namespace IsGap

variable {gap : List Char}

theorem meetSafely_left (h : IsGap gap) (s t : List Char) : MeetSafely s (gap ++ t) := by
  intro _ hfirst
  rw [List.head?_append_of_ne_nil gap h.nonempty] at hfirst
  exact h.first hfirst

theorem meetSafely_right (h : IsGap gap) (t : List Char) : MeetSafely gap t :=
  fun hlast => absurd hlast h.last

/-- **With a gap between them texts keep their ends, and get no others.** -/
theorem commentEnds_between (h : IsGap gap) (s t : List Char) :
    commentEnds (s ++ gap ++ t) = commentEnds s + commentEnds t := by
  rw [List.append_assoc, commentEnds_append (h.meetSafely_left s t),
    commentEnds_append (h.meetSafely_right t), h.none, Nat.zero_add]

theorem commentEnds_before (h : IsGap gap) (s : List Char) :
    commentEnds (s ++ gap) = commentEnds s := by
  have hnil := h.commentEnds_between s []
  rwa [List.append_nil, commentEnds, Nat.add_zero] at hnil

theorem commentEnds_behind (h : IsGap gap) (t : List Char) :
    commentEnds (gap ++ t) = commentEnds t := by
  rw [commentEnds_append (h.meetSafely_right t), h.none, Nat.zero_add]

/-- Gaps at both ends make a gap of a text without ends. -/
theorem around {s other : List Char} (h : IsGap gap) (hother : IsGap other)
    (hs : commentEnds s = 0) : IsGap (gap ++ s ++ other) where
  nonempty := List.append_ne_nil_of_right_ne_nil _ hother.nonempty
  first := by
    rw [List.append_assoc, List.head?_append_of_ne_nil gap h.nonempty]
    exact h.first
  last := by
    rw [List.getLast?_append_of_ne_nil _ hother.nonempty]
    exact hother.last
  none := (hother.commentEnds_before _).trans ((h.commentEnds_behind s).trans hs)

theorem commentEnds_intercalate (h : IsGap gap) (pieces : List (List Char)) :
    commentEnds (gap.intercalate pieces) = (pieces.map commentEnds).sum := by
  induction pieces with
  | nil => rfl
  | cons first more ih =>
      cases more with
      | nil => simp
      | cons second more =>
          rw [List.intercalate_cons_cons, h.commentEnds_between, ih, List.map_cons (l := _ :: more),
            List.sum_cons]

end IsGap

theorem isGap_space : IsGap [' '] := by decide

theorem isGap_newline : IsGap ['\n'] := by decide

/-! ### Folding to one line -/

section Runs

variable {keep : Char → Bool}

/-- A run starts with the text it starts in. -/
theorem exists_runs_of_head {s : List Char} (h : s.head?.any keep = true) :
    ∃ word more, runs keep s = word :: more ∧ word.head? = s.head? := by
  cases s with
  | nil => cases h
  | cons c rest =>
      have hc : keep c = true := h
      rw [runs, if_pos hc]
      split
      · split
        · exact ⟨_, _, rfl, rfl⟩
        · exact ⟨_, _, rfl, rfl⟩
      · exact ⟨_, _, rfl, rfl⟩

/-- **Cutting a text at what is not kept leaves its ends,** if stars and slashes are kept. -/
theorem sum_commentEnds_runs (hstar : keep '*' = true) (hslash : keep '/' = true) (s : List Char) :
    ((runs keep s).map commentEnds).sum = commentEnds s := by
  induction s with
  | nil => rfl
  | cons c rest ih =>
      rw [runs, commentEnds, ← ih]
      by_cases hc : keep c = true
      · rw [if_pos hc]
        by_cases hnext : rest.head?.any keep = true
        · obtain ⟨word, more, hruns, hhead⟩ := exists_runs_of_head hnext
          rw [hruns]
          dsimp only
          rw [if_pos hnext, List.map_cons, List.map_cons, List.sum_cons, List.sum_cons, commentEnds,
            hhead, Nat.add_assoc]
        · -- The run ends with this character, and no slash follows it.
          have hfirst : ¬ (c = '*' ∧ rest.head? = some '/') := by
            rintro ⟨-, hhead⟩
            rw [hhead] at hnext
            exact hnext hslash
          have hsingle : commentEnds [c] = 0 := by simp [commentEnds]
          rw [if_neg hfirst, Nat.zero_add]
          split
          · rename_i hruns
            rw [if_neg hnext, List.map_cons, List.sum_cons, hsingle, Nat.zero_add, hruns]
          · rename_i hruns
            rw [hruns, List.map_cons, List.sum_cons, hsingle, Nat.zero_add]
      · have hfirst : ¬ (c = '*' ∧ rest.head? = some '/') := by
          rintro ⟨rfl, -⟩
          exact hc hstar
        rw [if_neg hc, if_neg hfirst, Nat.zero_add]

end Runs

/-- **Folding a text to one line leaves its ends.** -/
theorem commentEnds_singleLine (s : List Char) : commentEnds (singleLine s) = commentEnds s := by
  rw [singleLine, isGap_space.commentEnds_intercalate]
  exact sum_commentEnds_runs (by decide) (by decide) s

/-- A sentence has no end that the text has not. -/
theorem commentEnds_sentence (s : List Char) : commentEnds (sentence s) = commentEnds s := by
  have hgap : IsGap ['.'] := by decide
  unfold sentence
  split
  · rfl
  · rfl
  · rfl
  · exact hgap.commentEnds_before s

/-! ### Wrapping

The chunks of a text, put one behind the other, are the text, and no end of a comment goes from one
to the next: each cut has a space or a hyphen on one side.  `Cut` says both, by recursion on the
chunks.
-/

/-- Some texts that are not empty make up a text, cut where no end of a comment is. -/
inductive Cut : List (List Char) → List Char → Prop
  | nil : Cut [] []
  | cons {piece s : List Char} {pieces : List (List Char)} (hne : piece ≠ [])
      (hmeet : MeetSafely piece s) (hrest : Cut pieces s) : Cut (piece :: pieces) (piece ++ s)

theorem sum_commentEnds_closeLine (line : List Char) :
    ((closeLine line).map commentEnds).sum = commentEnds line := by
  have htrimmed : commentEnds (if line.getLast? = some ' ' then line.dropLast else line) =
      commentEnds line := by
    split
    · rename_i hlast
      obtain ⟨before, rfl⟩ := List.getLast?_eq_some_iff.mp hlast
      rw [List.dropLast_concat, isGap_space.commentEnds_before]
    · rfl
  rw [← htrimmed, closeLine]
  generalize (if line.getLast? = some ' ' then line.dropLast else line) = trimmed
  split
  · rename_i hnil
    rw [hnil]
    rfl
  · rw [List.map_singleton, List.sum_singleton]

/-- **Filling lines leaves the ends** of what is on the line and of the chunks to come. -/
theorem sum_commentEnds_fillLines (width : Nat) {line s : List Char} {pieces : List (List Char)}
    (hcut : Cut pieces s) (hline : MeetSafely line s) :
    ((fillLines width line pieces).map commentEnds).sum = commentEnds (line ++ s) := by
  induction hcut generalizing line with
  | nil => rw [fillLines, sum_commentEnds_closeLine, List.append_nil]
  | @cons piece s pieces hne hmeet hrest ih =>
      have hfresh := ih (nil_meetSafely s)
      -- A space at either end of a line is dropped.
      have hspace : piece = [' '] → commentEnds (piece ++ s) = commentEnds s := by
        rintro rfl
        exact isGap_space.commentEnds_behind s
      rw [fillLines]
      split
      · rename_i hdropped
        obtain ⟨rfl, hpiece⟩ : line = [] ∧ piece = [' '] := by simpa using hdropped
        rw [hfresh, List.nil_append, List.nil_append, hspace hpiece]
      · split
        · rw [ih (hmeet.of_append hne), List.append_assoc]
        · rw [List.map_append, List.sum_append, sum_commentEnds_closeLine, commentEnds_append hline]
          split
          · rename_i hpiece
            rw [hfresh, List.nil_append, hspace hpiece]
          · split
            · rw [ih hmeet]
            · rw [List.map_cons, List.sum_cons, hfresh, List.nil_append, commentEnds_append hmeet]

/-- The characters of the chunk that is being read. -/
def Chunk.text : Chunk → List Char
  | none => []
  | word reversed | dash reversed => reversed.reverse

/-- A chunk that is being read has characters, and a dash has hyphens. -/
def Chunk.Started : Chunk → Prop
  | none => True
  | word reversed => reversed ≠ []
  | dash reversed => reversed.head? = some '-'

/-- Any text may follow a chunk that ends with a hyphen. -/
theorem meetSafely_reverse {reversed : List Char} (h : reversed.head? = some '-') (s : List Char) :
    MeetSafely reversed.reverse s := by
  intro hlast
  rw [List.getLast?_reverse, h] at hlast
  exact absurd hlast (by decide)

theorem Chunk.Started.cut {current : Chunk} (h : current.Started) {pieces : List (List Char)}
    {s : List Char} (hmeet : MeetSafely current.text s) (hrest : Cut pieces s) :
    Cut (current.toList ++ pieces) (current.text ++ s) := by
  cases current with
  | none => exact hrest
  | word reversed => exact .cons (List.reverse_ne_nil_iff.mpr h) hmeet hrest
  | dash reversed =>
      refine .cons (List.reverse_ne_nil_iff.mpr ?_) hmeet hrest
      rintro rfl
      cases h

/-- A dash starts with a hyphen. -/
theorem eq_of_startsDash {c : Char} {rest : List Char} (h : startsDash (c :: rest) = true) :
    c = '-' := by
  rw [startsDash, Bool.and_eq_true, List.takeWhile_cons] at h
  by_contra hc
  have hlength := of_decide_eq_true h.1
  rw [if_neg (by simpa using hc)] at hlength
  exact absurd hlength (by decide)

theorem started_start (before : List Char) (c : Char) (rest : List Char) :
    (Chunk.start before c rest).Started ∧ (Chunk.start before c rest).text = [c] := by
  unfold Chunk.start
  split
  · rename_i hdash
    rw [Bool.and_eq_true] at hdash
    exact ⟨congrArg some (eq_of_startsDash hdash.2), rfl⟩
  · exact ⟨List.cons_ne_nil c [], rfl⟩

theorem cut_chunksFrom {before s : List Char} {current : Chunk} (hstarted : current.Started) :
    Cut (chunksFrom before current s) (current.text ++ s) := by
  fun_induction chunksFrom before current s with
  | case1 before current =>
      have hend := hstarted.cut (meetSafely_nil _) Cut.nil
      rwa [List.append_nil] at hend
  | case2 before current rest ih =>
      exact hstarted.cut (meetSafely_cons (by decide) _ _)
        (.cons (List.cons_ne_nil _ _) (isGap_space.meetSafely_right rest) (ih trivial))
  | case3 before c rest hspace ih =>
      obtain ⟨hstart, htext⟩ := started_start before c rest
      have hrest := ih hstart
      rw [htext] at hrest
      exact hrest
  | case4 before c rest hspace reversed hhyphen ih =>
      -- The chunk ends with the hyphen of a word.
      obtain rfl : c = '-' := of_decide_eq_true (Bool.and_eq_true_iff.mp hhyphen).1
      have hends : MeetSafely ('-' :: reversed).reverse rest := meetSafely_reverse rfl rest
      have hcut := Cut.cons (by simp) hends (ih trivial)
      simpa [Chunk.text] using hcut
  | case5 before c rest hspace reversed hhyphen hdash ih =>
      -- The chunk ends in front of a dash.
      obtain rfl := eq_of_startsDash (Bool.and_eq_true_iff.mp hdash).2
      exact .cons (List.reverse_ne_nil_iff.mpr hstarted) (meetSafely_cons (by decide) _ _) (ih rfl)
  | case6 before c rest hspace reversed hhyphen hdash ih =>
      have hcut := ih (List.cons_ne_nil c reversed)
      rwa [Chunk.text, List.reverse_cons, List.append_assoc] at hcut
  | case7 before rest hspace reversed ih =>
      have hcut := ih rfl
      rwa [Chunk.text, List.reverse_cons, List.append_assoc] at hcut
  | case8 before c rest hspace reversed hhyphen ih =>
      obtain ⟨hstart, htext⟩ := started_start before c rest
      have hrest := ih hstart
      rw [htext] at hrest
      exact hstarted.cut (meetSafely_reverse hstarted _) hrest

/-- **Wrapping a text leaves its ends.** -/
theorem sum_commentEnds_wrap (width : Nat) (s : List Char) :
    ((wrap width s).map commentEnds).sum = commentEnds s :=
  sum_commentEnds_fillLines width (@cut_chunksFrom [] s .none trivial) (nil_meetSafely s)

end OntoCode.Text
