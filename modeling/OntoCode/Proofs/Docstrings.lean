/-
Text between triple quotes does not get out of them.

A text between triple quotes ends at the first three quotes in a row that no backslash
stands before.  Escaping takes care of each three in a row and of each backslash, so that
at most two bare quotes stand next to each other.  They would still join the closing
quotes at the very end of the text.  That a sentence ends with its period, its question
mark or its exclamation mark is what keeps them apart.
-/
import OntoCode.Generate.Vocabulary

namespace OntoCode

namespace Text

/-- Three quotes, as they stand before and behind a text. -/
def tripleQuote : List Char := ['"', '"', '"']

/-- The text up to the first three quotes in a row, and what comes behind them.  A backslash takes
the character that follows along. -/
def readTripleQuoted : List Char → Option (List Char × List Char)
  | [] => none
  | '"' :: '"' :: '"' :: rest => some ([], rest)
  | '\\' :: c :: rest =>
    (readTripleQuoted rest).map fun (body, rest) => ('\\' :: c :: body, rest)
  | c :: rest => (readTripleQuoted rest).map fun (body, rest) => (c :: body, rest)

/-- The text with the backslashes taken away that stand before another one or before a quote. -/
def unescapeQuoted : List Char → List Char
  | [] => []
  | '\\' :: '\\' :: rest => '\\' :: unescapeQuoted rest
  | '\\' :: '"' :: rest => '"' :: unescapeQuoted rest
  | c :: rest => c :: unescapeQuoted rest

/-! ### Escaping, character by character -/

/-- The text does not start with two quotes. -/
def NoQuotesAhead (s : List Char) : Prop := ∀ rest, s ≠ '"' :: '"' :: rest

theorem escape_backslash (s : List Char) :
    escapeTripleQuoted ('\\' :: s) = '\\' :: '\\' :: escapeTripleQuoted s := by
  simp [escapeTripleQuoted]

theorem escape_quote {s : List Char} (h : NoQuotesAhead s) :
    escapeTripleQuoted ('"' :: s) = '"' :: escapeTripleQuoted s := by
  rw [escapeTripleQuoted]
  · rfl
  · exact fun rest _ heq => h rest heq

theorem escape_other {c : Char} (hquote : c ≠ '"') (hslash : c ≠ '\\') (s : List Char) :
    escapeTripleQuoted (c :: s) = c :: escapeTripleQuoted s := by
  rw [escapeTripleQuoted, if_neg hslash]
  exact fun rest heq _ => hquote heq

/-- What a text is made of, as escaping sees it. -/
theorem quoted_induction {motive : List Char → Prop} (nil : motive [])
    (quotes : ∀ s, motive s → motive ('"' :: '"' :: '"' :: s))
    (quote : ∀ s, NoQuotesAhead s → motive s → motive ('"' :: s))
    (backslash : ∀ s, motive s → motive ('\\' :: s))
    (other : ∀ c s, c ≠ '"' → c ≠ '\\' → motive s → motive (c :: s)) (s : List Char) :
    motive s := by
  fun_induction escapeTripleQuoted s with
  | case1 => exact nil
  | case2 s ih => exact quotes s ih
  | case3 s hnot ih => exact backslash s ih
  | case4 c s hnot hslash ih =>
      by_cases hquote : c = '"'
      · subst hquote
        exact quote s (fun rest heq => hnot rest rfl heq) ih
      · exact other c s hquote hslash ih

/-- Escaping puts no quote in front of a text that does not start with one. -/
theorem exists_escape_cons {c : Char} (hquote : c ≠ '"') (s : List Char) :
    ∃ d rest, escapeTripleQuoted (c :: s) = d :: rest ∧ d ≠ '"' := by
  by_cases hslash : c = '\\'
  · subst hslash
    exact ⟨_, _, escape_backslash s, by decide⟩
  · exact ⟨_, _, escape_other hquote hslash s, hquote⟩

theorem unescapeQuoted_other {c : Char} (h : c ≠ '\\') (s : List Char) :
    unescapeQuoted (c :: s) = c :: unescapeQuoted s := by
  simp [unescapeQuoted, h]

/-- **The escapes are undone.** -/
theorem unescapeQuoted_escape (s : List Char) : unescapeQuoted (escapeTripleQuoted s) = s := by
  induction s using quoted_induction with
  | nil => rfl
  | quotes s ih => simp [escapeTripleQuoted, unescapeQuoted, ih]
  | quote s hahead ih => rw [escape_quote hahead, unescapeQuoted_other (by decide), ih]
  | backslash s ih => rw [escape_backslash, unescapeQuoted, ih]
  | other c s hquote hslash ih =>
      rw [escape_other hquote hslash, unescapeQuoted_other hslash, ih]

/-! ### Reading, character by character -/

theorem read_quote {s : List Char} (h : NoQuotesAhead s) :
    readTripleQuoted ('"' :: s) =
      (readTripleQuoted s).map fun (body, rest) => ('"' :: body, rest) := by
  rw [readTripleQuoted]
  · exact fun rest _ heq => h rest heq
  · exact fun c rest heq => absurd heq (by decide)

theorem read_other {c : Char} (hquote : c ≠ '"') (hslash : c ≠ '\\') (s : List Char) :
    readTripleQuoted (c :: s) =
      (readTripleQuoted s).map fun (body, rest) => (c :: body, rest) := by
  rw [readTripleQuoted]
  · exact fun rest heq => absurd heq hquote
  · exact fun d rest heq => absurd heq hslash

/-- A text that does not end with a quote does not do so behind its first character either. -/
theorem getLast?_ne_of_cons {c : Char} {s : List Char} (h : (c :: s).getLast? ≠ some '"') :
    s.getLast? ≠ some '"' := by
  cases s with
  | nil => simp
  | cons d s => rwa [List.getLast?_cons_cons] at h

/-- No two quotes are ahead of an escaped text, whatever comes behind it, unless they are ahead of
the text itself or its last character is a quote. -/
theorem noQuotesAhead_escape {s : List Char} (hne : s ≠ []) (hlast : s.getLast? ≠ some '"')
    (hahead : NoQuotesAhead s) (behind : List Char) :
    NoQuotesAhead (escapeTripleQuoted s ++ behind) := by
  have hbare : ∀ {c : Char} {s : List Char}, c ≠ '"' → ∀ rest,
      escapeTripleQuoted (c :: s) ++ behind ≠ '"' :: rest := by
    intro c s hquote rest heq
    obtain ⟨d, more, hescape, hd⟩ := exists_escape_cons hquote s
    rw [hescape] at heq
    exact hd (List.cons.inj heq).1
  intro rest heq
  obtain ⟨c, s, rfl⟩ := List.exists_cons_of_ne_nil hne
  by_cases hquote : c = '"'
  · subst hquote
    cases s with
    | nil => simp at hlast
    | cons d s =>
        have hd : d ≠ '"' := fun hd => hahead s (by rw [hd])
        rw [escape_quote fun rest heq => hd (List.cons.inj heq).1] at heq
        exact hbare hd rest (List.cons.inj heq).2
  · exact hbare hquote _ heq

/-- **An escaped text ends at the quotes behind it,** if its last character is no quote. -/
theorem read_escape {s : List Char} (hlast : s.getLast? ≠ some '"') (rest : List Char) :
    readTripleQuoted (escapeTripleQuoted s ++ tripleQuote ++ rest) =
      some (escapeTripleQuoted s, rest) := by
  induction s using quoted_induction with
  | nil => rfl
  | quotes s ih =>
      have h := ih (getLast?_ne_of_cons (getLast?_ne_of_cons (getLast?_ne_of_cons hlast)))
      simp only [escapeTripleQuoted, List.cons_append, readTripleQuoted, h, Option.map_some]
  | quote s hahead ih =>
      have hne : s ≠ [] := by
        rintro rfl
        simp at hlast
      have hs := getLast?_ne_of_cons hlast
      have hread := noQuotesAhead_escape hne hs hahead (tripleQuote ++ rest)
      rw [← List.append_assoc] at hread
      rw [escape_quote hahead, List.cons_append, List.cons_append, read_quote hread, ih hs,
        Option.map_some]
  | backslash s ih =>
      rw [escape_backslash, List.cons_append, List.cons_append, List.cons_append,
        List.cons_append, readTripleQuoted, ih (getLast?_ne_of_cons hlast), Option.map_some]
  | other c s hquote hslash ih =>
      rw [escape_other hquote hslash, List.cons_append, List.cons_append,
        read_other hquote hslash, ih (getLast?_ne_of_cons hlast), Option.map_some]

/-- A sentence does not end with a quote. -/
theorem getLast?_sentence (s : List Char) : (sentence s).getLast? ≠ some '"' := by
  unfold sentence
  split <;> simp_all

end Text

namespace Generate.Vocabulary

open OntoCode.Ontology OntoCode.Text

/-- What the vocabulary says of a term with a title, between triple quotes. -/
def docstring (title : List Char) : List Char :=
  escapeTripleQuoted (sentence (singleLine title))

/-- **The title of a term does not get out of its docstring.**

The constants of a vocabulary carry their titles between triple quotes.  Whatever the
title is and whatever comes behind it, the text that is read from behind the opening
quotes ends at the closing ones, and without its escapes it is the title on one line, as a
sentence. -/
theorem docstring_ends_at_quotes (title rest : List Char) :
    readTripleQuoted (docstring title ++ tripleQuote ++ rest) = some (docstring title, rest) ∧
    unescapeQuoted (docstring title) = sentence (singleLine title) ∧
    ∀ style namespaceText label constants, ∀ t ∈ constants,
      proseOf t.title = some title →
      "    " ++ String.ofList (tripleQuote ++ docstring title ++ tripleQuote) ∈
        pythonLines style namespaceText label constants := by
  refine ⟨read_escape (getLast?_sentence _) rest, unescapeQuoted_escape _, ?_⟩
  intro style namespaceText label constants t ht htitle
  refine List.mem_append_right _ (List.mem_flatMap.mpr ⟨t, ht, ?_⟩)
  have hline : "    " ++ String.ofList (tripleQuote ++ docstring title ++ tripleQuote) =
      "    \"\"\"" ++ String.ofList (docstring title) ++ "\"\"\"" := by
    rw [String.ofList_append, String.ofList_append, ← String.append_assoc, ← String.append_assoc]
    rfl
  rw [htitle, hline]
  exact List.mem_append_right _ List.mem_cons_self

example : docstring ['"', '"', '"', '"', '\\'] =
    ['\\', '"', '\\', '"', '\\', '"', '"', '\\', '\\', '.'] := by decide

end Generate.Vocabulary

end OntoCode
