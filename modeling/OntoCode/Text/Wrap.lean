/-
Titles and descriptions as prose in comments, and wrapping a line of it.

A comment ends its sentences, and one between triple quotes must not end early: a
backslash and each quote of three in a row are written with a backslash before them.

A text to wrap has its words separated by single spaces.  It is cut into chunks: the
spaces, the words, and the parts of words that hyphens and dashes separate.  Lines
are filled with chunks as long as they fit; spaces at either end of a line are
dropped, and a chunk too long for any line stands on one of its own.
-/
import OntoCode.Text.Blank
import OntoCode.Text.Letter

namespace OntoCode.Text

/-- The text with a period at its end unless it ends like a sentence. -/
def sentence (s : List Char) : List Char :=
  match s.getLast? with
  | some '.' | some '!' | some '?' => s
  | _ => s ++ ['.']

/-- The text as it is written between triple quotes. -/
def escapeTripleQuoted : List Char → List Char
  | [] => []
  | '"' :: '"' :: '"' :: rest => '\\' :: '"' :: '\\' :: '"' :: '\\' :: '"' :: escapeTripleQuoted rest
  | c :: rest => if c = '\\' then '\\' :: '\\' :: escapeTripleQuoted rest else c :: escapeTripleQuoted rest

/-- Whether a dash can follow a character without a gap. -/
def endsWord (c : Char) : Bool :=
  isWordChar c || c ∈ ['!', '"', '\'', '&', '.', ',', '?']

/-- Whether the text starts with two or more hyphens in front of a word. -/
def startsDash (s : List Char) : Bool :=
  2 ≤ (s.takeWhile (· = '-')).length && (s.dropWhile (· = '-')).head?.any isWordChar

/-- Whether a hyphen separates the parts of a word, given the characters before it, last one
first, and those behind it: two letters or an initial before it, and letters behind it. -/
def isWordHyphen (before after : List Char) : Bool :=
  (match before with
    | a :: b :: rest => isLetter a && (isLetter b || (b = '-' && rest.head?.any isLetter))
    | _ => false) &&
  match after with
    | a :: b :: rest => isLetter a && (isLetter b || (b = '-' && rest.head?.any isLetter))
    | _ => false

/-- What the chunk is that is being read: none yet, a word, or a dash; its characters last first. -/
inductive Chunk
  | none
  | word (reversed : List Char)
  | dash (reversed : List Char)

/-- The finished chunk, if one has been started. -/
def Chunk.toList : Chunk → List (List Char)
  | none => []
  | word reversed | dash reversed => [reversed.reverse]

/-- Starts a chunk with a character of a word, given what is before and behind it. -/
def Chunk.start (before : List Char) (c : Char) (rest : List Char) : Chunk :=
  if before.head?.any endsWord && startsDash (c :: rest) then dash [c] else word [c]

/-- The chunks of a text, given what is before it, last character first, and the current chunk. -/
def chunksFrom (before : List Char) (current : Chunk) : List Char → List (List Char)
  | [] => current.toList
  | c :: rest =>
    if c = ' ' then current.toList ++ [c] :: chunksFrom (c :: before) .none rest
    else
      match current with
      | .none => chunksFrom (c :: before) (.start before c rest) rest
      | .word reversed =>
        if c = '-' && isWordHyphen before rest then
          (c :: reversed).reverse :: chunksFrom (c :: before) .none rest
        else if before.head?.any endsWord && startsDash (c :: rest) then
          reversed.reverse :: chunksFrom (c :: before) (.dash [c]) rest
        else chunksFrom (c :: before) (.word (c :: reversed)) rest
      | .dash reversed =>
        if c = '-' then chunksFrom (c :: before) (.dash (c :: reversed)) rest
        else reversed.reverse :: chunksFrom (c :: before) (.start before c rest) rest

/-- The chunks of a text. -/
def chunks (s : List Char) : List (List Char) := chunksFrom [] .none s

/-- A finished line, without the space at its end; an empty one is none. -/
def closeLine (line : List Char) : List (List Char) :=
  let line := if line.getLast? = some ' ' then line.dropLast else line
  if line = [] then [] else [line]

/-- Fills lines with chunks, given what is on the current line. -/
def fillLines (width : Nat) (line : List Char) : List (List Char) → List (List Char)
  | [] => closeLine line
  | chunk :: rest =>
    if line = [] && chunk = [' '] then fillLines width [] rest
    else if line.length + chunk.length ≤ width then fillLines width (line ++ chunk) rest
    else
      closeLine line ++
        if chunk = [' '] then fillLines width [] rest
        else if chunk.length ≤ width then fillLines width chunk rest
        else chunk :: fillLines width [] rest

/-- The lines of a text that is wrapped to a width. -/
def wrap (width : Nat) (s : List Char) : List (List Char) := fillLines width [] (chunks s)

end OntoCode.Text
