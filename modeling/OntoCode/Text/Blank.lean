/-
White space, and what is done with it: stripping a text, reading its words, cutting
it into lines.

Titles and descriptions come from files, so every blank of Unicode counts, not only
the space and the tab.
-/
import OntoCode.Text.CodePoint

namespace OntoCode.Text

/-- The blanks: the ASCII ones, the separators of information, next line and the Unicode spaces. -/
def blankRanges : Ranges := [
  (0x9, 0xD), (0x1C, 0x20), (0x85, 0x85), (0xA0, 0xA0), (0x1680, 0x1680), (0x2000, 0x200A),
  (0x2028, 0x2029), (0x202F, 0x202F), (0x205F, 0x205F), (0x3000, 0x3000)]

/-- Whether a character is white space. -/
def isBlank (c : Char) : Bool := blankRanges.has c.toNat

/-- The text without the blanks at its start. -/
def stripLeft (s : List Char) : List Char := s.dropWhile isBlank

/-- The text without the blanks at its end. -/
def stripRight (s : List Char) : List Char := (s.reverse.dropWhile isBlank).reverse

/-- The text without the blanks at either end. -/
def strip (s : List Char) : List Char := stripRight (stripLeft s)

/-- The longest runs of characters that satisfy a test, in order. -/
def runs (keep : Char → Bool) : List Char → List (List Char)
  | [] => []
  | c :: rest =>
    if keep c then
      match runs keep rest with
      | word :: more => if rest.head?.any keep then (c :: word) :: more else [c] :: word :: more
      | [] => [[c]]
    else runs keep rest

/-- The words of a text: its longest runs without a blank. -/
def words (s : List Char) : List (List Char) := runs (fun c => !isBlank c) s

/-- The text on one line: its words with one space between them. -/
def singleLine (s : List Char) : List Char := [' '].intercalate (words s)

/-- Whether a character ends a line. -/
def isLineEnd (c : Char) : Bool :=
  c = '\n' || c = '\r' || c = '\x0b' || c = '\x0c' || c = '\x1c' || c = '\x1d' || c = '\x1e' ||
    c = '\u0085' || c = '\u2028' || c = '\u2029'

/-- The lines of a text without their ends; a carriage return takes the line feed after it along. -/
def lines : List Char → List (List Char)
  | [] => []
  | '\r' :: '\n' :: rest => [] :: lines rest
  | c :: rest =>
    if isLineEnd c then [] :: lines rest
    else
      match lines rest with
      | [] => [[c]]
      | line :: more => (c :: line) :: more

end OntoCode.Text
