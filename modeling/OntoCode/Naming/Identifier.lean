/-
Spelling identifiers of generated code.

A local name is sanitised first, which leaves ASCII letters, digits and
underscores.  Classes take the capitalised spelling and fields the one with a
small first letter.  Python spells the words of a field apart with underscores.
-/
import OntoCode.Text.Blank
import OntoCode.Text.Letter
import OntoCode.Text.Case

namespace OntoCode.Naming

open OntoCode.Text

/-- The name with an underscore for each character no identifier can have, and one in front of
a leading digit. -/
def sanitize (name : List Char) : List Char :=
  let kept := name.map fun c => if isNameChar c then c else '_'
  match kept with
  | [] => ['_']
  | c :: _ => if isAsciiDigit c then '_' :: kept else kept

/-- Whether a character stands between the words of a name. -/
def isWordGap (c : Char) : Bool := c = '_' || c = '-' || isBlank c

/-- The capitalised spelling: words that gaps separate are capitalised and joined. -/
def pascalCase (name : List Char) : List Char :=
  match runs (fun c => !isWordGap c) name with
  | first :: second :: more => (first :: second :: more).flatMap upperFirst
  | _ => upperFirst name

/-- The name with an underscore in front of each capitalised word that follows another character
of the line. -/
def splitWords : List Char → List Char
  | c :: upper :: small :: rest =>
    if c ≠ '\n' && isAsciiUpper upper && isAsciiLower small then
      let word := rest.takeWhile isAsciiLower
      c :: '_' :: upper :: small :: word ++ splitWords (rest.dropWhile isAsciiLower)
    else c :: splitWords (upper :: small :: rest)
  | short => short
termination_by s => s.length
decreasing_by
  · have := (List.dropWhile_sublist isAsciiLower (l := rest)).length_le
    simp only [List.length_cons]
    omega
  · simp

/-- The name with an underscore between a small letter or digit and a capital. -/
def splitHumps : List Char → List Char
  | c :: upper :: rest =>
    if (isAsciiLower c || isAsciiDigit c) && isAsciiUpper upper then
      c :: '_' :: upper :: splitHumps rest
    else c :: splitHumps (upper :: rest)
  | short => short

/-- The spelling with small letters and underscores between words. -/
def snakeCase (name : List Char) : List Char := lower (splitHumps (splitWords name))

/-- The reserved words of Python, with those that are reserved in some places only. -/
def pythonKeywords : List String := [
  "False", "None", "True", "and", "as", "assert", "async", "await", "break", "class", "continue",
  "def", "del", "elif", "else", "except", "finally", "for", "from", "global", "if", "import", "in",
  "is", "lambda", "nonlocal", "not", "or", "pass", "raise", "return", "try", "while", "with",
  "yield", "_", "case", "match"]

/-- A name that is no reserved word of Python: reserved ones get an underscore behind them. -/
def pythonIdentifier (name : String) : String :=
  if name ∈ pythonKeywords then name ++ "_" else name

end OntoCode.Naming
