/-
The tokens of Turtle documents.

A document is cut into tokens from left to right.  Each reader below is given the
rest of the document from where its token starts, and gives the token with what
follows it.  White space and comments between tokens mean nothing.
-/
import OntoCode.Rdf.Vocabulary
import OntoCode.Text.Escape

namespace OntoCode.Rdf.Turtle

open OntoCode.Text

/-- A token. -/
inductive Token
  /-- An IRI in angle brackets, as it is written. -/
  | reference (text : String)
  /-- A name with a label for its namespace. -/
  | name (label rest : String)
  /-- A blank node with a label. -/
  | node (label : String)
  /-- A quoted text. -/
  | text (s : String)
  /-- A quoted text with a language. -/
  | tagged (s language : String)
  /-- A quoted text that a datatype follows. -/
  | typed (s : String)
  /-- A number or truth value without quotes. -/
  | plain (s : String) (datatype : Iri)
  /-- The short word for the type predicate. -/
  | isA
  /-- The word that declares a label; `closed` tells whether a dot ends the declaration. -/
  | declareLabel (closed : Bool)
  /-- The word that declares the base. -/
  | declareBase (closed : Bool)
  | dot
  | semicolon
  | comma
  | openBracket
  | closeBracket
  | openList
  | closeList
  deriving DecidableEq, Repr

/-- A token and the rest of the document, if a token starts there. -/
abbrev TokenReader := List Char → Option (Token × List Char)

/-- Leaves out white space and comments. -/
def skipBlanks : List Char → List Char
  | [] => []
  | ' ' :: rest | '\t' :: rest | '\n' :: rest | '\r' :: '\n' :: rest => skipBlanks rest
  | '#' :: rest => skipComment rest
  | c :: rest => c :: rest
where
  /-- Leaves out the rest of a line, then white space and comments. -/
  skipComment : List Char → List Char
    | [] => []
    | c :: rest => if c = '\n' then skipBlanks rest else skipComment rest

/-- The characters that end every name. -/
def nameStops : List Char := "\t\r\n !\"#$&'()*,+/;<=>?@[\\]^`\x7b|\x7d~".toList

/-- Whether a character may be in a name. -/
def inName (c : Char) : Bool := !nameStops.contains c

/-- Whether a character may be in the label of a name. -/
def inLabel (c : Char) : Bool := inName c && c ≠ ':'

/-- The characters that a name may hold with a backslash before them. -/
def escapable : List Char := "(_~.-!$&'()*+,;=/?#@%)".toList

/-- Gives a dot at the end of a name back to the document. -/
def returnDot (name rest : List Char) : List Char × List Char :=
  if name.getLast? = some '.' then (name.dropLast, '.' :: rest) else (name, rest)

/-- The part of a name behind its colon, and what follows. -/
def readLocal : List Char → Option (List Char × List Char)
  | [] => some ([], [])
  | '\\' :: c :: rest =>
    if escapable.contains c then (readLocal rest).map fun (name, left) => (c :: name, left) else none
  | '%' :: a :: b :: rest =>
    if (hexNumber? [a, b]).isSome then
      (readLocal (a :: b :: rest)).map fun (name, left) => ('%' :: name, left)
    else none
  | c :: rest =>
    if inName c && c ≠ '%' then (readLocal rest).map fun (name, left) => (c :: name, left)
    else if c = '\\' || c = '%' then none
    else some ([], c :: rest)

/-- The directives and words that are no names. -/
def wordToken? (word : String) : Option Token :=
  match word with
  | "a" => some .isA
  | "true" | "false" => some (.plain word (xsd "boolean"))
  | _ =>
    match String.ofList (word.toList.map Char.toLower) with
    | "prefix" => some (.declareLabel false)
    | "base" => some (.declareBase false)
    | _ => none

/-- A name, a blank node or a word. -/
def readName : TokenReader := fun s =>
  let label := s.takeWhile inLabel
  match s.dropWhile inLabel with
  | ':' :: rest =>
    if label.getLast? = some '.' then none
    else if label = ['_'] then
      let (name, rest) := returnDot (rest.takeWhile inLabel) (rest.dropWhile inLabel)
      some (.node (String.ofList name), rest)
    else do
      let (name, rest) ← readLocal rest
      let (name, rest) := returnDot name rest
      return (.name (String.ofList label) (String.ofList name), rest)
  | rest => do
    let (word, rest) := returnDot label rest
    return (← wordToken? (String.ofList word), rest)

/-- The digits at the start of a text, and what follows. -/
def readDigits (s : List Char) : List Char × List Char :=
  (s.takeWhile isAsciiDigit, s.dropWhile isAsciiDigit)

/-- The sign at the start of a text, and what follows. -/
def readSign : List Char → List Char × List Char
  | '+' :: rest => (['+'], rest)
  | '-' :: rest => (['-'], rest)
  | s => ([], s)

/-- An exponent, and what follows. -/
def readExponent? : List Char → Option (List Char × List Char)
  | e :: s =>
    let (sign, rest) := readSign s
    let (digits, rest) := readDigits rest
    if (e = 'e' || e = 'E') && digits ≠ [] then some (e :: sign ++ digits, rest) else none
  | [] => none

/-- A number: one with an exponent is floating, one with digits behind a point is decimal. -/
def readNumber : TokenReader := fun s =>
  let (sign, rest) := readSign s
  let (whole, afterWhole) := readDigits rest
  let (fraction, afterFraction) :=
    match afterWhole with
    | '.' :: rest =>
      let (digits, rest) := readDigits rest
      ('.' :: digits, rest)
    | _ => ([], afterWhole)
  let number (text : List Char) (type : String) (rest : List Char) : Option (Token × List Char) :=
    some (.plain (String.ofList (sign ++ text)) (xsd type), rest)
  if whole = [] && fraction.length < 2 then none
  else
    match readExponent? afterFraction with
    | some (exponent, rest) => number (whole ++ fraction ++ exponent) "double" rest
    | none =>
      if 1 < fraction.length then number (whole ++ fraction) "decimal" afterFraction
      else number whole "integer" afterWhole

/-- An IRI in angle brackets, from behind the first one on. -/
def readReference : TokenReader := fun s =>
  match s.dropWhile (· ≠ '>') with
  | _ :: rest => do
    let text ← unescape? iriEscapes (s.takeWhile (· ≠ '>'))
    return (.reference (String.ofList text), rest)
  | [] => none

/-- The text up to the quote that ends it, and what follows.  It has to end in its line. -/
def splitShort (quote : Char) : List Char → Option (List Char × List Char)
  | [] => none
  | '\\' :: c :: rest => (splitShort quote rest).map fun (text, left) => ('\\' :: c :: text, left)
  | c :: rest =>
    if c = quote then some ([], rest)
    else if c = '\n' || c = '\r' then none
    else (splitShort quote rest).map fun (text, left) => (c :: text, left)

/-- How many quotes there are at the start of a text, at most five. -/
def countQuotes (quote : Char) (s : List Char) : Nat := ((s.take 5).takeWhile (· = quote)).length

/-- The text up to the three quotes that end it, and what follows.  One or two more quotes in a
row belong to the text. -/
def splitLong (quote : Char) : List Char → Option (List Char × List Char)
  | [] => none
  | '\\' :: c :: rest => (splitLong quote rest).map fun (text, left) => ('\\' :: c :: text, left)
  | c :: rest =>
    let count := countQuotes quote (c :: rest)
    if 3 ≤ count then some (List.replicate (count - 3) quote, (c :: rest).drop count)
    else (splitLong quote rest).map fun (text, left) => (c :: text, left)

/-- Whether a text is a language tag: parts of letters and digits, with letters alone in the
first. -/
def isLanguageTag (tag : List Char) : Bool :=
  let start := tag.takeWhile (· ≠ '-')
  start ≠ [] && start.all isAsciiLetter && tag.getLast? ≠ some '-' &&
    (tag.zip (tag.drop 1)).all fun (c, next) => !(c = '-' && next = '-')

/-- The language or the mark of a datatype that may follow a quoted text directly. -/
def finishText (s : String) : TokenReader
  | '@' :: rest =>
    let inTag (c : Char) : Bool := isAsciiLetter c || isAsciiDigit c || c = '-'
    let tag := rest.takeWhile inTag
    if isLanguageTag tag then some (.tagged s (String.ofList tag), rest.dropWhile inTag) else none
  | '^' :: '^' :: rest => some (.typed s, rest)
  | rest => some (.text s, rest)

/-- What may follow a quoted text; a datatype takes the place of a language before it. -/
def finishTyped (s : String) : TokenReader := fun rest =>
  match finishText s rest with
  | some (.tagged _ _, '^' :: '^' :: rest) => some (.typed s, rest)
  | other => other

/-- A quoted text, from behind its first quote on. -/
def readText (quote : Char) : TokenReader := fun s => do
  let (raw, rest) ←
    match s with
    | b :: c :: rest => if b = quote && c = quote then splitLong quote rest else splitShort quote s
    | _ => splitShort quote s
  let text ← unescape? textEscapes raw
  finishTyped (String.ofList text) rest

/-- A declaration, from behind its sign on. -/
def readDirective : TokenReader
  | 'p' :: 'r' :: 'e' :: 'f' :: 'i' :: 'x' :: rest =>
    if rest.head?.all fun c => !inLabel c || c = '.' then some (.declareLabel true, rest) else none
  | 'b' :: 'a' :: 's' :: 'e' :: rest =>
    if rest.head?.all fun c => !inName c || c = '.' then some (.declareBase true, rest) else none
  | _ => none

/-- The token at the start of a text. -/
def readToken : TokenReader
  | [] => none
  | c :: rest =>
    match c with
    | '<' => readReference rest
    | '"' | '\'' => readText c rest
    | '@' => readDirective rest
    | ';' => some (.semicolon, rest)
    | ',' => some (.comma, rest)
    | '[' => some (.openBracket, rest)
    | ']' => some (.closeBracket, rest)
    | '(' => some (.openList, rest)
    | ')' => some (.closeList, rest)
    | _ =>
      if c = '.' || c = '-' || c = '+' || isAsciiDigit c then
        match readNumber (c :: rest) with
        | some found => some found
        | none => if c = '.' then some (.dot, rest) else none
      else if inName c then readName (c :: rest)
      else none

/-- **The tokens of a document,** unless something in it is none. -/
def tokens? (s : List Char) : Option (List Token) :=
  match skipBlanks s with
  | [] => some []
  | start =>
    match readToken start with
    | none => none
    | some (token, rest) =>
      if rest.length < s.length then (tokens? rest).map (token :: ·) else none
termination_by s.length

end OntoCode.Rdf.Turtle
