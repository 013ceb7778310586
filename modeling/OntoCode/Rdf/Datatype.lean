/-
The values of literals, and the texts that values are written as.

A literal that is made from text gets the value its datatype reads from it, and then
the canonical text of that value.  A text that the datatype cannot read stays as it
is and has no value.  A literal made from a value keeps the value, whatever datatype
it is given.

A text that was read is kept as the value, but the literal may show it otherwise:
normalized strings and tokens have other white space, and a year, a month or bytes have
a notation that their datatype asks for.
-/
import OntoCode.Rdf.Binary
import OntoCode.Rdf.Term
import OntoCode.Rdf.Vocabulary

namespace OntoCode.Rdf

open OntoCode.Calendar OntoCode.Number OntoCode.Text

/-- What a datatype reads from text. -/
inductive ValueKind
  | text
  | normalized
  | token
  | integer
  | boolean
  | double
  | decimal
  | date
  | time
  | dateTime
  | year
  | yearMonth
  | hex
  | base64
  deriving DecidableEq, Repr

/-- The datatypes that have values, by name.  Durations, XML and HTML have values that are not
among these, and literals of them are left without one. -/
def valueKinds : List (String × ValueKind) := [
  ("string", .text), ("anyURI", .text), ("normalizedString", .normalized),
  ("token", .token), ("language", .text), ("boolean", .boolean), ("double", .double),
  ("float", .double), ("decimal", .decimal), ("date", .date), ("time", .time),
  ("dateTime", .dateTime), ("gYear", .year), ("gYearMonth", .yearMonth), ("hexBinary", .hex),
  ("base64Binary", .base64),
  ("integer", .integer), ("int", .integer), ("long", .integer), ("short", .integer),
  ("byte", .integer), ("positiveInteger", .integer), ("nonNegativeInteger", .integer),
  ("negativeInteger", .integer), ("nonPositiveInteger", .integer), ("unsignedLong", .integer),
  ("unsignedInt", .integer), ("unsignedShort", .integer), ("unsignedByte", .integer)]

/-- What a datatype reads; a literal without one is a text. -/
def valueKind? : Option Iri → Option ValueKind
  | none => some .text
  | some datatype => (valueKinds.find? fun (name, _) => xsd name = datatype).map (·.2)

/-- The text before the last occurrence of a character that has something before it. -/
def beforeLast? (c : Char) (s : List Char) : Option (List Char) :=
  match splitAfterLast? c s with
  | some (before, _) => if 1 < before.length then some before.dropLast else none
  | none => none

/-- The text without a letter for universal time at its end. -/
def withoutZulu (s : List Char) : List Char :=
  if s.getLast? = some 'Z' || s.getLast? = some 'z' then s.dropLast else s

/-- The text in front of an offset from universal time.  A plus sign starts an offset, and so does
a dash that has more than the given number of characters before it. -/
def beforeOffset (width : Nat) (s : List Char) : List Char :=
  match beforeLast? '+' s with
  | some before => before
  | none =>
    match beforeLast? '-' s with
    | some before => if width < before.length then before else s
    | none => s

/-- The day that a date literal names: a time of day or zone behind it does not count, and the
notation has dashes. -/
def readDate? (s : List Char) : Option Date :=
  let s := withoutZulu s
  let day := if 'T' ∈ s then s.takeWhile (· ≠ 'T') else beforeOffset 7 s
  if '-' ∈ day then Date.read? day else none

/-- The first day of a month.  The year has four digits at least, and the month two. -/
def firstDay? (year month : List Char) : Option Date := do
  if year.length < 4 || month.length < 2 then none
  else
    let year ← readInteger? (year.dropWhile (· = '0'))
    let month ← readInteger? (month.dropWhile (· = '0'))
    Date.of? year.toNat month.toNat 1

/-- The first day of the year that a literal names.  There is no day before the first year. -/
def readYear? (s : List Char) : Option Date :=
  if s.head? = some '-' then none else firstDay? (beforeOffset 0 (withoutZulu s)) ['0', '1']

/-- The first day of the month that a literal names. -/
def readYearMonth? (s : List Char) : Option Date :=
  if s.head? = some '-' then none
  else
    let s := beforeOffset 4 (withoutZulu s)
    firstDay? (s.takeWhile (· ≠ '-')) ((s.dropWhile (· ≠ '-')).drop 1)

/-- The value that a text has for a kind of datatype. -/
def ValueKind.read? (kind : ValueKind) (s : String) : Option Value :=
  match kind with
  | .text | .normalized | .token => some (.text s)
  | .integer => (readInteger? s.toList).map .integer
  | .boolean =>
    let word := String.ofList (lower s.toList)
    some (.boolean (word = "1" || word = "true"))
  | .double => (Binary64.read? s.toList).map .double
  | .decimal => (Decimal.read? s.toList).map .decimal
  | .date => (readDate? s.toList).map .date
  | .time => (Time.read? s.toList).map .time
  | .dateTime => (DateTime.read? s.toList).map .dateTime
  | .year => (readYear? s.toList).map .date
  | .yearMonth => (readYearMonth? s.toList).map .date
  | .hex => (readHex? s.toList).map .bytes
  | .base64 => (readBase64? s.toList).map .bytes

/-- The canonical text of a value.  An integer is written with all of its digits, also where it has
more than are read. -/
def Value.lexical : Value → String
  | text s => s
  | integer n => String.ofList (integerText n)
  | boolean b => if b then "true" else "false"
  | double x => String.ofList x.text
  | decimal d => String.ofList d.plainText
  | date d => String.ofList d.text
  | time t => String.ofList t.text
  | dateTime d => String.ofList d.text
  | bytes b => (textOfBytes? b).getD ""

/-- The text with a space for each tab and each end of a line. -/
def withSpaces (s : List Char) : List Char :=
  s.map fun c => if c = '\t' || c = '\n' || c = '\r' then ' ' else c

/-- The text with one space for each run of them. -/
def withSingleSpaces : List Char → List Char
  | ' ' :: ' ' :: rest => withSingleSpaces (' ' :: rest)
  | c :: rest => c :: withSingleSpaces rest
  | [] => []

/-- A text as a datatype shows it. -/
def ValueKind.shown : ValueKind → String → String
  | .normalized, s => String.ofList (withSpaces s.toList)
  | .token, s => String.ofList (withSingleSpaces (strip (withSpaces s.toList)))
  | _, s => s

/-- The text that a value is written as with a datatype. -/
def ValueKind.lexical : ValueKind → Value → String
  | kind, .text s => kind.shown s
  | .year, .date d | .year, .dateTime ⟨d, _⟩ => String.ofList d.yearText
  | .yearMonth, .date d | .yearMonth, .dateTime ⟨d, _⟩ => String.ofList d.monthText
  | .hex, .bytes b => String.ofList (hexText b)
  | .base64, .bytes b => String.ofList (base64Text b)
  | _, v => v.lexical

@[simp] theorem ValueKind.lexical_integer (kind : ValueKind) (n : Int) :
    kind.lexical (.integer n) = (Value.integer n).lexical := by
  cases kind <;> rfl

@[simp] theorem ValueKind.lexical_boolean (kind : ValueKind) (b : Bool) :
    kind.lexical (.boolean b) = (Value.boolean b).lexical := by
  cases kind <;> rfl

/-- The datatype that a value has of itself; texts and bytes have none. -/
def Value.datatype? : Value → Option Iri
  | text _ => none
  | integer _ => some (xsd "integer")
  | boolean _ => some (xsd "boolean")
  | double _ => some (xsd "double")
  | decimal _ => some (xsd "decimal")
  | date _ => some (xsd "date")
  | time _ => some (xsd "time")
  | dateTime _ => some (xsd "dateTime")
  | bytes _ => none

/-- The literal that a text makes with a datatype or a language. -/
def Literal.ofText (text : String) (datatype : Option Iri) (language : Option String) : Literal :=
  let kind := valueKind? datatype
  let value := kind.bind (·.read? text)
  { text := (kind.bind fun kind => value.map kind.lexical).getD text, language, datatype, value }

/-- The literal that a value makes, with a datatype if one is given.  Bytes make the literal that
their text makes. -/
def Literal.ofValue (value : Value) (datatype : Option Iri) : Literal :=
  match value with
  | .text s => Literal.ofText s datatype none
  | .bytes _ => Literal.ofText value.lexical datatype none
  | _ =>
    { text := ((valueKind? datatype).map (·.lexical value)).getD value.lexical,
      datatype := datatype.orElse fun _ => value.datatype?, value := some value }

end OntoCode.Rdf
