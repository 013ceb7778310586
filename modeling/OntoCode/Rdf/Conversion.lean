/-
Reading literals as values of a type that is asked for.

A literal whose value is of the type already gives that value.  Otherwise the value
is converted, and where no conversion exists it stays as it is.  A literal without a
value stands for itself, and is converted from its text.

Only numbers too large for the type are an error.
-/
import OntoCode.Rdf.Datatype

namespace OntoCode.Rdf

open OntoCode.Calendar OntoCode.Number OntoCode.Text

/-- The types that a literal can be read as. -/
inductive ValueType
  | integer
  | double
  | text
  | boolean
  | date
  | time
  | dateTime
  deriving DecidableEq, Repr

/-- What reading a literal gives: a native value, or the literal itself where it has none. -/
inductive Native
  | value (v : Value)
  | unread (l : Literal)
  deriving DecidableEq, Repr

/-- A number is too large for the type it is to be converted to. -/
inductive ConversionError
  | overflow
  deriving DecidableEq, Repr

/-- What a literal stands for. -/
def Literal.native (l : Literal) : Native :=
  match l.value with
  | some v => .value v
  | none => .unread l

/-- Whether a value is of a type.  A truth value counts as an integer, and a day with a time as
a day. -/
def Value.isOf : Value → ValueType → Bool
  | integer _, .integer | boolean _, .integer => true
  | double _, .double => true
  | text _, .text => true
  | boolean _, .boolean => true
  | date _, .date | dateTime _, .date => true
  | time _, .time => true
  | dateTime _, .dateTime => true
  | _, _ => false

/-- The text that a value is read as. -/
def Value.plain : Value → String
  | boolean b => if b then "True" else "False"
  | decimal d => String.ofList d.text
  | dateTime d => String.ofList (d.textWith ' ')
  | bytes b => String.ofList (quotedBytes b)
  | other => other.lexical

/-- The text that what a literal stands for is read as. -/
def Native.plain : Native → String
  | value v => v.plain
  | unread l => l.text

/-- The integer that a truth value counts as. -/
def truthNumber (b : Bool) : Int := if b then 1 else 0

/-- The integer in a value: numbers are cut towards zero, and texts and ASCII bytes are
read. -/
def toInteger? : Native → Except ConversionError (Option Int)
  | .value (.integer n) => .ok (some n)
  | .value (.boolean b) => .ok (some (truthNumber b))
  | .value (.double (.finite negative mantissa exponent)) =>
    .ok (some (Binary64.truncate negative mantissa exponent))
  | .value (.decimal (.finite n)) => .ok (some (Decimal.truncate n))
  | .value (.double (.infinite _)) | .value (.decimal (.infinite _)) => .error .overflow
  | .value (.text s) => .ok (readInteger? s.toList)
  | .value (.bytes b) => .ok ((asciiText? b).bind readInteger?)
  | .unread l => .ok (readInteger? l.text.toList)
  | .value _ => .ok none

/-- The floating point number nearest to a value. -/
def toDouble? : Native → Except ConversionError (Option Binary64)
  | .value (.double x) => .ok (some x)
  | .value (.integer n) =>
    match Binary64.ofInt n with
    | .infinite _ => .error .overflow
    | x => .ok (some x)
  | .value (.boolean b) => .ok (some (.ofInt (truthNumber b)))
  | .value (.decimal d) => .ok d.toBinary64?
  | .value (.text s) => .ok (Binary64.read? s.toList)
  | .value (.bytes b) => .ok ((asciiText? b).bind Binary64.read?)
  | .unread l => .ok (Binary64.read? l.text.toList)
  | .value _ => .ok none

/-- Whether a value is true: its text is the word or the digit for it. -/
def toBoolean (content : Native) : Bool :=
  let word := lower (strip content.plain.toList)
  word = "true".toList || word = "1".toList

/-- The integer that a value is, not only one it can be converted to. -/
def Native.integer? : Native → Option Int
  | .value (.integer n) => some n
  | .value (.boolean b) => some (truthNumber b)
  | _ => none

/-- Refuses an integer that takes more than 32 bits. -/
def checkWidth (content : Native) : Except ConversionError Unit :=
  match content.integer? with
  | some n => if -2147483648 ≤ n && n < 2147483648 then .ok () else .error .overflow
  | none => .ok ()

/-- The time of day at the start of an hour. -/
def toTime? (content : Native) : Except ConversionError (Option Time) := do
  checkWidth content
  match content.integer? with
  | some n =>
    if 0 ≤ n && n < 24 then return some { clock := ⟨n.toNat, 0, 0, 0⟩ } else return none
  | none => return none

/-- The value converted to a type, if there is a conversion. -/
def ValueType.convert? (type : ValueType) (content : Native) :
    Except ConversionError (Option Value) := do
  match type with
  | integer => return (← toInteger? content).map .integer
  | double => return (← toDouble? content).map .double
  | text => return some (.text content.plain)
  | boolean => return some (.boolean (toBoolean content))
  | time => return (← toTime? content).map .time
  | date | dateTime =>
    checkWidth content
    return none

/-- **What a literal reads as, for the type that is asked for.** -/
def Literal.readAs (l : Literal) (type : Option ValueType) : Except ConversionError Native := do
  let content := l.native
  match type, content with
  | none, _ => return content
  | some type, .value v =>
    if v.isOf type then return content else return ((← type.convert? content).map .value).getD content
  | some type, .unread _ => return ((← type.convert? content).map .value).getD content

end OntoCode.Rdf
