/-
Reading numbers from text.

A numeral is a sign, digits and a power of ten.  Digits of every script count, blanks
around the numeral do not, and an underscore may stand between two digits.
-/
import OntoCode.Text.Blank
import OntoCode.Text.Letter

namespace OntoCode.Number

open OntoCode.Text

/-- A decimal number in its written form: the digits, and the power of ten they are scaled by. -/
structure Numeral where
  negative : Bool
  digits : Nat
  exponent : Int
  deriving DecidableEq, Repr

/-- The power of ten with an exponent. -/
def tenTo (exponent : Nat) : Nat := Nat.pow 10 exponent

/-- The number that a list of ASCII digits writes. -/
def natOfDigits (digits : List Char) : Nat :=
  digits.foldl (fun n c => 10 * n + (c.toNat - '0'.toNat)) 0

/-- The text with the digits of all scripts as ASCII digits. -/
def withAsciiDigits (s : List Char) : List Char :=
  s.map fun c =>
    match digitValue? c with
    | some value => Char.ofNat ('0'.toNat + value)
    | none => c

/-- Whether a character is a blank that may stand around a number: the separators of information
may not. -/
def isNumberBlank (c : Char) : Bool := isBlank c && !('\x1c' ≤ c && c ≤ '\x1f')

/-- The text without the blanks that may stand around a number. -/
def stripNumber (s : List Char) : List Char :=
  ((s.dropWhile isNumberBlank).reverse.dropWhile isNumberBlank).reverse

/-- The text without its underscores, if each stands between two digits. -/
def ungroup? (afterDigit : Bool) : List Char → Option (List Char)
  | [] => some []
  | c :: rest =>
    if c = '_' then
      if afterDigit && rest.head?.any isAsciiDigit then ungroup? false rest else none
    else (ungroup? (isAsciiDigit c) rest).map (c :: ·)

/-- Whether the text starts with a minus sign, and the text behind its sign. -/
def signOf : List Char → Bool × List Char
  | '-' :: rest => (true, rest)
  | '+' :: rest => (false, rest)
  | s => (false, s)

/-- The exponent at the end of a numeral: none at all, or a mark, a sign and digits. -/
def exponentOf? : List Char → Option Int
  | [] => some 0
  | mark :: rest =>
    if mark = 'e' || mark = 'E' then
      let (negative, digits) := signOf rest
      if digits = [] || !digits.all isAsciiDigit then none
      else some (if negative then -natOfDigits digits else natOfDigits digits)
    else none

/-- The numeral that a plain text spells: a sign, digits with a point among them, an exponent. -/
def Numeral.ofPlain? (s : List Char) : Option Numeral :=
  let (negative, rest) := signOf s
  let whole := rest.takeWhile isAsciiDigit
  let rest := rest.dropWhile isAsciiDigit
  let (fraction, rest) :=
    match rest with
    | '.' :: rest => (rest.takeWhile isAsciiDigit, rest.dropWhile isAsciiDigit)
    | _ => ([], rest)
  if whole = [] && fraction = [] then none
  else
    (exponentOf? rest).map fun exponent =>
      ⟨negative, natOfDigits (whole ++ fraction), exponent - fraction.length⟩

/-- The most digits an integer is read from. -/
def maxIntegerDigits : Nat := 4300

/-- The integer that a text spells. -/
def readInteger? (s : List Char) : Option Int := do
  let (negative, rest) := signOf (stripNumber (withAsciiDigits s))
  let digits ← ungroup? false rest
  if digits = [] || !digits.all isAsciiDigit || maxIntegerDigits < digits.length then none
  else some (if negative then -natOfDigits digits else natOfDigits digits)

/-- The digits of a natural number. -/
def digitsOf (n : Nat) : List Char := Nat.toDigits 10 n

/-- A natural number with at least the given number of digits. -/
def padded (width n : Nat) : List Char :=
  List.replicate (width - (digitsOf n).length) '0' ++ digitsOf n

/-- An integer in decimal notation.  The limit on the digits that are read does not count here: an
integer of any size has a text, though a longer one is not read again. -/
def integerText (n : Int) : List Char :=
  if n < 0 then '-' :: digitsOf n.natAbs else digitsOf n.natAbs

end OntoCode.Number
