/-
Floating point numbers of 64 bits, as exact values.

No arithmetic is done on them.  They are read from decimals, which rounds to the
nearest one and to the even one of two, and they are written with the fewest digits
that read back as the same number.
-/
import OntoCode.Number.Numeral

namespace OntoCode.Number

open OntoCode.Text

/-- A floating point number: the mantissa times a power of two, an infinity, or no number. -/
inductive Binary64
  | nan
  | infinite (negative : Bool)
  | finite (negative : Bool) (mantissa : Nat) (exponent : Int)
  deriving DecidableEq, Repr

namespace Binary64

/-- The power of two with an exponent. -/
def twoTo (exponent : Nat) : Nat := Nat.pow 2 exponent

/-- The least exponent. -/
def minExponent : Int := -1074

/-- The greatest exponent of a full mantissa. -/
def maxExponent : Int := 971

/-- The first mantissa that needs all 53 bits: the power of two with exponent 52. -/
def leastFull : Nat := 4503599627370496

/-- A fraction rounded to a whole number, a half to the even one. -/
def roundHalfEven (num den : Nat) : Nat :=
  let floor := num / den
  let twice := 2 * (num % den)
  if twice < den then floor else if den < twice then floor + 1 else floor + floor % 2

/-- A fraction in units of a power of two, as a fraction again. -/
def inUnits (num den : Nat) (exponent : Int) : Nat × Nat :=
  if 0 ≤ exponent then (num, den * twoTo exponent.toNat)
  else (num * twoTo (-exponent).toNat, den)

/-- The number nearest to a fraction. -/
def ofRatio (negative : Bool) (num den : Nat) : Binary64 :=
  if num = 0 then finite negative 0 minExponent
  else
    let guess : Int := (Nat.log2 num : Int) - (Nat.log2 den : Int) - 52
    let (n, d) := inUnits num den guess
    let exponent := max minExponent (if n < leastFull * d then guess - 1 else guess)
    let (n, d) := inUnits num den exponent
    let mantissa := roundHalfEven n d
    let (mantissa, exponent) :=
      if mantissa = 2 * leastFull then (leastFull, exponent + 1) else (mantissa, exponent)
    if maxExponent < exponent then infinite negative else finite negative mantissa exponent

/-- The number nearest to a numeral; numerals far out of range are not expanded. -/
def ofNumeral (n : Numeral) : Binary64 :=
  let size : Int := (digitsOf n.digits).length + n.exponent
  if n.digits = 0 || size < -400 then finite n.negative 0 minExponent
  else if 400 < size then infinite n.negative
  else if 0 ≤ n.exponent then ofRatio n.negative (n.digits * tenTo n.exponent.toNat) 1
  else ofRatio n.negative n.digits (tenTo (-n.exponent).toNat)

/-- The number nearest to an integer. -/
def ofInt (n : Int) : Binary64 := ofRatio (n < 0) n.natAbs 1

/-- The number that a text spells; it may spell an infinity or no number. -/
def read? (s : List Char) : Option Binary64 := do
  let plain ← ungroup? false (stripNumber (withAsciiDigits s))
  let (negative, rest) := signOf plain
  let word := String.ofList (rest.map Char.toLower)
  if word = "inf" || word = "infinity" then some (infinite negative)
  else if word = "nan" then some nan
  else (Numeral.ofPlain? plain).map ofNumeral

/-- The whole part of a finite number, cut towards zero. -/
def truncate (negative : Bool) (mantissa : Nat) (exponent : Int) : Int :=
  let size : Nat :=
    if 0 ≤ exponent then mantissa * twoTo exponent.toNat else mantissa / twoTo (-exponent).toNat
  if negative then -size else size

/-- Four times a positive number and the two ends of the interval that rounds to it, over a common
denominator. -/
def interval (mantissa : Nat) (exponent : Int) : Nat × Nat × Nat × Nat :=
  let below := if mantissa = leastFull && minExponent < exponent then 1 else 2
  let scale : Nat := if 0 ≤ exponent then twoTo exponent.toNat else 1
  let den : Nat := if 0 ≤ exponent then 4 else 4 * twoTo (-exponent).toNat
  (4 * mantissa * scale, (4 * mantissa - below) * scale, (4 * mantissa + 2) * scale, den)

/-- The power of ten of the leading digit of a positive fraction. -/
def leadingPower (num den : Nat) : Int :=
  if den ≤ num then (digitsOf (num / den)).length - 1
  else
    let places := (digitsOf (den / num)).length
    if den ≤ num * tenTo (places - 1) then -(places - 1 : Nat) else -(places : Nat)

/-- The digits of the multiple of a power of ten that lies in the interval of a number and nearest
to it, if there is one. -/
def onGrid? (mantissa : Nat) (exponent power : Int) : Option Nat :=
  let (value, low, high, den) := interval mantissa exponent
  let scale : Nat := if 0 ≤ power then 1 else tenTo (-power).toNat
  let unit : Nat := if 0 ≤ power then den * tenTo power.toNat else den
  let (value, low, high) := (value * scale, low * scale, high * scale)
  let inside (n : Nat) : Bool :=
    if mantissa % 2 = 0 then low ≤ n * unit && n * unit ≤ high
    else low < n * unit && n * unit < high
  let floor := value / unit
  match inside floor, inside (floor + 1) with
  | true, false => some floor
  | false, true => some (floor + 1)
  | true, true => some (roundHalfEven value unit)
  | false, false => none

/-- The fewest digits that read back as a positive number, and the power of ten of the last one. -/
def shortest (mantissa : Nat) (exponent : Int) : Nat × Int :=
  let (value, _, _, den) := interval mantissa exponent
  let top := leadingPower value den
  let grids := (List.range 17).map fun count => top - (count : Nat)
  (grids.findSome? fun power => (onGrid? mantissa exponent power).map (·, power)).getD (0, 0)

/-- Digits with a decimal point behind a given number of them; zeros fill the gaps. -/
def withPoint (digits : List Char) (point : Int) : List Char :=
  if point ≤ 0 then '0' :: '.' :: List.replicate (-point).toNat '0' ++ digits
  else if digits.length ≤ point.toNat then
    digits ++ List.replicate (point.toNat - digits.length) '0' ++ ['.', '0']
  else digits.take point.toNat ++ '.' :: digits.drop point.toNat

/-- Digits in scientific notation: a point behind the first, a signed exponent of two digits. -/
def scientific (digits : List Char) (point : Int) : List Char :=
  let power := point - 1
  let lead := digits.take 1 ++ (if digits.length = 1 then [] else '.' :: digits.drop 1)
  lead ++ 'e' :: (if power < 0 then '-' else '+') :: padded 2 power.natAbs

/-- The number as text: the fewest digits, positional from a ten-thousandth up to sixteen digits. -/
def text : Binary64 → List Char
  | nan => ['n', 'a', 'n']
  | infinite negative => (if negative then ['-'] else []) ++ ['i', 'n', 'f']
  | finite negative mantissa exponent =>
    let body :=
      if mantissa = 0 then ['0', '.', '0']
      else
        let (number, power) := shortest mantissa exponent
        let digits := digitsOf number
        let point := power + digits.length
        let digits := (digits.reverse.dropWhile (· = '0')).reverse
        if -4 < point && point ≤ 16 then withPoint digits point else scientific digits point
    (if negative then ['-'] else []) ++ body

end Binary64

end OntoCode.Number
