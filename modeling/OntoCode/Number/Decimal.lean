/-
Decimal numbers that keep the places they are written with.
-/
import OntoCode.Number.Binary64

namespace OntoCode.Number

open OntoCode.Text

/-- A decimal number, an infinity, or no number: that one is quiet or signalling and carries a
whole number along. -/
inductive Decimal
  | notANumber (negative signalling : Bool) (payload : Nat)
  | infinite (negative : Bool)
  | finite (n : Numeral)
  deriving DecidableEq, Repr

namespace Decimal

/-- The quiet or signalling no-number that a word spells, with the digits behind it. -/
def readNotANumber? (negative : Bool) (word : List Char) : Option Decimal :=
  let (signalling, rest) :=
    match word with
    | 's' :: rest => (true, rest)
    | rest => (false, rest)
  match rest with
  | 'n' :: 'a' :: 'n' :: digits =>
    if digits.all Char.isDigit then some (notANumber negative signalling (natOfDigits digits)) else none
  | _ => none

/-- The number that a text spells.  Underscores are passed over wherever they stand. -/
def read? (s : List Char) : Option Decimal :=
  let plain := (withAsciiDigits (strip s)).filter (· ≠ '_')
  let (negative, rest) := signOf plain
  let word := rest.map Char.toLower
  if word = "inf".toList || word = "infinity".toList then some (infinite negative)
  else
    match readNotANumber? negative word with
    | some d => some d
    | none => (Numeral.ofPlain? plain).map finite

/-- The sign as text. -/
def signText (negative : Bool) : List Char := if negative then ['-'] else []

/-- Digits with a point in front of the last places; a missing place is a zero. -/
def withPlaces (digits : List Char) (places : Nat) : List Char :=
  if places = 0 then digits
  else
    let digits := List.replicate (places + 1 - digits.length) '0' ++ digits
    digits.take (digits.length - places) ++ '.' :: digits.drop (digits.length - places)

/-- The plain notation, without an exponent. -/
def plainText : Decimal → List Char
  | notANumber negative signalling payload =>
    signText negative ++ (if signalling then ['s'] else []) ++ ['N', 'a', 'N'] ++
      (if payload = 0 then [] else digitsOf payload)
  | infinite negative => signText negative ++ "Infinity".toList
  | finite n =>
    signText n.negative ++
      if 0 < n.exponent then
        if n.digits = 0 then ['0'] else digitsOf n.digits ++ List.replicate n.exponent.toNat '0'
      else withPlaces (digitsOf n.digits) (-n.exponent).toNat

/-- The notation that keeps the exponent where the digits do not reach the units or stand far
behind the point. -/
def text : Decimal → List Char
  | finite n =>
    let digits := digitsOf n.digits
    let leading : Int := n.exponent + digits.length - 1
    if n.exponent ≤ 0 && -6 ≤ leading then plainText (finite n)
    else
      signText n.negative ++ digits.take 1 ++
        (if digits.length = 1 then [] else '.' :: digits.drop 1) ++
        'E' :: (if leading < 0 then '-' else '+') :: digitsOf leading.natAbs
  | special => plainText special

/-- The whole part of a finite number, cut towards zero. -/
def truncate (n : Numeral) : Int :=
  let size : Nat :=
    if 0 ≤ n.exponent then n.digits * tenTo n.exponent.toNat
    else n.digits / tenTo (-n.exponent).toNat
  if n.negative then -size else size

/-- The nearest floating point number.  A signalling no-number has none. -/
def toBinary64? : Decimal → Option Binary64
  | notANumber _ true _ => none
  | notANumber _ false _ => some .nan
  | infinite negative => some (.infinite negative)
  | finite n => some (.ofNumeral n)

end Decimal

end OntoCode.Number
