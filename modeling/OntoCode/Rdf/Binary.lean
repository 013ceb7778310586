/-
Bytes in literals.

A literal writes bytes with two hexadecimal digits each, or in base 64: three bytes
are four characters there, of six bits each, and equal signs stand for the bytes that
the last three lack.  Reading is less strict than writing.  Capital hexadecimal digits
are digits too, and in base 64 every ASCII character that is none of the alphabet is
skipped.
-/
import OntoCode.Text.Escape
import OntoCode.Text.Quoted

namespace OntoCode.Rdf

open OntoCode.Text

/-! ### Hexadecimal notation -/

/-- Bytes in hexadecimal notation. -/
def hexText (bytes : List UInt8) : List Char := bytes.flatMap fun b => hexDigits 2 b.toNat

/-- The byte that two hexadecimal digits write. -/
def hexByte? (high low : Char) : Option UInt8 := do
  return (16 * (← hexValue? high) + (← hexValue? low)).toUInt8

/-- The bytes that a text writes in hexadecimal notation. -/
def readHex? : List Char → Option (List UInt8)
  | [] => some []
  | [_] => none
  | high :: low :: rest => do return (← hexByte? high low) :: (← readHex? rest)

/-! ### Base 64 -/

/-- The alphabet of base 64. -/
def base64Letters : List Char :=
  "ABCDEFGHIJKLMNOPQRSTUVWXYZabcdefghijklmnopqrstuvwxyz0123456789+/".toList

/-- The character for six bits. -/
def base64Letter (n : Nat) : Char := base64Letters.getD n '='

/-- The six bits that a character stands for. -/
def sextet? (c : Char) : Option Nat := base64Letters.idxOf? c

/-- Bytes in base 64. -/
def base64Text : List UInt8 → List Char
  | [] => []
  | [a] => [base64Letter (a.toNat / 4), base64Letter (a.toNat % 4 * 16), '=', '=']
  | [a, b] =>
    [base64Letter (a.toNat / 4), base64Letter (a.toNat % 4 * 16 + b.toNat / 16),
      base64Letter (b.toNat % 16 * 4), '=']
  | a :: b :: c :: rest =>
    base64Letter (a.toNat / 4) :: base64Letter (a.toNat % 4 * 16 + b.toNat / 16) ::
      base64Letter (b.toNat % 16 * 4 + c.toNat / 64) :: base64Letter (c.toNat % 64) ::
      base64Text rest

/-- The sextets of a text up to the padding that fills the last four of them.  Equal signs count
as padding from the second sextet on and in a row; a text without padding is full. -/
def sextets? (count pads : Nat) : List Char → Option (List Nat)
  | [] => if count % 4 = 0 then some [] else none
  | c :: rest =>
    if c = '=' then
      if count % 4 < 2 then sextets? count pads rest
      else if count % 4 + pads < 3 then sextets? count (pads + 1) rest
      else some []
    else
      match sextet? c with
      | some n => (sextets? (count + 1) 0 rest).map (n :: ·)
      | none => sextets? count pads rest

/-- The bytes that sextets hold. -/
def bytesOfSextets : List Nat → List UInt8
  | a :: b :: c :: d :: rest =>
    (a * 4 + b / 16).toUInt8 :: (b % 16 * 16 + c / 4).toUInt8 :: (c % 4 * 64 + d).toUInt8 ::
      bytesOfSextets rest
  | [a, b, c] => [(a * 4 + b / 16).toUInt8, (b % 16 * 16 + c / 4).toUInt8]
  | [a, b] => [(a * 4 + b / 16).toUInt8]
  | _ => []

/-- The bytes that an ASCII text writes in base 64. -/
def readBase64? (s : List Char) : Option (List UInt8) :=
  if s.all (·.toNat < 128) then (sextets? 0 0 s).map bytesOfSextets else none

/-! ### Bytes as text -/

/-- The text of ASCII bytes. -/
def asciiText? (bytes : List UInt8) : Option (List Char) :=
  if bytes.all (· < 128) then some (bytes.map fun b => Char.ofNat b.toNat) else none

/-- The text that bytes encode. -/
def textOfBytes? (bytes : List UInt8) : Option String := String.fromUTF8? ⟨bytes.toArray⟩

/-- Bytes in quotes, behind the letter that marks them: the ASCII ones that can be seen are shown as
characters, the others by their codes. -/
def quotedBytes (bytes : List UInt8) : List Char :=
  let characters := bytes.map fun b => Char.ofNat b.toNat
  let quote := quoteFor characters
  'b' :: quote :: (characters.flatMap fun c =>
    if c.toNat < 128 then quotedChar quote c else '\\' :: 'x' :: hexDigits 2 c.toNat) ++ [quote]

end OntoCode.Rdf
