/-
Backslash escapes in documents.

An escape stands for a character by a letter of its own, or by the code of the
character in four or eight hexadecimal digits.  A code escape whose digits are none
stands for itself.

The codes from D800 to DFFF are those of halves: two of them together encode one
character elsewhere.  No text has a half of a character in it, so an escape of one
stands for nothing here.
-/
import OntoCode.Text.Letter

namespace OntoCode.Text

/-- The value of a hexadecimal digit. -/
def hexValue? (c : Char) : Option Nat :=
  if isAsciiDigit c then some (c.toNat - '0'.toNat)
  else if 'a' ≤ c && c ≤ 'f' then some (c.toNat - 'a'.toNat + 10)
  else if 'A' ≤ c && c ≤ 'F' then some (c.toNat - 'A'.toNat + 10)
  else none

/-- The number that hexadecimal digits spell, if they all are digits. -/
def hexNumber? (digits : List Char) : Option Nat :=
  digits.foldlM (fun n c => (hexValue? c).map (16 * n + ·)) 0

/-- The character with a code. -/
def codeChar? (n : Nat) : Option Char := if n.isValidChar then some (Char.ofNat n) else none

/-- What a code escape stands for: a character, or itself if its digits are none. -/
def expandCode (mark : Char) (digits : List Char) : Option (List Char) :=
  match hexNumber? digits with
  | some n => (codeChar? n).map fun c => [c]
  | none => some ('\\' :: mark :: digits)

/-- How escapes are read: what each letter stands for, and whether other letters are refused or
stay as they are. -/
structure EscapeRule where
  letter? : Char → Option Char
  strict : Bool

/-- What an escape with a letter stands for. -/
def EscapeRule.expand (rule : EscapeRule) (letter : Char) : Option (List Char) :=
  match rule.letter? letter with
  | some c => some [c]
  | none => if rule.strict then none else some ['\\', letter]

/-- The text that a text with escapes stands for. -/
def unescape? (rule : EscapeRule) : List Char → Option (List Char)
  | [] => some []
  | '\\' :: 'U' :: a :: b :: c :: d :: e :: f :: g :: h :: rest => do
    return (← expandCode 'U' [a, b, c, d, e, f, g, h]) ++ (← unescape? rule rest)
  | '\\' :: 'u' :: a :: b :: c :: d :: rest => do
    return (← expandCode 'u' [a, b, c, d]) ++ (← unescape? rule rest)
  | '\\' :: letter :: rest => do return (← rule.expand letter) ++ (← unescape? rule rest)
  | c :: rest => do return c :: (← unescape? rule rest)

/-- Whether digits spell the code of half a character. -/
def spellsHalf (digits : List Char) : Bool :=
  (hexNumber? digits).any fun n => 0xD800 ≤ n && n ≤ 0xDFFF

/-- Whether a text has an escape of half a character. -/
def escapesHalf : List Char → Bool
  | [] => false
  | '\\' :: 'U' :: a :: b :: c :: d :: e :: f :: g :: h :: rest =>
    spellsHalf [a, b, c, d, e, f, g, h] || escapesHalf rest
  | '\\' :: 'u' :: a :: b :: c :: d :: rest => spellsHalf [a, b, c, d] || escapesHalf rest
  | '\\' :: _ :: rest => escapesHalf rest
  | _ :: rest => escapesHalf rest

/-- The escapes of IRIs: codes alone. -/
def iriEscapes : EscapeRule := ⟨fun _ => none, false⟩

/-- The escapes of line by line documents. -/
def lineEscapes : EscapeRule where
  letter? c := [('t', '\t'), ('b', '\x08'), ('n', '\n'), ('r', '\r'), ('f', '\x0c'), ('"', '"'),
    ('\'', '\''), ('\\', '\\')].lookup c
  strict := false

/-- The escapes of quoted texts; no other letters may be escaped. -/
def textEscapes : EscapeRule where
  letter? c := [('a', '\x07'), ('v', '\x0b')].lookup c <|> lineEscapes.letter? c
  strict := true

end OntoCode.Text
