/-
English plurals of camel-cased names.

Only the final part of a name changes: the longest ending made of small letters
and digits, with the capital in front of it.  A name that breaks off in the middle
of a line has no final part and no plural.
-/
import OntoCode.Text.Letter
import OntoCode.Text.Case

namespace OntoCode.Naming

open OntoCode.Text

/-- Whether a character can continue the final part of a name. -/
def continuesPart (c : Char) : Bool := isAsciiLower c || isAsciiDigit c

/-- The text as a final part: a capital or none, then small letters and digits up to the end of
the text or up to a line feed that ends it. -/
def finalPart? (s : List Char) : Option (List Char) :=
  let (capital, rest) :=
    match s with
    | c :: rest => if isAsciiUpper c then ([c], rest) else ([], s)
    | [] => ([], [])
  match rest.dropWhile continuesPart with
  | [] => some (capital ++ rest.takeWhile continuesPart)
  | ['\n'] => some (capital ++ rest.takeWhile continuesPart)
  | _ => none

/-- What stands before the final part of a name, and the part. -/
def splitFinal? (s : List Char) : Option (List Char × List Char) :=
  match finalPart? s, s with
  | some part, _ => some ([], part)
  | none, [] => none
  | none, c :: rest =>
    if c = '\n' then none else (splitFinal? rest).map fun (head, part) => (c :: head, part)

/-- Words with a plural of their own. -/
def irregularPlurals : List (String × String) := [
  ("child", "children"), ("man", "men"), ("woman", "women"), ("foot", "feet"), ("tooth", "teeth"),
  ("mouse", "mice"), ("datum", "data"), ("criterion", "criteria"), ("index", "indices")]

/-- The plural of a final part: irregular words keep their first letter as it is spelled. -/
def pluralPart (part : List Char) : List Char :=
  match irregularPlurals.find? fun (singular, _) => singular.toList = lower part with
  | some (_, plural) => part.take 1 ++ plural.toList.drop 1
  | none =>
    match part.reverse with
    | 's' :: _ | 'x' :: _ | 'z' :: _ | 'h' :: 'c' :: _ | 'h' :: 's' :: _ => part ++ ['e', 's']
    | 'y' :: before :: _ =>
      if before ∈ ['a', 'e', 'i', 'o', 'u'] then part ++ ['s'] else part.dropLast ++ ['i', 'e', 's']
    | _ => part ++ ['s']

/-- The plural of a name, if it has a final part. -/
def plural? (word : List Char) : Option (List Char) :=
  if word = [] then some []
  else
    (splitFinal? word).map fun (head, part) =>
      if part = [] then word ++ ['s'] else head ++ pluralPart part

end OntoCode.Naming
