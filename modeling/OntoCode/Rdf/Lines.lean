/-
Reading documents with one statement a line.

Each line holds a subject, a predicate and an object, with blanks between them and a
dot at the end.  Empty lines and comments say nothing.
-/
import OntoCode.Rdf.Datatype
import OntoCode.Rdf.Graph
import OntoCode.Rdf.Turtle.Token

namespace OntoCode.Rdf.Lines

open OntoCode.Text OntoCode.Rdf.Turtle

/-- Whether a character separates the terms of a line. -/
def isGap (c : Char) : Bool := c = ' ' || c = '\t'

/-- Whether the text of an IRI starts with a scheme and holds no blanks, quotes or brackets behind
it. -/
def isFullIri (text : List Char) : Bool :=
  let scheme := text.takeWhile (· ≠ ':')
  let rest := text.drop scheme.length
  scheme ≠ [] && rest ≠ [] && rest.all fun c => !isBlank c && c ≠ '"' && c ≠ '<' && c ≠ '>'

/-- An IRI, from behind its first bracket on. -/
def readIri? (s : List Char) : Option (Iri × List Char) :=
  match s.dropWhile (· ≠ '>') with
  | _ :: rest => do
    let text := s.takeWhile (· ≠ '>')
    if !isFullIri text then none
    else return (⟨String.ofList (← unescape? lineEscapes text)⟩, rest)
  | [] => none

/-- Whether a character may be in the label of a blank node, if it is not the last. -/
def inNodeLabel (c : Char) : Bool := isNameChar c || c = ':' || c = '-' || c = '.'

/-- A blank node, from behind its colon on. -/
def readNode? (document : Nat) (s : List Char) : Option (Term × List Char) :=
  let run := s.takeWhile inNodeLabel
  let label := (run.reverse.dropWhile (· = '.')).reverse
  match label with
  | c :: _ =>
    if c = '-' || c = '.' then none
    else
      some (.blank ⟨"N" ++ toString document ++ "l" ++ String.ofList label, true⟩,
        s.drop label.length)
  | [] => none

/-- The text up to its quote, and what follows. -/
def splitQuoted : List Char → Option (List Char × List Char)
  | [] => none
  | '\\' :: c :: rest => (splitQuoted rest).map fun (text, left) => ('\\' :: c :: text, left)
  | c :: rest =>
    if c = '"' then some ([], rest)
    else (splitQuoted rest).map fun (text, left) => (c :: text, left)

/-- A literal, from behind its first quote on. -/
def readLiteral? (s : List Char) : Option (Literal × List Char) := do
  let (raw, rest) ← splitQuoted s
  let text := String.ofList (← unescape? lineEscapes raw)
  match ← finishText text rest with
  | (.tagged _ language, rest) => return (Literal.ofText text none (some language), rest)
  | (.typed _, '<' :: rest) =>
    let (datatype, rest) ← readIri? rest
    return (Literal.ofText text (some datatype) none, rest)
  | (.text _, rest) => return (Literal.ofText text none none, rest)
  | _ => none

/-- A term that may be a subject. -/
def readSubject? (document : Nat) : List Char → Option (Term × List Char)
  | '<' :: rest => (readIri? rest).map fun (i, left) => (.iri i, left)
  | '_' :: ':' :: rest => readNode? document rest
  | _ => none

/-- A term that may be an object. -/
def readObject? (document : Nat) : List Char → Option (Term × List Char)
  | '"' :: rest => (readLiteral? rest).map fun (l, left) => (.literal l, left)
  | s => readSubject? document s

/-- What follows the blanks that have to be there. -/
def readGap? (s : List Char) : Option (List Char) :=
  if s.head?.any isGap then some (s.dropWhile isGap) else none

/-- Whether a text ends a line: a dot with blanks around it, and a comment. -/
def isLineEnding (s : List Char) : Bool :=
  match s.dropWhile isGap with
  | '.' :: rest =>
    match rest.dropWhile isGap with
    | [] => true
    | c :: _ => c = '#'
  | _ => false

/-- The statement of a line, or that it says nothing. -/
def readLine? (document : Nat) (line : List Char) : Option (Option Triple) :=
  match line.dropWhile isGap with
  | [] => some none
  | '#' :: _ => some none
  | s => do
    let (subject, rest) ← readSubject? document s
    match ← readGap? rest with
    | '<' :: rest =>
      let (predicate, rest) ← readIri? rest
      let (object, rest) ← readObject? document (← readGap? rest)
      if isLineEnding rest then return some ⟨subject, predicate, object⟩ else none
    | _ => none

/-- The lines of a text, ended by a line feed, a carriage return or both. -/
def splitLines : List Char → List (List Char)
  | [] => [[]]
  | '\r' :: '\n' :: rest => [] :: splitLines rest
  | c :: rest =>
    if c = '\n' || c = '\r' then [] :: splitLines rest
    else
      match splitLines rest with
      | line :: more => (c :: line) :: more
      | [] => [[c]]

/-- **What a document says;** none if a line breaks the rules. -/
def read? (document : Nat) (s : List Char) : Option Document := do
  let statements ← (splitLines s).mapM (readLine? document)
  return { graph := Graph.ofList (statements.filterMap id) }

end OntoCode.Rdf.Lines
