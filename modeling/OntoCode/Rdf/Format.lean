/-
The formats of documents.

A format is asked for by one of its names, or guessed from how the path of a document
ends.  Only two families are read: Turtle, with the formats that extend it, and the
ones with a statement a line.  Documents of the other formats are refused.
-/
import OntoCode.Rdf.Lines
import OntoCode.Rdf.Turtle.Reader

namespace OntoCode.Rdf

/-- How documents of a format are read. -/
inductive Format
  | turtle
  | lines
  /-- Nothing but an empty document is read. -/
  | blank
  /-- Every document is refused. -/
  | refused
  deriving DecidableEq, Repr

namespace Format

/-- The names that formats are asked for by. -/
def names : List (String × Format) := [
  ("application/ld+json", refused), ("application/n-quads", lines),
  ("application/n-triples", lines), ("application/rdf+xml", refused),
  ("application/trig", turtle), ("application/trix", refused), ("hext", blank),
  ("json-ld", refused), ("n3", turtle), ("nquads", lines), ("nt", lines), ("nt11", lines),
  ("ntriples", lines), ("patch", blank), ("text/n3", turtle), ("text/turtle", turtle),
  ("trig", turtle), ("trix", refused), ("ttl", turtle), ("turtle", turtle), ("xml", refused)]

/-- The format with a name. -/
def named? (name : String) : Option Format := names.lookup name

/-- The names of the formats that paths end in. -/
def endings : List (String × String) := [
  ("xml", "xml"), ("rdf", "xml"), ("owl", "xml"), ("n3", "n3"), ("ttl", "turtle"), ("nt", "nt"),
  ("trix", "trix"), ("xhtml", "rdfa"), ("html", "rdfa"), ("svg", "rdfa"), ("nq", "nquads"),
  ("nquads", "nquads"), ("trig", "trig"), ("json", "json-ld"), ("jsonld", "json-ld"),
  ("json-ld", "json-ld")]

/-- What follows the last dot of a file name that has something other than dots before it. -/
def ending? (path : List Char) : Option (List Char) :=
  let file := ((splitAfterLast? '/' path).map (·.2)).getD path
  match splitAfterLast? '.' file with
  | some (before, after) => if before.all (· = '.') then none else some after
  | none => none

/-- The name of the format that a path suggests: its ending counts, or else the whole path with
the dot at its start left out, or the whole path. -/
def guess? (path : String) : Option String :=
  let small (s : List Char) : String := String.ofList (Text.lower s)
  let fromEnding :=
    match ending? path.toList, path.toList with
    | some ending, _ => endings.lookup (small ending)
    | none, '.' :: rest => endings.lookup (small rest)
    | none, _ => none
  fromEnding <|> endings.lookup (small path.toList)

/-- How a document is read, given the name of its format; one without a name is read as Turtle. -/
def ofName (name : Option String) : Format :=
  match name with
  | some name => (named? name).getD refused
  | none => turtle

/-- What a text says in a format. -/
def read? (format : Format) (document : Nat) (base : String) (s : List Char) : Option Document :=
  match format with
  | turtle => Turtle.read? document base s
  | lines => Lines.read? document s
  | blank => if s.all Text.isBlank then some {} else none
  | refused => none

end Format

end OntoCode.Rdf
