/-
The terms of RDF: IRIs, blank nodes and literals.

A literal has a text and may have a language tag or a datatype.  It also carries the
native value it stands for, if it has one.  The value is no part of what the literal
is: two literals are the same if text and datatype agree and the language tags do up
to case.
-/
import OntoCode.Calendar
import OntoCode.Number.Decimal
import OntoCode.Rdf.Iri
import OntoCode.Text.Case

namespace OntoCode.Rdf

open OntoCode.Calendar OntoCode.Number

/-- The native values of literals. -/
inductive Value
  | text (s : String)
  | integer (n : Int)
  | boolean (b : Bool)
  | double (x : Binary64)
  | decimal (d : Decimal)
  | date (d : Date)
  | time (t : Time)
  | dateTime (d : DateTime)
  | bytes (b : List UInt8)
  deriving DecidableEq, Repr

/-- A literal. -/
structure Literal where
  text : String
  language : Option String := none
  datatype : Option Iri := none
  value : Option Value := none
  deriving DecidableEq, Repr

/-- A blank node.  One that was met in a document has a label made up for it. -/
structure BlankNode where
  label : String
  madeUp : Bool := false
  deriving DecidableEq, Repr

/-- A term of RDF. -/
inductive Term
  | iri (iri : Iri)
  | blank (node : BlankNode)
  | literal (literal : Literal)
  deriving DecidableEq, Repr

/-- What identifies a literal: its text, its datatype and its language without regard to case. -/
def Literal.key (l : Literal) : Literal :=
  { l with language := l.language.map fun tag => String.ofList (Text.lower tag.toList),
           value := none }

/-- What identifies a term. -/
def Term.key : Term → Term
  | literal l => literal l.key
  | other => other

/-- Whether two terms are the same one. -/
def Term.same (a b : Term) : Bool := a.key = b.key

@[simp] theorem Term.same_self (a : Term) : a.same a = true := by simp [Term.same]

theorem Term.same_comm (a b : Term) : a.same b = b.same a := by
  simp [Term.same, eq_comm]

@[simp] theorem Term.same_iri {a : Term} {i : Iri} : a.same (iri i) = true ↔ a = iri i := by
  cases a <;> simp [Term.same, Term.key]

/-- The plain text of a term: that of the IRI, the label of the node, that of the literal. -/
def Term.text : Term → String
  | iri i => i.text
  | blank b => b.label
  | literal l => l.text

/-- The term as messages show it: a label that was made up says nothing and is left out. -/
def Term.shown : Term → String
  | blank b => if b.madeUp then "_:anon" else b.label
  | other => other.text

/-- The IRI of a term that is one. -/
def Term.iri? : Term → Option Iri
  | iri i => some i
  | _ => none

/-- The literal of a term that is one. -/
def Term.literal? : Term → Option Literal
  | literal l => some l
  | _ => none

/-- A statement about a subject. -/
structure Triple where
  subject : Term
  predicate : Iri
  object : Term
  deriving DecidableEq, Repr

/-- Whether two statements are the same one. -/
def Triple.same (a b : Triple) : Bool :=
  a.subject.same b.subject && a.predicate = b.predicate && a.object.same b.object

@[simp] theorem Triple.same_self (a : Triple) : a.same a = true := by simp [Triple.same]

end OntoCode.Rdf
