/-
A graph is a set of statements that remembers the order they were added in.

Adding a statement that is there already changes nothing.  Queries give their
answers in the order of the statements.

What is listed for a reader is sorted by one or more texts, compared character by
character by code point; elements with equal texts keep their order.  A statement is
listed by its subject, predicate and object.  IRIs and blank nodes come before
literals; literals are ordered by text, then by language, then by datatype, where none
counts as the empty text.
-/
import OntoCode.Rdf.Term

namespace OntoCode.Text

/-- Whether texts come before others or are the same: the first texts that differ decide. -/
def notAfter : List String → List String → Bool
  | [], _ => true
  | _ :: _, [] => false
  | a :: as, b :: bs => a < b || (a = b && notAfter as bs)

/-- The list sorted by the texts that a function gives. -/
def sortByTexts {α : Type} (key : α → List String) (l : List α) : List α :=
  l.mergeSort fun a b => notAfter (key a) (key b)

theorem sortByTexts_perm {α : Type} (key : α → List String) (l : List α) :
    (sortByTexts key l).Perm l :=
  List.mergeSort_perm l _

@[simp] theorem mem_sortByTexts {α : Type} {key : α → List String} {l : List α} {a : α} :
    a ∈ sortByTexts key l ↔ a ∈ l :=
  (sortByTexts_perm key l).mem_iff

end OntoCode.Text

namespace OntoCode.Rdf

/-- A set of statements, oldest first. -/
structure Graph where
  triples : List Triple := []
  deriving Repr, Inhabited

namespace Graph

/-- Whether a statement is in the graph. -/
def contains (g : Graph) (t : Triple) : Bool := g.triples.any t.same

/-- The graph with a statement added. -/
def insert (g : Graph) (t : Triple) : Graph :=
  if g.contains t then g else ⟨g.triples ++ [t]⟩

/-- The graph with statements added in turn. -/
def insertAll (g : Graph) (ts : List Triple) : Graph := ts.foldl insert g

/-- The graph that holds the given statements. -/
def ofList (ts : List Triple) : Graph := insertAll {} ts

/-- The number of statements. -/
def size (g : Graph) : Nat := g.triples.length

/-- What a subject is related to by a predicate. -/
def objects (g : Graph) (subject : Term) (predicate : Iri) : List Term :=
  (g.triples.filter fun t => t.subject.same subject && t.predicate = predicate).map (·.object)

/-- What is related to an object by a predicate. -/
def subjects (g : Graph) (predicate : Iri) (object : Term) : List Term :=
  (g.triples.filter fun t => t.predicate = predicate && t.object.same object).map (·.subject)

/-- The statements about a subject. -/
def about (g : Graph) (subject : Term) : Graph := ⟨g.triples.filter (·.subject.same subject)⟩

/-- The IRIs that a subject is related to. -/
def objectIris (g : Graph) (subject : Term) (predicate : Iri) : List Iri :=
  (g.objects subject predicate).filterMap Term.iri?

/-- The literals that a subject is related to. -/
def literals (g : Graph) (subject : Term) (predicate : Iri) : List Literal :=
  (g.objects subject predicate).filterMap Term.literal?

end Graph

/-- The statements of a document and the labels it declares for namespaces. -/
structure Document where
  graph : Graph := {}
  labels : List (String × String) := []

/-! ### Listing -/

/-- The texts that a term is ordered by. -/
def Term.orderKey : Term → List String
  | iri i => ["", i.text, "", ""]
  | blank b => ["", "_:" ++ b.label, "", ""]
  | literal l => ["literal", l.text, l.language.getD "", (l.datatype.map (·.text)).getD ""]

/-- The texts that a statement is ordered by. -/
def Triple.orderKey (t : Triple) : List String :=
  t.subject.orderKey ++ [t.predicate.text] ++ t.object.orderKey

/-- The statements of a graph in order. -/
def Graph.listed (g : Graph) : List Triple := Text.sortByTexts Triple.orderKey g.triples

end OntoCode.Rdf
