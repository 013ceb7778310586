/-
The classes that a domain or range refers to.

A domain or range is a class, or a description of the union of some classes.  Several
statements count as the union of what they say, since generated code cannot express
that all of them hold.
-/
import OntoCode.Ontology.Terms
import OntoCode.Schema.Failure

namespace OntoCode.Ontology

open OntoCode.Rdf OntoCode.Text

/-- The classes of the unions that a node describes. -/
def unionTypes (g : Graph) (node : Term) : Except Failure (List Iri) := do
  let members ← (g.objects node (owl "unionOf")).mapM fun head =>
    match g.listMembers? head with
    | some members => Except.ok (members.filterMap Term.iri?)
    | none => Except.error Failure.endlessList
  return members.flatten

/-- The classes that one object of a domain or range statement refers to. -/
def typesOf (g : Graph) : Term → Except Failure (List Iri)
  | .iri i => .ok [i]
  | .blank node => unionTypes g (.blank node)
  | .literal _ => .ok []

/-- The classes that a subject refers to through a predicate, each once. -/
def referencedTypes (g : Graph) (subject : Term) (predicate : Iri) : Except Failure (List Iri) := do
  let types ← (g.objects subject predicate).mapM (typesOf g)
  return types.flatten.eraseDups

/-- The report that a subject has several statements for one predicate. -/
def severalTypesNotices (g : Graph) (subject : Term) (predicate : Iri) : List Notice :=
  let count := (g.objects subject predicate).length
  if 1 < count then [.severalTypes subject predicate count] else []

/-- The ends of a property that a class can be at. -/
inductive PropertyEnd
  | domain
  | range
  deriving DecidableEq, Repr

/-- The predicate that names the classes at an end. -/
def PropertyEnd.predicate : PropertyEnd → Iri
  | domain => rdfs "domain"
  | range => rdfs "range"

/-- The properties that have a class at an end. -/
def propertiesOf (g : Graph) (class_ : Iri) (side : PropertyEnd) : Except Failure (List Iri) :=
  (properties g).filterM fun property => do
    let types ← referencedTypes g (.iri property) side.predicate
    return types.contains class_

/-- The reports of looking for properties at an end. -/
def propertiesNotices (g : Graph) (side : PropertyEnd) : List Notice :=
  (properties g).flatMap fun property => severalTypesNotices g (.iri property) side.predicate

end OntoCode.Ontology
