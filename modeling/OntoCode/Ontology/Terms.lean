/-
An ontology to generate code from, and its classes and properties.

All answers are sorted by the text of the terms, so they do not depend on the order
of the statements.
-/
import OntoCode.Ontology.Notice
import OntoCode.Rdf.Collection
import OntoCode.Rdf.Prefixes

namespace OntoCode

open OntoCode.Rdf OntoCode.Text

/-- The statements of an ontology, and how they are read. -/
structure Ontology where
  graph : Graph := {}
  /-- The language that titles and descriptions are preferred in. -/
  language : Option String := none
  prefixes : Prefixes := Prefixes.standard
  /-- How many documents were read. -/
  documents : Nat := 0

namespace Ontology

/-- The ontology with statements added. -/
def add (o : Ontology) (triples : List Triple) : Ontology :=
  { o with graph := o.graph.insertAll triples }

/-- The types that make a resource a class. -/
def classTypes : List Iri := [rdfs "Class", owl "Class"]

/-- The types that make a resource a property. -/
def propertyTypes : List Iri := [rdf "Property", owl "DatatypeProperty", owl "ObjectProperty"]

/-- The resources that have one of the given types, each once, in the order of the types and
statements. -/
def withTypes (g : Graph) (types : List Iri) : List Term :=
  (types.flatMap fun type => g.subjects rdfType (.iri type)).eraseDups

/-- The classes, blank nodes among them. -/
def classes (g : Graph) : List Term := sortByTexts (fun t => [t.text]) (withTypes g classTypes)

/-- The properties. -/
def properties (g : Graph) : List Iri :=
  sortByTexts (fun i => [i.text]) ((withTypes g propertyTypes).filterMap Term.iri?)

/-- The classes and properties with an IRI. -/
def terms (g : Graph) : List Iri :=
  sortByTexts (fun i => [i.text]) ((classes g).filterMap Term.iri? ++ properties g).eraseDups

/-- Whether a resource has a type. -/
def hasType (g : Graph) (resource : Term) (type : Iri) : Bool :=
  g.contains ⟨resource, rdfType, .iri type⟩

/-- Whether a property has at most one value for each subject. -/
def isFunctional (g : Graph) (property : Term) : Bool :=
  hasType g property (owl "FunctionalProperty")

/-- Whether a property has at most one subject for each value. -/
def isInverseFunctional (g : Graph) (property : Term) : Bool :=
  hasType g property (owl "InverseFunctionalProperty")

/-- The first IRI that a subject is related to. -/
def firstIri? (g : Graph) (subject : Term) (predicate : Iri) : Option Iri :=
  (g.objectIris subject predicate).head?

/-- The first range of a property that has an IRI. -/
def range? (g : Graph) (property : Term) : Option Iri := firstIri? g property (rdfs "range")

/-- The superclass of a class: the first one that has an IRI. -/
def superclass? (g : Graph) (class_ : Term) : Option Iri :=
  firstIri? g class_ (rdfs "subClassOf")

/-- The report that a class has superclasses that are not used. -/
def superclassNotices (g : Graph) (class_ : Term) : List Notice :=
  match g.objectIris class_ (rdfs "subClassOf") with
  | used :: _ :: more => [.severalSuperclasses class_ (more.length + 2) used]
  | _ => []

/-- How many of the IRIs are in a namespace. -/
def namespaceCount (iris : List Iri) (target : String) : Nat :=
  (iris.filter (·.namespaceText = target)).length

/-- The namespace that most of the IRIs share, the first one by text among equals. -/
def commonNamespace? (iris : List Iri) : Option String :=
  (iris.map (·.namespaceText)).eraseDups.foldl (fun best candidate =>
    match best with
    | none => some candidate
    | some other =>
      let (n, m) := (namespaceCount iris candidate, namespaceCount iris other)
      if m < n || (n = m && candidate < other) then some candidate else some other) none

/-- The namespace of the ontology: the one most of its terms share, or the IRI of the ontology,
closed by a separator, where it has no terms. -/
def namespaceOf (g : Graph) : String :=
  match commonNamespace? (terms g) with
  | some found => found
  | none =>
    match (g.subjects rdfType (.iri (owl "Ontology"))).filterMap Term.iri? with
    | [] => ""
    | ontology :: _ =>
      if ontology.text.endsWith "#" || ontology.text.endsWith "/" then ontology.text
      else ontology.text ++ "#"

end Ontology

end OntoCode
