/-
Titles, descriptions and links of a resource.
-/
import OntoCode.Rdf.Graph
import OntoCode.Rdf.Vocabulary

namespace OntoCode.Ontology

open OntoCode.Rdf OntoCode.Text

/-- The predicates a title is taken from, the preferred ones first. -/
def titlePredicates : List Iri :=
  [rdfs "label", dcterms "title", dc "title", skos "prefLabel", skos "altLabel"]

/-- The predicates a description is taken from, the preferred ones first. -/
def descriptionPredicates : List Iri :=
  [rdfs "comment", dcterms "description", skos "definition", dc "description"]

/-- Of some literals the first one in a language, or else the first one. -/
def preferred? (language : Option String) (literals : List Literal) : Option Literal :=
  match language with
  | none => literals.head?
  | some tag =>
    match literals.find? (·.language = some tag) with
    | some found => some found
    | none => literals.head?

/-- The literal of the first predicate that has one; a literal in the language is preferred. -/
def firstLiteral? (g : Graph) (subject : Term) (language : Option String)
    (predicates : List Iri) : Option Literal :=
  predicates.findSome? fun predicate => preferred? language (g.literals subject predicate)

/-- The title of a resource. -/
def title? (g : Graph) (language : Option String) (resource : Term) : Option String :=
  (firstLiteral? g resource language titlePredicates).map (·.text)

/-- The description of a resource. -/
def description? (g : Graph) (language : Option String) (resource : Term) : Option String :=
  (firstLiteral? g resource language descriptionPredicates).map (·.text)

/-- The texts of the IRIs to see as well, sorted. -/
def seeAlso (g : Graph) (resource : Term) : List String :=
  sortByTexts (fun s => [s]) ((g.objectIris resource (rdfs "seeAlso")).map (·.text))

end OntoCode.Ontology
