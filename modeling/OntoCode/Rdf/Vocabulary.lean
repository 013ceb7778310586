/-
The IRIs that ontologies are described with.
-/
import OntoCode.Rdf.Iri

namespace OntoCode.Rdf

/-- The namespace of the datatypes. -/
def xsdNamespace : String := "http://www.w3.org/2001/XMLSchema#"

/-- A datatype by its name. -/
def xsd (name : String) : Iri := ⟨xsdNamespace ++ name⟩

/-- A term of the vocabulary of statements, types and lists. -/
def rdf (name : String) : Iri := ⟨"http://www.w3.org/1999/02/22-rdf-syntax-ns#" ++ name⟩

/-- A term of the schema vocabulary. -/
def rdfs (name : String) : Iri := ⟨"http://www.w3.org/2000/01/rdf-schema#" ++ name⟩

/-- A term of the ontology language. -/
def owl (name : String) : Iri := ⟨"http://www.w3.org/2002/07/owl#" ++ name⟩

/-- A term of the concept scheme vocabulary. -/
def skos (name : String) : Iri := ⟨"http://www.w3.org/2004/02/skos/core#" ++ name⟩

/-- A term of the basic metadata vocabulary. -/
def dc (name : String) : Iri := ⟨"http://purl.org/dc/elements/1.1/" ++ name⟩

/-- A term of the extended metadata vocabulary. -/
def dcterms (name : String) : Iri := ⟨"http://purl.org/dc/terms/" ++ name⟩

/-- The predicate that gives a resource its types. -/
def rdfType : Iri := rdf "type"

/-- The predicate from a list node to its member. -/
def rdfFirst : Iri := rdf "first"

/-- The predicate from a list node to the next one. -/
def rdfRest : Iri := rdf "rest"

/-- The end of every list. -/
def rdfNil : Iri := rdf "nil"

end OntoCode.Rdf
