/-
How a property is kept by generated code.

A property whose range is a datatype is a value or an array of values, one whose
range is a class of its own namespace is a reference to an object or a collection of
them.  In both cases the functional properties are the ones with a single value.
Every other property is a single value of the default type.
-/
import OntoCode.Ontology.Terms

namespace OntoCode

open OntoCode.Rdf OntoCode.Ontology

/-- How a property is kept. -/
inductive PropertyKind
  /-- A single literal. -/
  | value
  /-- Several literals. -/
  | array
  /-- A reference to a single entity. -/
  | object
  /-- A set of references to entities. -/
  | collection
  deriving DecidableEq, Repr

namespace PropertyKind

/-- Whether the property refers to entities. -/
def isReference : PropertyKind → Bool
  | object | collection => true
  | value | array => false

/-- Whether the property has several values. -/
def isMultiValued : PropertyKind → Bool
  | array | collection => true
  | value | object => false

/-- The word for the kind in the names of generated methods. -/
def word : PropertyKind → String
  | value => "Value"
  | array => "Array"
  | object => "Object"
  | collection => "Collection"

/-- The kind that a word stands for. -/
def ofWord? (word : String) : Option PropertyKind :=
  [value, array, object, collection].find? (·.word = word)

end PropertyKind

/-- The datatypes that have a type in every target language. -/
inductive Datatype
  | boolean
  | byte
  | date
  | dateTime
  | time
  | decimal
  | double
  | float
  | int
  | integer
  | long
  | positiveInteger
  | short
  | string
  | anyUri
  deriving DecidableEq, Repr

namespace Datatype

/-- The name of a datatype. -/
def name : Datatype → String
  | boolean => "boolean"
  | byte => "byte"
  | date => "date"
  | dateTime => "dateTime"
  | time => "time"
  | decimal => "decimal"
  | double => "double"
  | float => "float"
  | int => "int"
  | integer => "integer"
  | long => "long"
  | positiveInteger => "positiveInteger"
  | short => "short"
  | string => "string"
  | anyUri => "anyURI"

/-- All datatypes. -/
def all : List Datatype := [
  boolean, byte, date, dateTime, time, decimal, double, float, int, integer, long,
  positiveInteger, short, string, anyUri]

/-- The datatype that an IRI names. -/
def ofIri? (iri : Iri) : Option Datatype := all.find? fun d => xsd d.name = iri

end Datatype

/-- What the range of a property says about its values. -/
inductive RangeType
  /-- There is no range with an IRI. -/
  | unstated
  /-- The values are literals of a datatype. -/
  | datatype (d : Datatype)
  /-- The values are entities of a class of the property's own namespace. -/
  | ownClass (iri : Iri)
  /-- The range is something else. -/
  | foreign (iri : Iri)
  deriving DecidableEq, Repr

namespace Ontology

/-- What the range of a property says. -/
def rangeType (g : Graph) (property : Iri) : RangeType :=
  match range? g (.iri property) with
  | none => .unstated
  | some range =>
    match Datatype.ofIri? range with
    | some d => .datatype d
    | none =>
      if property.namespaceText = range.namespaceText then .ownClass range else .foreign range

/-- The kind of a property, from its range and from whether it is functional. -/
def kindOf (g : Graph) (property : Iri) : PropertyKind :=
  match rangeType g property with
  | .unstated | .foreign _ => .value
  | .datatype _ => if isFunctional g (.iri property) then .value else .array
  | .ownClass _ => if isFunctional g (.iri property) then .object else .collection

/-- The class that a property refers to. -/
def rangeClass? (g : Graph) (property : Iri) : Option Iri :=
  if (kindOf g property).isReference then range? g (.iri property) else none

end Ontology

end OntoCode
