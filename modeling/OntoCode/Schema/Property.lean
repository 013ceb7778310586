/-
Descriptions of properties, and of the collections at their other end.

A class keeps, for each property that refers to its entities, the set of entities
that do.  The set is named after the class of those entities; where several sets of a
class would have one name, each is told apart by its property.
-/
import OntoCode.Ontology.Labels
import OntoCode.Ontology.ReferencedTypes
import OntoCode.Schema.TypeNames

namespace OntoCode

open OntoCode.Rdf OntoCode.Ontology OntoCode.Naming OntoCode.Text

/-- A property as generated code declares it. -/
structure Property where
  iri : Iri
  kind : PropertyKind
  fieldType : String
  elementType : String
  functional : Bool
  inverseFunctional : Bool := false
  range : Option Iri := none
  title : Option String := none
  description : Option String := none
  seeAlso : List String := []
  deriving DecidableEq, Repr

namespace Property

/-- The name of the field. -/
def name (p : Property) : String := propertyName p.iri

/-- The name of the field inside the names of its accessors. -/
def upperName (p : Property) : String := onText upperFirst p.name

/-- The name of the field in Python. -/
def pythonName (p : Property) : String := Naming.pythonName p.name

/-- The class that the property refers to. -/
def rangeClassName? (p : Property) : Option String :=
  if p.kind.isReference then p.range.map className else none

/-- Whether the class that the property refers to keeps a collection for it. -/
def hasInverse (p : Property) : Bool := p.kind.isReference && !p.inverseFunctional

end Property

/-- The entities that refer to an entity through a property. -/
structure InverseCollection where
  property : Property
  source : Iri
  suffix : String := ""
  deriving DecidableEq, Repr

namespace InverseCollection

/-- The class of the entities in the collection. -/
def sourceType (c : InverseCollection) : String := className c.source

/-- The name of the collection without a suffix. -/
def plainName (c : InverseCollection) : String := pluralName (onText lowerFirst c.sourceType)

/-- The name of the collection. -/
def name (c : InverseCollection) : String := c.plainName ++ c.suffix

/-- The name of the method that gives the collection. -/
def getterName (c : InverseCollection) : String := "get" ++ pluralName c.sourceType ++ c.suffix

/-- The name of the method that adds to the collection. -/
def adderName (c : InverseCollection) : String := "add" ++ c.sourceType ++ c.suffix

/-- The name of the parameter of that method. -/
def parameterName (c : InverseCollection) : String := onText lowerFirst c.sourceType

/-- The name of the collection in Python. -/
def pythonName (c : InverseCollection) : String := onText snakeCase c.name

/-- The name of the method that adds to the collection in Python. -/
def pythonAdderName (c : InverseCollection) : String := onText snakeCase c.adderName

/-- The name of the parameter of that method in Python. -/
def pythonParameterName (c : InverseCollection) : String := Naming.pythonName c.sourceType

/-- Whether an entity is in the collection of one entity at a time. -/
def singleValued (c : InverseCollection) : Bool := c.property.kind = .object

end InverseCollection

namespace Ontology

/-- The description of a property. -/
def propertyOf (target : Target) (o : Ontology) (iri : Iri) : Property where
  iri := iri
  kind := kindOf o.graph iri
  fieldType := target.fieldType o.graph iri
  elementType := target.elementType o.graph iri
  functional := isFunctional o.graph (.iri iri)
  inverseFunctional := isInverseFunctional o.graph (.iri iri)
  range := range? o.graph (.iri iri)
  title := title? o.graph o.language (.iri iri)
  description := description? o.graph o.language (.iri iri)
  seeAlso := seeAlso o.graph (.iri iri)

/-- Whether the class at the range of a property keeps a collection for it. -/
def needsInverse (g : Graph) (property : Iri) : Bool :=
  (kindOf g property).isReference && !isInverseFunctional g (.iri property)

/-- The class that declares a property: its first domain that has an IRI. -/
def domain? (g : Graph) (property : Iri) : Option Iri :=
  firstIri? g (.iri property) (rdfs "domain")

/-- The collections with a suffix for each one that shares its name with another. -/
def withSuffixes (collections : List InverseCollection) : List InverseCollection :=
  collections.map fun c =>
    if 1 < (collections.filter (·.plainName = c.plainName)).length then
      { c with suffix := "By" ++ c.property.upperName }
    else c

/-- The collections for the properties that refer to a class, before they are told apart. -/
def plainCollections (target : Target) (o : Ontology) (properties : List Iri) :
    List InverseCollection :=
  (properties.filter (needsInverse o.graph)).filterMap fun iri =>
    (domain? o.graph iri).map fun source => { property := propertyOf target o iri, source }

/-- The collections that a class keeps, sorted by name. -/
def inverseCollections (target : Target) (o : Ontology) (class_ : Iri) :
    Except Failure (List InverseCollection) := do
  let properties ← propertiesOf o.graph class_ .range
  return sortByTexts (fun c => [c.name, c.property.iri.text])
    (withSuffixes (plainCollections target o properties))

/-- The reports of looking for the collections that a class keeps. -/
def inverseNotices (g : Graph) (properties : List Iri) : List Notice :=
  ((properties.filter (needsInverse g)).filter fun iri => (domain? g iri).isNone).map .noDomain

end Ontology

end OntoCode
