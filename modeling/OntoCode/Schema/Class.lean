/-
Descriptions of classes.

A field of a class has a spelling in camel case and one in Python.  No two fields of
a class may share a name in either spelling, and a class that breaks this rule has no
description.
-/
import OntoCode.Schema.Property

namespace OntoCode

open OntoCode.Rdf OntoCode.Ontology OntoCode.Naming OntoCode.Text

/-- A property that a class declares, with the collection at its other end. -/
structure Field where
  property : Property
  inverse : Option InverseCollection := none
  deriving DecidableEq, Repr

/-- A class as it is generated. -/
structure ClassDescription where
  iri : Iri
  name : String := className iri
  superclass : Option Iri := none
  title : Option String := none
  description : Option String := none
  seeAlso : List String := []
  fields : List Field := []
  inverses : List InverseCollection := []
  deriving DecidableEq, Repr

namespace ClassDescription

/-- The name of the superclass. -/
def superclassName? (c : ClassDescription) : Option String := c.superclass.map className

/-- Whether a field refers to a single entity. -/
def hasObjects (c : ClassDescription) : Bool := c.fields.any (·.property.kind = .object)

/-- Whether the class keeps sets of entities. -/
def hasCollections (c : ClassDescription) : Bool :=
  !c.inverses.isEmpty || c.fields.any (·.property.kind = .collection)

/-- Whether a field may have several values. -/
def hasMultiValued (c : ClassDescription) : Bool := c.fields.any (!·.property.functional)

/-- Whether loading an entity of the class needs a factory for the entities it refers to. -/
def usesFactory (c : ClassDescription) : Bool := c.hasObjects || c.hasCollections

/-- The names of the other classes that the class mentions, sorted. -/
def referencedClasses (c : ClassDescription) : List String :=
  let names := c.fields.filterMap (·.property.rangeClassName?) ++ c.inverses.map (·.sourceType) ++
    c.superclassName?.toList
  sortByTexts (fun n => [n]) (names.eraseDups.filter (· ≠ c.name))

end ClassDescription

/-- The two spellings of a field, and what it is in messages. -/
structure FieldName where
  camel : String
  python : String
  owner : String
  deriving DecidableEq, Repr

/-- The names of a field, each once, in order. -/
def FieldName.spellings (f : FieldName) : List String :=
  if f.camel = f.python then [f.camel]
  else if f.camel < f.python then [f.camel, f.python] else [f.python, f.camel]

/-- The names of the fields of a class: those of its properties, then those of its collections. -/
def ClassDescription.fieldNames (c : ClassDescription) : List FieldName :=
  c.fields.map (fun f => ⟨f.property.name, f.property.pythonName, f.property.iri.text⟩) ++
    c.inverses.map fun i => ⟨i.name, i.pythonName, "inverse of " ++ i.property.iri.text⟩

/-- The first name that a field shares with an earlier one, and who has the name. -/
def clash? (earlier : List FieldName) (f : FieldName) : Option (String × String) :=
  f.spellings.findSome? fun name =>
    (earlier.find? fun e => e.camel = name || e.python = name).map fun e => (name, e.owner)

/-- Refuses fields of which two share a name. -/
def checkNames (c : ClassDescription) (earlier : List FieldName) :
    List FieldName → Except Failure Unit
  | [] => .ok ()
  | f :: rest =>
    match clash? earlier f with
    | some (name, owner) => .error (.sameFieldName owner f.owner name c.name c.iri)
    | none => checkNames c (earlier ++ [f]) rest

/-- The description, refused if two fields share a name. -/
def ClassDescription.checked (c : ClassDescription) : Except Failure ClassDescription := do
  checkNames c [] c.fieldNames
  return c

namespace Ontology

/-- A property with the collection at its other end, given the collections of each class. -/
def fieldWith {m : Type → Type} [Monad m] (inverses : Iri → m (List InverseCollection))
    (property : Property) : m Field := do
  match property.hasInverse, property.range with
  | true, some range =>
    let collections ← inverses range
    return { property, inverse := collections.find? (·.property.iri = property.iri) }
  | _, _ => return { property }

/-- The description of a class from the fields it declares and the collections it keeps. -/
def assemble (o : Ontology) (class_ : Iri) (fields : List Field)
    (inverses : List InverseCollection) : ClassDescription where
  iri := class_
  superclass := superclass? o.graph (.iri class_)
  title := title? o.graph o.language (.iri class_)
  description := description? o.graph o.language (.iri class_)
  seeAlso := seeAlso o.graph (.iri class_)
  fields := sortByTexts (fun f => [f.property.name, f.property.iri.text]) fields
  inverses := inverses

/-- **The description of a class.** -/
def describe (target : Target) (o : Ontology) (class_ : Iri) : Except Failure ClassDescription := do
  let properties ← propertiesOf o.graph class_ .domain
  let fields ← properties.mapM fun iri =>
    fieldWith (inverseCollections target o) (propertyOf target o iri)
  let inverses ← inverseCollections target o class_
  (assemble o class_ fields inverses).checked

end Ontology

end OntoCode
