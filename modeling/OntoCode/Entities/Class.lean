/-
Classes of entities.

A class has fields, which are kept in graphs by their predicates, and inverse
collections, which hold the entities that refer to an entity through a field.  It may
be declared below other classes and then has what these have as well.

Classes are declared one after the other, and a class lies only below earlier ones.
So the classes above a class are found by walking back through the declarations, and
no class is above itself.
-/
import OntoCode.Rdf.Conversion
import OntoCode.Schema.Kind

namespace OntoCode

open OntoCode.Rdf

/-- A field of the entities of a class. -/
structure EntityField where
  name : String
  kind : PropertyKind
  predicate : Iri
  /-- What the literals of the field are read as; what they are by themselves if not given. -/
  type : Option ValueType := none
  /-- The datatype that values are written with. -/
  datatype : Option Iri := none
  /-- The class that the field refers to. -/
  range : Iri := ⟨""⟩
  /-- The inverse collection of the entities referred to. -/
  inverse : Option String := none
  deriving DecidableEq, Repr

/-- A class of entities. -/
structure EntityClass where
  name : String
  /-- The classes that it is declared below. -/
  bases : List String := []
  /-- The class of the ontology that it stands for. -/
  iri : Option Iri := none
  /-- The label of its entities, where it gives them one. -/
  label : Option String := none
  fields : List EntityField := []
  /-- The names of its inverse collections. -/
  inverses : List String := []
  deriving DecidableEq, Repr

/-- Whether entities of the class refer to other ones, so that loading them takes a factory. -/
def EntityClass.usesFactory (c : EntityClass) : Bool :=
  !c.inverses.isEmpty || c.fields.any (·.kind.isReference)

/-- The class that all entities belong to. -/
def anyEntity : String := "RDFEntity"

/-- The declared classes, the latest first.  No two have one name. -/
structure EntityClasses where
  declared : List EntityClass := []
  distinct : (declared.map (·.name)).Nodup := by simp

namespace EntityClasses

/-- The last occurrence of every class in a list, by name. -/
def lastOfEach : List EntityClass → List EntityClass
  | [] => []
  | c :: rest =>
    if rest.any (·.name = c.name) then lastOfEach rest else c :: lastOfEach rest

/-- A class and those above it, every one before the classes it lies below. -/
def lineageIn : List EntityClass → String → List EntityClass
  | [], _ => []
  | c :: earlier, name =>
    if c.name = name then c :: lastOfEach (c.bases.flatMap fun base => lineageIn earlier base)
    else lineageIn earlier name

/-- A declared class and those above it, the class itself first. -/
def lineage (classes : EntityClasses) (name : String) : List EntityClass :=
  lineageIn classes.declared name

/-- The class with a name. -/
def class? (classes : EntityClasses) (name : String) : Option EntityClass :=
  classes.declared.find? (·.name = name)

/-- The classes with another class declared below earlier ones.  A name is declared once. -/
def declare (classes : EntityClasses) (c : EntityClass) : EntityClasses :=
  if h : c.name ∈ classes.declared.map (·.name) then classes
  else ⟨c :: classes.declared, by simpa using ⟨by simpa using h, classes.distinct⟩⟩

/-- The classes declared in the given order. -/
def ofList (cs : List EntityClass) : EntityClasses := cs.foldl declare {}

/-- Whether entities of the first class are entities of the second one. -/
def isBelow (classes : EntityClasses) (name above : String) : Bool :=
  name = above || above = anyEntity || (classes.lineage name).any (·.name = above)

/-- The class of the ontology that a class stands for; classes below it do not. -/
def iri? (classes : EntityClasses) (name : String) : Option Iri :=
  (classes.class? name).bind (·.iri)

/-- The label of the entities of a class: its own or the nearest one above. -/
def label? (classes : EntityClasses) (name : String) : Option String :=
  (classes.lineage name).findSome? (·.label)

/-- A field of a class, its own or the nearest one above. -/
def field? (classes : EntityClasses) (name field : String) : Option EntityField :=
  ((classes.lineage name).flatMap (·.fields)).find? (·.name = field)

/-- The names of all that entities of a class keep. -/
def attributeNames (classes : EntityClasses) (name : String) : List String :=
  (classes.lineage name).reverse.flatMap fun c => c.fields.map (·.name) ++ c.inverses

end EntityClasses

end OntoCode
