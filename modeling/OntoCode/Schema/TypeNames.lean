/-
How the target languages spell the types of fields.
-/
import OntoCode.Naming.Names
import OntoCode.Schema.Kind

namespace OntoCode

open OntoCode.Rdf OntoCode.Ontology OntoCode.Naming

/-- The languages that code is generated for. -/
inductive Target
  | java
  | javaScript
  | python
  deriving DecidableEq, Repr

namespace Target

/-- The type of the values of a datatype. -/
def scalarType : Target → Datatype → String
  | java, .boolean => "boolean"
  | java, .byte => "byte"
  | java, .date | java, .dateTime | java, .time => "java.util.Date"
  | java, .decimal | java, .float => "float"
  | java, .double => "double"
  | java, .int | java, .integer | java, .positiveInteger => "int"
  | java, .long => "long"
  | java, .short => "short"
  | java, .string => "String"
  | java, .anyUri => "java.net.URL"
  | javaScript, .boolean => "boolean"
  | javaScript, .byte | javaScript, .int | javaScript, .integer | javaScript, .long
  | javaScript, .positiveInteger | javaScript, .short => "int"
  | javaScript, .date | javaScript, .dateTime | javaScript, .time => "date"
  | javaScript, .decimal | javaScript, .double | javaScript, .float => "float"
  | javaScript, .string | javaScript, .anyUri => "string"
  | python, .boolean => "bool"
  | python, .byte | python, .int | python, .integer | python, .long | python, .positiveInteger
  | python, .short => "int"
  | python, .date => "datetime.date"
  | python, .dateTime => "datetime.datetime"
  | python, .time => "datetime.time"
  | python, .decimal | python, .double | python, .float => "float"
  | python, .string | python, .anyUri => "str"

/-- The type of values whose range is missing or unknown. -/
def defaultType : Target → String
  | java => "String"
  | javaScript => "object"
  | python => "str"

/-- The type of a reference to an entity of a class. -/
def referenceType : Target → Iri → String
  | javaScript, iri => "object<" ++ iri.text ++ ">"
  | _, iri => className iri

/-- The type of several literals of a type. -/
def arrayType : Target → String → String
  | python, type => "List[" ++ type ++ "]"
  | _, type => type ++ "[]"

/-- The type of a set of references of a type. -/
def collectionType : Target → String → String
  | java, type => "Set<" ++ type ++ ">"
  | python, type => "Set[" ++ type ++ "]"
  | javaScript, type => type ++ "[]"

/-- The type of a single value of a property. -/
def elementType (target : Target) (g : Graph) (property : Iri) : String :=
  match rangeType g property with
  | .unstated | .foreign _ => target.defaultType
  | .datatype d => target.scalarType d
  | .ownClass range => target.referenceType range

/-- The type of the field of a property. -/
def fieldType (target : Target) (g : Graph) (property : Iri) : String :=
  let element := target.elementType g property
  match kindOf g property with
  | .value | .object => element
  | .array => target.arrayType element
  | .collection => target.collectionType element

end Target

end OntoCode
