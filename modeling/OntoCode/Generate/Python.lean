/-
Python modules.

Each class has a module of its own.  Its entities keep their values in attributes
behind properties, and accessors of properties with an inverse collection link both
ends.
-/
import OntoCode.Generate.Layout

namespace OntoCode.Generate.Python

open OntoCode.Naming OntoCode.Text

/-- The lines of a text between triple quotes, wrapped, each with what stands before it. -/
def docstringText (pad : String) (text : List Char) : Code :=
  let escaped := escapeTripleQuoted (sentence (singleLine text))
  let wrapped := (wrap 88 escaped).map String.ofList
  [pad ++ ("\n" ++ pad).intercalate wrapped]

/-- The text between triple quotes that describes a class or property. -/
def docstring (pad : String) (item : Described) : Code :=
  let title := proseOf item.title
  let description := proseOf item.description
  [pad ++ "\"\"\""] ++
  (match title with
    | some text => docstringText pad text
    | none => []) ++
  (match description with
    | some text => [""] ++ docstringText pad text
    | none => []) ++
  given (title.isSome || description.isSome) [""] ++
  [pad ++ "IRI: <" ++ item.iri ++ ">"] ++
  given (!item.seeAlso.isEmpty)
    ([""] ++ item.seeAlso.map fun link => pad ++ "See also: <" ++ link ++ ">") ++
  [pad ++ "\"\"\""]

/-- A module inside a package. -/
def qualified (package module : String) : String :=
  if package = "" then module else package ++ "." ++ module

/-- The module of a class. -/
def moduleOf (style : Style) (className : String) : String :=
  qualified style.settings.effectiveClassPackage (pythonName className)

/-- The module of the vocabulary. -/
def vocabularyModule (style : Style) : String :=
  qualified style.settings.vocabularyPackage (pythonName style.vocabulary)

/-- The class of the vocabulary. -/
def vocabularyClass (style : Style) : String := onText pascalCase style.vocabulary

/-- The name of the factory. -/
def factoryName (style : Style) : String := vocabularyClass style ++ "Factory"

/-- The constant of the vocabulary for a property. -/
def constant (style : Style) (p : Property) : String :=
  vocabularyClass style ++ "." ++ pythonIdentifier p.name

/-- The type of the attribute of a property. -/
def annotation (p : Property) : String :=
  if p.kind.isMultiValued then p.fieldType else "Optional[" ++ p.fieldType ++ "]"

/-- What the attribute of a property starts with. -/
def initialValue (p : Property) : String :=
  match p.kind with
  | .array => "[]"
  | .collection => "set()"
  | .value | .object => "None"

/-- The datatype of the literals of a property. -/
def literalDatatype (p : Property) : String :=
  match p.range.bind Datatype.ofIri? with
  | some d => "XSD." ++ d.name
  | none => "None"

/-- The attribute that keeps a name's value. -/
def slot (name : String) : String := "_" ++ name

/-- The properties with literals as values. -/
def literalProperties (c : ClassDescription) : List Property :=
  (c.fields.map (·.property)).filter (!·.kind.isReference)

/-- The classes that are mentioned but not extended. -/
def typeImports (c : ClassDescription) : List String :=
  c.referencedClasses.filter fun name => some name ≠ c.superclassName?

/-- The names that the annotations of a class need. -/
def typingNames (c : ClassDescription) : List String :=
  let kinds := c.fields.map (·.property.kind)
  ["ClassVar"] ++
  given (kinds.contains .array) ["List"] ++
  given (kinds.any fun k => k = .value || k = .object) ["Optional"] ++
  given (kinds.contains .collection || !c.inverses.isEmpty) ["Set"] ++
  given (!(typeImports c).isEmpty) ["TYPE_CHECKING"]

/-- Whether an accessor of the class links two ends. -/
def usesLink (c : ClassDescription) : Bool :=
  !c.inverses.isEmpty || c.fields.any (·.inverse.isSome)

/-- The imports of a class. -/
def importLines (style : Style) (c : ClassDescription) : Code :=
  ["from __future__ import annotations", ""] ++
  given ((literalProperties c).any (·.elementType.startsWith "datetime.")) ["import datetime", ""] ++
  ["from rdflib import Graph, URIRef"] ++
  given ((literalProperties c).any (literalDatatype · ≠ "None"))
    ["from rdflib.namespace import XSD"] ++
  ["from typing_extensions import " ++ ", ".intercalate (typingNames c),
   "",
   "from " ++ pythonRuntimePackage ++ " import EntityFactory, TargetModel" ++
     (if usesLink c then ", link" else ""),
   (match c.superclassName? with
    | some name => "from " ++ moduleOf style name ++ " import " ++ name
    | none => "from " ++ pythonRuntimePackage ++ " import RDFEntity"),
   "from " ++ vocabularyModule style ++ " import " ++ vocabularyClass style] ++
  given (!(typeImports c).isEmpty)
    (["", "if TYPE_CHECKING:"] ++ (typeImports c).map fun name =>
      "    from " ++ moduleOf style name ++ " import " ++ name) ++
  ["", ""]

/-- The constructor, which makes the attributes. -/
def initLines (c : ClassDescription) : Code :=
  ["    def __init__(self, iri: URIRef):", "        super().__init__(iri)"] ++
  (c.fields.map fun f =>
    "        self." ++ slot f.property.pythonName ++ ": " ++ annotation f.property ++ " = " ++
      initialValue f.property) ++
  c.inverses.map fun i =>
    "        self." ++ slot i.pythonName ++ ": Set[" ++ i.sourceType ++ "] = set()"

/-- The statement that links an entity through a property with an inverse collection. -/
def linkLine (p : Property) (inverse : InverseCollection) (single : Bool) : String :=
  "        link(self, \"" ++ slot p.pythonName ++ "\", value, \"" ++
    slot inverse.pythonName ++ "\", single_valued=" ++ (if single then "True" else "False") ++ ")"

/-- The method that sets a property with a single value. -/
def setterLines (f : Field) : Code :=
  let p := f.property
  ["",
   "    @" ++ p.pythonName ++ ".setter",
   "    def " ++ p.pythonName ++ "(self, value: " ++ annotation p ++ "):"] ++
  match p.kind, f.inverse with
  | .object, some inverse => [linkLine p inverse true]
  | _, _ => ["        self." ++ slot p.pythonName ++ " = value"]

/-- The method that adds a value to a property with several. -/
def adderLines (f : Field) : Code :=
  let p := f.property
  ["", "    def add_" ++ p.pythonName ++ "(self, value: " ++ p.elementType ++ "):"] ++
  match f.inverse with
  | some inverse => [linkLine p inverse false]
  | none =>
    ["        self." ++ slot p.pythonName ++
      (if p.kind = .array then ".append(value)" else ".add(value)")]

/-- The accessors of a property. -/
def accessorLines (f : Field) : Code :=
  let p := f.property
  ["", "    @property", "    def " ++ p.pythonName ++ "(self) -> " ++ annotation p ++ ":"] ++
  given ((proseOf p.title).isSome || (proseOf p.description).isSome)
    (docstring "        " (.ofProperty p)) ++
  ["        return self." ++ slot p.pythonName] ++
  if p.functional then setterLines f else given p.kind.isMultiValued (adderLines f)

/-- The accessors of an inverse collection. -/
def inverseLines (i : InverseCollection) : Code :=
  ["",
   "    @property",
   "    def " ++ i.pythonName ++ "(self) -> Set[" ++ i.sourceType ++ "]:",
   "        \"\"\"Inverse collection for " ++ i.sourceType ++ "." ++ i.property.pythonName ++
     ".\"\"\"",
   "        return self." ++ slot i.pythonName,
   "",
   "    def " ++ i.pythonAdderName ++ "(self, " ++ i.pythonParameterName ++ ": " ++ i.sourceType ++
     "):",
   "        link(",
   "            " ++ i.pythonParameterName ++ ",",
   "            \"" ++ slot i.property.pythonName ++ "\",",
   "            self,",
   "            \"" ++ slot i.pythonName ++ "\",",
   "            single_valued=" ++ (if i.singleValued then "True" else "False") ++ ",",
   "        )"]

/-- The method that writes an entity to a model. -/
def addToModelLines (style : Style) (c : ClassDescription) : Code :=
  ["",
   "    def add_to_model(self, target: TargetModel):",
   "        super().add_to_model(target)"] ++
  (c.fields.map fun f =>
    let p := f.property
    let arguments := "(target, " ++ constant style p ++ ", self." ++ slot p.pythonName
    match p.kind with
    | .value => "        self.add_value" ++ arguments ++ ", " ++ literalDatatype p ++ ")"
    | .array => "        self.add_array" ++ arguments ++ ", " ++ literalDatatype p ++ ")"
    | .object => "        self.add_object" ++ arguments ++ ")"
    | .collection => "        self.add_collection" ++ arguments ++ ")") ++
  c.inverses.map fun i => "        target.add_all(self." ++ slot i.pythonName ++ ")"

/-- The statements that load a property. -/
def loadLines (style : Style) (p : Property) : Code :=
  let name := p.pythonName
  let range := (p.range.map (·.text)).getD ""
  let literals (method : String) : Code :=
    ["        self." ++ slot name ++ " = self." ++ method ++ "(statements, " ++
      constant style p ++ ", " ++ p.elementType ++ ")"]
  match p.kind with
  | .value => literals "load_value"
  | .array => literals "load_array"
  | .object =>
    ["        " ++ name ++ "_iris = self.object_iris(statements, " ++ constant style p ++ ")",
     "        self." ++ name ++ " = (",
     "            factory.resolve(graph, URIRef(\"" ++ range ++ "\"), " ++ name ++ "_iris[0])",
     "            if " ++ name ++ "_iris",
     "            else None",
     "        )"]
  | .collection =>
    ["        self." ++ slot name ++ " = set()",
     "        for iri in self.object_iris(statements, " ++ constant style p ++ "):",
     "            self.add_" ++ name ++ "(factory.resolve(graph, URIRef(\"" ++ range ++ "\"), iri))"]

/-- The method that loads an entity from a graph. -/
def loadFromModelLines (style : Style) (c : ClassDescription) : Code :=
  ["",
   "    def load_from_model(self, graph: Graph, factory: EntityFactory):",
   "        super().load_from_model(graph, factory)"] ++
  given c.usesFactory ["        self.check_factory(factory)"] ++
  ["        statements = self.own_statements(graph)"] ++
  c.fields.flatMap fun f => loadLines style f.property

/-- The module of a class. -/
def classLines (style : Style) (c : ClassDescription) : Code :=
  importLines style c ++
  ["class " ++ c.name ++ "(" ++ c.superclassName?.getD "RDFEntity" ++ "):"] ++
  docstring "    " (.ofClass c) ++ [""] ++
  ["    CLASS_IRI: ClassVar[URIRef] = URIRef(\"" ++ c.iri.text ++ "\")", ""] ++
  initLines c ++ c.fields.flatMap accessorLines ++ c.inverses.flatMap inverseLines ++
  addToModelLines style c ++ loadFromModelLines style c

/-- The module of the factory, which creates entities of all classes. -/
def factoryLines (style : Style) (classes : List ClassDescription) : Code :=
  let sorted := sortByTexts (fun c => [c.name]) classes
  ["from __future__ import annotations",
   "",
   "from rdflib import URIRef",
   "from typing_extensions import Any, Mapping, Optional",
   "",
   "from " ++ pythonRuntimePackage ++ " import EntityFactory",
   "from " ++ pythonRuntimePackage ++ ".factory import EntityConstructor"] ++
  (sorted.map fun c => "from " ++ moduleOf style c.name ++ " import " ++ c.name) ++
  ["",
   "",
   "class " ++ factoryName style ++ "(EntityFactory):",
   "    \"\"\"",
   "    Creates the entities of the " ++ style.vocabulary ++
     " vocabulary. Constructors passed in replace the",
   "    generated classes, e.g. to create instances of application specific subclasses.",
   "    \"\"\"",
   "",
   "    def __init__(self, creators: Optional[Mapping[Any, EntityConstructor]] = None):",
   "        defaults = \x7b"] ++
  (sorted.map fun c => "            " ++ c.name ++ ".CLASS_IRI: " ++ c.name ++ ",") ++
  ["        \x7d",
   "        defaults.update(\x7bURIRef(k): v for k, v in (creators or \x7b\x7d).items()\x7d)",
   "        super().__init__(defaults)"] ++
  sorted.flatMap fun c =>
    ["",
     "    def create_" ++ onText snakeCase c.name ++ "(self, iri: Any) -> " ++ c.name ++ ":",
     "        return self.create(" ++ c.name ++ ".CLASS_IRI, iri)"]

end OntoCode.Generate.Python
