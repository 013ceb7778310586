/-
Java classes.

A class has a field for each property and each inverse collection, accessors that
keep both ends of a property in step, and methods that write its entities to a model
and load them from one.
-/
import OntoCode.Generate.Layout

namespace OntoCode.Generate.Java

open OntoCode.Naming OntoCode.Text

/-- The lines of a text in a comment, wrapped, each with what stands before it. -/
def commentText (lead : String) (text : List Char) : Code :=
  let wrapped := (wrap 70 (singleLine text)).map String.ofList
  let joined := ("\n" ++ lead).intercalate wrapped
  [lead ++ String.ofList (sentence joined.toList)]

/-- The comment in front of a declaration. -/
def comment (indent : String) (item : Described) : Code :=
  let lead := indent ++ " * "
  [indent ++ "/**"] ++
  (match proseOf item.title with
    | some title => commentText lead title ++ [lead ++ "<p>"]
    | none => []) ++
  (match proseOf item.description with
    | some description => commentText lead description ++ [lead ++ "<p>"]
    | none => []) ++
  [lead ++ "IRI: \x7b@code <" ++ item.iri ++ ">\x7d"] ++
  given (!item.seeAlso.isEmpty)
    ([indent ++ " *"] ++ item.seeAlso.map fun link =>
      lead ++ "@see <a href=\"" ++ link ++ "\">" ++ link ++ "</a>") ++
  [indent ++ " */"]

/-- The name of the factory. -/
def factoryName (style : Style) : String := style.vocabulary ++ "Factory"

/-- The package line. -/
def packageLines (name : String) : Code := given (name ≠ "") ["package " ++ name ++ ";", ""]

/-- The constant of the vocabulary for a property. -/
def constant (style : Style) (p : Property) : String := style.vocabulary ++ "." ++ p.name

/-- The imports of a class. -/
def importLines (style : Style) (c : ClassDescription) : Code :=
  let runtime := style.settings.runtimePackage
  let package := style.settings.vocabularyPackage
  given (c.hasMultiValued || c.hasCollections || c.hasObjects) ["import java.util.Set;"] ++
  given c.hasCollections ["import java.util.HashSet;"] ++
  ["import org.eclipse.rdf4j.model.IRI;",
   "import org.eclipse.rdf4j.model.Model;",
   "import " ++ runtime ++ ".EntityFactory;",
   "import " ++ runtime ++ ".TargetModel;"] ++
  given (package ≠ "") ["import " ++ package ++ "." ++ style.vocabulary ++ ";"] ++
  [""]

/-- The declarations of the fields. -/
def declarations (style : Style) (c : ClassDescription) : Code :=
  (c.fields.flatMap fun f =>
    comment style.indent (.ofProperty f.property) ++
    style.deep 1 ["private " ++ f.property.fieldType ++ " " ++ f.property.name ++ ";"] ++ [""]) ++
  c.inverses.flatMap fun i =>
    style.deep 1
      ["/** Inverse collection for " ++ i.sourceType ++ "." ++ i.property.name ++ ". */",
       "private Set<" ++ i.sourceType ++ "> " ++ i.name ++ ";"] ++ [""]

/-- The constructor, which makes the arrays and sets. -/
def constructorLines (style : Style) (c : ClassDescription) : Code :=
  style.deep 1 ["public " ++ c.name ++ "(IRI iri) \x7b"] ++
  style.deep 2 (
    ["super(iri);"] ++
    (c.fields.flatMap fun f =>
      match f.property.kind with
      | .collection => [f.property.name ++ " = new HashSet<>();"]
      | .array => [f.property.name ++ " = new " ++ f.property.elementType ++ "[0];"]
      | .value | .object => []) ++
    c.inverses.map fun i => i.name ++ " = new HashSet<>();") ++
  style.deep 1 ["\x7d"] ++ [""]

/-- The method that gives the IRI of the class. -/
def classIriLines (style : Style) (c : ClassDescription) : Code :=
  style.deep 1 ["@Override", "public IRI getClassIRI() \x7b"] ++
  style.deep 2 ["return " ++ c.name ++ ".CLASS_IRI;"] ++
  style.deep 1 ["\x7d"] ++ [""]

/-- The method that sets a property with a single value. -/
def setterLines (style : Style) (f : Field) : Code :=
  let p := f.property
  let body :=
    match p.kind, f.inverse with
    | .object, some inverse =>
      let getter := inverse.getterName
      ["if (this." ++ p.name ++ " != null) this." ++ p.name ++ "." ++ getter ++
          "().remove(this);",
       "this." ++ p.name ++ " = " ++ p.name ++ ";",
       "if (" ++ p.name ++ " != null) " ++ p.name ++ "." ++ getter ++ "().add(this);"]
    | _, _ => ["this." ++ p.name ++ " = " ++ p.name ++ ";"]
  style.deep 1
    ["public void set" ++ p.upperName ++ "(" ++ p.fieldType ++ " " ++ p.name ++ ") \x7b"] ++
  style.deep 2 body ++ style.deep 1 ["\x7d"] ++ [""]

/-- The method that adds to a collection. -/
def adderLines (style : Style) (f : Field) : Code :=
  let p := f.property
  style.deep 1 ["public void add" ++ p.upperName ++ "(" ++ p.elementType ++ " item) \x7b"] ++
  style.deep 2 (
    [p.name ++ ".add(item);"] ++
    match f.inverse with
    | some inverse => ["item." ++ inverse.getterName ++ "().add(this);"]
    | none => []) ++
  style.deep 1 ["\x7d"] ++ [""]

/-- The accessors of a property. -/
def accessorLines (style : Style) (f : Field) : Code :=
  let p := f.property
  style.deep 1 ["public " ++ p.fieldType ++ " get" ++ p.upperName ++ "() \x7b"] ++
  style.deep 2 ["return " ++ p.name ++ ";"] ++
  style.deep 1 ["\x7d"] ++ [""] ++
  if p.functional then setterLines style f
  else given (p.kind = .collection) (adderLines style f)

/-- The accessors of an inverse collection. -/
def inverseLines (style : Style) (i : InverseCollection) : Code :=
  let source := i.sourceType
  style.deep 1 ["public Set<" ++ source ++ "> " ++ i.getterName ++ "() \x7b"] ++
  style.deep 2 ["return " ++ i.name ++ ";"] ++
  style.deep 1 ["\x7d"] ++ [""] ++
  style.deep 1
    ["public void " ++ i.adderName ++ "(" ++ source ++ " " ++ i.parameterName ++ ") \x7b"] ++
  style.deep 2
    [i.name ++ ".add(" ++ i.parameterName ++ ");",
     if i.singleValued then i.parameterName ++ ".set" ++ i.property.upperName ++ "(this);"
     else i.parameterName ++ ".get" ++ i.property.upperName ++ "().add(this);"] ++
  style.deep 1 ["\x7d"] ++ [""]

/-- The method that writes an entity to a model. -/
def addToModelLines (style : Style) (c : ClassDescription) : Code :=
  style.deep 1 ["@Override", "public void addToModel(TargetModel target) \x7b"] ++
  style.deep 2 (
    ["super.addToModel(target);"] ++
    (c.fields.map fun f =>
      "add" ++ f.property.kind.word ++ "(target, " ++ constant style f.property ++ ", " ++
        f.property.name ++ ");") ++
    c.inverses.map fun i => "target.addAll(" ++ i.name ++ ");") ++
  style.deep 1 ["\x7d"] ++ [""]

/-- The statements that load a property. -/
def loadLines (style : Style) (p : Property) : Code :=
  let name := p.name
  let create := "factory.create" ++ p.rangeClassName?.getD "" ++ "(iri);"
  let iris := "final Set<IRI> " ++ name ++ "IRIs = getObjectIRIs(m, " ++ constant style p ++ ");"
  match p.kind with
  | .value | .array =>
    style.deep 2
      [name ++ " = load" ++ loadingWord p.elementType ++ p.kind.word ++ "(m, " ++
        constant style p ++ ");"]
  | .object =>
    style.deep 2
      ["//load object " ++ name, iris, "if (!" ++ name ++ "IRIs.isEmpty()) \x7b"] ++
    style.deep 3
      ["final IRI iri = " ++ name ++ "IRIs.iterator().next();",
       name ++ " = " ++ create,
       name ++ ".loadFromModel(m, factory);"] ++
    style.deep 2 ["\x7d else \x7b"] ++
    style.deep 3 [name ++ " = null;"] ++
    style.deep 2 ["\x7d"]
  | .collection =>
    style.deep 2
      ["//load collection " ++ name, iris, name ++ " = new HashSet<>();",
       "for (IRI iri : " ++ name ++ "IRIs) \x7b"] ++
    style.deep 3
      [p.rangeClassName?.getD "" ++ " item = " ++ create,
       "item.loadFromModel(m, factory);",
       name ++ ".add(item);"] ++
    style.deep 2 ["\x7d"]

/-- The method that loads an entity from a model. -/
def loadFromModelLines (style : Style) (c : ClassDescription) : Code :=
  let factory := factoryName style
  style.deep 1 ["@Override", "public void loadFromModel(Model model, EntityFactory efactory) \x7b"] ++
  style.deep 2 ["super.loadFromModel(model, efactory);"] ++
  given c.usesFactory (
    style.deep 2 ["if (!(efactory instanceof " ++ factory ++ "))"] ++
    style.deep 3
      ["throw new IllegalArgumentException(\"factory must be instance of " ++ factory ++ "\");"] ++
    style.deep 2 ["final " ++ factory ++ " factory = (" ++ factory ++ ") efactory;"] ++ [""]) ++
  style.deep 2 ["final Model m = model.filter(getIRI(), null, null);"] ++
  (c.fields.flatMap fun f => loadLines style f.property) ++
  style.deep 1 ["\x7d"]

/-- The file of a class. -/
def classLines (style : Style) (c : ClassDescription) : Code :=
  let superclass := c.superclassName?.getD (style.settings.runtimePackage ++ ".RDFEntity")
  packageLines style.settings.effectiveClassPackage ++ importLines style c ++
  comment "" (.ofClass c) ++
  ["public class " ++ c.name ++ " extends " ++ superclass, "\x7b"] ++
  style.deep 1
    ["public static final IRI CLASS_IRI = vf.createIRI(\"" ++ c.iri.text ++ "\");"] ++ [""] ++
  declarations style c ++ constructorLines style c ++ classIriLines style c ++
  c.fields.flatMap (accessorLines style) ++ c.inverses.flatMap (inverseLines style) ++
  addToModelLines style c ++ loadFromModelLines style c ++
  ["\x7d"]

/-- The file of the factory, which creates entities of all classes. -/
def factoryLines (style : Style) (classes : List ClassDescription) : Code :=
  packageLines style.settings.effectiveClassPackage ++
  ["import org.eclipse.rdf4j.model.IRI;",
   "import " ++ style.settings.runtimePackage ++ ".EntityFactory;",
   "",
   "public interface " ++ factoryName style ++ " extends EntityFactory",
   "\x7b"] ++
  style.deep 1 ((sortByTexts (fun c => [c.name]) classes).map fun c =>
    "public " ++ c.name ++ " create" ++ c.name ++ "(IRI iri);") ++
  ["\x7d"]

end OntoCode.Generate.Java
