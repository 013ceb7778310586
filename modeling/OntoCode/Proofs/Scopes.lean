/-
The methods of a Java class, and what their names stand for.

In the body of a Java method a bare name stands for a parameter or for a local variable if there is
one of that name, and for a field of the entity otherwise.  Generated lines are plain texts, which
do not say where a name is a field.  So the methods are written down here in pieces that do: a field
by its bare name, a field behind `this`, a name that is declared, and any other text.  The pieces of
a method spell the very lines that are generated for it, and a class is made of the lines of its
methods.

A declaration counts up to the end of its block, and in the blocks inside.  Parameters are declared
in the header of their method, the variable of a loop in front of its body.
-/
import OntoCode.Generate.Java

namespace OntoCode.Generate.Java

open OntoCode.Naming OntoCode.Text

/-! ### Methods in pieces -/

/-- A piece of a line of code. -/
inductive Piece
  /-- Words of the language, types, methods, and variables that are in use. -/
  | text (s : String)
  /-- A field of the entity, by its bare name. -/
  | field (name : String)
  /-- A field of the entity, behind `this`. -/
  | own (name : String)
  /-- A parameter or local variable, where it is declared. -/
  | binds (name : String)
  deriving DecidableEq, Repr

namespace Piece

/-- How a piece is spelled. -/
def spelling : Piece → String
  | text s => s
  | field name => name
  | own name => "this." ++ name
  | binds name => name

/-- The field that a piece refers to by its bare name. -/
def field? : Piece → Option String
  | field name => some name
  | text _ | own _ | binds _ => none

/-- The variable that a piece declares. -/
def binds? : Piece → Option String
  | binds name => some name
  | text _ | own _ | field _ => none

end Piece

/-- How the pieces of a line are spelled. -/
def spelled : List Piece → String
  | [] => ""
  | piece :: rest => piece.spelling ++ spelled rest

/-- The variables that a line declares. -/
def declared (line : List Piece) : List String := line.filterMap Piece.binds?

/-- The fields that a line refers to by a name that stands for a variable. -/
def hidden (scope : List String) (line : List Piece) : List String :=
  (line.filterMap Piece.field?).filter (scope.contains ·)

/-- The fields that the lines of a block refer to by a name that stands for a variable. -/
def hiddenInBlock (scope : List String) : List (List Piece) → List String
  | [] => []
  | line :: rest =>
    hidden (scope ++ declared line) line ++ hiddenInBlock (scope ++ declared line) rest

/-- A part of the body of a method. -/
inductive BodyPart
  | blank
  | statement (line : List Piece)
  /-- A line that opens a block, the lines inside, and those that close it. -/
  | block (opening : List Piece) (body : List (List Piece)) (closing : Code)

namespace BodyPart

/-- The lines of a part. -/
def lines (style : Style) : BodyPart → Code
  | blank => [""]
  | statement line => style.deep 2 [spelled line]
  | block opening body closing =>
    style.deep 2 [spelled opening] ++ style.deep 3 (body.map spelled) ++ style.deep 2 closing

/-- The variables that a part declares for those behind it. -/
def declares : BodyPart → List String
  | statement line => declared line
  | blank | block .. => []

/-- The fields that a part refers to by a name that stands for a variable. -/
def hides (scope : List String) : BodyPart → List String
  | blank => []
  | statement line => hidden (scope ++ declared line) line
  | block opening body _ => hiddenInBlock scope (opening :: body)

end BodyPart

/-- The fields that the parts of a body refer to by a name that stands for a variable. -/
def hiddenInBody (scope : List String) : List BodyPart → List String
  | [] => []
  | part :: rest => part.hides scope ++ hiddenInBody (scope ++ part.declares) rest

/-- A method with its parameters. -/
structure Method where
  annotations : Code := []
  header : List Piece
  body : List BodyPart

namespace Method

/-- The lines of a method. -/
def lines (style : Style) (m : Method) : Code :=
  style.deep 1 (m.annotations ++ [spelled m.header]) ++ m.body.flatMap (BodyPart.lines style) ++
    style.deep 1 ["\x7d"]

/-- **The fields that a method captures:** it refers to them by the name of a parameter or of a
local variable. -/
def captures (m : Method) : List String := hiddenInBody (declared m.header) m.body

end Method

/-! ### The methods of a class -/

section Methods

open Piece BodyPart

/-- A body without blocks. -/
def statements (lines : List (List Piece)) : List BodyPart := lines.map statement

/-- What the constructor does for a property. -/
def initialising (p : Property) : List (List Piece) :=
  match p.kind with
  | .collection => [[field p.name, text " = new HashSet<>();"]]
  | .array => [[field p.name, text (" = new " ++ p.elementType ++ "[0];")]]
  | .value | .object => []

/-- The constructor, which makes the arrays and sets. -/
def constructorOf (c : ClassDescription) : Method where
  header := [text ("public " ++ c.name ++ "(IRI "), binds "iri", text ") \x7b"]
  body := statements (
    [[text "super(iri);"]] ++ (c.fields.flatMap fun f => initialising f.property) ++
    c.inverses.map fun i => [field i.name, text " = new HashSet<>();"])

/-- The method that gives the IRI of the class. -/
def classIri (c : ClassDescription) : Method where
  annotations := ["@Override"]
  header := [text "public IRI getClassIRI() \x7b"]
  body := statements [[text ("return " ++ c.name ++ ".CLASS_IRI;")]]

/-- The method that gives a property. -/
def getterOf (p : Property) : Method where
  header := [text ("public " ++ p.fieldType ++ " get" ++ p.upperName ++ "() \x7b")]
  body := statements [[text "return ", field p.name, text ";"]]

/-- The method that sets a property. -/
def setterOf (f : Field) : Method where
  header :=
    [text ("public void set" ++ f.property.upperName ++ "(" ++ f.property.fieldType ++ " "),
      binds f.property.name, text ") \x7b"]
  body :=
    let name := f.property.name
    match f.property.kind, f.inverse with
    | .object, some inverse => statements
      [[text "if (", own name, text " != null) ", own name,
        text ("." ++ inverse.getterName ++ "().remove(this);")],
       [own name, text (" = " ++ name ++ ";")],
       [text ("if (" ++ name ++ " != null) " ++ name ++ "." ++ inverse.getterName ++
        "().add(this);")]]
    | _, _ => statements [[own name, text (" = " ++ name ++ ";")]]

/-- The method that adds to a collection. -/
def adderOf (f : Field) : Method where
  header :=
    [text ("public void add" ++ f.property.upperName ++ "(" ++ f.property.elementType ++ " "),
      binds "item", text ") \x7b"]
  body :=
    match f.inverse with
    | some inverse => statements
      [[field f.property.name, text ".add(item);"],
       [text ("item." ++ inverse.getterName ++ "().add(this);")]]
    | none => statements [[field f.property.name, text ".add(item);"]]

/-- The accessors of a property. -/
def accessorsOf (f : Field) : List Method :=
  [getterOf f.property] ++
  if f.property.functional then [setterOf f]
  else if f.property.kind = .collection then [adderOf f] else []

/-- The method that gives an inverse collection. -/
def collectionGetterOf (i : InverseCollection) : Method where
  header := [text ("public Set<" ++ i.sourceType ++ "> " ++ i.getterName ++ "() \x7b")]
  body := statements [[text "return ", field i.name, text ";"]]

/-- The method that adds to an inverse collection. -/
def collectionAdderOf (i : InverseCollection) : Method where
  header :=
    [text ("public void " ++ i.adderName ++ "(" ++ i.sourceType ++ " "), binds i.parameterName,
      text ") \x7b"]
  body := statements
    [[field i.name, text (".add(" ++ i.parameterName ++ ");")],
     [text (if i.singleValued then i.parameterName ++ ".set" ++ i.property.upperName ++ "(this);"
      else i.parameterName ++ ".get" ++ i.property.upperName ++ "().add(this);")]]

/-- The method that writes an entity to a model. -/
def writingOf (style : Style) (c : ClassDescription) : Method where
  annotations := ["@Override"]
  header := [text "public void addToModel(TargetModel ", binds "target", text ") \x7b"]
  body := statements (
    [[text "super.addToModel(target);"]] ++
    (c.fields.map fun f =>
      [text ("add" ++ f.property.kind.word ++ "(target, " ++ constant style f.property ++ ", "),
        field f.property.name, text ");"]) ++
    c.inverses.map fun i => [text "target.addAll(", field i.name, text ");"])

/-- The statements that load a property. -/
def loading (style : Style) (p : Property) : List BodyPart :=
  let name := p.name
  let create := " = factory.create" ++ p.rangeClassName?.getD "" ++ "(iri);"
  let find := statement [text "final Set<IRI> ", binds (name ++ "IRIs"),
    text (" = getObjectIRIs(m, " ++ constant style p ++ ");")]
  match p.kind with
  | .value | .array =>
    [statement [field name, text (" = load" ++ loadingWord p.elementType ++ p.kind.word ++ "(m, " ++
      constant style p ++ ");")]]
  | .object =>
    [statement [text ("//load object " ++ name)],
     find,
     block [text ("if (!" ++ name ++ "IRIs.isEmpty()) \x7b")]
      [[text "final IRI ", binds "iri", text (" = " ++ name ++ "IRIs.iterator().next();")],
       [field name, text create],
       [field name, text ".loadFromModel(m, factory);"]] [],
     block [text "\x7d else \x7b"] [[field name, text " = null;"]] ["\x7d"]]
  | .collection =>
    [statement [text ("//load collection " ++ name)],
     find,
     statement [field name, text " = new HashSet<>();"],
     block [text "for (IRI ", binds "iri", text (" : " ++ name ++ "IRIs) \x7b")]
      [[text (p.rangeClassName?.getD "" ++ " "), binds "item", text create],
       [text "item.loadFromModel(m, factory);"],
       [field name, text ".add(item);"]] ["\x7d"]]

/-- The statements that check the factory. -/
def checkingFactory (style : Style) : List BodyPart :=
  let factory := factoryName style
  [block [text ("if (!(efactory instanceof " ++ factory ++ "))")]
    [[text ("throw new IllegalArgumentException(\"factory must be instance of " ++ factory ++
      "\");")]] [],
   statement [text ("final " ++ factory ++ " "), binds "factory",
    text (" = (" ++ factory ++ ") efactory;")],
   blank]

/-- The statements before any property is loaded. -/
def preparing (style : Style) (usesFactory : Bool) : List BodyPart :=
  [statement [text "super.loadFromModel(model, efactory);"]] ++
  (if usesFactory then checkingFactory style else []) ++
  [statement [text "final Model ", binds "m", text " = model.filter(getIRI(), null, null);"]]

/-- The method that loads an entity from a model. -/
def loadingOf (style : Style) (c : ClassDescription) : Method where
  annotations := ["@Override"]
  header :=
    [text "public void loadFromModel(Model ", binds "model", text ", EntityFactory ",
      binds "efactory", text ") \x7b"]
  body := preparing style c.usesFactory ++ c.fields.flatMap fun f => loading style f.property

/-- The methods of a class, but for the last one. -/
def methodsBeforeLoading (style : Style) (c : ClassDescription) : List Method :=
  [constructorOf c, classIri c] ++ c.fields.flatMap accessorsOf ++
    (c.inverses.flatMap fun i => [collectionGetterOf i, collectionAdderOf i]) ++
    [writingOf style c]

/-- The methods of a class. -/
def methods (style : Style) (c : ClassDescription) : List Method :=
  methodsBeforeLoading style c ++ [loadingOf style c]

end Methods

/-! ### The lines of a class -/

section Lines

variable {style : Style} {c : ClassDescription} {f : Field} {i : InverseCollection} {p : Property}

/-- The lines of a method without blocks, and an empty one behind them. -/
theorem lines_statements (annotations : Code) (header : List Piece) (body : List (List Piece)) :
    (Method.mk annotations header (statements body)).lines style ++ [""] =
      style.deep 1 (annotations ++ [spelled header]) ++ style.deep 2 (body.map spelled) ++
        style.deep 1 ["\x7d"] ++ [""] := by
  have hbody : (statements body).flatMap (BodyPart.lines style) =
      style.deep 2 (body.map spelled) := by
    rw [statements, List.flatMap_map, Style.deep, List.map_map]
    exact List.map_eq_flatMap.symm
  rw [Method.lines, hbody]

theorem lines_constructor : (constructorOf c).lines style ++ [""] = constructorLines style c := by
  have hheader : "(IRI iri) \x7b" = "(IRI " ++ ("iri" ++ ") \x7b") := by decide
  unfold constructorOf constructorLines
  rw [lines_statements, List.map_append, List.map_append, List.map_flatMap, List.map_map]
  simp only [hheader, Function.comp_def, spelled, Piece.spelling, List.map_cons, List.map_nil,
    List.nil_append, String.append_assoc, String.append_empty]
  congr 6
  refine congrArg (c.fields.flatMap ·) (funext fun f => ?_)
  unfold initialising
  cases f.property.kind <;> simp [spelled, Piece.spelling, String.append_assoc]

theorem lines_classIri : (classIri c).lines style ++ [""] = classIriLines style c := by
  unfold classIri classIriLines
  rw [lines_statements]
  simp only [spelled, Piece.spelling, List.map_cons, List.map_nil, String.append_empty,
    List.cons_append, List.nil_append]

theorem lines_getter : (getterOf p).lines style ++ [""] =
    style.deep 1 ["public " ++ p.fieldType ++ " get" ++ p.upperName ++ "() \x7b"] ++
      style.deep 2 ["return " ++ p.name ++ ";"] ++ style.deep 1 ["\x7d"] ++ [""] := by
  unfold getterOf
  rw [lines_statements]
  simp only [spelled, Piece.spelling, List.map_cons, List.map_nil, List.nil_append,
    String.append_assoc, String.append_empty]

theorem lines_setter : (setterOf f).lines style ++ [""] = setterLines style f := by
  have hthis : "if (this." = "if (" ++ "this." := by decide
  have hagain : " != null) this." = " != null) " ++ "this." := by decide
  unfold setterOf setterLines
  cases hkind : f.property.kind <;> cases hinverse : f.inverse <;>
    simp only [hkind, lines_statements, hthis, hagain, spelled, Piece.spelling, List.map_cons,
      List.map_nil, List.nil_append, String.append_assoc, String.append_empty]

theorem lines_adder : (adderOf f).lines style ++ [""] = adderLines style f := by
  have hheader : " item) \x7b" = " " ++ ("item" ++ ") \x7b") := by decide
  unfold adderOf adderLines
  cases f.inverse <;> dsimp only <;> rw [lines_statements] <;>
    simp only [hheader, spelled, Piece.spelling, List.map_cons, List.map_nil, List.cons_append,
      List.nil_append, String.append_assoc, String.append_empty]

theorem lines_accessors : (accessorsOf f).flatMap (fun m => m.lines style ++ [""]) =
    accessorLines style f := by
  unfold accessorsOf accessorLines
  rw [List.flatMap_append, List.flatMap_singleton, lines_getter]
  congr 1
  cases f.property.functional with
  | true => exact (List.flatMap_singleton _ _).trans lines_setter
  | false =>
      cases f.property.kind with
      | collection => exact (List.flatMap_singleton _ _).trans lines_adder
      | value | array | object => rfl

theorem lines_collection :
    [collectionGetterOf i, collectionAdderOf i].flatMap (fun m => m.lines style ++ [""]) =
      inverseLines style i := by
  unfold collectionGetterOf collectionAdderOf inverseLines
  rw [List.flatMap_cons, List.flatMap_singleton, lines_statements, lines_statements]
  simp only [spelled, Piece.spelling, List.map_cons, List.map_nil, List.nil_append,
    List.append_assoc, String.append_assoc, String.append_empty]

theorem lines_writing : (writingOf style c).lines style ++ [""] = addToModelLines style c := by
  have hheader : "public void addToModel(TargetModel target) \x7b" =
      "public void addToModel(TargetModel " ++ ("target" ++ ") \x7b") := by decide
  unfold writingOf addToModelLines
  rw [lines_statements, List.map_append, List.map_append, List.map_map, List.map_map]
  simp only [hheader, Function.comp_def, spelled, Piece.spelling, List.map_cons, List.map_nil,
    List.cons_append, List.nil_append, String.append_assoc, String.append_empty]

theorem lines_loading : (loading style p).flatMap (BodyPart.lines style) = loadLines style p := by
  have hiris : "IRIs = getObjectIRIs(m, " = "IRIs" ++ " = getObjectIRIs(m, " := by decide
  have hcreate : " = factory.create" = " = " ++ "factory.create" := by decide
  have hfirst : "final IRI iri = " = "final IRI " ++ ("iri" ++ " = ") := by decide
  have hloop : "for (IRI iri : " = "for (IRI " ++ ("iri" ++ " : ") := by decide
  have hitem : " item = " = " " ++ ("item" ++ " = ") := by decide
  unfold loading loadLines
  cases p.kind <;>
    simp only [hiris, hcreate, hfirst, hloop, hitem, List.flatMap_cons, List.flatMap_nil,
      BodyPart.lines, spelled, Piece.spelling, Style.deep, List.map_cons, List.map_nil,
      List.cons_append, List.nil_append, String.append_assoc, String.append_empty]

theorem lines_checkingFactory : (checkingFactory style).flatMap (BodyPart.lines style) =
    style.deep 2 ["if (!(efactory instanceof " ++ factoryName style ++ "))"] ++
    style.deep 3 ["throw new IllegalArgumentException(\"factory must be instance of " ++
      factoryName style ++ "\");"] ++
    style.deep 2 ["final " ++ factoryName style ++ " factory = (" ++ factoryName style ++
      ") efactory;"] ++ [""] := by
  have hfactory : " factory = (" = " " ++ ("factory" ++ " = (") := by decide
  unfold checkingFactory
  simp only [hfactory, List.flatMap_cons, List.flatMap_nil, BodyPart.lines, spelled, Piece.spelling,
    Style.deep, List.map_cons, List.map_nil, List.cons_append, List.nil_append, String.append_assoc,
    String.append_empty]

theorem lines_loadingOf : (loadingOf style c).lines style = loadFromModelLines style c := by
  have hheader : "public void loadFromModel(Model model, EntityFactory efactory) \x7b" =
      "public void loadFromModel(Model " ++ ("model" ++ (", EntityFactory " ++
        ("efactory" ++ ") \x7b"))) := by decide
  have hmodel : "final Model m = model.filter(getIRI(), null, null);" =
      "final Model " ++ ("m" ++ " = model.filter(getIRI(), null, null);") := by decide
  have hfields : (c.fields.flatMap fun f =>
      loading style f.property).flatMap (BodyPart.lines style) =
        c.fields.flatMap fun f => loadLines style f.property := by
    rw [List.flatMap_assoc]
    exact congrArg (c.fields.flatMap ·) (funext fun f => lines_loading)
  unfold loadingOf preparing loadFromModelLines Method.lines
  simp only [List.flatMap_append, hfields]
  cases c.usesFactory <;>
    simp only [hheader, hmodel, given, lines_checkingFactory, List.flatMap_cons, List.flatMap_nil,
      BodyPart.lines, spelled, Piece.spelling, List.append_assoc, List.append_nil, List.nil_append,
      List.cons_append, String.append_assoc, String.append_empty, if_true, if_false,
      Bool.false_eq_true]

/-- The lines of a class in front of its methods. -/
def front (style : Style) (c : ClassDescription) : Code :=
  let superclass := c.superclassName?.getD (style.settings.runtimePackage ++ ".RDFEntity")
  packageLines style.settings.effectiveClassPackage ++ importLines style c ++
  comment "" (.ofClass c) ++
  ["public class " ++ c.name ++ " extends " ++ superclass, "\x7b"] ++
  style.deep 1
    ["public static final IRI CLASS_IRI = vf.createIRI(\"" ++ c.iri.text ++ "\");"] ++ [""] ++
  declarations style c

/-- **The lines of a class are those of its methods,** behind the comments and the fields. -/
theorem classLines_eq (style : Style) (c : ClassDescription) :
    classLines style c = front style c ++
      (methodsBeforeLoading style c).flatMap (fun m => m.lines style ++ [""]) ++
      (loadingOf style c).lines style ++ ["\x7d"] := by
  have haccessors : (c.fields.flatMap accessorsOf).flatMap (fun m => m.lines style ++ [""]) =
      c.fields.flatMap (accessorLines style) := by
    rw [List.flatMap_assoc]
    exact congrArg (c.fields.flatMap ·) (funext fun f => lines_accessors)
  have hcollections : (c.inverses.flatMap fun i =>
      [collectionGetterOf i, collectionAdderOf i]).flatMap (fun m => m.lines style ++ [""]) =
        c.inverses.flatMap (inverseLines style) := by
    rw [List.flatMap_assoc]
    exact congrArg (c.inverses.flatMap ·) (funext fun i => lines_collection)
  unfold methodsBeforeLoading
  simp only [List.flatMap_append, haccessors, hcollections, List.flatMap_cons, List.flatMap_nil,
    lines_constructor, lines_classIri, lines_writing, lines_loadingOf, List.append_nil]
  simp only [classLines, front, List.append_assoc]

end Lines

end OntoCode.Generate.Java
