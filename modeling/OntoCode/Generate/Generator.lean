/-
Generators: from an ontology to files of code.

A Java or Python generator writes a file for each class and one for the factory, a
JavaScript generator writes one module.  No file is written before all of them are
known to be right.
-/
import OntoCode.Generate.JavaScript
import OntoCode.Generate.Vocabulary
import OntoCode.Generate.Workspace

namespace OntoCode

open OntoCode.Generate OntoCode.Naming OntoCode.Ontology OntoCode.Rdf OntoCode.Text

/-- A generator of code of one language. -/
structure Generator where
  target : Target
  settings : Settings
  ontology : Ontology
  /-- One step of indentation; it stays what it was when the generator was made. -/
  indent : String

namespace Generator

/-- A generator with the indentation of its settings. -/
def make (target : Target) (settings : Settings) (ontology : Ontology) : Generator :=
  { target, settings, ontology, indent := settings.indent }

/-- The name of a generator in messages. -/
def title (g : Generator) : String :=
  match g.target with
  | .java => "JavaClassBuilder"
  | .javaScript => "JSMappingBuilder"
  | .python => "PythonClassBuilder"

/-- The reports of looking through the classes of the ontology. -/
def classNotices (g : Generator) : List Notice :=
  (classes g.ontology.graph).filterMap fun resource =>
    match resource, Settings.given? g.settings.includeStart with
    | .iri iri, some start => if iri.text.startsWith start then none else some (.outside iri start)
    | .iri _, none => none
    | other, _ => some (.notAnIri other)

/-- The classes to generate: those with an IRI that starts as asked for. -/
def classesToGenerate (g : Generator) : List Iri :=
  ((classes g.ontology.graph).filterMap Term.iri?).filter fun iri =>
    match Settings.given? g.settings.includeStart with
    | some start => iri.text.startsWith start
    | none => true

/-- The classes to generate, with reports of the others. -/
def findClasses (g : Generator) : Work (List Iri) := do
  reportAll g.classNotices
  return g.classesToGenerate

/-- Refuses classes of which two have one name. -/
def checkClassNames (earlier : List ClassDescription) :
    List ClassDescription → Except Failure Unit
  | [] => .ok ()
  | c :: rest =>
    match earlier.find? (·.name = c.name) with
    | some other => .error (.sameClassName other.iri c.iri c.name)
    | none => checkClassNames (earlier ++ [c]) rest

/-- The descriptions of the classes to generate, superclasses first. -/
def describeClasses (g : Generator) : Work (List ClassDescription) := do
  let found ← (← g.findClasses).mapM (recalledClass g.target g.ontology)
  reportAll [.foundClasses (found.map (·.name))]
  settle (checkClassNames [] found)
  let (ordered, notices) := Hierarchy.order found
  reportAll notices
  return ordered

/-- The style of the generated code, refused without a name for the vocabulary. -/
def style? (g : Generator) : Except Failure Style :=
  match Settings.given? g.settings.vocabularyName with
  | some vocabulary => .ok ⟨g.settings, vocabulary, g.indent⟩
  | none => .error (.generatorUnnamed g.title)

/-- The name of the file of a class. -/
def classFile (g : Generator) (c : ClassDescription) : String :=
  match g.target with
  | .python => pythonName c.name ++ ".py"
  | _ => c.name ++ ".java"

/-- The name of the file that names all classes: the factory, or the module of the creators. -/
def sharedFile (g : Generator) (vocabulary : String) : String :=
  match g.target with
  | .java => vocabulary ++ "Factory.java"
  | .python => pythonName vocabulary ++ "_factory.py"
  | .javaScript => vocabulary ++ "Mappers.js"

/-- The text of the file of a class. -/
def classText (g : Generator) (style : Style) (c : ClassDescription) : String :=
  match g.target with
  | .python => textOf (Python.classLines style c)
  | _ => textOf (Java.classLines style c)

/-- The text of the file that names all classes. -/
def sharedText (g : Generator) (style : Style) (classes : List ClassDescription) : String :=
  match g.target with
  | .java => textOf (Java.factoryLines style classes)
  | .python => textOf (Python.factoryLines style classes)
  | .javaScript => textOf (JavaScript.moduleLines style classes)

/-- The class as it is generated among others: a Python class cannot extend one that is not. -/
def extendable (g : Generator) (known : List Iri) (c : ClassDescription) : ClassDescription :=
  match g.target, c.superclass with
  | .python, some superclass =>
    if known.contains superclass then c else { c with superclass := none }
  | _, _ => c

/-- The report that a class cannot extend its superclass. -/
def extendableNotices (g : Generator) (known : List Iri) (c : ClassDescription) : List Notice :=
  match g.target, c.superclass with
  | .python, some superclass =>
    if known.contains superclass then [] else [.superclassMissing superclass c.name]
  | _, _ => []

/-- Refuses classes of which two have one Python module. -/
def checkModules (earlier : List ClassDescription) : List ClassDescription → Except Failure Unit
  | [] => .ok ()
  | c :: rest =>
    match earlier.find? fun e => pythonName e.name = pythonName c.name with
    | some other => .error (.sameModule other.name c.name (pythonName c.name) c.iri)
    | none => checkModules (earlier ++ [c]) rest

/-- A file of generated code: its name and its text. -/
abbrev CodeFile := String × String

/-- The files of the classes, and the one that names them all. -/
def renderEntities (g : Generator) (classes : List ClassDescription) : Work (List CodeFile) := do
  if g.target = .python then settle (checkModules [] classes)
  let style ← settle g.style?
  let known := classes.map (·.iri)
  let files ← classes.mapM fun c => do
    reportAll (g.extendableNotices known c ++ [.generating c.name])
    let c := g.extendable known c
    return (g.classFile c, g.classText style c)
  let shared := g.sharedFile style.vocabulary
  if files.any (·.1 = shared) then throw (.factoryFile shared)
  return files ++ [(shared, g.sharedText style (classes.map (g.extendable known)))]

/-- **The files of generated code.** -/
def render (g : Generator) (classes : List ClassDescription) : Work (List CodeFile) :=
  match g.target with
  | .java | .python => g.renderEntities classes
  | .javaScript => do
    let style ← settle g.style?
    return [(g.sharedFile style.vocabulary, g.sharedText style classes)]

/-- Writes files into a directory, and gives their paths. -/
def saveFiles (directory : String) (files : List CodeFile) : Work (List String) :=
  files.mapM fun (name, text) => do
    let path := FileTree.join directory name
    saveFile path text
    return path

/-- Generates the code of all classes into a directory, if no reserved file is in the way. -/
def generate (g : Generator) (directory : Option String) (reserved : List String) :
    Work (List String) := do
  let directory := (Settings.given? directory).getD g.settings.effectiveClassDir
  checkDirectory directory
  let files ← g.render (← g.describeClasses)
  let clashes := sortByTexts (fun n => [n])
    ((files.map (·.1)).eraseDups.filter fun name => reserved.contains name)
  if !clashes.isEmpty then throw (.overwrites g.title clashes directory)
  saveFiles directory files

/-- Generates the file of a single class into a directory, and gives its path. -/
def emitClass (g : Generator) (class_ : Iri) (directory : Option String) : Work String := do
  let directory := (Settings.given? directory).getD g.settings.effectiveClassDir
  checkDirectory directory
  let style ← settle g.style?
  let described ← recalledClass g.target g.ontology class_
  let known ← g.findClasses
  reportAll (g.extendableNotices known described)
  let c := g.extendable known described
  let path := FileTree.join directory (g.classFile c)
  saveFile path (g.classText style c)
  return path

end Generator

namespace Vocabulary

/-- The constants of the vocabulary of an ontology, with reports of terms left out. -/
def terms (language : VocabularyLanguage) (o : Ontology) : Work (List VocabularyTerm) := do
  let (constants, notices) := Generate.Vocabulary.constants language o
  reportAll notices
  return constants

/-- The name of the vocabulary. -/
def name? (settings : Settings) : Except Failure String :=
  match Settings.given? settings.vocabularyName with
  | some name => .ok name
  | none => .error .vocabularyUnnamed

/-- **The file of the vocabulary.** -/
def render (language : VocabularyLanguage) (settings : Settings) (o : Ontology) :
    Work Generator.CodeFile := do
  let name ← settle (name? settings)
  let space := namespaceOf o.graph
  let constants ← terms language o
  let style : Style := ⟨settings, name, settings.indent⟩
  return (Generate.Vocabulary.fileName language name,
    textOf (Generate.Vocabulary.lines language style space (o.prefixes.label? space) constants))

/-- Writes the file of the vocabulary into a directory, and gives its path. -/
def generate (language : VocabularyLanguage) (settings : Settings) (o : Ontology)
    (directory : Option String) : Work String := do
  let directory := (Settings.given? directory).getD settings.vocabularyDir
  checkDirectory directory
  let name ← settle (name? settings)
  reportAll [.generatingVocabulary name]
  let (file, text) ← render language settings o
  let path := FileTree.join directory file
  saveFile path text
  return path

end Vocabulary

end OntoCode
