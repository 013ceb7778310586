/-
Reading documents into an ontology.
-/
import OntoCode.Generate.Workspace
import OntoCode.Rdf.Format
import OntoCode.Settings

namespace OntoCode

open OntoCode.Rdf OntoCode.Text

/-- The two hexadecimal digits of a byte. -/
def byteDigits (b : UInt8) : List Char :=
  [Nat.digitChar (b.toNat / 16), Nat.digitChar (b.toNat % 16)].map Char.toUpper

/-- A character of a path as it is written in an IRI. -/
def pathChar (c : Char) : List Char :=
  if isNameChar c || c = '.' || c = '-' || c = '~' then [c]
  else (String.singleton c).toUTF8.toList.flatMap fun b => '%' :: byteDigits b

namespace Ontology

/-- The base of the references in a document: the IRI of its file. -/
def documentBase (files : FileTree) (path : String) : String :=
  let encode (parts : List String) : String :=
    let kept := parts.filter fun part => part ≠ "" && part ≠ "."
    String.join (kept.map fun part => "/" ++ String.ofList (part.toList.flatMap pathChar))
  match files.below? path with
  | some parts => "file://" ++ files.root ++ encode parts
  | none => "file://" ++ encode (FileTree.parts path)

/-- The ontology with what a document says.  A label that a document declares is taken over where
its namespace has none yet. -/
def merge (o : Ontology) (d : Document) : Ontology :=
  let own := d.labels.foldl (fun p (label, target) => p.bind label target true) Prefixes.standard
  { o with
    graph := o.graph.insertAll d.graph.triples
    prefixes := own.foldl (fun p (label, target) => p.bind label target false) o.prefixes
    documents := o.documents + 1 }

/-- Refuses the name of a format that is not known. -/
def checkFormat (format : Option String) : Except Failure Unit :=
  match format with
  | some name => if (Format.named? name).isSome then .ok () else .error (.unknownFormat name)
  | none => .ok ()

/-- **The ontology with what the document at a path says.** -/
def load (o : Ontology) (path : String) (format : Option String) : Work Ontology := do
  let files := (← get).files
  if !files.isFile path then throw (.inputMissing path)
  let asked := Settings.given? format
  settle (checkFormat asked)
  let name := asked <|> Format.guess? path
  let text := (files.read? path).map String.toList
  let read := text.bind ((Format.ofName name).read? o.documents (documentBase files path))
  match read with
  | none =>
    throw (if text.any escapesHalf then .halfCharacter path else .unreadable path name)
  | some document =>
    reportAll [.loaded document.graph.size path]
    return o.merge document

/-- The ontology with what the documents at some paths say. -/
def loadAll (o : Ontology) (paths : List String) (format : Option String) : Work Ontology :=
  paths.foldlM (fun o path => o.load path format) o

end Ontology

/-- The ontology of the documents at some paths. -/
def Ontology.ofFiles (settings : Settings) (paths : List String) : Work Ontology :=
  Ontology.loadAll { language := settings.language } paths settings.inputFormat

end OntoCode
