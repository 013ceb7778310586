/-
Why generating code fails.

The causes are grouped as callers tell them apart: the ontology cannot be expressed,
the options are wrong, a document cannot be read, a text of it cannot be held, a file
or directory is missing, or the file system refuses.
-/
import OntoCode.Rdf.Iri
import OntoCode.Text.Quoted

namespace OntoCode

open OntoCode.Rdf

/-- What the file system has against opening a file for writing. -/
inductive FileError
  | noSuchFile
  | notADirectory
  | isADirectory
  deriving DecidableEq, Repr

/-- The number and the words of the file system for an error. -/
def FileError.text : FileError → String
  | noSuchFile => "[Errno 2] No such file or directory"
  | notADirectory => "[Errno 20] Not a directory"
  | isADirectory => "[Errno 21] Is a directory"

/-- Why generating code fails. -/
inductive Failure
  /-- A list in the ontology never ends. -/
  | endlessList
  /-- Two fields of a class have one name. -/
  | sameFieldName (first second field className : String) (iri : Iri)
  /-- Two classes have one name. -/
  | sameClassName (first second : Iri) (name : String)
  /-- Two classes have one module. -/
  | sameModule (first second module : String) (iri : Iri)
  /-- A class is written to the file of the factory. -/
  | factoryFile (file : String)
  /-- Generated files would replace reserved ones. -/
  | overwrites (generator : String) (files : List String) (directory : String)
  /-- A generator names its code after a vocabulary that has no name. -/
  | generatorUnnamed (generator : String)
  /-- The vocabulary has no name. -/
  | vocabularyUnnamed
  /-- The arguments cannot be understood. -/
  | badArguments (message : String)
  /-- The vocabulary is not named by an option. -/
  | missingVocabularyName
  /-- There is nothing to read. -/
  | noInputFiles
  /-- No syntax has this name. -/
  | unknownFormat (format : String)
  /-- A document does not follow its syntax. -/
  | unreadable (path : String) (format : Option String)
  /-- A document escapes half a character. -/
  | halfCharacter (path : String)
  /-- A document does not exist. -/
  | inputMissing (path : String)
  /-- The directory to write to does not exist. -/
  | outputMissing (path : String)
  /-- A file cannot be written. -/
  | cannotWrite (path : String) (error : FileError)
  deriving DecidableEq, Repr

/-- What kinds of failure callers tell apart. -/
inductive FailureKind
  | endless
  | generation
  | configuration
  | parse
  | unheldText
  | missingInput
  | missingOutput
  | fileSystem
  deriving DecidableEq, Repr

namespace Failure

/-- The kind of a failure. -/
def kind : Failure → FailureKind
  | endlessList => .endless
  | sameFieldName .. | sameClassName .. | sameModule .. | factoryFile .. | overwrites ..
  | generatorUnnamed .. | vocabularyUnnamed => .generation
  | badArguments .. | missingVocabularyName | noInputFiles | unknownFormat .. => .configuration
  | unreadable .. => .parse
  | halfCharacter .. => .unheldText
  | inputMissing .. => .missingInput
  | outputMissing .. => .missingOutput
  | cannotWrite .. => .fileSystem

/-- The message of a failure; one about a single term of the ontology ends with its IRI. -/
def message : Failure → String
  | endlessList => "A list never ends"
  | sameFieldName first second field className iri =>
    about s!"{first} and {second} are both named {field} in {className}" iri
  | sameClassName first second name =>
    about s!"Classes {first.text} and {second.text} are both named {name}" second
  | sameModule first second module iri =>
    about s!"Classes {first} and {second} map to the same module {module}" iri
  | factoryFile file => s!"A class is generated into {file}, the file of the factory"
  | overwrites generator files directory =>
    generator ++ " would overwrite " ++ ", ".intercalate files ++ " in " ++ directory
  | generatorUnnamed generator =>
    s!"{generator} needs a vocabulary name to name the generated code after"
  | vocabularyUnnamed => "The vocabulary needs a name"
  | badArguments message => message
  | missingVocabularyName => "Missing required option: vocab-name"
  | noInputFiles => "No input files given"
  | unknownFormat format => s!"Unknown input format: {format}"
  | unreadable path format =>
    "Cannot parse " ++ path ++ " as " ++
      match format with
      | some name => if name = "" then "RDF" else name
      | none => "RDF"
  | halfCharacter path => s!"Half a character in {path}"
  | inputMissing path => s!"Ontology file {path} does not exist."
  | outputMissing path => s!"Output directory {path} does not exist."
  | cannotWrite path error => error.text ++ ": " ++ Text.quotedText path
where
  /-- A message with the IRI it is about behind it. -/
  about (message : String) (iri : Iri) : String :=
    if iri.text = "" then message else message ++ " (" ++ iri.text ++ ")"

end Failure

end OntoCode
