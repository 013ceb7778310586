/-
The options of the command line, and the help that lists them.

There is a program for each target language that a run can be fixed to, and one that
lets the user choose.
-/
import OntoCode.Schema.TypeNames
import OntoCode.Text.Wrap

namespace OntoCode.CommandLine

open OntoCode.Text

/-- A program: its name and the language it is fixed to, if it is. -/
structure Program where
  name : String
  target : Option Target := none
  deriving DecidableEq, Repr

/-- The program that lets the user choose a language. -/
def anyProgram : Program := ⟨"class-builder", none⟩

/-- The program for JavaScript. -/
def javaScriptProgram : Program := ⟨"class-builder-js", some .javaScript⟩

/-- The program for Python. -/
def pythonProgram : Program := ⟨"class-builder-py", some .python⟩

/-- The words that languages are chosen by. -/
def targetWords : List (String × Target) :=
  [("java", .java), ("js", .javaScript), ("python", .python)]

/-- An option. -/
inductive Switch
  | format
  | vocabularyName
  | vocabularyPackage
  | classPackage
  | vocabularyDir
  | classDir
  | includeStart
  | language
  | runtimePackage
  | target
  | progress
  | verbose
  | help
  deriving DecidableEq, Repr

namespace Switch

/-- The options in the order of the help. -/
def all : List Switch := [
  format, vocabularyName, vocabularyPackage, classPackage, vocabularyDir, classDir, includeStart,
  language, runtimePackage, target, progress, verbose, help]

/-- The short spelling of an option. -/
def short? : Switch → Option String
  | format => some "-f"
  | vocabularyName => some "-v"
  | vocabularyPackage => some "-p"
  | classPackage => some "-P"
  | vocabularyDir => some "-o"
  | classDir => some "-O"
  | includeStart => some "-I"
  | language => some "-l"
  | runtimePackage => some "-r"
  | target => some "-t"
  | progress | verbose => none
  | help => some "-h"

/-- The long spelling of an option. -/
def long : Switch → String
  | format => "--format"
  | vocabularyName => "--vocab-name"
  | vocabularyPackage => "--vocab-package"
  | classPackage => "--class-package"
  | vocabularyDir => "--vocab-dir"
  | classDir => "--class-dir"
  | includeStart => "--include-prefix"
  | language => "--language"
  | runtimePackage => "--runtime-package"
  | target => "--target"
  | progress => "--progress"
  | verbose => "--verbose"
  | help => "--help"

/-- The spellings of an option. -/
def spellings (s : Switch) : List String := s.short?.toList ++ [s.long]

/-- The spellings of an option in messages. -/
def title (s : Switch) : String := "/".intercalate s.spellings

/-- What the value of an option is called, for those that take one. -/
def value? : Switch → Option String
  | format => some "format"
  | vocabularyName => some "class-name"
  | vocabularyPackage | classPackage | runtimePackage => some "package"
  | vocabularyDir | classDir => some "path"
  | includeStart => some "prefix"
  | language => some "tag"
  | target => some ("\x7b" ++ ",".intercalate (targetWords.map (·.1)) ++ "\x7d")
  | progress | verbose | help => none

/-- What the help says about an option. -/
def about : Switch → String
  | format => "mime-type of the input file (will try to guess if absent)"
  | vocabularyName => "vocabulary class name"
  | vocabularyPackage =>
    "vocabulary package declaration (will use default (empty) package if absent)"
  | classPackage => "class package declaration (will use the vocabulary package if absent)"
  | vocabularyDir => "the output directory for the vocabulary (current directory when absent)"
  | classDir => "the output directory for the classes (vocabulary directory when absent)"
  | includeStart => "only generate classes whose IRI starts with the prefix"
  | language => "preferred language of labels and comments"
  | runtimePackage => "package of the Java runtime support classes"
  | target => "the language to generate (java when absent)"
  | progress => "show a progress bar"
  | verbose => "print debug messages"
  | help => "print this help"

/-- An option with its value, in some spelling. -/
def withValue (s : Switch) (spelling : String) : String :=
  match s.value? with
  | some value => spelling ++ " " ++ value
  | none => spelling

end Switch

namespace Program

/-- The options of a program: one that is fixed to a language does not ask for it. -/
def switches (p : Program) : List Switch :=
  Switch.all.filter fun s => s ≠ .target || p.target.isNone

/-- The option with a spelling. -/
def switch? (p : Program) (spelling : String) : Option Switch :=
  p.switches.find? fun s => s.spellings.contains spelling

end Program

/-- The width that usage is filled to. -/
def usageWidth : Nat := 78

/-- The column that the explanations of the help start at. -/
def aboutColumn : Nat := 24

/-- Blanks up to a column. -/
def blanks (n : Nat) : String := String.ofList (List.replicate n ' ')

/-- Fills lines with words.  `line` is the line so far, and no word starts a line unless the line
before is full. -/
def fillUsage (indent : String) (line : String) : List String → List String
  | [] => [line]
  | word :: rest =>
    if usageWidth < line.length + 1 + word.length then
      line :: fillUsage indent (indent ++ word) rest
    else fillUsage indent (line ++ " " ++ word) rest

/-- The lines that show how a program is called. -/
def usage (p : Program) : List String :=
  let start := "usage: " ++ p.name
  let indent := blanks (start.length + 1)
  let words := p.switches.map fun s => "[" ++ s.withValue (s.short?.getD s.long) ++ "]"
  fillUsage indent start words ++ [indent ++ "[input-file ...]"]

/-- The lines that explain something: what it is called, and an explanation beside it, or below
it where the name reaches into the column of the explanations. -/
def explain (name about : String) : List String :=
  let name := "  " ++ name
  let text := (wrap (usageWidth - aboutColumn) about.toList).map String.ofList
  let below := text.map (blanks aboutColumn ++ ·)
  if aboutColumn < name.length + 2 then name :: below
  else
    match text with
    | first :: more =>
      (name ++ blanks (aboutColumn - name.length) ++ first) ::
        more.map (blanks aboutColumn ++ ·)
    | [] => [name]

/-- **The help of a program.** -/
def helpLines (p : Program) : List String :=
  usage p ++
  ["", "Generates source code from RDFS/OWL ontologies.", "", "positional arguments:"] ++
  explain "input-file" "the input file(s) to read from" ++
  ["", "options:"] ++
  p.switches.flatMap fun s => explain (", ".intercalate (s.spellings.map s.withValue)) s.about

end OntoCode.CommandLine
