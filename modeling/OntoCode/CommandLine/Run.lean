/-
Running a program.

A run ends well, or it stops at the first failure.  Nothing is loaded before the
directories to write to are known to exist, and nothing is written before all that is
to be written is known to be right.
-/
import OntoCode.CommandLine.Arguments
import OntoCode.Generate.Generator
import OntoCode.Generate.Loading

namespace OntoCode.CommandLine

open OntoCode.Generate

/-- Generates the classes and the vocabulary, and gives the paths of the files. -/
def generateEntities (language : VocabularyLanguage) (g : Generator) : Work (List String) := do
  let s := g.settings
  let name ← settle (OntoCode.Vocabulary.name? s)
  let shared := (← get).files.sameSpelling s.vocabularyDir s.effectiveClassDir
  let paths ← g.generate none (if shared then [Generate.Vocabulary.fileName language name] else [])
  return paths ++ [← OntoCode.Vocabulary.generate language s g.ontology none]

/-- **Loads the input files and generates the code,** and gives the paths of the files. -/
def generate (target : Target) (s : Settings) : Work (List String) := do
  checkDirectory s.effectiveClassDir
  if target ≠ .javaScript then checkDirectory s.vocabularyDir
  let ontology ← Ontology.ofFiles s s.inputFiles
  let g := Generator.make target s ontology
  match target with
  | .javaScript => g.generate none []
  | .python => generateEntities .python g
  | .java => generateEntities .java g

/-- Generates the code and reports how many files it has. -/
def work (target : Target) (s : Settings) : Work Unit := do
  let paths ← generate target s
  reportAll [.generated paths.length]

/-- What a run leaves behind. -/
structure Outcome where
  /-- Why the run failed, if it did. -/
  failure : Option Failure := none
  /-- The help, if it is shown. -/
  help : List String := []
  /-- The reports that are shown. -/
  log : List Notice := []
  files : FileTree

namespace Outcome

/-- Whether the run ended well. -/
def succeeded (o : Outcome) : Bool := o.failure.isNone

/-- The exit status. -/
def status (o : Outcome) : Nat := if o.succeeded then 0 else 1

/-- The message of a failure above the help, for failures of the options. -/
def complaint (o : Outcome) : List String :=
  match o.failure with
  | some f => if f.kind = .configuration then [f.message, ""] else []
  | none => []

/-- The lines of the standard output. -/
def outputLines (o : Outcome) : List String := o.complaint ++ o.help

/-- The line that tells of a failure that is none of the options. -/
def failureLine? (f : Failure) : Option String :=
  match f.kind with
  | .configuration => none
  | .parse => some ("Parse error: " ++ f.message)
  | .unheldText => some ("Text error: " ++ f.message)
  | .missingInput | .missingOutput | .fileSystem => some ("I/O exception: " ++ f.message)
  | .generation | .endless => some ("Generation error: " ++ f.message)

/-- The reports, as lines of the standard error output. -/
def logLines (o : Outcome) : List String := o.log.map (·.message)

/-- The lines of the standard error output. -/
def errorLines (o : Outcome) : List String := o.logLines ++ (o.failure.bind failureLine?).toList

end Outcome

/-- The outcome of a command line that cannot be followed. -/
def refuse (p : Program) (files : FileTree) (failure : Failure) : Outcome :=
  { failure := some failure, help := helpLines p, files }

/-- Runs a program with settings. -/
def runWith (p : Program) (target : Target) (verbose : Bool) (s : Settings) (files : FileTree) :
    Outcome :=
  let (result, workspace) := (work target s).run.run { files }
  let log := workspace.log.filter fun notice => verbose || notice.level ≠ .debug
  match result with
  | .ok _ => { log, files := workspace.files }
  | .error failure =>
    { failure := some failure, log, files := workspace.files,
      help := if failure.kind = .configuration then helpLines p else [] }

/-- **Runs a program with a command line.** -/
def run (p : Program) (texts : List String) (files : FileTree) : Outcome :=
  match Arguments.read p texts with
  | .error error => refuse p files (.badArguments error.message)
  | .ok a =>
    if a.help then { help := helpLines p, files }
    else
      let s := a.settings files.workingDirectory
      match s.validate with
      | .error failure => refuse p files failure
      | .ok _ => runWith p (p.target.getD a.target) a.verbose s files

end OntoCode.CommandLine
