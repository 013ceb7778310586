/-
The options of a run.
-/
import OntoCode.Schema.Failure

namespace OntoCode

/-- The package of the support classes of generated Java code. -/
def defaultRuntimePackage : String := "io.github.radkovo.rdf4j.builder"

/-- The package of the support classes of generated Python code. -/
def pythonRuntimePackage : String := "class_builder_runtime"

/-- The options that all generators share. -/
structure Settings where
  /-- The name of the vocabulary; the factory and the registry are named after it. -/
  vocabularyName : Option String := none
  vocabularyPackage : String := ""
  vocabularyDir : String
  /-- The package of the classes, if it is not that of the vocabulary. -/
  classPackage : Option String := none
  /-- The directory of the classes, if it is not that of the vocabulary. -/
  classDir : Option String := none
  /-- How the IRIs of the classes to generate start. -/
  includeStart : Option String := none
  language : Option String := none
  inputFormat : Option String := none
  inputFiles : List String := []
  runtimePackage : String := defaultRuntimePackage
  /-- One step of indentation. -/
  indent : String := "\t"
  showProgress : Bool := false
  deriving DecidableEq, Repr

namespace Settings

/-- The text of an option that is given and not empty. -/
def given? (option : Option String) : Option String := option.filter (· ≠ "")

/-- The package the classes are generated into. -/
def effectiveClassPackage (s : Settings) : String := s.classPackage.getD s.vocabularyPackage

/-- The directory the classes are written to. -/
def effectiveClassDir (s : Settings) : String := (given? s.classDir).getD s.vocabularyDir

/-- Refuses options without which no run makes sense. -/
def validate (s : Settings) : Except Failure Unit :=
  if (given? s.vocabularyName).isNone then .error .missingVocabularyName
  else if s.inputFiles.isEmpty then .error .noInputFiles
  else .ok ()

end Settings

end OntoCode
