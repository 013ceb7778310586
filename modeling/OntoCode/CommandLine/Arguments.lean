/-
Reading the command line.

An argument is an option, possibly with a value attached to it, or a plain word.  An
option that takes a value takes the next plain word where none is attached.  The
plain words left are the input files, and they have to stand next to each other: the
first run of them counts, and everything else that is left over is an error.
-/
import OntoCode.CommandLine.Options
import OntoCode.Settings

namespace OntoCode.CommandLine

open OntoCode.Text

/-- What is wrong with a command line. -/
inductive ArgumentError
  /-- The start of a long option could be several ones. -/
  | ambiguous (argument : String) (candidates : List String)
  /-- An option that takes a value has none. -/
  | valueMissing (switch : Switch)
  /-- A value is attached to an option that takes none. -/
  | valueIgnored (switch : Switch) (value : String)
  /-- No language has this name. -/
  | unknownTarget (word : String)
  /-- Some arguments are left over. -/
  | unrecognized (arguments : List String)
  deriving DecidableEq, Repr

/-- The message of an error. -/
def ArgumentError.message : ArgumentError → String
  | ambiguous argument candidates =>
    "ambiguous option: " ++ argument ++ " could match " ++ ", ".intercalate candidates
  | valueMissing switch => "argument " ++ switch.title ++ ": expected one argument"
  | valueIgnored switch value =>
    "argument " ++ switch.title ++ ": ignored explicit argument " ++ quotedText value
  | unknownTarget word =>
    "argument " ++ Switch.target.title ++ ": invalid choice: " ++ quotedText word ++
      " (choose from " ++ ", ".intercalate (targetWords.map fun w => quotedText w.1) ++ ")"
  | unrecognized arguments => "unrecognized arguments: " ++ " ".intercalate arguments

/-- What a command line asks for. -/
structure Arguments where
  files : List String := []
  format : Option String := none
  vocabularyName : Option String := none
  vocabularyPackage : String := ""
  classPackage : Option String := none
  vocabularyDir : Option String := none
  classDir : Option String := none
  includeStart : Option String := none
  language : Option String := none
  runtimePackage : String := defaultRuntimePackage
  target : Target := .java
  progress : Bool := false
  verbose : Bool := false
  help : Bool := false
  deriving DecidableEq, Repr

/-- What is attached to an option, directly or behind an equals sign. -/
structure Attached where
  text : String
  behindSign : Bool
  deriving DecidableEq, Repr

/-- An argument by its form. -/
inductive Argument
  | plain (text : String)
  /-- The mark that no options come after. -/
  | separator
  /-- Something spelled like an option that is none. -/
  | unknown (text : String)
  /-- An option; `isLong` tells its spelling, and a value may be attached. -/
  | switch (switch : Switch) (isLong : Bool) (attached : Option Attached)
  deriving DecidableEq, Repr

/-- Whether a text is a negative number, which is no option. -/
def isNegativeNumber (s : List Char) : Bool :=
  let s := if s.getLast? = some '\n' then s.dropLast else s
  match s with
  | '-' :: digits =>
    let behind := digits.dropWhile isDecimalDigit
    match behind with
    | [] => digits ≠ []
    | '.' :: places => places ≠ [] && places.all isDecimalDigit
    | _ => false
  | _ => false

/-- The text before the first equals sign, and the one behind it. -/
def splitEquals (text : String) : String × Option String :=
  let s := text.toList
  let name := s.takeWhile (· ≠ '=')
  if name.length = s.length then (text, none)
  else (String.ofList name, some (String.ofList (s.drop (name.length + 1))))

/-- The long options that start like a text, or the short option it starts with. -/
def candidates (p : Program) (text : String) : List Argument :=
  if text.startsWith "--" then
    let (start, attached) := splitEquals text
    (p.switches.filter (·.long.startsWith start)).map fun s =>
      .switch s true (attached.map (⟨·, true⟩))
  else
    match p.switch? (String.ofList (text.toList.take 2)) with
    | some s => [.switch s false (some ⟨String.ofList (text.toList.drop 2), false⟩)]
    | none => []

/-- The long spelling of the option that an argument is. -/
def Argument.long? : Argument → Option String
  | switch s _ _ => some s.long
  | _ => none

/-- The option that a text spells in full, alone or in front of an equals sign. -/
def spelled? (p : Program) (text : String) : Option Argument :=
  match p.switch? text with
  | some s => some (.switch s (text.startsWith "--") none)
  | none =>
    match splitEquals text with
    | (name, some value) =>
      (p.switch? name).map fun s => .switch s (name.startsWith "--") (some ⟨value, true⟩)
    | _ => none

/-- The form of an argument. -/
def Argument.ofText (p : Program) (text : String) : Except ArgumentError Argument :=
  if !text.startsWith "-" || text = "-" then .ok (.plain text)
  else
    match spelled? p text with
    | some argument => .ok argument
    | none =>
      match candidates p text with
      | [argument] => .ok argument
      | [] =>
        if isNegativeNumber text.toList || text.contains ' ' then .ok (.plain text)
        else .ok (.unknown text)
      | several => .error (.ambiguous text (several.filterMap Argument.long?))

/-- The forms of some arguments: all of them are plain behind the separator. -/
def formsOf (p : Program) : List String → Except ArgumentError (List Argument)
  | [] => .ok []
  | text :: rest =>
    if text = "--" then .ok (.separator :: rest.map .plain)
    else do
      let form ← Argument.ofText p text
      return form :: (← formsOf p rest)

/-- Whether input files were met: none yet, the run of them goes on, or it is over. -/
inductive Run
  | before
  | within
  | after
  deriving DecidableEq, Repr

/-- How far the command line has been read. -/
structure Reading where
  arguments : Arguments := {}
  run : Run := .before
  leftOver : List String := []

namespace Reading

/-- A run of input files is over. -/
def endRun (r : Reading) : Reading :=
  { r with run := if r.run = .within then .after else r.run }

/-- Takes a plain word as an input file, or leaves it over. -/
def takePlain (r : Reading) (text : String) : Reading :=
  if r.run = .after then { r with leftOver := r.leftOver ++ [text] }
  else
    { r with run := .within, arguments := { r.arguments with
        files := r.arguments.files ++ [text] } }

/-- Takes the separator, which is left over behind the input files. -/
def takeSeparator (r : Reading) : Reading :=
  if r.run = .after then { r with leftOver := r.leftOver ++ ["--"] } else { r with run := .within }

/-- Takes something unknown. -/
def takeUnknown (r : Reading) (text : String) : Reading :=
  { r.endRun with leftOver := r.leftOver ++ [text] }

/-- Takes an option without a value. -/
def takeFlag (r : Reading) (switch : Switch) : Reading :=
  let a := r.arguments
  { r.endRun with
    arguments :=
      match switch with
      | .progress => { a with progress := true }
      | .verbose => { a with verbose := true }
      | .help => { a with help := true }
      | _ => a }

/-- Takes an option with its value. -/
def takeValue (r : Reading) (switch : Switch) (value : String) : Except ArgumentError Reading := do
  let a := r.arguments
  let arguments ←
    match switch with
    | .format => pure { a with format := some value }
    | .vocabularyName => pure { a with vocabularyName := some value }
    | .vocabularyPackage => pure { a with vocabularyPackage := value }
    | .classPackage => pure { a with classPackage := some value }
    | .vocabularyDir => pure { a with vocabularyDir := some value }
    | .classDir => pure { a with classDir := some value }
    | .includeStart => pure { a with includeStart := some value }
    | .language => pure { a with language := some value }
    | .runtimePackage => pure { a with runtimePackage := value }
    | .target =>
      match targetWords.lookup value with
      | some target => pure { a with target }
      | none => throw (.unknownTarget value)
    | .progress | .verbose | .help => pure a
  return { r.endRun with arguments }

end Reading

/-- The options in one argument: those without values, then one that takes a value with what is
attached to it, or letters that stand for no option. -/
structure Joined where
  flags : List Switch := []
  valued : Option (Switch × Option String) := none
  unknown : Option String := none

/-- An option in front of the others. -/
def Joined.after (switch : Switch) (j : Joined) : Joined := { j with flags := switch :: j.flags }

/-- The options that are joined behind a short one without a value: each letter is one, up to the
first that takes a value.  No sign may stand behind an option without a value. -/
def unjoin (p : Program) (switch : Switch) : List Char → Except ArgumentError Joined
  | [] => .ok { flags := [switch] }
  | c :: rest =>
    if c = '-' then .error (.valueIgnored switch (String.ofList (c :: rest)))
    else
      match p.switch? (String.ofList ['-', c]), rest with
      | none, _ => .ok { flags := [switch], unknown := some (String.ofList ('-' :: c :: rest)) }
      | some next, '=' :: value =>
        if next.value?.isNone then .error (.valueIgnored next (String.ofList value))
        else .ok { flags := [switch], valued := some (next, some (String.ofList value)) }
      | some next, [] =>
        .ok (if next.value?.isNone then { flags := [switch, next] }
          else { flags := [switch], valued := some (next, none) })
      | some next, _ =>
        if next.value?.isNone then (unjoin p next rest).map (Joined.after switch)
        else .ok { flags := [switch], valued := some (next, some (String.ofList rest)) }

/-- The options in one argument. -/
def switchesOf (p : Program) (switch : Switch) (isLong : Bool) (attached : Option Attached) :
    Except ArgumentError Joined :=
  match switch.value?, attached with
  | some _, _ => .ok { valued := some (switch, attached.map (·.text)) }
  | none, none => .ok { flags := [switch] }
  | none, some value =>
    if isLong || value.behindSign || value.text = "" then .error (.valueIgnored switch value.text)
    else unjoin p switch value.text.toList

/-- Reads the arguments one after the other. -/
def readForms (p : Program) (r : Reading) : List Argument → Except ArgumentError Reading
  | [] => .ok r
  | .plain text :: rest => readForms p (r.takePlain text) rest
  | .separator :: rest => readForms p r.takeSeparator rest
  | .unknown text :: rest => readForms p (r.takeUnknown text) rest
  | .switch switch isLong attached :: rest => do
    let joined ← switchesOf p switch isLong attached
    let r := joined.flags.foldl Reading.takeFlag r
    match joined.valued, joined.unknown with
    | none, none => readForms p r rest
    | none, some letters => readForms p (r.takeUnknown letters) rest
    | some (last, some value), _ => readForms p (← r.takeValue last value) rest
    | some (last, none), _ =>
      match rest with
      | .plain value :: more => readForms p (← r.takeValue last value) more
      | _ => .error (.valueMissing last)

/-- **What a command line asks for.** -/
def Arguments.read (p : Program) (texts : List String) : Except ArgumentError Arguments := do
  let r ← readForms p {} (← formsOf p texts)
  if r.leftOver ≠ [] then throw (.unrecognized r.leftOver)
  return r.arguments

/-- The settings that a command line asks for, in a working directory. -/
def Arguments.settings (a : Arguments) (workingDirectory : String) : Settings where
  vocabularyName := a.vocabularyName
  vocabularyPackage := a.vocabularyPackage
  vocabularyDir := (Settings.given? a.vocabularyDir).getD workingDirectory
  classPackage := a.classPackage
  classDir := a.classDir
  includeStart := a.includeStart
  language := a.language
  inputFormat := a.format
  inputFiles := a.files
  runtimePackage := a.runtimePackage
  showProgress := a.progress

end OntoCode.CommandLine
