/-
The files of a run.

A path is walked part by part from the working directory, or from the root where it
starts there, and every part but the last has to be a directory.  What lies outside of
the root is not seen.  A root with an empty path is the one of all files, where a step
back leads nowhere.

Paths are compared by how they are spelled from the root on, without a look at what is
there.  Steps that lead nowhere or back are left out, and so are slashes that follow
others.  Only two slashes at the very start stay two: some systems take what follows
them for the name of another machine.
-/
import OntoCode.Schema.Failure

namespace OntoCode

/-- The parts of the path of a file or directory, from the root on. -/
abbrev Place := List String

/-- The files below a root.  A file whose bytes are no text has no text. -/
structure FileTree where
  /-- The path of the root itself. -/
  root : String
  /-- The working directory, which relative paths start from. -/
  start : Place := []
  directories : List Place := []
  files : List (Place × Option String) := []

namespace FileTree

/-- The parts of a path, the empty ones included. -/
def parts (path : String) : List String := (path.toList.splitOn '/').map String.ofList

/-- The path of the working directory. -/
def workingDirectory (t : FileTree) : String :=
  if t.root = "" && t.start = [] then "/" else "/".intercalate (t.root :: t.start)

/-- The parts of a path from the root on, unless it starts outside of the root. -/
def below? (t : FileTree) (path : String) : Option (List String) :=
  if path = t.root then some []
  else if path.startsWith (t.root ++ "/") then
    some (parts (String.ofList (path.toList.drop (t.root.length + 1))))
  else if path.startsWith "/" then none
  else some (t.start ++ parts path)

/-- Whether a place is a directory. -/
def hasDirectory (t : FileTree) (place : Place) : Bool := place = [] || t.directories.contains place

/-- Whether a place is a file. -/
def hasFile (t : FileTree) (place : Place) : Bool := t.files.any (·.1 = place)

/-- The place that parts lead to from a directory, if each part before the last is one. -/
def walk? (t : FileTree) (here : Place) : List String → Option Place
  | [] => some here
  | part :: rest =>
    if !t.hasDirectory here then none
    else if part = "" || part = "." then walk? t here rest
    else if part = ".." then
      match here with
      | [] => if t.root = "" then walk? t here rest else none
      | _ => walk? t here.dropLast rest
    else walk? t (here ++ [part]) rest

/-- The place that a path leads to. -/
def place? (t : FileTree) (path : String) : Option Place :=
  if path = "" then none else (t.below? path).bind (t.walk? [])

/-- Whether a path leads to a directory. -/
def isDirectory (t : FileTree) (path : String) : Bool := (t.place? path).any t.hasDirectory

/-- The place of the file that a path leads to. -/
def filePlace? (t : FileTree) (path : String) : Option Place :=
  (t.place? path).filter t.hasFile

/-- Whether a path leads to a file. -/
def isFile (t : FileTree) (path : String) : Bool := (t.filePlace? path).isSome

/-- The text of a file, if the file is there and its bytes are text. -/
def read? (t : FileTree) (path : String) : Option String := do
  let place ← t.filePlace? path
  let (_, text) ← t.files.find? (·.1 = place)
  text

/-- Whether some part of a path before the last is a file. -/
def passesFile (t : FileTree) (here : Place) : List String → Bool
  | [] | [_] => false
  | part :: rest =>
    let next := if part = "" || part = "." then here else if part = ".." then here.dropLast
      else here ++ [part]
    t.hasFile next || passesFile t next rest

/-- Puts a text into a place. -/
def put (t : FileTree) (place : Place) (text : String) : FileTree :=
  if t.hasFile place then
    { t with files := t.files.map fun f => if f.1 = place then (place, some text) else f }
  else { t with files := t.files ++ [(place, some text)] }

/-- Writes a file.  Its directory has to be there, and its path must not be a directory. -/
def write (t : FileTree) (path text : String) : Except FileError FileTree :=
  match t.place? path with
  | some place =>
    if t.hasDirectory place then .error .isADirectory
    else if t.hasDirectory place.dropLast then .ok (t.put place text)
    else if t.hasFile place.dropLast then .error .notADirectory
    else .error .noSuchFile
  | none =>
    if ((t.below? path).map (t.passesFile [])).getD false then .error .notADirectory
    else .error .noSuchFile

/-- Adds a directory with those above it. -/
def addDirectory (t : FileTree) (place : Place) : FileTree :=
  (List.range place.length).foldl (fun t n =>
    let above := place.take (n + 1)
    if t.hasDirectory above then t else { t with directories := t.directories ++ [above] }) t

/-- Adds a file with the directories above it. -/
def addFile (t : FileTree) (place : Place) (text : Option String) : FileTree :=
  let t := t.addDirectory place.dropLast
  { t with files := t.files.filter (·.1 ≠ place) ++ [(place, text)] }

/-- The files that are new or have another text than before, with their paths. -/
def changes (before after : FileTree) : List (String × String) :=
  after.files.filterMap fun (place, text) =>
    match text with
    | some text =>
      if before.files.contains (place, some text) then none
      else some ("/".intercalate place, text)
    | none => none

/-- The path of a file in a directory; a file name that starts at the root stands for itself. -/
def join (directory file : String) : String :=
  if file.startsWith "/" then file
  else if directory = "" || directory.endsWith "/" then directory ++ file
  else directory ++ "/" ++ file

/-- The parts of a path without the steps that lead nowhere or back. -/
def normalize (parts : List String) : List String :=
  parts.foldl (fun here part =>
    if part = "" || part = "." then here else if part = ".." then here.dropLast
    else here ++ [part]) []

/-- A path from the root on. -/
def absolute (t : FileTree) (path : String) : String :=
  if path ≠ "" && (path = t.root || path.startsWith (t.root ++ "/") || path.startsWith "/") then
    path
  else join t.workingDirectory path

/-- Whether a path from the root on starts with two slashes, and not with more. -/
def startsTwice (t : FileTree) (path : String) : Bool :=
  (t.absolute path).startsWith "//" && !(t.absolute path).startsWith "///"

/-- Whether two paths are spelled alike from the root on, apart from their detours. -/
def sameSpelling (t : FileTree) (a b : String) : Bool :=
  t.startsTwice a = t.startsTwice b &&
    normalize (parts (t.absolute a)) = normalize (parts (t.absolute b))

end FileTree

end OntoCode
