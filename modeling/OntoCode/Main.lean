/-
The program that generates code.

It looks at the files and directories that the arguments mention, runs on what it saw,
shows what the run reports, and writes the files that the run changed.
-/
import OntoCode.CommandLine.Run

namespace OntoCode

/-- The paths that the arguments mention: the documents and the directories to write to. -/
def mentionedPaths (here : String) (args : List String) : List String :=
  match CommandLine.Arguments.read CommandLine.anyProgram args with
  | .ok a =>
    let s := a.settings here
    s.inputFiles ++ [s.vocabularyDir, s.effectiveClassDir]
  | .error _ => []

/-- The tree with what is found at a place: a directory, or a file with its text. -/
def observePlace (tree : FileTree) (place : Place) : IO FileTree := do
  let path := (← IO.currentDir) / ("/" ++ "/".intercalate place)
  if ← path.isDir then return tree.addDirectory place
  else if ← path.pathExists then
    return tree.addFile place (String.fromUTF8? (← IO.FS.readBinFile path))
  else return tree

/-- The tree with the directories inside a directory, which files cannot replace. -/
def observeInside (tree : FileTree) (place : Place) : IO FileTree := do
  let path := (← IO.currentDir) / ("/" ++ "/".intercalate place)
  if ← path.isDir then
    (← path.readDir).foldlM (fun tree entry => do
      if ← entry.path.isDir then return tree.addDirectory (place ++ [entry.fileName])
      else return tree) tree
  else return tree

/-- The tree with what is found along a path. -/
def observe (tree : FileTree) (path : String) : IO FileTree := do
  let parts := FileTree.parts (tree.absolute path)
  let tree ← (List.range (parts.length + 1)).foldlM (fun tree n =>
    observePlace tree (FileTree.normalize (parts.take n))) tree
  observeInside tree (FileTree.normalize parts)

/-- The files and directories that some paths mention. -/
def observeAll (paths : List String) : IO FileTree := do
  let start := FileTree.normalize (FileTree.parts (← IO.currentDir).toString)
  paths.foldlM observe (({ root := "", start } : FileTree).addDirectory start)

end OntoCode

open OntoCode in
/-- Generates code as the arguments say, and gives the exit status. -/
def main (args : List String) : IO UInt32 := do
  let before ← observeAll (mentionedPaths (← IO.currentDir).toString args)
  let outcome := CommandLine.run CommandLine.anyProgram args before
  for line in outcome.outputLines do IO.println line
  for line in outcome.errorLines do IO.eprintln line
  for (path, text) in before.changes outcome.files do
    IO.FS.writeFile ("/" ++ path) text
  return outcome.status.toUInt32
