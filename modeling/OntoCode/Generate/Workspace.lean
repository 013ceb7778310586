/-
What a run changes: the files, the log, and what it remembers.

Two things are remembered.  That a property has several domains or ranges is reported
once, and the inverse collections of a class are looked up once: later questions get
the first answer.  Failing keeps what happened before.
-/
import OntoCode.Files.Tree
import OntoCode.Schema.Class

namespace OntoCode

open OntoCode.Rdf OntoCode.Ontology

/-- What a run changes. -/
structure Workspace where
  files : FileTree
  /-- What was reported, oldest first. -/
  log : List Notice := []
  /-- The subjects and predicates whose several types were reported. -/
  ambiguous : List (Term × Iri) := []
  /-- The inverse collections that were looked up. -/
  collections : List (Iri × List InverseCollection) := []

/-- Work that may fail; what it did before stays done. -/
abbrev Work := ExceptT Failure (StateM Workspace)

namespace Workspace

/-- Reports what happened.  Several types of one subject and predicate are reported once. -/
def report (w : Workspace) (notice : Notice) : Workspace :=
  match notice with
  | .severalTypes subject predicate _ =>
    if w.ambiguous.contains (subject, predicate) then w
    else
      { w with log := w.log ++ [notice], ambiguous := w.ambiguous ++ [(subject, predicate)] }
  | _ => { w with log := w.log ++ [notice] }

end Workspace

/-- Reports what happened, in order. -/
def reportAll (notices : List Notice) : Work Unit :=
  modify fun w => notices.foldl Workspace.report w

/-- Takes over the outcome of something that changes nothing. -/
def settle {α : Type} (outcome : Except Failure α) : Work α := ExceptT.mk (pure outcome)

/-- Refuses a directory that does not exist. -/
def checkDirectory (path : String) : Work Unit := do
  if !(← get).files.isDirectory path then throw (.outputMissing path)

/-- Writes a file. -/
def saveFile (path text : String) : Work Unit := do
  reportAll [.writing path]
  match (← get).files.write path text with
  | .ok files => modify fun w => { w with files }
  | .error error => throw (.cannotWrite path error)

namespace Ontology

/-- The collections that a class keeps: the first answer is remembered. -/
def recalledCollections (target : Target) (o : Ontology) (class_ : Iri) :
    Work (List InverseCollection) := do
  match (← get).collections.lookup class_ with
  | some found => return found
  | none =>
    reportAll (propertiesNotices o.graph .range)
    let properties ← settle (propertiesOf o.graph class_ .range)
    reportAll (inverseNotices o.graph properties)
    let found ← settle (inverseCollections target o class_)
    modify fun w => { w with collections := w.collections ++ [(class_, found)] }
    return found

/-- The description of a property, with the collection at its other end. -/
def recalledField (target : Target) (o : Ontology) (property : Iri) : Work Field :=
  fieldWith (recalledCollections target o) (propertyOf target o property)

/-- The description of a class, with reports. -/
def recalledClass (target : Target) (o : Ontology) (class_ : Iri) : Work ClassDescription := do
  reportAll (superclassNotices o.graph (.iri class_))
  reportAll (propertiesNotices o.graph .domain)
  let properties ← settle (propertiesOf o.graph class_ .domain)
  let fields ← properties.mapM (recalledField target o)
  let inverses ← recalledCollections target o class_
  settle (assemble o class_ fields inverses).checked

end Ontology

end OntoCode
