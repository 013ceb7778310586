/-
What work does to the files.

A workspace holds more than files: a log, the ambiguities that were reported, and the
collections that were looked up.  None of it has a part in what work gives and writes.
`Performs` says that of a piece of work by naming the work on the files alone that it
comes down to: from every faithful workspace it has the same outcome, leaves the same
files, and leaves the workspace faithful.

Every operation of the generators gets such a counterpart here.  What the counterparts
do can then be said without a word about what is remembered.
-/
import OntoCode.Proofs.FileTrees
import OntoCode.Proofs.Remembered

namespace OntoCode

open OntoCode.Generate OntoCode.Naming OntoCode.Ontology OntoCode.Rdf OntoCode.Text

/-! ### Work that leaves the files alone -/

/-- The work neither writes nor removes a file. -/
def LeavesFiles {α : Type} (work : Work α) : Prop :=
  ∀ w : Workspace, (work.run.run w).2.files = w.files

namespace LeavesFiles

variable {α β : Type}

theorem pure (a : α) : LeavesFiles (Pure.pure a : Work α) := fun _ => rfl

theorem settle (outcome : Except Failure α) : LeavesFiles (settle outcome) := fun _ => rfl

theorem bind {work : Work α} {next : α → Work β} (hwork : LeavesFiles work)
    (hnext : ∀ a, LeavesFiles (next a)) : LeavesFiles (work >>= next) := by
  intro w
  have hleft := hwork w
  rw [run_bind]
  cases hres : work.run.run w with
  | mk outcome v =>
      rw [hres] at hleft
      cases outcome with
      | error e => exact hleft
      | ok a => exact (hnext a v).trans hleft

theorem get : LeavesFiles (get : Work Workspace) := fun _ => rfl

theorem modify {change : Workspace → Workspace} (h : ∀ w, (change w).files = w.files) :
    LeavesFiles (modify change) := h

theorem reportAll (notices : List Notice) : LeavesFiles (reportAll notices) := by
  refine modify fun w => ?_
  induction notices generalizing w with
  | nil => rfl
  | cons notice rest ih =>
      rw [List.foldl_cons, ih]
      unfold Workspace.report
      split
      · split <;> rfl
      · rfl

theorem mapM {work : α → Work β} (h : ∀ a, LeavesFiles (work a)) (l : List α) :
    LeavesFiles (l.mapM work) := by
  induction l with
  | nil => exact pure []
  | cons a rest ih =>
      rw [List.mapM_cons]
      exact (h a).bind fun b => ih.bind fun bs => pure (b :: bs)

end LeavesFiles

namespace Ontology

variable (target : Target) (o : Ontology)

theorem recalledCollections_leavesFiles (class_ : Iri) :
    LeavesFiles (recalledCollections target o class_) := by
  refine LeavesFiles.get.bind fun w => ?_
  cases w.collections.lookup class_ with
  | some found => exact .pure found
  | none =>
      exact (LeavesFiles.reportAll _).bind fun _ => (LeavesFiles.settle _).bind fun properties =>
        (LeavesFiles.reportAll _).bind fun _ => (LeavesFiles.settle _).bind fun found =>
          LeavesFiles.bind (.modify fun _ => rfl) fun _ => .pure found

theorem recalledField_leavesFiles (property : Iri) :
    LeavesFiles (recalledField target o property) := by
  unfold recalledField fieldWith
  split
  · exact (recalledCollections_leavesFiles target o _).bind fun _ => .pure _
  · exact .pure _

theorem recalledClass_leavesFiles (class_ : Iri) :
    LeavesFiles (recalledClass target o class_) :=
  (LeavesFiles.reportAll _).bind fun _ => (LeavesFiles.reportAll _).bind fun _ =>
    (LeavesFiles.settle _).bind fun properties =>
      (LeavesFiles.mapM (recalledField_leavesFiles target o) properties).bind fun _ =>
        (recalledCollections_leavesFiles target o class_).bind fun _ => .settle _

end Ontology

namespace Generator

theorem findClasses_leavesFiles (g : Generator) : LeavesFiles g.findClasses :=
  (LeavesFiles.reportAll _).bind fun _ => .pure _

theorem describeClasses_leavesFiles (g : Generator) : LeavesFiles g.describeClasses :=
  g.findClasses_leavesFiles.bind fun iris =>
    (LeavesFiles.mapM (recalledClass_leavesFiles g.target g.ontology) iris).bind fun _ =>
      (LeavesFiles.reportAll _).bind fun _ => (LeavesFiles.settle _).bind fun _ =>
        (LeavesFiles.reportAll _).bind fun _ => .pure _

end Generator

/-! ### Work on files alone -/

/-- Work on files alone that may fail; what it wrote before stays written. -/
abbrev OnFiles := ExceptT Failure (StateM FileTree)

namespace OnFiles

/-- Takes over an outcome that does not depend on the files. -/
def known {α : Type} (outcome : Except Failure α) : OnFiles α := ExceptT.mk (pure outcome)

theorem known_bind {α β : Type} (outcome : Except Failure α) (after : α → Except Failure β) :
    known (outcome >>= after) = known outcome >>= fun a => known (after a) := by
  cases outcome <;> rfl

/-- Refuses a directory that does not exist. -/
def checkDirectory (path : String) : OnFiles Unit := do
  if !(← get).isDirectory path then throw (.outputMissing path)

/-- Writes a file. -/
def save (path text : String) : OnFiles Unit := do
  match (← get).write path text with
  | .ok files => set files
  | .error error => throw (.cannotWrite path error)

/-- Writes files into a directory, and gives their paths. -/
def saveAll (directory : String) (files : List Generator.CodeFile) : OnFiles (List String) :=
  files.mapM fun (name, text) => do
    let path := FileTree.join directory name
    save path text
    return path

end OnFiles

/-- From every faithful workspace the work gives and writes what this work on files does, and it
leaves a faithful workspace. -/
def Performs (target : Target) (o : Ontology) {α : Type} (work : Work α) (effect : OnFiles α) :
    Prop :=
  ∀ w : Workspace, w.Faithful target o →
    (work.run.run w).1 = (effect.run.run w.files).1 ∧
      (work.run.run w).2.files = (effect.run.run w.files).2 ∧
        (work.run.run w).2.Faithful target o

namespace Performs

variable {target : Target} {o : Ontology} {α β : Type}

/-- Work whose outcome is known and that leaves the files alone. -/
theorem of_yields {work : Work α} {outcome : Except Failure α} (h : Yields target o work outcome)
    (hfiles : LeavesFiles work) : Performs target o work (.known outcome) :=
  fun w hw => ⟨(h w hw).1, hfiles w, (h w hw).2⟩

theorem pure (a : α) : Performs target o (Pure.pure a) (Pure.pure a) :=
  fun _ hw => ⟨rfl, rfl, hw⟩

theorem throw (failure : Failure) :
    Performs target o (throw failure : Work α) (throw failure) :=
  fun _ hw => ⟨rfl, rfl, hw⟩

theorem settle (outcome : Except Failure α) :
    Performs target o (settle outcome) (.known outcome) :=
  of_yields (.settle outcome) (.settle outcome)

theorem bind {work : Work α} {effect : OnFiles α} {next : α → Work β} {after : α → OnFiles β}
    (hwork : Performs target o work effect) (hnext : ∀ a, Performs target o (next a) (after a)) :
    Performs target o (work >>= next) (effect >>= after) := by
  intro w hw
  obtain ⟨houtcome, hfiles, hleft⟩ := hwork w hw
  rw [run_bind, run_bind]
  cases hres : work.run.run w with
  | mk result v =>
      cases heff : effect.run.run w.files with
      | mk outcome t =>
          rw [hres] at houtcome hfiles hleft
          rw [heff] at houtcome hfiles
          subst houtcome
          subst hfiles
          cases result with
          | error e => exact ⟨rfl, rfl, hleft⟩
          | ok a => exact hnext a v hleft

/-- After work that gives a known answer, the rest has its own effect. -/
theorem bind_ok {work : Work α} {a : α} {next : α → Work β} {effect : OnFiles β}
    (hwork : Performs target o work (.known (.ok a))) (hnext : Performs target o (next a) effect) :
    Performs target o (work >>= next) effect := by
  intro w hw
  obtain ⟨houtcome, hfiles, hleft⟩ := hwork w hw
  rw [run_bind]
  cases hres : work.run.run w with
  | mk result v =>
      rw [hres] at houtcome hfiles hleft
      replace houtcome : result = .ok a := houtcome
      replace hfiles : v.files = w.files := hfiles
      subst houtcome
      rw [← hfiles]
      exact hnext v hleft

/-- Reports have no effect of their own. -/
theorem reportAll_bind (notices : List Notice) {next : Unit → Work β} {effect : OnFiles β}
    (h : Performs target o (next ()) effect) :
    Performs target o (reportAll notices >>= next) effect :=
  (of_yields (.reportAll notices) (.reportAll notices)).bind_ok h

/-- Steps whose outcomes are known make up work whose outcome is known. -/
theorem bind_known {work : Work α} {outcome : Except Failure α} {next : α → Work β}
    {after : α → Except Failure β} (hwork : Performs target o work (.known outcome))
    (hnext : ∀ a, Performs target o (next a) (.known (after a))) :
    Performs target o (work >>= next) (.known (outcome >>= after)) := by
  have hsteps := hwork.bind hnext
  cases outcome with
  | error e => exact hsteps
  | ok a => exact hsteps

/-- Work that looks at the files first. -/
theorem look {next : Workspace → Work β} {after : FileTree → OnFiles β}
    (h : ∀ w, Performs target o (next w) (after w.files)) :
    Performs target o (get >>= next) (get >>= after) := by
  intro w hw
  rw [run_get_bind, run_get_bind]
  exact h w w hw

theorem mapM {work : α → Work β} {effect : α → OnFiles β}
    (h : ∀ a, Performs target o (work a) (effect a)) (l : List α) :
    Performs target o (l.mapM work) (l.mapM effect) := by
  induction l with
  | nil => exact pure []
  | cons a rest ih =>
      rw [List.mapM_cons, List.mapM_cons]
      exact (h a).bind fun b => ih.bind fun bs => pure (b :: bs)

theorem checkDirectory (path : String) :
    Performs target o (checkDirectory path) (.checkDirectory path) := by
  refine look fun w => ?_
  split
  · exact throw _
  · exact pure ()

theorem saveFile (path text : String) : Performs target o (saveFile path text) (.save path text) := by
  refine reportAll_bind _ (look fun w => ?_)
  cases w.files.write path text with
  | ok files => exact fun v hv => ⟨rfl, rfl, hv⟩
  | error error => exact throw _

theorem saveFiles (directory : String) (files : List Generator.CodeFile) :
    Performs target o (Generator.saveFiles directory files) (.saveAll directory files) := by
  refine mapM (fun file => ?_) files
  exact (saveFile _ _).bind fun _ => pure _

end Performs

namespace OnFiles

/-- The paths and texts of files in a directory. -/
def inDirectory (directory : String) (files : List Generator.CodeFile) : List (String × String) :=
  files.map fun (name, text) => (FileTree.join directory name, text)

/-- Writing one file ends with the file written, or with the files as they were. -/
theorem run_save (path text : String) (t : FileTree) :
    (save path text).run.run t =
      match t.write path text with
      | .ok files => (.ok (), files)
      | .error error => (.error (.cannotWrite path error), t) := by
  unfold save
  rw [run_get_bind]
  cases t.write path text <;> rfl

theorem save_ok {path text : String} {t left : FileTree}
    (h : (save path text).run.run t = (.ok (), left)) : t.write path text = .ok left := by
  rw [run_save] at h
  cases hwrite : t.write path text with
  | ok files =>
      rw [hwrite] at h
      cases h
      rfl
  | error error =>
      rw [hwrite] at h
      cases h

/-- Where writing files ends well, all of them were written. -/
theorem saveAll_ok {directory : String} {files : List Generator.CodeFile} {t left : FileTree}
    {paths : List String} (h : (saveAll directory files).run.run t = (.ok paths, left)) :
    paths = (inDirectory directory files).map (·.1) ∧
      t.writeAll (inDirectory directory files) = .ok left := by
  induction files generalizing t paths with
  | nil =>
      cases h
      exact ⟨rfl, rfl⟩
  | cons file rest ih =>
      obtain ⟨name, text⟩ := file
      rw [saveAll, List.mapM_cons] at h
      obtain ⟨path, written, hfirst, h⟩ := run_bind_eq_ok h
      obtain ⟨others, after, hrest, h⟩ := run_bind_eq_ok h
      obtain ⟨⟨⟩, saved, hsave, hfirst⟩ := run_bind_eq_ok hfirst
      cases hfirst
      cases h
      obtain ⟨rfl, hafter⟩ := ih hrest
      refine ⟨rfl, ?_⟩
      show (t.write (FileTree.join directory name) text >>=
        fun t => t.writeAll (inDirectory directory rest)) = .ok left
      rw [save_ok hsave]
      exact hafter

/-- Writes files into a directory that has to be there, once it is known what they are. -/
def saveIn (directory : String) (files : Except Failure (List Generator.CodeFile)) :
    OnFiles (List String) := do
  checkDirectory directory
  saveAll directory (← known files)

/-- Writes one file into a directory that has to be there, and gives its path. -/
def saveOne (directory : String) (file : Except Failure Generator.CodeFile) : OnFiles String := do
  checkDirectory directory
  let (name, text) ← known file
  let path := FileTree.join directory name
  save path text
  return path

theorem run_checkDirectory (path : String) (t : FileTree) :
    (checkDirectory path).run.run t =
      if t.isDirectory path then (.ok (), t) else (.error (.outputMissing path), t) := by
  unfold checkDirectory
  rw [run_get_bind]
  cases t.isDirectory path <;> rfl

/-- Where files were written into a directory, all of those asked for are there. -/
theorem saveIn_ok {directory : String} {files : Except Failure (List Generator.CodeFile)}
    {t left : FileTree} {paths : List String}
    (h : (saveIn directory files).run.run t = (.ok paths, left)) :
    ∃ found, files = .ok found ∧ paths = (inDirectory directory found).map (·.1) ∧
      t.writeAll (inDirectory directory found) = .ok left := by
  obtain ⟨⟨⟩, checked, hcheck, h⟩ := run_bind_eq_ok h
  obtain ⟨found, known, hknown, h⟩ := run_bind_eq_ok h
  cases hknown
  rw [run_checkDirectory] at hcheck
  split at hcheck
  · cases hcheck
    exact ⟨found, rfl, saveAll_ok h⟩
  · cases hcheck

theorem saveOne_ok {directory : String} {file : Except Failure Generator.CodeFile}
    {t left : FileTree} {path : String}
    (h : (saveOne directory file).run.run t = (.ok path, left)) :
    ∃ found, file = .ok found ∧ path = FileTree.join directory found.1 ∧
      t.writeAll (inDirectory directory [found]) = .ok left := by
  obtain ⟨⟨⟩, checked, hcheck, h⟩ := run_bind_eq_ok h
  obtain ⟨found, known, hknown, h⟩ := run_bind_eq_ok h
  cases hknown
  obtain ⟨⟨⟩, saved, hsave, h⟩ := run_bind_eq_ok h
  cases h
  rw [run_checkDirectory] at hcheck
  split at hcheck
  · cases hcheck
    refine ⟨found, rfl, rfl, ?_⟩
    show (t.write (FileTree.join directory found.1) found.2 >>= fun t => .ok t) = .ok left
    rw [save_ok hsave]
    rfl
  · cases hcheck

end OnFiles

/-! ### The operations of a generator -/

namespace Generator

variable (g : Generator)

/-- The files of classes that were checked, and the one that names them all. -/
def entityFiles (style : Style) (classes : List ClassDescription) :
    Except Failure (List CodeFile) :=
  let extended := classes.map (g.extendable (classes.map (·.iri)))
  let files := extended.map fun c => (g.classFile c, g.classText style c)
  let shared := g.sharedFile style.vocabulary
  if files.any (·.1 = shared) then .error (.factoryFile shared)
  else .ok (files ++ [(shared, g.sharedText style extended)])

/-- The files of the classes and the one that names them all, for someone who keeps no log. -/
def renderedEntities (classes : List ClassDescription) : Except Failure (List CodeFile) := do
  if g.target = .python then checkModules [] classes
  g.entityFiles (← g.style?) classes

/-- The files of generated code, for someone who keeps no log. -/
def rendered (classes : List ClassDescription) : Except Failure (List CodeFile) :=
  match g.target with
  | .java | .python => g.renderedEntities classes
  | .javaScript => do
    let style ← g.style?
    return [(g.sharedFile style.vocabulary, g.sharedText style classes)]

/-- Files none of which may be reserved. -/
def unreserved (directory : String) (reserved : List String) (files : List CodeFile) :
    Except Failure (List CodeFile) :=
  let clashes := sortByTexts (fun n => [n])
    ((files.map (·.1)).eraseDups.filter fun name => reserved.contains name)
  if clashes.isEmpty then .ok files else .error (.overwrites g.title clashes directory)

/-- The directory that a generator writes into. -/
def directoryFor (directory : Option String) : String :=
  (Settings.given? directory).getD g.settings.effectiveClassDir

/-- The files that are generated, if none of them is reserved. -/
def generated (directory : Option String) (reserved : List String) :
    Except Failure (List CodeFile) := do
  g.unreserved (g.directoryFor directory) reserved (← g.rendered (← g.described))

/-- The file of a single class. -/
def emitted (class_ : Iri) : Except Failure CodeFile := do
  let style ← g.style?
  let c := g.extendable g.classesToGenerate (← describe g.target g.ontology class_)
  return (g.classFile c, g.classText style c)

variable {target : Target} {o : Ontology}

/-- The files of the classes are found one by one, with a report about each. -/
theorem classFiles_performs (style : Style) (known : List Iri) (classes : List ClassDescription) :
    Performs target o
      (classes.mapM fun c => do
        reportAll (g.extendableNotices known c ++ [.generating c.name])
        let c := g.extendable known c
        return (g.classFile c, g.classText style c))
      (.known (.ok ((classes.map (g.extendable known)).map fun c =>
        (g.classFile c, g.classText style c)))) := by
  induction classes with
  | nil => exact .pure []
  | cons c rest ih =>
      rw [List.mapM_cons]
      exact Performs.bind_ok (.reportAll_bind _ (.pure _)) (ih.bind_ok (.pure _))

theorem entityFiles_performs (style : Style) (classes : List ClassDescription) :
    Performs target o
      (do
        let known := classes.map (·.iri)
        let files ← classes.mapM fun c => do
          reportAll (g.extendableNotices known c ++ [.generating c.name])
          let c := g.extendable known c
          return (g.classFile c, g.classText style c)
        let shared := g.sharedFile style.vocabulary
        if files.any (·.1 = shared) then throw (.factoryFile shared)
        return files ++ [(shared, g.sharedText style (classes.map (g.extendable known)))])
      (.known (g.entityFiles style classes)) := by
  refine (g.classFiles_performs style _ classes).bind_ok ?_
  dsimp only [entityFiles]
  split
  · exact .throw _
  · exact .pure _

theorem renderEntities_performs (classes : List ClassDescription) :
    Performs target o (g.renderEntities classes) (.known (g.renderedEntities classes)) := by
  have hstyled := (@Performs.settle target o _ g.style?).bind_known fun style =>
    g.entityFiles_performs style classes
  unfold renderEntities renderedEntities
  split
  · exact (Performs.settle _).bind_known fun _ => hstyled
  · exact hstyled

theorem render_performs (classes : List ClassDescription) :
    Performs target o (g.render classes) (.known (g.rendered classes)) := by
  unfold render rendered
  cases g.target with
  | java => exact g.renderEntities_performs classes
  | python => exact g.renderEntities_performs classes
  | javaScript => exact (Performs.settle g.style?).bind_known fun style => .pure _

/-- **Generating comes down to writing the generated files.** -/
theorem generate_performs (directory : Option String) (reserved : List String) :
    Performs g.target g.ontology (g.generate directory reserved)
      (.saveIn (g.directoryFor directory) (g.generated directory reserved)) := by
  refine (Performs.checkDirectory _).bind fun _ => ?_
  simp only [generated, OnFiles.known_bind, bind_assoc]
  have hdescribe : Performs g.target g.ontology g.describeClasses (.known g.described) :=
    .of_yields g.describeClasses_yields g.describeClasses_leavesFiles
  refine hdescribe.bind fun classes => (g.render_performs classes).bind fun files => ?_
  dsimp only [unreserved]
  cases (sortByTexts (fun n => [n])
    ((files.map (·.1)).eraseDups.filter fun name => reserved.contains name)).isEmpty with
  | false => exact .throw _
  | true => exact .saveFiles _ files

/-- **Generating a single class comes down to writing its file.** -/
theorem emitClass_performs (class_ : Iri) (directory : Option String) :
    Performs g.target g.ontology (g.emitClass class_ directory)
      (.saveOne (g.directoryFor directory) (g.emitted class_)) := by
  refine (Performs.checkDirectory _).bind fun _ => ?_
  simp only [emitted, OnFiles.known_bind, bind_assoc]
  have hdescribe : Performs g.target g.ontology (recalledClass g.target g.ontology class_)
      (.known (describe g.target g.ontology class_)) :=
    .of_yields (recalledClass_yields g.target g.ontology class_)
      (recalledClass_leavesFiles g.target g.ontology class_)
  have hfind : Performs g.target g.ontology g.findClasses (.known (.ok g.classesToGenerate)) :=
    Performs.reportAll_bind _ (.pure _)
  refine (Performs.settle g.style?).bind fun style => hdescribe.bind fun c => hfind.bind_ok ?_
  exact .reportAll_bind _ ((Performs.saveFile _ _).bind fun _ => .pure _)

end Generator

namespace Vocabulary

variable (language : VocabularyLanguage) (settings : Settings) (o : Ontology)

/-- The file of a vocabulary in some style. -/
def file (style : Style) : Generator.CodeFile :=
  let space := namespaceOf o.graph
  (Generate.Vocabulary.fileName language style.vocabulary,
    textOf (Generate.Vocabulary.lines language style space (o.prefixes.label? space)
      (Generate.Vocabulary.constants language o).1))

/-- The file of the vocabulary, for someone who keeps no log. -/
def rendered : Except Failure Generator.CodeFile := do
  let name ← name? settings
  return file language o ⟨settings, name, settings.indent⟩

/-- The directory that the vocabulary is written into. -/
def directoryFor (directory : Option String) : String :=
  (Settings.given? directory).getD settings.vocabularyDir

variable {target : Target} {p : Ontology}

theorem terms_performs :
    Performs target p (terms language o)
      (.known (.ok (Generate.Vocabulary.constants language o).1)) :=
  .reportAll_bind _ (.pure _)

theorem render_performs :
    Performs target p (render language settings o) (.known (rendered language settings o)) :=
  (Performs.settle _).bind_known fun _ => (terms_performs language o).bind_ok (.pure _)

/-- **Generating the vocabulary comes down to writing its file.** -/
theorem generate_performs (directory : Option String) :
    Performs target p (generate language settings o directory)
      (.saveOne (directoryFor settings directory) (rendered language settings o)) := by
  refine (Performs.checkDirectory _).bind fun _ => ?_
  have hwrite : Performs target p
      (do
        let (file, text) ← render language settings o
        let path := FileTree.join (directoryFor settings directory) file
        saveFile path text
        return path)
      (do
        let (file, text) ← OnFiles.known (rendered language settings o)
        let path := FileTree.join (directoryFor settings directory) file
        OnFiles.save path text
        return path) :=
    (render_performs language settings o).bind fun file =>
      (Performs.saveFile _ _).bind fun _ => .pure _
  cases hname : name? settings with
  | error e =>
      -- The name is looked up before the text is made, which would fail in the same way.
      have hrendered : rendered language settings o = .error e := by
        rw [rendered, hname]
        rfl
      rw [hrendered]
      exact .throw e
  | ok name => exact (Performs.settle (.ok name)).bind_ok (.reportAll_bind _ hwrite)

end Vocabulary

end OntoCode
