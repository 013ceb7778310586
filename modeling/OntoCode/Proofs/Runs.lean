/-
What a run of a program leaves behind.

A run writes at the very end.  Loading and describing only report, and from the files
as they are found `planned` gives what is going to be written, or the reason why that
is nothing.  Without a plan the run fails and has changed nothing.  With one it ends
well: every file of the plan can be written, and none is written again, unless the
vocabulary takes the place of another file.

A tree of files is all that there is to the outside.  Whether one may write there, how
much room is left and how long a name can be have no part in it.
-/
import OntoCode.CommandLine.Run
import OntoCode.Proofs.Plans

namespace OntoCode

open OntoCode.Generate OntoCode.Naming OntoCode.Ontology OntoCode.Rdf OntoCode.Text
open OntoCode.FileTree OntoCode.OnFiles

/-! ### Work that reports -/

/-- The work does nothing but report. -/
def OnlyReports {α : Type} (work : Work α) : Prop :=
  ∀ w, ∃ notices : List Notice, (work.run.run w).2 = notices.foldl Workspace.report w

namespace OnlyReports

variable {α β : Type}

theorem pure (a : α) : OnlyReports (Pure.pure a : Work α) := fun _ => ⟨[], rfl⟩

theorem settle (outcome : Except Failure α) : OnlyReports (settle outcome) := fun _ => ⟨[], rfl⟩

theorem throw (failure : Failure) : OnlyReports (throw failure : Work α) := fun _ => ⟨[], rfl⟩

theorem get : OnlyReports (get : Work Workspace) := fun _ => ⟨[], rfl⟩

theorem reportAll (notices : List Notice) : OnlyReports (reportAll notices) :=
  fun _ => ⟨notices, rfl⟩

theorem bind {work : Work α} {next : α → Work β} (hwork : OnlyReports work)
    (hnext : ∀ a, OnlyReports (next a)) : OnlyReports (work >>= next) := by
  intro w
  obtain ⟨first, hfirst⟩ := hwork w
  rw [run_bind]
  cases hres : work.run.run w with
  | mk outcome v =>
      rw [hres] at hfirst
      cases outcome with
      | error e => exact ⟨first, hfirst⟩
      | ok a =>
          obtain ⟨second, hsecond⟩ := hnext a v
          exact ⟨first ++ second, by rw [List.foldl_append, ← hfirst]; exact hsecond⟩

theorem foldlM {step : β → α → Work β} (h : ∀ b a, OnlyReports (step b a)) (l : List α) (b : β) :
    OnlyReports (l.foldlM step b) := by
  induction l generalizing b with
  | nil => exact pure b
  | cons a rest ih =>
      rw [List.foldlM_cons]
      exact (h b a).bind fun b => ih b

/-- Such work leaves the files alone. -/
theorem leavesFiles {work : Work α} (h : OnlyReports work) : LeavesFiles work := by
  intro w
  obtain ⟨notices, hnotices⟩ := h w
  rw [hnotices]
  exact LeavesFiles.reportAll notices w

/-- Such work keeps a workspace faithful. -/
theorem faithful {work : Work α} (h : OnlyReports work) {target : Target} {o : Ontology}
    {w : Workspace} (hw : w.Faithful target o) : Workspace.Faithful (work.run.run w).2 target o := by
  obtain ⟨notices, hnotices⟩ := h w
  rw [hnotices]
  exact (Yields.reportAll notices w hw).2

end OnlyReports

namespace Ontology

theorem load_onlyReports (o : Ontology) (path : String) (format : Option String) :
    OnlyReports (o.load path format) := by
  refine OnlyReports.get.bind fun w => ?_
  dsimp only
  split
  · exact .throw _
  · refine (OnlyReports.settle _).bind fun _ => ?_
    split
    · exact .throw _
    · exact (OnlyReports.reportAll _).bind fun _ => .pure _

theorem ofFiles_onlyReports (s : Settings) (paths : List String) :
    OnlyReports (ofFiles s paths) :=
  .foldlM (fun o path => load_onlyReports o path s.inputFormat) paths _

/-- A document stops loading at half a character only if it has an escape of one. -/
theorem load_halfCharacter {o : Ontology} {path half : String} {format : Option String}
    {w : Workspace} (h : ((o.load path format).run.run w).1 = .error (.halfCharacter half)) :
    half = path ∧ ∃ text, w.files.read? path = some text ∧ escapesHalf text.toList = true := by
  unfold load at h
  rw [run_get_bind] at h
  dsimp only at h
  split at h
  · cases h
  · cases hformat : checkFormat (Settings.given? format) with
    | error failure =>
        rw [run_bind, hformat] at h
        obtain rfl : failure = .halfCharacter half := Except.error.inj h
        unfold checkFormat at hformat
        split at hformat
        · split at hformat <;> cases hformat
        · cases hformat
    | ok done =>
        have hchecked : (OntoCode.settle (.ok done) : Work Unit).run.run w = (.ok done, w) := rfl
        rw [hformat, run_bind_ok hchecked] at h
        split at h
        · cases hread : w.files.read? path with
          | none =>
              rw [hread] at h
              cases h
          | some text =>
              cases hhalf : escapesHalf text.toList with
              | false =>
                  simp only [hread, Option.map_some, Option.any_some, hhalf] at h
                  cases h
              | true =>
                  simp only [hread, Option.map_some, Option.any_some, hhalf, if_true] at h
                  cases h
                  exact ⟨rfl, text, rfl, hhalf⟩
        · cases h

theorem loadAll_halfCharacter {o : Ontology} {paths : List String} {half : String}
    {format : Option String} {w : Workspace}
    (h : ((o.loadAll paths format).run.run w).1 = .error (.halfCharacter half)) :
    half ∈ paths ∧ ∃ text, w.files.read? half = some text ∧ escapesHalf text.toList = true := by
  unfold loadAll at h
  induction paths generalizing o w with
  | nil => cases h
  | cons path rest ih =>
      rw [List.foldlM_cons, run_bind] at h
      have hfiles := (load_onlyReports o path format).leavesFiles w
      cases hload : (o.load path format).run.run w with
      | mk outcome v =>
          rw [hload] at h hfiles
          cases outcome with
          | error failure =>
              obtain rfl : failure = .halfCharacter half := Except.error.inj h
              obtain ⟨rfl, htext⟩ := load_halfCharacter (congrArg Prod.fst hload)
              exact ⟨List.mem_cons_self, htext⟩
          | ok loaded =>
              obtain ⟨hin, htext⟩ := ih h
              rw [hfiles] at htext
              exact ⟨List.mem_cons_of_mem path hin, htext⟩

end Ontology

/-! ### Writing that ends well -/

namespace OnFiles

variable {t left : FileTree} {directory : String}

theorem run_save_ok {path text : String} (h : t.write path text = .ok left) :
    (save path text).run.run t = (.ok (), left) := by
  rw [run_save, h]

theorem run_saveAll {files : List Generator.CodeFile}
    (h : t.writeAll (inDirectory directory files) = .ok left) :
    ∃ paths, (saveAll directory files).run.run t = (.ok paths, left) := by
  induction files generalizing t with
  | nil =>
      cases h
      exact ⟨[], rfl⟩
  | cons file rest ih =>
      obtain ⟨name, text⟩ := file
      obtain ⟨first, hfirst, hrest⟩ := bind_eq_ok.mp h
      obtain ⟨paths, hpaths⟩ := ih hrest
      have hsave : (do
          save (join directory name) text
          return join directory name : OnFiles String).run.run t =
            (.ok (join directory name), first) := by
        rw [run_bind_ok (run_save_ok hfirst)]
        rfl
      refine ⟨join directory name :: paths, ?_⟩
      rw [saveAll, List.mapM_cons, run_bind_ok hsave]
      show (saveAll directory rest >>= fun others =>
        pure (join directory name :: others)).run.run first = _
      rw [run_bind_ok hpaths]
      rfl

theorem run_saveIn {files : List Generator.CodeFile} (hdirectory : t.isDirectory directory = true)
    (h : t.writeAll (inDirectory directory files) = .ok left) :
    ∃ paths, (saveIn directory (.ok files)).run.run t = (.ok paths, left) := by
  obtain ⟨paths, hpaths⟩ := run_saveAll h
  have hcheck : (checkDirectory directory).run.run t = (.ok (), t) := by
    rw [run_checkDirectory, if_pos hdirectory]
  refine ⟨paths, ?_⟩
  unfold saveIn
  rw [run_bind_ok hcheck]
  exact hpaths

theorem run_saveOne {file : Generator.CodeFile} (hdirectory : t.isDirectory directory = true)
    (h : t.writeAll (inDirectory directory [file]) = .ok left) :
    ∃ path, (saveOne directory (.ok file)).run.run t = (.ok path, left) := by
  obtain ⟨name, text⟩ := file
  obtain ⟨first, hfirst, hrest⟩ := bind_eq_ok.mp h
  cases hrest
  have hcheck : (checkDirectory directory).run.run t = (.ok (), t) := by
    rw [run_checkDirectory, if_pos hdirectory]
  refine ⟨join directory name, ?_⟩
  unfold saveOne
  rw [run_bind_ok hcheck]
  show (save (join directory name) text >>= fun _ => pure (join directory name)).run.run t = _
  rw [run_bind_ok (run_save_ok hfirst)]
  rfl

/-- Nothing is written without knowing what. -/
theorem run_saveIn_error (hdirectory : t.isDirectory directory = true) (failure : Failure) :
    (saveIn directory (.error failure)).run.run t = (.error failure, t) := by
  have hcheck : (checkDirectory directory).run.run t = (.ok (), t) := by
    rw [run_checkDirectory, if_pos hdirectory]
  unfold saveIn
  rw [run_bind_ok hcheck]
  rfl

end OnFiles

/-! ### Following a plan -/

/-- Generates all files of a generator. -/
def CommandLine.generateFor (g : Generator) : Work (List String) :=
  match g.vocabularyLanguage? with
  | some language => generateEntities language g
  | none => g.generate none []

namespace OnFiles

/-- Generates classes and a vocabulary of a language. -/
def generateEntities (language : VocabularyLanguage) (g : Generator) : OnFiles (List String) := do
  let s := g.settings
  let name ← known (OntoCode.Vocabulary.name? s)
  let shared := (← get).sameSpelling s.vocabularyDir s.effectiveClassDir
  let paths ← saveIn s.effectiveClassDir
    (g.generated none (if shared then [Generate.Vocabulary.fileName language name] else []))
  return paths ++
    [← saveOne s.vocabularyDir (OntoCode.Vocabulary.rendered language s g.ontology)]

/-- Generates all files of a generator. -/
def generateFor (g : Generator) : OnFiles (List String) :=
  match g.vocabularyLanguage? with
  | some language => generateEntities language g
  | none => saveIn g.settings.effectiveClassDir (g.generated none [])

variable {language : VocabularyLanguage} {g : Generator} {t : FileTree}
  {texts : List (String × String)}

theorem generateEntities_performs :
    Performs g.target g.ontology (CommandLine.generateEntities language g)
      (generateEntities language g) :=
  (Performs.settle _).bind fun _ => .look fun _ => (g.generate_performs _ _).bind fun _ =>
    (OntoCode.Vocabulary.generate_performs language g.settings g.ontology none).bind fun _ =>
      .pure _

theorem generateFor_performs :
    Performs g.target g.ontology (CommandLine.generateFor g) (generateFor g) := by
  unfold CommandLine.generateFor generateFor
  cases g.vocabularyLanguage? with
  | some language => exact generateEntities_performs
  | none => exact g.generate_performs none []

theorem run_known {α : Type} (outcome : Except Failure α) (t : FileTree) :
    (known outcome).run.run t = (outcome, t) := rfl

/-- Without a plan nothing is written. -/
theorem run_generateEntities_error {failure : Failure}
    (hclasses : t.isDirectory g.settings.effectiveClassDir = true)
    (h : g.plannedEntities language t = .error failure) :
    (generateEntities language g).run.run t = (.error failure, t) := by
  unfold generateEntities
  dsimp only
  rcases bind_eq_error.mp h with hname | ⟨name, hname, h⟩
  · rw [hname]
    rfl
  · rw [hname, run_bind_ok (run_known (.ok name) t), run_get_bind]
    rcases bind_eq_error.mp h with hentities | ⟨entities, -, h⟩
    · rw [hentities, run_bind, run_saveIn_error hclasses]
    · -- The vocabulary has a name, so that its file is known.
      rcases bind_eq_error.mp h with hrendered | ⟨vocabulary, -, h⟩
      · rw [OntoCode.Vocabulary.rendered, hname] at hrendered
        cases hrendered
      · cases h

theorem run_generateEntities_ok
    (hclasses : t.isDirectory g.settings.effectiveClassDir = true)
    (hvocabulary : t.isDirectory g.settings.vocabularyDir = true)
    (h : g.plannedEntities language t = .ok texts) (hwritable : ∀ file ∈ texts, t.CanWrite file.1) :
    ∃ paths left, (generateEntities language g).run.run t = (.ok paths, left) ∧
      Wrote t texts left := by
  obtain ⟨name, hname, h⟩ := bind_eq_ok.mp h
  obtain ⟨entities, hentities, h⟩ := bind_eq_ok.mp h
  obtain ⟨vocabulary, hrendered, h⟩ := bind_eq_ok.mp h
  cases h
  obtain ⟨left, hleft, hwrote⟩ := writeAll_ok hwritable
  obtain ⟨middle, hmiddle, hlast⟩ := bind_eq_ok.mp
    ((List.foldlM_append (m := Except FileError)).symm.trans hleft)
  obtain ⟨between, hbetween, hfirst⟩ := writeAll_ok fun file hfile =>
    hwritable file (List.mem_append_left _ hfile)
  obtain rfl : between = middle := Except.ok.inj (hbetween.symm.trans hmiddle)
  obtain ⟨paths, hpaths⟩ := run_saveIn hclasses hbetween
  obtain ⟨path, hpath⟩ := run_saveOne (hfirst.directories.isDirectory _ ▸ hvocabulary) hlast
  refine ⟨paths ++ [path], left, ?_, hwrote⟩
  unfold generateEntities
  dsimp only
  rw [hname, hrendered, run_bind_ok (run_known (.ok name) t), run_get_bind, hentities,
    run_bind_ok hpaths, run_bind_ok hpath]
  rfl

/-- **Without a plan nothing is written.** -/
theorem run_generateFor_error {failure : Failure}
    (hclasses : t.isDirectory g.settings.effectiveClassDir = true)
    (h : g.planned t = .error failure) : (generateFor g).run.run t = (.error failure, t) := by
  unfold Generator.planned at h
  unfold generateFor
  cases hlanguage : g.vocabularyLanguage? with
  | some language =>
      rw [hlanguage] at h
      exact run_generateEntities_error hclasses h
  | none =>
      rw [hlanguage] at h
      rcases bind_eq_error.mp h with hfound | ⟨found, -, h⟩
      · show (saveIn _ (g.generated none [])).run.run t = _
        rw [hfound, run_saveIn_error hclasses]
      · cases h

/-- **A plan is followed to its end.** -/
theorem run_generateFor_ok (hclasses : t.isDirectory g.settings.effectiveClassDir = true)
    (hvocabulary : g.vocabularyLanguage?.isSome → t.isDirectory g.settings.vocabularyDir = true)
    (h : g.planned t = .ok texts) (hwritable : ∀ file ∈ texts, t.CanWrite file.1) :
    ∃ paths left, (generateFor g).run.run t = (.ok paths, left) ∧ Wrote t texts left := by
  unfold Generator.planned at h
  unfold generateFor
  cases hlanguage : g.vocabularyLanguage? with
  | some language =>
      rw [hlanguage] at h hvocabulary
      exact run_generateEntities_ok hclasses (hvocabulary rfl) h hwritable
  | none =>
      rw [hlanguage] at h
      obtain ⟨found, hfound, h⟩ := bind_eq_ok.mp h
      cases h
      obtain ⟨left, hleft, hwrote⟩ := writeAll_ok hwritable
      obtain ⟨paths, hpaths⟩ := run_saveIn hclasses hleft
      exact ⟨paths, left, by rw [hfound]; exact hpaths, hwrote⟩

end OnFiles

/-- If the vocabulary takes the place of a file, this file alone is lost. -/
theorem Generator.Plans.overwritten {g : Generator} {t after : FileTree}
    {classes : List ClassDescription} {style : Style} {texts : List (String × String)}
    (hplans : g.Plans t classes style texts) (hwrote : Wrote t texts after)
    (htakes : g.Overwrites t style classes) :
    ∃ lost ∈ g.classArtifacts style classes,
      (∀ last ∈ g.vocabularyArtifacts style, after.read? lost.1 = some last.2) ∧
        ∀ file ∈ g.artifacts style classes, file ≠ lost → after.read? file.1 = some file.2 := by
  obtain ⟨language, hlanguage, -⟩ := id htakes
  obtain ⟨lost, hlost, htaken⟩ := hplans.taken htakes
  obtain ⟨last, hlast⟩ : ∃ last, g.vocabularyArtifacts style = [last] :=
    ⟨_, Generator.vocabularyArtifacts_some hlanguage⟩
  have hsplit : texts = g.classArtifacts style classes ++ [last] := by
    rw [hplans.artifacts, Generator.artifacts, hlast]
  have htakenLast : t.place? last.1 = t.place? lost.1 := htaken last (by rw [hlast]; simp)
  have hwritten : after.read? last.1 = some last.2 :=
    hwrote.written _ last [] hsplit (by simp)
  refine ⟨lost, hlost, fun other hother => ?_, fun file hfile hne => ?_⟩
  · rw [hlast, List.mem_singleton] at hother
    rw [hother, ← hwritten]
    refine read?_congr ?_
    rw [hwrote.directories.place?, hwrote.directories.place?, htakenLast]
  · rw [← hplans.artifacts, hsplit, List.mem_append, List.mem_singleton] at hfile
    rcases hfile with hin | rfl
    · have hunlike : ∀ other ∈ g.classArtifacts style classes,
          t.place? other.1 = t.place? file.1 → other = file :=
        fun other hother => List.inj_on_of_nodup_map hplans.beside hother hin
      have hbeside := hplans.beside
      obtain ⟨earlier, later, hclasses⟩ := List.append_of_mem hin
      refine hwrote.written earlier file (later ++ [last]) (by simp [hsplit, hclasses]) ?_
      intro other hother heq
      rcases List.mem_append.mp hother with hlater | hend
      · rw [hclasses, List.map_append, List.map_cons, List.nodup_append, List.nodup_cons]
          at hbeside
        exact hbeside.2.1.1 (List.mem_map.mpr ⟨other, hlater, heq⟩)
      · rw [List.mem_singleton.mp hend, htakenLast] at heq
        exact hne (hunlike lost hlost heq).symm
    · exact hwritten

namespace CommandLine

variable {target : Target} {s : Settings} {t : FileTree} {texts : List (String × String)}

/-- The ontology that a run loads, from the files as they are found. -/
def loaded (s : Settings) (t : FileTree) : Except Failure Ontology :=
  ((Ontology.ofFiles s s.inputFiles).run.run { files := t }).1

/-- Refuses directories to write to that do not exist. -/
def checkDirectories (target : Target) (s : Settings) (t : FileTree) : Except Failure Unit :=
  if t.isDirectory s.effectiveClassDir = false then .error (.outputMissing s.effectiveClassDir)
  else if target ≠ .javaScript ∧ t.isDirectory s.vocabularyDir = false then
    .error (.outputMissing s.vocabularyDir)
  else .ok ()

/-- **The paths and texts that a run is going to write,** from the files as they are found. -/
def planned (target : Target) (s : Settings) (t : FileTree) :
    Except Failure (List (String × String)) := do
  checkDirectories target s t
  (Generator.make target s (← loaded s t)).planned t

theorem checkDirectories_ok (h : checkDirectories target s t = .ok ()) :
    t.isDirectory s.effectiveClassDir = true ∧
      (target ≠ .javaScript → t.isDirectory s.vocabularyDir = true) := by
  unfold checkDirectories at h
  split at h
  · cases h
  · rename_i hclasses
    split at h
    · cases h
    · rename_i hvocabulary
      refine ⟨Bool.eq_true_of_not_eq_false hclasses, fun htarget => ?_⟩
      exact Bool.eq_true_of_not_eq_false fun hnone => hvocabulary ⟨htarget, hnone⟩

theorem run_checkDirectory (path : String) (w : Workspace) :
    (checkDirectory path).run.run w =
      if w.files.isDirectory path then (.ok (), w) else (.error (.outputMissing path), w) := by
  unfold checkDirectory
  rw [run_get_bind]
  cases w.files.isDirectory path <;> rfl

theorem run_generate (target : Target) (s : Settings) (t : FileTree) :
    (generate target s).run.run { files := t } =
      match checkDirectories target s t with
      | .error failure => (.error failure, { files := t })
      | .ok _ =>
        (Ontology.ofFiles s s.inputFiles >>= fun o =>
          generateFor (Generator.make target s o)).run.run { files := t } := by
  unfold generate checkDirectories
  rw [run_bind, run_checkDirectory]
  cases hclasses : t.isDirectory s.effectiveClassDir with
  | false => simp
  | true =>
      by_cases htarget : target = .javaScript
      · subst htarget
        rfl
      · simp only [if_true, Bool.true_eq_false, if_false, ne_eq, htarget, not_false_iff, true_and]
        rw [run_bind, run_checkDirectory]
        cases t.isDirectory s.vocabularyDir with
        | false => rfl
        | true =>
            cases target with
            | java => rfl
            | python => rfl
            | javaScript => exact absurd rfl htarget

/-- Loading leaves the files as they are, and nothing is remembered of it. -/
theorem run_loaded (s : Settings) (t : FileTree) :
    ∃ w : Workspace, (Ontology.ofFiles s s.inputFiles).run.run { files := t } = (loaded s t, w) ∧
      w.files = t ∧ ∀ target o, w.Faithful target o := by
  have hreports := Ontology.ofFiles_onlyReports s s.inputFiles
  exact ⟨_, rfl, hreports.leavesFiles _, fun target o =>
    hreports.faithful (Workspace.faithful_of_empty rfl target o)⟩

/-- Without a plan a run fails and changes no file. -/
theorem run_generate_error {failure : Failure} (h : planned target s t = .error failure) :
    ∃ w, (generate target s).run.run { files := t } = (.error failure, w) ∧ w.files = t := by
  rw [run_generate]
  rcases bind_eq_error.mp h with hcheck | ⟨⟨⟩, hcheck, h⟩
  · exact ⟨_, by rw [hcheck], rfl⟩
  · obtain ⟨hclasses, -⟩ := checkDirectories_ok hcheck
    obtain ⟨w, hload, hfiles, hfaithful⟩ := run_loaded s t
    rw [hcheck]
    dsimp only
    rw [run_bind, hload]
    rcases bind_eq_error.mp h with hloaded | ⟨o, hloaded, h⟩
    · exact ⟨w, by rw [hloaded], hfiles⟩
    · obtain ⟨houtcome, hleft, -⟩ :=
        @OnFiles.generateFor_performs (Generator.make target s o) w (hfaithful _ _)
      rw [hfiles, run_generateFor_error hclasses h] at houtcome hleft
      rw [hloaded]
      exact ⟨_, Prod.ext houtcome rfl, hleft⟩

/-- With a plan that can be followed a run ends well and has written what was planned. -/
theorem run_generate_ok (h : planned target s t = .ok texts)
    (hwritable : ∀ file ∈ texts, t.CanWrite file.1) :
    ∃ paths w, (generate target s).run.run { files := t } = (.ok paths, w) ∧
      Wrote t texts w.files := by
  rw [run_generate]
  obtain ⟨⟨⟩, hcheck, h⟩ := bind_eq_ok.mp h
  obtain ⟨o, hloaded, h⟩ := bind_eq_ok.mp h
  obtain ⟨hclasses, hvocabulary⟩ := checkDirectories_ok hcheck
  obtain ⟨w, hload, hfiles, hfaithful⟩ := run_loaded s t
  obtain ⟨paths, left, hrun, hwrote⟩ :=
    OnFiles.run_generateFor_ok hclasses (fun hsome => hvocabulary (Generator.ne_javaScript hsome)) h
      hwritable
  obtain ⟨houtcome, hleft, -⟩ :=
    @OnFiles.generateFor_performs (Generator.make target s o) w (hfaithful _ _)
  rw [hfiles, hrun] at houtcome hleft
  rw [hcheck]
  dsimp only
  rw [run_bind, hload, hloaded]
  exact ⟨paths, _, Prod.ext houtcome rfl, hleft ▸ hwrote⟩

/-- What a run has generated, and what it has left alone. -/
structure Completed (g : Generator) (before after : FileTree) (classes : List ClassDescription)
    (style : Style) : Prop where
  described : g.described = .ok classes
  /-- These are the classes to generate, each once. -/
  iris : (classes.map (·.iri)).Perm g.classesToGenerate
  styled : g.style? = .ok style
  /-- A file for each class, the factory and the vocabulary; or the module of the creators. -/
  count : (g.artifacts style classes).length =
    if g.target = .javaScript then 1 else classes.length + 2
  /-- No two paths lead to one place, unless the vocabulary takes the place of another file. -/
  apart : ((g.artifacts style classes).map fun file => before.place? file.1).Nodup ↔
    ¬ g.Overwrites before style classes
  /-- If it takes none, every file has the text that was made for it. -/
  written : ¬ g.Overwrites before style classes →
    ∀ file ∈ g.artifacts style classes, after.read? file.1 = some file.2
  /-- If it takes one, its own text is found there, and all other files have theirs. -/
  overwritten : g.Overwrites before style classes → ∃ lost ∈ g.classArtifacts style classes,
    (∀ last ∈ g.vocabularyArtifacts style, after.read? lost.1 = some last.2) ∧
      ∀ file ∈ g.artifacts style classes, file ≠ lost → after.read? file.1 = some file.2
  others : ∀ place, (∀ file ∈ g.artifacts style classes, before.place? file.1 ≠ some place) →
    after.fileAt? place = before.fileAt? place
  directories : SameDirectories before after

theorem planned_ok (ht : t.Rooted) (hplain : Generator.PlainVocabulary s)
    (h : planned target s t = .ok texts) :
    ∃ o classes style, loaded s t = .ok o ∧
      (Generator.make target s o).Plans t classes style texts := by
  obtain ⟨⟨⟩, hcheck, h⟩ := bind_eq_ok.mp h
  obtain ⟨o, hloaded, h⟩ := bind_eq_ok.mp h
  obtain ⟨hclasses, hvocabulary⟩ := checkDirectories_ok hcheck
  obtain ⟨classes, style, hplans⟩ :=
    Generator.planned_ok ht hclasses (fun hsome => hvocabulary (Generator.ne_javaScript hsome)) rfl
      hplain h
  exact ⟨o, classes, style, hloaded, hplans⟩

/-- A run with settings fails without a change, or it generates everything. -/
theorem runWith_all_or_nothing (p : Program) (target : Target) (verbose : Bool) (s : Settings)
    (ht : t.Rooted) (hplain : Generator.PlainVocabulary s)
    (hfree : ∀ artifacts, planned target s t = .ok artifacts →
      ∀ file ∈ artifacts, t.isDirectory file.1 = false) :
    ((runWith p target verbose s t).status = 1 ∧ (runWith p target verbose s t).files = t) ∨
      ((runWith p target verbose s t).status = 0 ∧ ∃ o classes style, loaded s t = .ok o ∧
        Completed (Generator.make target s o) t (runWith p target verbose s t).files
          classes style) := by
  unfold runWith work
  cases hplan : planned target s t with
  | error failure =>
      obtain ⟨w, hrun, hfiles⟩ := run_generate_error hplan
      rw [run_bind, hrun]
      exact .inl ⟨rfl, hfiles⟩
  | ok artifacts =>
      obtain ⟨o, classes, style, hloaded, hplans⟩ := planned_ok ht hplain hplan
      have hwritable : ∀ file ∈ artifacts, t.CanWrite file.1 := fun file hfile =>
        (hplans.inside file hfile).canWrite ht (hfree artifacts hplan file hfile)
      obtain ⟨paths, w, hrun, hwrote⟩ := run_generate_ok hplan hwritable
      rw [run_bind_ok hrun]
      have hreport : (reportAll [.generated paths.length]).run.run w =
          (.ok (), [Notice.generated paths.length].foldl Workspace.report w) := rfl
      have hleft := LeavesFiles.reportAll [.generated paths.length] w
      rw [hreport] at hleft ⊢
      refine .inr ⟨rfl, o, classes, style, hloaded, ?_⟩
      show Completed _ t (List.foldl Workspace.report w _).files classes style
      rw [hleft]
      obtain rfl := hplans.artifacts
      exact ⟨hplans.described, (Generator.described_spec hplans.described).iris, hplans.styled,
        Generator.length_artifacts, hplans.apart,
        fun hnone => hwrote.of_nodup (hplans.apart.mpr hnone), hplans.overwritten hwrote,
        hwrote.others, hwrote.directories⟩

/-- A document stops loading at an escape of half a character, which no text can hold. -/
structure StopsAtHalf (s : Settings) (t : FileTree) (path : String) : Prop where
  given : path ∈ s.inputFiles
  escaped : ∃ text, t.read? path = some text ∧ escapesHalf text.toList = true
  stopped : loaded s t = .error (.halfCharacter path)

theorem stopsAtHalf_of_loaded {path : String} (h : loaded s t = .error (.halfCharacter path)) :
    StopsAtHalf s t path :=
  ⟨(Ontology.loadAll_halfCharacter h).1, (Ontology.loadAll_halfCharacter h).2, h⟩

/--
**A run changes nothing, or it generates everything and loses one file at most.**

This is said of runs that do not ask for help, whose vocabulary has no slash in its
name, and on whose paths there are no directories.  Nothing is said of a run that fails at
a document with an escape of half a character, which is not read here.

With the exit status 1 all files are as they were.  With the exit status 0 there is a
file for every class to generate, one for the factory and one for the vocabulary, or
the only file of the creators, and all other files are as they were.  They lie at
different places and each of them has the text that was made for it, unless the
vocabulary takes the place of another one: then that one is lost, and it alone.
-/
theorem run_all_or_nothing (p : Program) (texts : List String) (files : FileTree)
    (hfiles : files.Rooted)
    (hargs : ∀ a, Arguments.read p texts = .ok a → a.help = false ∧
      ∀ name, a.vocabularyName = some name → '/' ∉ name.toList)
    (hfree : ∀ a artifacts, Arguments.read p texts = .ok a →
      planned (p.target.getD a.target) (a.settings files.workingDirectory) files = .ok artifacts →
      ∀ file ∈ artifacts, files.isDirectory file.1 = false) :
    (∃ a path, Arguments.read p texts = .ok a ∧
        StopsAtHalf (a.settings files.workingDirectory) files path ∧
        (run p texts files).failure = some (.halfCharacter path)) ∨
      ((run p texts files).status = 1 ∧ (run p texts files).files = files) ∨
      ((run p texts files).status = 0 ∧ ∃ a o classes style,
        Arguments.read p texts = .ok a ∧
        loaded (a.settings files.workingDirectory) files = .ok o ∧
        Completed
          (Generator.make (p.target.getD a.target) (a.settings files.workingDirectory) o)
          files (run p texts files).files classes style) := by
  unfold run
  cases hread : Arguments.read p texts with
  | error error => exact .inr (.inl ⟨rfl, rfl⟩)
  | ok a =>
      obtain ⟨hhelp, hname⟩ := hargs a hread
      dsimp only
      rw [hhelp]
      cases hvalid : (a.settings files.workingDirectory).validate with
      | error failure => exact .inr (.inl ⟨rfl, rfl⟩)
      | ok _ =>
          have hplain : Generator.PlainVocabulary (a.settings files.workingDirectory) := by
            intro name hgiven
            exact hname name (Option.filter_eq_some_iff.mp hgiven).1
          by_cases hhalf : ∃ path, loaded (a.settings files.workingDirectory) files =
              .error (.halfCharacter path) ∧
              (runWith p (p.target.getD a.target) a.verbose
                (a.settings files.workingDirectory) files).failure = some (.halfCharacter path)
          · obtain ⟨path, hstopped, hfailed⟩ := hhalf
            exact .inl ⟨a, path, rfl, stopsAtHalf_of_loaded hstopped, hfailed⟩
          · rcases runWith_all_or_nothing p (p.target.getD a.target) a.verbose _ hfiles hplain
              fun artifacts => hfree a artifacts hread with
              hfailed | ⟨hstatus, o, classes, style, h⟩
            · exact .inr (.inl hfailed)
            · exact .inr (.inr ⟨hstatus, a, o, classes, style, rfl, h⟩)

/-- A root directory with a document that tells of one class. -/
def zoo : FileTree where
  root := ""
  files := [(["zoo.nt"], some ("<x:Ape> <http://www.w3.org/1999/02/22-rdf-syntax-ns#type> " ++
    "<http://www.w3.org/2002/07/owl#Class> .\n"))]

theorem zoo_rooted : zoo.Rooted := ⟨.inl (by decide), by decide +kernel, by simp [zoo]⟩

/-- Classes of the zoo with a vocabulary of some name. -/
def zooArguments (name : String) : Arguments :=
  { vocabularyName := some name, files := ["zoo.nt"] }

section Zoo

variable {name : String} (hname : '/' ∉ name.toList) {texts : List String}
  (hread : Arguments.read anyProgram texts = .ok (zooArguments name))

include hread

/-- The document of the zoo has no escapes. -/
theorem zoo_whole : ¬ ∃ a path, Arguments.read anyProgram texts = .ok a ∧
    StopsAtHalf (a.settings zoo.workingDirectory) zoo path ∧
    (run anyProgram texts zoo).failure = some (.halfCharacter path) := by
  rintro ⟨a, path, ha, hstops, -⟩
  obtain ⟨text, htext, hhalf⟩ := hstops.escaped
  obtain rfl := Except.ok.inj (hread.symm.trans ha)
  obtain rfl := List.mem_singleton.mp hstops.given
  have hwhole : (zoo.read? "zoo.nt").all (fun text => !escapesHalf text.toList) = true := by
    decide +kernel
  rw [htext, Option.all_some, hhalf] at hwhole
  cases hwhole

include hname

theorem zoo_arguments (a : Arguments) (ha : Arguments.read anyProgram texts = .ok a) :
    a.help = false ∧ ∀ given, a.vocabularyName = some given → '/' ∉ given.toList := by
  obtain rfl := Except.ok.inj (hread.symm.trans ha)
  exact ⟨rfl, fun given hgiven => Option.some.inj hgiven ▸ hname⟩

/-- There are no directories in the way. -/
theorem zoo_free (a : Arguments) (artifacts : List (String × String))
    (ha : Arguments.read anyProgram texts = .ok a)
    (h : planned (anyProgram.target.getD a.target) (a.settings zoo.workingDirectory) zoo =
      .ok artifacts) : ∀ file ∈ artifacts, zoo.isDirectory file.1 = false := by
  have hplain : Generator.PlainVocabulary (a.settings zoo.workingDirectory) := fun given hgiven =>
    (zoo_arguments hname hread a ha).2 given (Option.filter_eq_some_iff.mp hgiven).1
  intro file hfile
  obtain ⟨o, classes, style, -, hplans⟩ := planned_ok zoo_rooted hplain h
  exact (hplans.inside file hfile).isDirectory_eq_false zoo_rooted rfl

end Zoo

/-- Under the name of its class nothing is generated for the zoo, under another one everything. -/
theorem run_zoo :
    (∃ o classes style,
      let g := Generator.make .java ((zooArguments "Zoo").settings zoo.workingDirectory) o
      let left := (run anyProgram ["-v", "Zoo", "zoo.nt"] zoo).files
      Completed g zoo left classes style ∧
        ∀ file ∈ g.artifacts style classes, left.read? file.1 = some file.2) ∧
    (run anyProgram ["-v", "Ape", "zoo.nt"] zoo).files = zoo := by
  have hzoo : Arguments.read anyProgram ["-v", "Zoo", "zoo.nt"] = .ok (zooArguments "Zoo") := by
    decide +kernel
  have hape : Arguments.read anyProgram ["-v", "Ape", "zoo.nt"] = .ok (zooArguments "Ape") := by
    decide +kernel
  constructor
  · rcases run_all_or_nothing anyProgram _ zoo zoo_rooted (zoo_arguments (by decide) hzoo)
      (zoo_free (by decide) hzoo) with hhalf | ⟨hstatus, -⟩ | ⟨-, a, o, classes, style, ha, -, h⟩
    · exact absurd hhalf (zoo_whole hzoo)
    · exact absurd hstatus (by decide +kernel)
    · obtain rfl := Except.ok.inj (hzoo.symm.trans ha)
      refine ⟨o, classes, style, h, h.written ?_⟩
      rintro ⟨-, -, -, hspelled, -⟩
      exact hspelled rfl
  · rcases run_all_or_nothing anyProgram _ zoo zoo_rooted (zoo_arguments (by decide) hape)
      (zoo_free (by decide) hape) with hhalf | ⟨-, hfiles⟩ | ⟨hstatus, -⟩
    · exact absurd hhalf (zoo_whole hape)
    · exact hfiles
    · exact absurd hstatus (by decide +kernel)

/-- **The vocabulary can take the place of a class.**  All that is asked of arguments and files
holds, the run ends well, and the class is not found where it was written. -/
theorem ape_is_lost :
    zoo.Rooted ∧ ∃ a o classes style,
      Arguments.read anyProgram ["-v", "Ape", "-o", "//", "-O", "/", "zoo.nt"] = .ok a ∧
      a.help = false ∧ a.vocabularyName = some "Ape" ∧
      loaded (a.settings zoo.workingDirectory) zoo = .ok o ∧
      (Generator.make .java (a.settings zoo.workingDirectory) o).described = .ok classes ∧
      (Generator.make .java (a.settings zoo.workingDirectory) o).style? = .ok style ∧
      (∀ file ∈ (Generator.make .java (a.settings zoo.workingDirectory) o).artifacts style classes,
        zoo.isDirectory file.1 = false) ∧
      (run anyProgram ["-v", "Ape", "-o", "//", "-O", "/", "zoo.nt"] zoo).status = 0 ∧
      ∃ file ∈ (Generator.make .java (a.settings zoo.workingDirectory) o).artifacts style classes,
        (run anyProgram ["-v", "Ape", "-o", "//", "-O", "/", "zoo.nt"] zoo).files.read? file.1 ≠
          some file.2 := by
  have hread : Arguments.read anyProgram ["-v", "Ape", "-o", "//", "-O", "/", "zoo.nt"] =
      .ok { zooArguments "Ape" with vocabularyDir := some "//", classDir := some "/" } := by
    decide +kernel
  let s := { zooArguments "Ape" with vocabularyDir := some "//", classDir := some "/" }.settings
    zoo.workingDirectory
  have hcheck : (do
      let o ← loaded s zoo
      let g := Generator.make .java s o
      let classes ← g.described
      let style ← g.style?
      return ((g.artifacts style classes).all fun file => !zoo.isDirectory file.1) &&
        (g.artifacts style classes).any fun file =>
          (run anyProgram ["-v", "Ape", "-o", "//", "-O", "/", "zoo.nt"] zoo).files.read? file.1 ≠
            some file.2) = .ok true := by
    decide +kernel
  obtain ⟨o, hloaded, hcheck⟩ := bind_eq_ok.mp hcheck
  obtain ⟨classes, hdescribed, hcheck⟩ := bind_eq_ok.mp hcheck
  obtain ⟨style, hstyle, hcheck⟩ := bind_eq_ok.mp hcheck
  have hcheck := Except.ok.inj hcheck
  rw [Bool.and_eq_true, List.all_eq_true, List.any_eq_true] at hcheck
  obtain ⟨hfree, file, hfile, hlost⟩ := hcheck
  exact ⟨zoo_rooted, _, o, classes, style, hread, rfl, rfl, hloaded, hdescribed, hstyle,
    fun file hfile => by simpa using hfree file hfile, by decide +kernel, file, hfile,
    by simpa using hlost⟩

end CommandLine

end OntoCode
