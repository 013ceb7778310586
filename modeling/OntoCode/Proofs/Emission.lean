/-
Generating one class again.

A generator writes the files of all classes and the one that names them all, and then a
single class is generated into the same directory.  The class is described and extended
as before, since the classes to generate are the same, so its file has the text that was
written for it.  Classes have files at different places.  Only the file that names them
all may have been written over the file of a class: its name is compared with the names
of the others, and a name with a slash can lead to the place of another one.
-/
import OntoCode.Proofs.BaseClasses
import OntoCode.Proofs.Constants

namespace OntoCode

open OntoCode.Generate OntoCode.Naming OntoCode.Ontology OntoCode.Rdf OntoCode.Text

/-! ### Places that hold a text -/

namespace FileTree

variable {t u : FileTree} {place other : Place} {path text : String}
  {texts : List (String × String)}

/-- A place holds a text: there is a file with it, and no file there has another one. -/
structure Holds (t : FileTree) (place : Place) (text : String) : Prop where
  mem : (place, some text) ∈ t.files
  only : ∀ file ∈ t.files, file.1 = place → file.2 = some text

theorem Holds.unique {again : String} (h : t.Holds place text) (hagain : t.Holds place again) :
    text = again :=
  Option.some.inj (hagain.only _ h.mem rfl)

theorem hasFile_iff : t.hasFile place = true ↔ ∃ file ∈ t.files, file.1 = place := by
  unfold hasFile
  rw [List.any_eq_true]
  simp only [decide_eq_true_eq]

theorem holds_put (t : FileTree) (place : Place) (text : String) :
    (t.put place text).Holds place text := by
  unfold put
  split
  · rename_i hhas
    obtain ⟨file, hfile, heq⟩ := hasFile_iff.mp hhas
    refine ⟨List.mem_map.mpr ⟨file, hfile, if_pos heq⟩, fun changed hchanged hplace => ?_⟩
    obtain ⟨old, -, rfl⟩ := List.mem_map.mp hchanged
    by_cases hold : old.1 = place
    · rw [if_pos hold]
    · rw [if_neg hold] at hplace
      exact absurd hplace hold
  · rename_i hnone
    refine ⟨List.mem_append_right _ List.mem_cons_self, fun file hfile hplace => ?_⟩
    rcases List.mem_append.mp hfile with hold | hnew
    · exact absurd (hasFile_iff.mpr ⟨file, hold, hplace⟩) hnone
    · rw [List.mem_singleton.mp hnew]

/-- The text that the place of a path holds is the one that is read. -/
theorem Holds.read? (h : t.Holds place text) (hplace : t.place? path = some place) :
    t.read? path = some text := by
  have hsome : (t.files.find? (·.1 = place)).isSome = true :=
    List.find?_isSome.mpr ⟨_, h.mem, decide_eq_true rfl⟩
  obtain ⟨file, hfile⟩ := Option.isSome_iff_exists.mp hsome
  have hthere : file.1 = place := by simpa using List.find?_some hfile
  rw [read?_eq hplace, fileAt?, hfile, Option.map_some,
    h.only file (List.mem_of_find?_eq_some hfile) hthere]
  rfl

/-- What is put elsewhere leaves the text of a place as it is. -/
theorem Holds.put (h : t.Holds place text) (hne : other ≠ place) (another : String) :
    (t.put other another).Holds place text := by
  unfold FileTree.put
  split
  · refine ⟨List.mem_map.mpr ⟨_, h.mem, if_neg (Ne.symm hne)⟩, fun changed hchanged hplace => ?_⟩
    obtain ⟨old, hold, rfl⟩ := List.mem_map.mp hchanged
    by_cases hother : old.1 = other
    · rw [if_pos hother] at hplace
      exact absurd hplace hne
    · rw [if_neg hother] at hplace ⊢
      exact h.only old hold hplace
  · refine ⟨List.mem_append_left _ h.mem, fun file hfile hplace => ?_⟩
    rcases List.mem_append.mp hfile with hold | hnew
    · exact h.only file hold hplace
    · rw [List.mem_singleton.mp hnew] at hplace
      exact absurd hplace hne

/-- **Writing leaves all files as they are exactly where the place held the text before.** -/
theorem put_eq_self_iff : t.put place text = t ↔ t.Holds place text := by
  constructor
  · intro heq
    rw [← heq]
    exact holds_put t place text
  · intro h
    have hsame : t.files.map (fun file => if file.1 = place then (place, some text) else file) =
        t.files := by
      refine (List.map_congr_left fun file hfile => ?_).trans (List.map_id _)
      by_cases hplace : file.1 = place
      · rw [if_pos hplace, ← hplace, ← h.only file hfile hplace]
        rfl
      · rw [if_neg hplace]
        rfl
    unfold FileTree.put
    rw [if_pos (hasFile_iff.mpr ⟨_, h.mem, rfl⟩), hsame]

/-- A text that was written was put into the place of its path, which is in a directory. -/
theorem write_ok (h : t.write path text = .ok u) :
    ∃ place, t.place? path = some place ∧ t.hasDirectory place = false ∧
      t.hasDirectory place.dropLast = true ∧ u = t.put place text := by
  unfold write at h
  split at h
  · rename_i place hplace
    split at h
    · cases h
    · rename_i hnone
      split at h
      · rename_i habove
        cases h
        exact ⟨place, hplace, by simpa using hnone, habove, rfl⟩
      · split at h <;> cases h
  · split at h <;> cases h

theorem writeAll_cons {file : String × String} {rest : List (String × String)} :
    t.writeAll (file :: rest) = t.write file.1 file.2 >>= fun t => t.writeAll rest := by
  rw [writeAll, List.foldlM_cons]
  rfl

theorem writeAll_append {more : List (String × String)} :
    t.writeAll (texts ++ more) = t.writeAll texts >>= fun t => t.writeAll more := by
  unfold writeAll
  rw [List.foldlM_append]

/-- What was written one after the other could be written one by one, and left the directories. -/
theorem writeAll_wrote (h : t.writeAll texts = .ok u) :
    SameDirectories t u ∧ ∀ file ∈ texts, t.CanWrite file.1 := by
  induction texts generalizing t with
  | nil =>
      cases h
      exact ⟨.refl _, by simp⟩
  | cons file rest ih =>
      rw [writeAll_cons] at h
      obtain ⟨v, hv, h⟩ := bind_eq_ok.mp h
      obtain ⟨place, hplace, hnone, habove, rfl⟩ := write_ok hv
      obtain ⟨hsame, hcan⟩ := ih h
      have hput := SameDirectories.put t place file.2
      refine ⟨hput.trans hsame, List.forall_mem_cons.mpr ⟨⟨place, hplace, hnone, habove⟩, ?_⟩⟩
      intro other hother
      exact SameDirectories.canWrite ⟨hput.root.symm, hput.start.symm, hput.directories.symm⟩
        (hcan other hother)

/-- A place to which nothing but one text is written holds this text then. -/
theorem holds_of_writeAll (h : t.writeAll texts = .ok u)
    (hall : ∀ file ∈ texts, t.place? file.1 = some place → file.2 = text)
    (hsome : t.Holds place text ∨ ∃ file ∈ texts, t.place? file.1 = some place) :
    u.Holds place text := by
  induction texts generalizing t with
  | nil =>
      cases h
      exact hsome.resolve_right (by simp)
  | cons file rest ih =>
      rw [writeAll_cons] at h
      obtain ⟨v, hv, h⟩ := bind_eq_ok.mp h
      obtain ⟨there, hthere, -, -, rfl⟩ := write_ok hv
      have hput := SameDirectories.put t there file.2
      refine ih h (fun other hother hplace => ?_) ?_
      · rw [hput.place?] at hplace
        exact hall other (List.mem_cons_of_mem _ hother) hplace
      · by_cases hhere : there = place
        · subst hhere
          rw [← hall file List.mem_cons_self hthere]
          exact .inl (holds_put t there file.2)
        · rcases hsome with hholds | ⟨other, hother, hplace⟩
          · exact .inl (hholds.put hhere file.2)
          · rcases List.mem_cons.mp hother with rfl | hrest
            · exact absurd (Option.some.inj (hthere.symm.trans hplace)) hhere
            · exact .inr ⟨other, hrest, by rwa [hput.place?]⟩

end FileTree

/-! ### Directories in a session -/

/-- The work makes no directory and removes none. -/
def KeepsDirectories {α : Type} (work : OnFiles α) : Prop :=
  ∀ t : FileTree, FileTree.SameDirectories t (work.run.run t).2

namespace KeepsDirectories

variable {α β : Type}

theorem pure (a : α) : KeepsDirectories (Pure.pure a : OnFiles α) := fun t => .refl t

theorem known (outcome : Except Failure α) : KeepsDirectories (.known outcome) := fun t => .refl t

theorem bind {work : OnFiles α} {next : α → OnFiles β} (hwork : KeepsDirectories work)
    (hnext : ∀ a, KeepsDirectories (next a)) : KeepsDirectories (work >>= next) := by
  intro t
  have hleft := hwork t
  rw [run_bind]
  cases hres : work.run.run t with
  | mk outcome u =>
      rw [hres] at hleft
      cases outcome with
      | error e => exact hleft
      | ok a => exact hleft.trans (hnext a u)

theorem mapM {work : α → OnFiles β} (h : ∀ a, KeepsDirectories (work a)) (l : List α) :
    KeepsDirectories (l.mapM work) := by
  induction l with
  | nil => exact pure []
  | cons a rest ih =>
      rw [List.mapM_cons]
      exact (h a).bind fun b => ih.bind fun bs => pure (b :: bs)

theorem checkDirectory (path : String) : KeepsDirectories (.checkDirectory path) := by
  intro t
  rw [OnFiles.run_checkDirectory]
  split <;> exact .refl t

theorem save (path text : String) : KeepsDirectories (.save path text) := by
  intro t
  rw [OnFiles.run_save]
  cases hwrite : t.write path text with
  | ok u =>
      obtain ⟨place, -, -, -, rfl⟩ := FileTree.write_ok hwrite
      exact .put t place text
  | error e => exact .refl t

theorem saveIn (directory : String) (files : Except Failure (List Generator.CodeFile)) :
    KeepsDirectories (.saveIn directory files) :=
  (checkDirectory directory).bind fun _ => (known files).bind fun found =>
    mapM (fun _ => (save _ _).bind fun _ => pure _) found

theorem saveOne (directory : String) (file : Except Failure Generator.CodeFile) :
    KeepsDirectories (.saveOne directory file) :=
  (checkDirectory directory).bind fun _ => (known file).bind fun _ =>
    (save _ _).bind fun _ => pure _

/-- **No step of a session makes or removes a directory.** -/
theorem effect (g : Generator) (step : Step) : KeepsDirectories (step.effect g) := by
  cases step with
  | emitClass class_ directory => exact saveOne _ _
  | generate directory reserved => exact saveIn _ _
  | generateVocabulary language directory => exact saveOne _ _
  | describeProperty property withInverse => cases withInverse <;> exact known _
  | _ => exact known _

end KeepsDirectories

section Sessions

variable {g : Generator} {earlier : List Step} {files : FileTree}

theorem session_append (step : Step) :
    session g (earlier ++ [step]) files = step.after g (session g earlier files) := by
  unfold session
  rw [List.foldl_append]
  rfl

/-- **A session leaves the directories as they are.** -/
theorem session_sameDirectories (g : Generator) (steps : List Step) (files : FileTree) :
    FileTree.SameDirectories files (session g steps files).files := by
  induction steps using List.reverseRecOn with
  | nil => exact .refl files
  | append_singleton earlier step ih =>
      have hstep := KeepsDirectories.effect g step (session g earlier files).files
      rw [step.run_session] at hstep
      rw [session_append]
      exact ih.trans hstep

end Sessions

theorem FileTree.Rooted.of_sameDirectories {t u : FileTree} (ht : t.Rooted)
    (h : SameDirectories t u) : u.Rooted :=
  ⟨by rw [h.root]; exact ht.root, by rw [h.root]; exact ht.ending, by rw [h.start]; exact ht.start⟩

/-! ### The file of a class among the others -/

namespace OnFiles

open FileTree

variable {t u : FileTree} {directory : String}

/-- Files are only written into a directory that is there. -/
theorem isDirectory_of_saveIn {files : Except Failure (List Generator.CodeFile)}
    {paths : List String} (h : (saveIn directory files).run.run t = (.ok paths, u)) :
    t.isDirectory directory = true := by
  obtain ⟨⟨⟩, checked, hcheck, -⟩ := run_bind_eq_ok h
  rw [run_checkDirectory] at hcheck
  split at hcheck
  · assumption
  · cases hcheck

/-- **The place of a file that was written with others into a directory** holds its text, unless a
last file was written there. -/
theorem holds_of_inDirectory {files : List Generator.CodeFile} {last file : Generator.CodeFile}
    (ht : t.Rooted) (hdirectory : t.isDirectory directory = true)
    (hnames : ∀ file ∈ files, IsName file.1) (hnodup : (files.map (·.1)).Nodup)
    (h : t.writeAll (inDirectory directory (files ++ [last])) = .ok u) (hfile : file ∈ files) :
    ∃ place, t.place? (join directory file.1) = some place ∧
      u.Holds place
        (if t.place? (join directory last.1) = some place then last.2 else file.2) := by
  obtain ⟨here, hhere, hhas⟩ := (Option.any_eq_true _ _).mp hdirectory
  have hplace : ∀ other ∈ files, t.place? (join directory other.1) = some (here ++ [other.1]) :=
    fun other hother => place?_join ht (hnames other hother) hhere hhas
  rw [inDirectory, List.map_append, writeAll_append] at h
  obtain ⟨v, hv, h⟩ := bind_eq_ok.mp h
  have hsame := (writeAll_wrote hv).1
  have hholds : v.Holds (here ++ [file.1]) file.2 := by
    refine holds_of_writeAll hv (fun written hwritten hthere => ?_)
      (.inr ⟨_, List.mem_map_of_mem hfile, hplace file hfile⟩)
    obtain ⟨other, hother, rfl⟩ := List.mem_map.mp hwritten
    have hname : other.1 = file.1 := by
      simpa using (hplace other hother).symm.trans hthere
    rw [List.inj_on_of_nodup_map hnodup hother hfile hname]
  refine ⟨here ++ [file.1], hplace file hfile, ?_⟩
  obtain ⟨left, hleft, hdone⟩ := bind_eq_ok.mp h
  cases hdone
  obtain ⟨there, hthere, -, -, rfl⟩ := write_ok hleft
  rw [hsame.place?] at hthere
  rw [hthere]
  by_cases hover : there = here ++ [file.1]
  · rw [if_pos (congrArg some hover), hover]
    exact holds_put v _ last.2
  · rw [if_neg fun heq => hover (Option.some.inj heq)]
    exact hholds.put hover last.2

end OnFiles

/-! ### The file of a single class -/

namespace Generator

variable {g : Generator} {classes : List ClassDescription} {style : Style}

/-- Whether a class can extend another one rests on which classes are known, not on their order. -/
theorem extendable_congr {known others : List Iri} (h : ∀ iri, iri ∈ known ↔ iri ∈ others)
    (c : ClassDescription) : g.extendable known c = g.extendable others c := by
  have hcontains : ∀ iri, known.contains iri = others.contains iri := by
    intro iri
    rw [Bool.eq_iff_iff, List.contains_iff_mem, List.contains_iff_mem]
    exact h iri
  unfold extendable
  simp only [hcontains]

/-- The file of a class among others. -/
def fileAmong (g : Generator) (style : Style) (classes : List ClassDescription)
    (c : ClassDescription) : CodeFile :=
  (g.classFile c, g.classText style (g.extendable (classes.map (·.iri)) c))

theorem files_eq (htarget : g.target ≠ .javaScript) (style : Style)
    (classes : List ClassDescription) :
    ∃ shared, g.files style classes =
      classes.map (g.fileAmong style classes) ++ [(g.sharedFile style.vocabulary, shared)] := by
  have hfiles : (classes.map (g.extendable (classes.map (·.iri)))).map
      (fun c => (g.classFile c, g.classText style c)) =
        classes.map (g.fileAmong style classes) := by
    rw [List.map_map]
    refine List.map_congr_left fun c _ => ?_
    rw [Function.comp_apply, classFile_extendable]
    rfl
  refine ⟨g.sharedText style (classes.map (g.extendable (classes.map (·.iri)))), ?_⟩
  rw [← hfiles]
  unfold files
  cases hlanguage : g.target with
  | java => rfl
  | python => rfl
  | javaScript => exact absurd hlanguage htarget

/-- **A class that is generated alone has the file that it has among the others.** -/
theorem emitted_eq (hclasses : g.described = .ok classes) (hstyle : g.style? = .ok style)
    {c : ClassDescription} (hc : c ∈ classes) :
    g.emitted c.iri = .ok (g.fileAmong style classes c) := by
  have hknown : ∀ iri, iri ∈ g.classesToGenerate ↔ iri ∈ classes.map (·.iri) :=
    fun iri => (described_spec hclasses).iris.mem_iff.symm
  unfold emitted
  rw [hstyle, described_of_mem hclasses hc]
  show Except.ok (g.classFile (g.extendable g.classesToGenerate c),
    g.classText style (g.extendable g.classesToGenerate c)) = _
  rw [extendable_congr hknown, classFile_extendable]
  rfl

end Generator

namespace OnFiles

open FileTree

/-- **A file that can be written into a directory is put into its place.** -/
theorem run_saveOne_put {t : FileTree} {directory : String} {file : Generator.CodeFile}
    {place : Place} (hdirectory : t.isDirectory directory = true)
    (hplace : t.place? (join directory file.1) = some place)
    (hcan : t.CanWrite (join directory file.1)) :
    (saveOne directory (.ok file)).run.run t =
      (.ok (join directory file.1), t.put place file.2) := by
  obtain ⟨there, hthere, hwrite⟩ := hcan.write file.2
  obtain rfl := Option.some.inj (hplace.symm.trans hthere)
  have hone : t.writeAll (inDirectory directory [file]) = .ok (t.put place file.2) := by
    rw [inDirectory, List.map_singleton, writeAll_cons, hwrite]
    rfl
  obtain ⟨path, hpath⟩ := run_saveOne hdirectory hone
  obtain ⟨_, hfile, rfl, -⟩ := saveOne_ok hpath
  cases hfile
  exact hpath

end OnFiles

/-! ### The texts of a step -/

namespace Step

variable {g : Generator} {directory : Option String} {reserved : List String}

theorem texts_emitClass {class_ : Iri} {file : Generator.CodeFile}
    (h : g.emitted class_ = .ok file) :
    (emitClass class_ directory).texts g =
      OnFiles.inDirectory (g.directoryFor directory) [file] := by
  rw [texts, h]
  rfl

theorem texts_generate {files : List Generator.CodeFile}
    (h : g.generated directory reserved = .ok files) :
    (generate directory reserved).texts g =
      OnFiles.inDirectory (g.directoryFor directory) files := by
  rw [texts, h]
  rfl

/-- The paths that are given are those of the texts. -/
theorem paths_of_generate {earlier : List Step} {files : FileTree} {paths : List String}
    (h : (generate directory reserved).outcome g (session g earlier files) = .ok paths) :
    paths = ((generate directory reserved).texts g).map (·.1) := by
  obtain ⟨found, hfound, hpaths⟩ := generate_ok h
  rw [texts_generate hfound, hpaths]

end Step

/-! ### One class after all of them -/

section Emission

open OnFiles FileTree

variable {g : Generator} {t u : FileTree} {directory : Option String} {reserved paths : List String}
  {class_ : Iri}

/-- What generating one class does after all were generated. -/
structure Emits (g : Generator) (t u : FileTree) (directory : Option String)
    (reserved : List String) (class_ : Iri) (c : ClassDescription) (text : String)
    (vocabulary shared : String) (place : Place) : Prop where
  directories : SameDirectories t u
  described : describe g.target g.ontology class_ = .ok c
  named : Settings.given? g.settings.vocabularyName = some vocabulary
  emitted : g.emitted class_ = .ok (g.classFile c, text)
  /-- The same file was generated before, and one that names all classes after it. -/
  generated : ∃ files, (g.classFile c, text) ∈ files ∧
    g.generated directory reserved = .ok (files ++ [(g.sharedFile vocabulary, shared)])
  /-- It has a place, which holds its text unless the last file was put there. -/
  leads : t.place? (join (g.directoryFor directory) (g.classFile c)) = some place
  held : u.Holds place
    (if t.place? (join (g.directoryFor directory) (g.sharedFile vocabulary)) = some place then
      shared else text)
  saved : (saveOne (g.directoryFor directory) (g.emitted class_)).run.run u =
    (.ok (join (g.directoryFor directory) (g.classFile c)), u.put place text)
  /-- The last file was put elsewhere if the name of the vocabulary has no slash. -/
  apart : '/' ∉ vocabulary.toList →
    t.place? (join (g.directoryFor directory) (g.sharedFile vocabulary)) ≠ some place

/-- **After all classes were generated, each of them can be generated alone.** -/
theorem exists_emits (htarget : g.target ≠ .javaScript) (ht : t.Rooted)
    (h : (saveIn (g.directoryFor directory) (g.generated directory reserved)).run.run t =
      (.ok paths, u)) (hclass : class_ ∈ g.classesToGenerate) :
    ∃ c text vocabulary shared place,
      Emits g t u directory reserved class_ c text vocabulary shared place := by
  have hdirectory := isDirectory_of_saveIn h
  obtain ⟨found, hfound, -, hwrite⟩ := saveIn_ok h
  obtain ⟨classes, style, hclasses, hstyle, rfl, hnodup, -⟩ := Generator.generated_ok hfound
  have hdescribes := Generator.described_spec hclasses
  obtain ⟨c, hc, rfl⟩ := List.mem_map.mp (hdescribes.iris.mem_iff.mpr hclass)
  obtain ⟨shared, hfiles⟩ := Generator.files_eq htarget style classes
  rw [hfiles] at hfound hwrite hnodup
  rw [List.map_append, List.nodup_append] at hnodup
  have hemitted := Generator.emitted_eq hclasses hstyle hc
  have hfile : g.fileAmong style classes c ∈ classes.map (g.fileAmong style classes) :=
    List.mem_map_of_mem hc
  have hnames : ∀ file ∈ classes.map (g.fileAmong style classes), IsName file.1 := by
    intro file hin
    obtain ⟨d, hd, rfl⟩ := List.mem_map.mp hin
    exact Generator.classFile_isName (hdescribes.named d hd)
  obtain ⟨place, hplace, hholds⟩ :=
    holds_of_inDirectory ht hdirectory hnames hnodup.1 hwrite hfile
  obtain ⟨hsame, hcan⟩ := writeAll_wrote hwrite
  refine ⟨c, (g.fileAmong style classes c).2, style.vocabulary, shared, place, hsame,
    Generator.described_of_mem hclasses hc, (Generator.style_eq hstyle).1, hemitted,
    ⟨_, hfile, hfound⟩, hplace, hholds, ?_, ?_⟩
  · have hwritten := hcan _ (List.mem_map_of_mem (List.mem_append_left _ hfile))
    rw [hemitted]
    exact run_saveOne_put (hsame.isDirectory _ ▸ hdirectory) ((hsame.place? _).trans hplace)
      (hsame.canWrite hwritten)
  · intro hplain hagain
    obtain ⟨here, hhere, hhas⟩ := (Option.any_eq_true _ _).mp hdirectory
    rw [place?_join ht (hnames _ hfile) hhere hhas] at hplace
    rw [place?_join ht (Generator.sharedFile_isName hplain) hhere hhas, ← hplace] at hagain
    have hname : g.sharedFile style.vocabulary = g.classFile c := (by simpa using hagain :
      g.sharedFile style.vocabulary = (g.fileAmong style classes c).1)
    exact hnodup.2.2 _ (List.mem_map_of_mem hfile) _ (by simp) hname.symm

namespace Emits

variable {c : ClassDescription} {text vocabulary shared : String} {place : Place}
  (h : Emits g t u directory reserved class_ c text vocabulary shared place)

include h

/-- The text of the class was written before, and that of the last file after all others. -/
theorem texts_generate :
    (join (g.directoryFor directory) (g.classFile c), text) ∈
        (Step.generate directory reserved).texts g ∧
      ((Step.generate directory reserved).texts g).getLast? =
        some (join (g.directoryFor directory) (g.sharedFile vocabulary), shared) := by
  obtain ⟨files, hin, hfiles⟩ := h.generated
  rw [Step.texts_generate hfiles, inDirectory, List.map_append]
  exact ⟨List.mem_append_left _ (List.mem_map_of_mem hin), List.getLast?_concat⟩

/-- The files stay as they are exactly if the last file has another place or the same text. -/
theorem put_eq_self_iff :
    u.put place text = u ↔
      (t.place? (join (g.directoryFor directory) (g.sharedFile vocabulary)) = some place →
        shared = text) := by
  have hheld := h.held
  rw [FileTree.put_eq_self_iff]
  by_cases hover : t.place? (join (g.directoryFor directory) (g.sharedFile vocabulary)) =
      some place
  · rw [if_pos hover] at hheld
    exact ⟨fun htext _ => hheld.unique htext, fun hsame => hsame hover ▸ hheld⟩
  · rw [if_neg hover] at hheld
    exact ⟨fun _ hagain => absurd hagain hover, fun _ => hheld⟩

/-- What is read from the path of the class, before it is generated again and after. -/
theorem read?_eq :
    u.read? (join (g.directoryFor directory) (g.classFile c)) =
        some (if t.place? (join (g.directoryFor directory) (g.sharedFile vocabulary)) = some place
          then shared else text) ∧
      (u.put place text).read? (join (g.directoryFor directory) (g.classFile c)) = some text := by
  have hplace := (h.directories.place? _).trans h.leads
  refine ⟨h.held.read? hplace, (holds_put u place text).read? ?_⟩
  exact ((SameDirectories.put u place text).place? _).trans hplace

end Emits

end Emission

/-- **A class is generated again to the path it was generated to, and with the same text.**

Take a session with a Java or Python generator, in which any steps were made before, and let it
generate all classes into a directory and then one of them again.  The latter ends well.  It gives
the path of the file of the class, which is among those that were given before, and writes the text
that was written to it before.  It changes nothing at other places.

The last text that was written before is that of the file that names all classes.  The files stay as
they are exactly if this text is the same, or its path leads to another place than that of the
class.  So they do wherever the name of the vocabulary has no slash. -/
theorem emitClass_of_generated {g : Generator} (htarget : g.target ≠ .javaScript)
    (earlier : List Step) {files : FileTree} (hrooted : files.Rooted) {directory : Option String}
    {reserved paths : List String}
    (h : (Step.generate directory reserved).outcome g (session g earlier files) = .ok paths)
    {class_ : Iri} (hclass : class_ ∈ g.classesToGenerate) :
    let w := session g (earlier ++ [.generate directory reserved]) files
    let left := ((Step.emitClass class_ directory).after g w).files
    let generated := (Step.generate directory reserved).texts g
    ∃ (c : ClassDescription) (path text shared vocabulary : String),
      describe g.target g.ontology class_ = .ok c ∧
      path = FileTree.join (g.directoryFor directory) (g.classFile c) ∧
      path ∈ paths ∧ (path, text) ∈ generated ∧
      (Step.emitClass class_ directory).texts g = [(path, text)] ∧
      (Step.emitClass class_ directory).outcome g w = .ok path ∧
      (∀ place, files.place? path ≠ some place → left.fileAt? place = w.files.fileAt? place) ∧
      Settings.given? g.settings.vocabularyName = some vocabulary ∧
      generated.getLast? =
        some (FileTree.join (g.directoryFor directory) (g.sharedFile vocabulary), shared) ∧
      (left = w.files ↔
        files.place? (FileTree.join (g.directoryFor directory) (g.sharedFile vocabulary)) =
          files.place? path → shared = text) ∧
      ('/' ∉ vocabulary.toList → left = w.files) := by
  intro w left generated
  have hsame := session_sameDirectories g earlier files
  have hrun := @Step.run_session g earlier files (.generate directory reserved)
  rw [h, ← session_append] at hrun
  obtain ⟨c, text, vocabulary, shared, place, hemits⟩ :=
    exists_emits htarget (hrooted.of_sameDirectories hsame) hrun hclass
  have hplace := (hsame.place? _).symm.trans hemits.leads
  obtain ⟨hmem, hlast⟩ := hemits.texts_generate
  have hagain := @Step.run_session g (earlier ++ [.generate directory reserved]) files
    (.emitClass class_ directory)
  have hboth := hagain.symm.trans hemits.saved
  have hleft : left = w.files.put place text := congrArg Prod.snd hboth
  refine ⟨c, _, text, shared, vocabulary, hemits.described, rfl, ?_, hmem,
    Step.texts_emitClass hemits.emitted, congrArg Prod.fst hboth, ?_, hemits.named, hlast, ?_, ?_⟩
  · rw [Step.paths_of_generate h]
    exact List.mem_map_of_mem hmem
  · intro other hother
    rw [hplace] at hother
    rw [hleft, FileTree.fileAt?_put, if_neg fun heq => hother (congrArg some heq.symm)]
  · rw [hleft, hplace, ← hsame.place?]
    exact hemits.put_eq_self_iff
  · intro hplain
    rw [hleft]
    exact hemits.put_eq_self_iff.mpr fun hover => absurd hover (hemits.apart hplain)

/-- Students are generated again into the module that they were generated into. -/
theorem emitClass_student :
    ((People.generator .python).target ≠ .javaScript ∧ People.school.Rooted ∧
      (∃ paths, (Step.generate (some ".") []).outcome (People.generator .python)
        (session (People.generator .python) [] People.school) = .ok paths) ∧
      People.student.iri ∈ (People.generator .python).classesToGenerate) ∧
    let w := session (People.generator .python) [.generate (some ".") []] People.school
    (Step.emitClass People.student.iri (some ".")).outcome (People.generator .python) w =
        .ok "./student.py" ∧
      ((Step.emitClass People.student.iri (some ".")).after (People.generator .python) w).files =
        w.files := by
  have htarget : (People.generator .python).target ≠ .javaScript := by decide
  have hschool : People.school.Rooted :=
    ⟨.inl (by decide), by decide +kernel, by simp [People.school]⟩
  have hstudent : People.student.iri ∈ (People.generator .python).classesToGenerate := by
    rw [People.classesToGenerate_eq]
    exact List.mem_cons_of_mem _ List.mem_cons_self
  obtain ⟨paths, hpaths⟩ := People.exists_paths
  refine ⟨⟨htarget, hschool, ⟨paths, hpaths⟩, hstudent⟩, ?_⟩
  intro w
  obtain ⟨c, path, text, shared, vocabulary, hdescribe, rfl, -, -, -, houtcome, -, hnamed, -, -,
    hkept⟩ := emitClass_of_generated htarget [] hschool hpaths hstudent
  have hdescribed := Generator.described_of_mem (People.ordered .python).described
    (List.mem_cons_of_mem _ List.mem_cons_self : People.student ∈ People.classes)
  obtain rfl := Except.ok.inj (hdescribe.symm.trans hdescribed)
  obtain rfl : vocabulary = "People" := (Option.some.inj hnamed).symm
  have hpath : FileTree.join ((People.generator .python).directoryFor (some "."))
      ((People.generator .python).classFile People.student) = "./student.py" := by decide +kernel
  rw [hpath] at houtcome
  exact ⟨houtcome, hkept (by decide)⟩

/-! ### A class in the file of the factory -/

namespace Factories

/-- There is one class, which is called as the factory is. -/
def statements : List Triple :=
  [⟨.iri ⟨"http://ex.org/a#PersonFactory"⟩, rdfType, .iri (owl "Class")⟩]

/-- A generator of Java code, where the name of the vocabulary starts as a path does. -/
def generator : Generator :=
  .make .java { plainSettings with vocabularyName := some "./Person" } (ontologyOf statements)

/-- The class. -/
def personFactory : ClassDescription := { iri := ⟨"http://ex.org/a#PersonFactory"⟩ }

/-- The style of the code. -/
def style : Style := ⟨generator.settings, "./Person", generator.indent⟩

/-- A directory to write into. -/
def work : FileTree := { root := "work", directories := [["out"]] }

theorem work_rooted : work.Rooted := ⟨.inl (by decide), by decide +kernel, by simp [work]⟩

/-- The name of the file of the factory is not that of the file of the class. -/
theorem generated_eq :
    generator.generated (some "out") [] =
      .ok [("PersonFactory.java", generator.classText style personFactory),
        ("./PersonFactory.java", generator.sharedText style [personFactory])] := by
  decide +kernel

theorem texts_ne : generator.classText style personFactory ≠
    generator.sharedText style [personFactory] := by
  decide +kernel

/-- Both files are written. -/
theorem exists_paths :
    ∃ paths, (Step.generate (some "out") []).outcome generator (session generator [] work) =
      .ok paths := by
  have hdirectory : work.isDirectory "out" = true := by decide +kernel
  have hcan : ∀ file ∈ OnFiles.inDirectory "out"
      [("PersonFactory.java", generator.classText style personFactory),
        ("./PersonFactory.java", generator.sharedText style [personFactory])],
      work.CanWrite file.1 := by
    intro file hfile
    have hpath : work.place? file.1 = some ["out", "PersonFactory.java"] := by
      rcases List.mem_pair.mp hfile with rfl | rfl <;> decide +kernel
    exact ⟨_, hpath, by decide +kernel, by decide +kernel⟩
  obtain ⟨left, hleft, -⟩ := FileTree.writeAll_ok hcan
  obtain ⟨paths, hpaths⟩ := OnFiles.run_saveIn hdirectory hleft
  refine ⟨paths, ?_⟩
  rw [Step.outcome_session]
  show ((OnFiles.saveIn "out" (generator.generated (some "out") [])).run.run work).1 = _
  rw [generated_eq]
  exact congrArg Prod.fst hpaths

/-- The class has one path, and the factory has another one that leads to the same place. -/
theorem exists_emits :
    ∃ c vocabulary place,
      Emits generator work (session generator [.generate (some "out") []] work).files (some "out")
        [] personFactory.iri c (generator.classText style personFactory) vocabulary
        (generator.sharedText style [personFactory]) place ∧
      FileTree.join "out" (generator.classFile c) = "out/PersonFactory.java" ∧
      work.place? (FileTree.join "out" (generator.sharedFile vocabulary)) = some place := by
  obtain ⟨paths, hpaths⟩ := exists_paths
  have hclass : personFactory.iri ∈ generator.classesToGenerate := by decide +kernel
  have hrun := @Step.run_session generator [] work (.generate (some "out") [])
  rw [hpaths] at hrun
  obtain ⟨c, text, vocabulary, shared, place, hemits⟩ :=
    @OntoCode.exists_emits generator work _ _ _ _ _ (by decide) work_rooted hrun hclass
  obtain ⟨files, hin, hfiles⟩ := hemits.generated
  have hboth : files ++ [(generator.sharedFile vocabulary, shared)] =
      [("PersonFactory.java", generator.classText style personFactory)] ++
        [("./PersonFactory.java", generator.sharedText style [personFactory])] :=
    Except.ok.inj (hfiles.symm.trans generated_eq)
  obtain ⟨rfl, hlast⟩ := List.append_inj' hboth rfl
  obtain ⟨hfile, rfl⟩ := Prod.mk.inj (List.mem_singleton.mp hin)
  obtain ⟨hfactory, rfl⟩ := Prod.mk.inj (List.singleton_inj.mp hlast)
  have hpath : FileTree.join "out" (generator.classFile c) = "out/PersonFactory.java" := by
    rw [hfile]
    decide +kernel
  refine ⟨c, vocabulary, place, hemits, hpath, ?_⟩
  have hsame : work.place? (FileTree.join "out" "./PersonFactory.java") =
      work.place? "out/PersonFactory.java" := by
    decide +kernel
  rw [hfactory, hsame, ← hpath]
  exact hemits.leads

end Factories

/-- A class is generated into the file of the factory, and generating it again brings it back. -/
theorem factory_is_replaced :
    ∃ paths, (Step.generate (some "out") []).outcome Factories.generator
        (session Factories.generator [] Factories.work) = .ok paths ∧
      Factories.personFactory.iri ∈ Factories.generator.classesToGenerate ∧
      let w := session Factories.generator [.generate (some "out") []] Factories.work
      let emit := Step.emitClass Factories.personFactory.iri (some "out")
      emit.outcome Factories.generator w = .ok "out/PersonFactory.java" ∧
        (emit.after Factories.generator w).files.read? "out/PersonFactory.java" ≠
          w.files.read? "out/PersonFactory.java" := by
  obtain ⟨paths, hpaths⟩ := Factories.exists_paths
  obtain ⟨c, vocabulary, place, hemits, hpath, hover⟩ := Factories.exists_emits
  refine ⟨paths, hpaths, by decide +kernel, ?_⟩
  intro w emit
  have hagain := @Step.run_session Factories.generator [.generate (some "out") []]
    Factories.work emit
  have hboth := hagain.symm.trans hemits.saved
  have hleft : (emit.after Factories.generator w).files = w.files.put place _ :=
    congrArg Prod.snd hboth
  obtain ⟨hbefore, hafter⟩ := hemits.read?_eq
  have hdirectory : Factories.generator.directoryFor (some "out") = "out" := rfl
  rw [hdirectory, hpath] at hbefore hafter hboth
  rw [if_pos hover] at hbefore
  refine ⟨congrArg Prod.fst hboth, ?_⟩
  rw [hleft, hafter, hbefore]
  exact fun heq => Factories.texts_ne (Option.some.inj heq)

end OntoCode
