/-
What is going to be written for an ontology.

Before anything is written it is known what: a plan has the paths and the texts of all
files, those of the classes, of the factory and of the vocabulary.  All of them are
right inside of directories.  Files in one directory are told apart by their names, the
one of the vocabulary being kept free in the directory of the classes if it is its own.

Whether it is its own is judged by the paths of the two directories.  Where only one of
them starts with two slashes they count as two, and nothing keeps the vocabulary from
taking the place of a class.  No two files are at one place in any other case.
-/
import OntoCode.Proofs.FileNames

namespace OntoCode

open OntoCode.Generate OntoCode.Ontology OntoCode.FileTree OntoCode.OnFiles

/-! ### Plans -/

namespace Generator

variable (g : Generator)

/-- The language of the vocabulary that goes with the classes; creators do without one. -/
def vocabularyLanguage? : Option VocabularyLanguage :=
  match g.target with
  | .java => some .java
  | .python => some .python
  | .javaScript => none

/-- The paths and texts of the classes and of the factory. -/
def classArtifacts (style : Style) (classes : List ClassDescription) : List (String × String) :=
  inDirectory g.settings.effectiveClassDir (g.files style classes)

/-- The path and text of the vocabulary, if there is one. -/
def vocabularyArtifacts (style : Style) : List (String × String) :=
  inDirectory g.settings.vocabularyDir
    (g.vocabularyLanguage?.map fun language =>
      OntoCode.Vocabulary.file language g.ontology style).toList

/-- **The paths and texts of all files that are generated for classes.** -/
def artifacts (style : Style) (classes : List ClassDescription) : List (String × String) :=
  g.classArtifacts style classes ++ g.vocabularyArtifacts style

/-- **The vocabulary takes the place of another file.**  It has the name of that file and the same
directory, but only one of the paths of the directory starts with two slashes. -/
def Overwrites (t : FileTree) (style : Style) (classes : List ClassDescription) : Prop :=
  ∃ language, g.vocabularyLanguage? = some language ∧
    t.place? g.settings.vocabularyDir = t.place? g.settings.effectiveClassDir ∧
    t.startsTwice g.settings.vocabularyDir ≠ t.startsTwice g.settings.effectiveClassDir ∧
    Generate.Vocabulary.fileName language style.vocabulary ∈ (g.files style classes).map (·.1)

/-- What classes and a vocabulary of a language come down to. -/
def plannedEntities (language : VocabularyLanguage) (t : FileTree) :
    Except Failure (List (String × String)) := do
  let s := g.settings
  let name ← OntoCode.Vocabulary.name? s
  let shared := t.sameSpelling s.vocabularyDir s.effectiveClassDir
  let entities ← g.generated none
    (if shared then [Generate.Vocabulary.fileName language name] else [])
  let vocabulary ← OntoCode.Vocabulary.rendered language s g.ontology
  return inDirectory s.effectiveClassDir entities ++ inDirectory s.vocabularyDir [vocabulary]

/-- **The paths and texts that a generator is going to write,** or the reason why there are none. -/
def planned (t : FileTree) : Except Failure (List (String × String)) :=
  match g.vocabularyLanguage? with
  | some language => g.plannedEntities language t
  | none => do return inDirectory g.settings.effectiveClassDir (← g.generated none [])

variable {g} {t : FileTree} {style : Style} {classes : List ClassDescription}

theorem ne_javaScript (h : g.vocabularyLanguage?.isSome) : g.target ≠ .javaScript := by
  intro htarget
  rw [vocabularyLanguage?, htarget] at h
  cases h

theorem vocabularyArtifacts_some {language : VocabularyLanguage}
    (h : g.vocabularyLanguage? = some language) :
    g.vocabularyArtifacts style = inDirectory g.settings.vocabularyDir
      [OntoCode.Vocabulary.file language g.ontology style] := by
  rw [vocabularyArtifacts, h]
  rfl

theorem vocabularyArtifacts_none (h : g.vocabularyLanguage? = none) :
    g.vocabularyArtifacts style = [] := by
  rw [vocabularyArtifacts, h]
  rfl

theorem length_files :
    (g.files style classes).length = if g.target = .javaScript then 1 else classes.length + 1 := by
  unfold files
  cases g.target <;> simp

theorem length_artifacts :
    (g.artifacts style classes).length =
      if g.target = .javaScript then 1 else classes.length + 2 := by
  unfold artifacts classArtifacts vocabularyArtifacts inDirectory vocabularyLanguage?
  rw [List.length_append, List.length_map, List.length_map, length_files]
  cases g.target <;> simp

/-- A plan for a generator: the artifacts of the described classes, right inside of directories, and
at different places unless one takes the place of another. -/
structure Plans (g : Generator) (t : FileTree) (classes : List ClassDescription) (style : Style)
    (texts : List (String × String)) : Prop where
  described : g.described = .ok classes
  styled : g.style? = .ok style
  artifacts : texts = g.artifacts style classes
  /-- The classes and the factory lie at different places. -/
  beside : ((g.classArtifacts style classes).map fun file => t.place? file.1).Nodup
  apart : (texts.map fun file => t.place? file.1).Nodup ↔ ¬ g.Overwrites t style classes
  /-- What the vocabulary takes is the place of one of them. -/
  taken : g.Overwrites t style classes → ∃ lost ∈ g.classArtifacts style classes,
    ∀ last ∈ g.vocabularyArtifacts style, t.place? last.1 = t.place? lost.1
  inside : ∀ file ∈ texts, t.IsInside file.1

end Generator

namespace OnFiles

variable {t : FileTree} {directory : String} {place : Place} {files : List Generator.CodeFile}

/-- Files lie side by side in their directory. -/
theorem places_inDirectory (ht : t.Rooted) (hplace : t.place? directory = some place)
    (hdirectory : t.hasDirectory place = true) (hnames : ∀ file ∈ files, IsName file.1) :
    ((inDirectory directory files).map fun file => t.place? file.1) =
      (files.map (·.1)).map fun name => some (place ++ [name]) := by
  rw [inDirectory, List.map_map, List.map_map]
  exact List.map_congr_left fun file hfile =>
    place?_join ht (hnames file hfile) hplace hdirectory

theorem nodup_inDirectory (ht : t.Rooted) (hdirectory : t.isDirectory directory = true)
    (hnames : ∀ file ∈ files, IsName file.1) (hnodup : (files.map (·.1)).Nodup) :
    ((inDirectory directory files).map fun file => t.place? file.1).Nodup := by
  obtain ⟨place, hplace, hhas⟩ := (Option.any_eq_true _ _).mp hdirectory
  rw [places_inDirectory ht hplace hhas hnames]
  refine hnodup.map fun a b heq => ?_
  simpa using heq

/-- Another file keeps apart from the files in a directory, unless it has the name of one of them
and the same directory. -/
theorem nodup_inDirectory_append (ht : t.Rooted) (hdirectory : t.isDirectory directory = true)
    (hnames : ∀ file ∈ files, IsName file.1) (hnodup : (files.map (·.1)).Nodup)
    {other : String} {last : Generator.CodeFile} (hother : t.isDirectory other = true)
    (hlast : IsName last.1) :
    ((inDirectory directory files ++ inDirectory other [last]).map fun file =>
        t.place? file.1).Nodup ↔
      ¬ (t.place? other = t.place? directory ∧ last.1 ∈ files.map (·.1)) := by
  obtain ⟨here, hhere, hhas⟩ := (Option.any_eq_true _ _).mp hdirectory
  obtain ⟨there, hthere, hholds⟩ := (Option.any_eq_true _ _).mp hother
  have hone : ∀ file ∈ [last], IsName file.1 := by
    intro file hfile
    rwa [List.mem_singleton.mp hfile]
  have hfirst := nodup_inDirectory ht hdirectory hnames hnodup
  rw [places_inDirectory ht hhere hhas hnames] at hfirst
  rw [List.map_append, places_inDirectory ht hhere hhas hnames,
    places_inDirectory ht hthere hholds hone, List.nodup_append, hhere, hthere]
  simp only [List.map_singleton, List.nodup_singleton, true_and, hfirst, List.mem_singleton,
    Option.some.injEq]
  constructor
  · rintro hdisjoint ⟨rfl, hin⟩
    exact hdisjoint _ (List.mem_map.mpr ⟨_, hin, rfl⟩) _ rfl rfl
  · rintro hapart _ hin _ rfl rfl
    obtain ⟨name, hname, heq⟩ := List.mem_map.mp hin
    obtain ⟨rfl, hsame⟩ := List.append_inj' (Option.some.inj heq) rfl
    exact hapart ⟨rfl, (List.cons.inj hsame).1 ▸ hname⟩

/-- A path to the name of a file, through a path to its directory, leads to this file. -/
theorem exists_at_place (ht : t.Rooted) (hdirectory : t.isDirectory directory = true)
    {other name : String} (hname : IsName name) (hsame : t.place? other = t.place? directory)
    (hin : name ∈ files.map (·.1)) :
    ∃ found ∈ inDirectory directory files, t.place? (join other name) = t.place? found.1 := by
  obtain ⟨place, hplace, hhas⟩ := (Option.any_eq_true _ _).mp hdirectory
  obtain ⟨file, hfile, rfl⟩ := List.mem_map.mp hin
  refine ⟨_, List.mem_map.mpr ⟨file, hfile, rfl⟩, ?_⟩
  rw [place?_join ht hname hplace hhas, place?_join ht hname (hsame.trans hplace) hhas]

theorem isInside_inDirectory (hdirectory : t.isDirectory directory = true)
    (hnames : ∀ file ∈ files, IsName file.1) :
    ∀ file ∈ inDirectory directory files, t.IsInside file.1 := by
  intro file hfile
  obtain ⟨found, hfound, rfl⟩ := List.mem_map.mp hfile
  exact ⟨directory, found.1, rfl, hdirectory, hnames found hfound⟩

end OnFiles

namespace Generator

variable {g : Generator} {t : FileTree} {texts : List (String × String)}

/-- The name of the vocabulary has no slash. -/
def PlainVocabulary (s : Settings) : Prop :=
  ∀ name, Settings.given? s.vocabularyName = some name → '/' ∉ name.toList

theorem style_eq {style : Style} (h : g.style? = .ok style) :
    Settings.given? g.settings.vocabularyName = some style.vocabulary ∧
      style = ⟨g.settings, style.vocabulary, g.indent⟩ := by
  unfold style? at h
  split at h
  · rename_i vocabulary hvocabulary
    cases h
    exact ⟨hvocabulary, rfl⟩
  · cases h

/-- The vocabulary is rendered in the style of the classes. -/
theorem rendered_vocabulary {language : VocabularyLanguage} {style : Style} {vocabulary : CodeFile}
    (hstyle : g.style? = .ok style) (hindent : g.indent = g.settings.indent)
    (h : OntoCode.Vocabulary.rendered language g.settings g.ontology = .ok vocabulary) :
    vocabulary = OntoCode.Vocabulary.file language g.ontology style := by
  obtain ⟨hgiven, hstyled⟩ := style_eq hstyle
  rw [OntoCode.Vocabulary.rendered, OntoCode.Vocabulary.name?, hgiven] at h
  rw [hstyled, hindent]
  exact (Except.ok.inj h).symm

/-- Where directories that are spelled alike keep the name of the vocabulary free, only another
spelling lets it take the place of a file. -/
theorem overwrites_iff {language : VocabularyLanguage} {style : Style}
    {classes : List ClassDescription} (ht : t.Rooted)
    (hclasses : t.isDirectory g.settings.effectiveClassDir = true)
    (hvocabulary : t.isDirectory g.settings.vocabularyDir = true)
    (hlanguage : g.vocabularyLanguage? = some language)
    (hfree : t.sameSpelling g.settings.vocabularyDir g.settings.effectiveClassDir = true →
      Generate.Vocabulary.fileName language style.vocabulary ∉
        (g.files style classes).map (·.1)) :
    g.Overwrites t style classes ↔
      t.place? g.settings.vocabularyDir = t.place? g.settings.effectiveClassDir ∧
        Generate.Vocabulary.fileName language style.vocabulary ∈
          (g.files style classes).map (·.1) := by
  obtain ⟨here, hhere, -⟩ := (Option.any_eq_true _ _).mp hclasses
  obtain ⟨there, hthere, -⟩ := (Option.any_eq_true _ _).mp hvocabulary
  have hspelled := sameSpelling_iff ht hthere hhere
  constructor
  · rintro ⟨other, hother, hsame, -, hin⟩
    obtain rfl := Option.some.inj (hlanguage.symm.trans hother)
    exact ⟨hsame, hin⟩
  · rintro ⟨hsame, hin⟩
    refine ⟨language, hlanguage, hsame, fun htwice => ?_, hin⟩
    rw [hthere, hhere, Option.some.injEq] at hsame
    exact hfree (hspelled.mpr ⟨hsame, htwice⟩) hin

/-- **Classes and a vocabulary are planned for different places, unless the vocabulary takes the
place of another file.** -/
theorem plannedEntities_ok {language : VocabularyLanguage} (ht : t.Rooted)
    (hclasses : t.isDirectory g.settings.effectiveClassDir = true)
    (hvocabulary : t.isDirectory g.settings.vocabularyDir = true)
    (hlanguage : g.vocabularyLanguage? = some language) (hindent : g.indent = g.settings.indent)
    (hplain : PlainVocabulary g.settings) (h : g.plannedEntities language t = .ok texts) :
    ∃ classes style, g.Plans t classes style texts := by
  obtain ⟨name, hname, h⟩ := bind_eq_ok.mp h
  obtain ⟨entities, hentities, h⟩ := bind_eq_ok.mp h
  obtain ⟨vocabulary, hrendered, h⟩ := bind_eq_ok.mp h
  cases h
  obtain ⟨classes, style, hdescribed, hstyle, rfl, hnodup, hfree⟩ := generated_ok hentities
  obtain ⟨hgiven, -⟩ := style_eq hstyle
  obtain rfl : style.vocabulary = name := by
    rw [OntoCode.Vocabulary.name?, hgiven] at hname
    exact Except.ok.inj hname
  obtain rfl := rendered_vocabulary hstyle hindent hrendered
  have hnames := files_isName (described_spec hdescribed) (hplain _ hgiven)
  have hlast : IsName (Generate.Vocabulary.fileName language style.vocabulary) :=
    Generate.Vocabulary.fileName_isName language (hplain _ hgiven)
  have hoverwrites : g.Overwrites t style classes ↔ _ :=
    overwrites_iff ht hclasses hvocabulary hlanguage fun hshared hin => by
      -- In one directory the file of the vocabulary is reserved.
      rw [if_pos hshared] at hfree
      obtain ⟨file, hfile, heq⟩ := List.mem_map.mp hin
      exact hfree file hfile (List.mem_singleton.mpr heq)
  have hvocabularyArtifacts : g.vocabularyArtifacts style = _ := vocabularyArtifacts_some hlanguage
  refine ⟨classes, style, hdescribed, hstyle, ?_, nodup_inDirectory ht hclasses hnames hnodup,
    ?_, fun htakes => ?_, ?_⟩
  · rw [artifacts, hvocabularyArtifacts, classArtifacts]
  · rw [hoverwrites]
    exact nodup_inDirectory_append ht hclasses hnames hnodup hvocabulary hlast
  · obtain ⟨hsame, hin⟩ := hoverwrites.mp htakes
    obtain ⟨lost, hlost, hplace⟩ := exists_at_place ht hclasses hlast hsame hin
    refine ⟨lost, hlost, fun last hmem => ?_⟩
    rw [hvocabularyArtifacts, inDirectory, List.map_singleton, List.mem_singleton] at hmem
    rw [hmem]
    exact hplace
  · intro file hfile
    rcases List.mem_append.mp hfile with hin | hin
    · exact isInside_inDirectory hclasses hnames file hin
    · refine isInside_inDirectory hvocabulary (fun last hin => ?_) file hin
      rwa [List.mem_singleton.mp hin]

/-- **What is planned are the artifacts of the described classes, each at a place of its own unless
the vocabulary takes the place of another.** -/
theorem planned_ok (ht : t.Rooted) (hclasses : t.isDirectory g.settings.effectiveClassDir = true)
    (hvocabulary : g.vocabularyLanguage?.isSome → t.isDirectory g.settings.vocabularyDir = true)
    (hindent : g.indent = g.settings.indent) (hplain : PlainVocabulary g.settings)
    (h : g.planned t = .ok texts) : ∃ classes style, g.Plans t classes style texts := by
  unfold planned at h
  cases hlanguage : g.vocabularyLanguage? with
  | some language =>
      rw [hlanguage] at h hvocabulary
      exact plannedEntities_ok ht hclasses (hvocabulary rfl) hlanguage hindent hplain h
  | none =>
      rw [hlanguage] at h
      obtain ⟨found, hfound, h⟩ := bind_eq_ok.mp h
      cases h
      obtain ⟨classes, style, hdescribed, hstyle, rfl, hnodup, -⟩ := generated_ok hfound
      have hnames := files_isName (described_spec hdescribed) (hplain _ (style_eq hstyle).1)
      have hbeside := nodup_inDirectory ht hclasses hnames hnodup
      have hnone : ¬ g.Overwrites t style classes := by
        rintro ⟨language, hsome, -⟩
        rw [hlanguage] at hsome
        cases hsome
      refine ⟨classes, style, hdescribed, hstyle, ?_, hbeside, iff_of_true hbeside hnone,
        fun htakes => absurd htakes hnone, isInside_inDirectory hclasses hnames⟩
      rw [artifacts, vocabularyArtifacts_none hlanguage, List.append_nil, classArtifacts]

end Generator

end OntoCode
