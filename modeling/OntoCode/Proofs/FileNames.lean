/-
The names of generated files.

A file is written right into its directory, as no file name has a slash in it: names
of classes are made of letters, digits and underscores, changing the case of a text
makes no slash, and the name of the vocabulary is asked to have none.

The files of one run have different names.  Classes are refused of which two have one
name, or one module in Python; the file that names all classes must not be the file
of one of them; and reserved names are kept free.
-/
import OntoCode.Proofs.Effects
import OntoCode.Proofs.Hierarchy

namespace OntoCode

open OntoCode.Generate OntoCode.Naming OntoCode.Ontology OntoCode.Rdf OntoCode.Text

/-! ### Texts without a slash -/

namespace Text

theorem ofNat_ne_slash {n : Nat} (h : n ≠ 47) : Char.ofNat n ≠ '/' := by
  intro heq
  by_cases hvalid : n.isValidChar
  · rw [Char.ofNat, dif_pos hvalid] at heq
    exact h (congrArg Char.toNat heq)
  · rw [Char.ofNat, dif_neg hvalid] at heq
    exact absurd heq (by decide)

/-- A table of runs and one of longer results that have no slash among their results. -/
def SlashFree (table : List Run) (expansions : List (Nat × List Nat)) : Bool :=
  table.all (fun r => 47 < r.first + r.shift) && expansions.all fun e => !e.2.contains 47

theorem slash_not_mem_mapCase {table : List Run} {expansions : List (Nat × List Nat)}
    (h : SlashFree table expansions = true) {c : Char} (hc : c ≠ '/') :
    '/' ∉ mapCase table expansions c := by
  rw [SlashFree, Bool.and_eq_true, List.all_eq_true, List.all_eq_true] at h
  obtain ⟨hruns, hexpansions⟩ := h
  unfold mapCase
  split
  · rename_i r hr
    have hshift := of_decide_eq_true (hruns r (List.mem_of_find?_eq_some hr))
    have hfirst : r.first ≤ c.toNat := by
      have hhas := List.find?_some hr
      simp only [Run.has, Bool.and_eq_true, decide_eq_true_eq] at hhas
      exact hhas.1.1
    rw [List.mem_singleton]
    exact (ofNat_ne_slash (by omega)).symm
  · split
    · rename_i code result hresult
      have hfree := hexpansions _ (List.mem_of_find?_eq_some hresult)
      rw [Bool.not_eq_true', List.contains_eq_mem, decide_eq_false_iff_not] at hfree
      intro hin
      obtain ⟨n, hn, hslash⟩ := List.mem_map.mp hin
      exact ofNat_ne_slash (fun heq => hfree (heq ▸ hn)) hslash
    · simpa using hc.symm

theorem slash_not_mem_lowerChar {c : Char} (hc : c ≠ '/') : '/' ∉ lowerChar c := by
  unfold lowerChar
  split
  · split
    · rename_i hupper
      rw [Bool.and_eq_true, decide_eq_true_eq, decide_eq_true_eq] at hupper
      have hfirst : 65 ≤ c.toNat := hupper.1
      rw [List.mem_singleton]
      exact (ofNat_ne_slash (by omega)).symm
    · simpa using hc.symm
  · exact slash_not_mem_mapCase (by decide +kernel) hc

theorem slash_not_mem_upperChar {c : Char} (hc : c ≠ '/') : '/' ∉ upperChar c := by
  unfold upperChar
  split
  · split
    · rename_i hlower
      rw [Bool.and_eq_true, decide_eq_true_eq, decide_eq_true_eq] at hlower
      have hfirst : 97 ≤ c.toNat := hlower.1
      rw [List.mem_singleton]
      exact (ofNat_ne_slash (by omega)).symm
    · simpa using hc.symm
  · exact slash_not_mem_mapCase (by decide +kernel) hc

variable {s : List Char}

theorem slash_not_mem_lowerFrom (before : List Char) (h : '/' ∉ s) :
    '/' ∉ lowerFrom before s := by
  induction s generalizing before with
  | nil => simp [lowerFrom]
  | cons c rest ih =>
      rw [List.mem_cons, not_or] at h
      unfold lowerFrom
      rw [List.mem_append, not_or]
      refine ⟨?_, ih _ h.2⟩
      split
      · split <;> simp
      · exact slash_not_mem_lowerChar (Ne.symm h.1)

theorem slash_not_mem_upperFirst (h : '/' ∉ s) : '/' ∉ upperFirst s := by
  cases s with
  | nil => exact h
  | cons c rest =>
      rw [List.mem_cons, not_or] at h
      unfold upperFirst
      rw [List.mem_append, not_or]
      exact ⟨slash_not_mem_upperChar (Ne.symm h.1), h.2⟩

/-- Runs of characters are made of characters of the text. -/
theorem mem_of_mem_runs (keep : Char → Bool) : ∀ word ∈ runs keep s, ∀ c ∈ word, c ∈ s := by
  induction s with
  | nil => simp [runs]
  | cons first rest ih =>
      intro word hword c hc
      rw [List.mem_cons]
      unfold runs at hword
      split at hword
      · split at hword
        · rename_i before more hruns
          rw [hruns] at ih
          have hbefore := ih before List.mem_cons_self
          have hmore := fun word hin => ih word (List.mem_cons_of_mem before hin)
          split at hword
          · rcases List.mem_cons.mp hword with rfl | hin
            · exact (List.mem_cons.mp hc).imp_right (hbefore c)
            · exact .inr (hmore word hin c hc)
          · rcases List.mem_cons.mp hword with rfl | hin
            · exact .inl (List.mem_singleton.mp hc)
            · exact .inr (ih word hin c hc)
        · rw [List.mem_singleton.mp hword, List.mem_singleton] at hc
          exact .inl hc
      · exact .inr (ih word hword c hc)

end Text

namespace Naming

variable {s : List Char}

theorem slash_not_mem_sanitize (s : List Char) : '/' ∉ sanitize s := by
  have hkept : '/' ∉ s.map fun c => if isNameChar c then c else '_' := by
    intro hin
    obtain ⟨c, -, hc⟩ := List.mem_map.mp hin
    split at hc
    · rename_i hname
      rw [hc] at hname
      exact absurd hname (by decide)
    · exact absurd hc (by decide)
  unfold sanitize
  dsimp only
  split
  · decide
  · rename_i c rest heq
    rw [heq] at hkept
    split
    · rw [heq, List.mem_cons, not_or]
      exact ⟨by decide, hkept⟩
    · rw [heq]
      exact hkept

theorem slash_not_mem_pascalCase (h : '/' ∉ s) : '/' ∉ pascalCase s := by
  unfold pascalCase
  split
  · rename_i first second more hruns
    intro hin
    obtain ⟨word, hword, hslash⟩ := List.mem_flatMap.mp hin
    rw [← hruns] at hword
    exact slash_not_mem_upperFirst (fun hin => h (mem_of_mem_runs _ word hword _ hin)) hslash
  · exact slash_not_mem_upperFirst h

theorem slash_not_mem_splitWords (h : '/' ∉ s) : '/' ∉ splitWords s := by
  fun_induction splitWords s with
  | case1 c upper small rest hcapital word ih =>
      simp only [List.mem_cons, not_or] at h
      obtain ⟨hc, hupper, hsmall, hrest⟩ := h
      have hword : '/' ∉ word := fun hin => hrest ((List.takeWhile_sublist _).subset hin)
      have hleft := ih fun hin => hrest ((List.dropWhile_sublist _).subset hin)
      simp only [List.cons_append, List.mem_cons, List.mem_append, not_or]
      exact ⟨hc, by decide, hupper, hsmall, hword, hleft⟩
  | case2 c upper small rest hplain ih =>
      rw [List.mem_cons, not_or] at h ⊢
      exact ⟨h.1, ih h.2⟩
  | case3 short hshort => exact h

theorem slash_not_mem_splitHumps (h : '/' ∉ s) : '/' ∉ splitHumps s := by
  fun_induction splitHumps s with
  | case1 c upper rest hhump ih =>
      simp only [List.mem_cons, not_or] at h ⊢
      exact ⟨h.1, by decide, h.2.1, ih h.2.2⟩
  | case2 c upper rest hplain ih =>
      rw [List.mem_cons, not_or] at h ⊢
      exact ⟨h.1, ih h.2⟩
  | case3 short hshort => exact h

theorem slash_not_mem_snakeCase (h : '/' ∉ s) : '/' ∉ snakeCase s :=
  slash_not_mem_lowerFrom [] (slash_not_mem_splitHumps (slash_not_mem_splitWords h))

theorem slash_not_mem_className (iri : Iri) : '/' ∉ (className iri).toList := by
  rw [className, onText, String.toList_ofList, Function.comp_apply]
  exact slash_not_mem_pascalCase (slash_not_mem_sanitize _)

theorem slash_not_mem_pythonName {name : String} (h : '/' ∉ name.toList) :
    '/' ∉ (pythonName name).toList := by
  have hsnake : '/' ∉ (onText snakeCase name).toList := by
    rw [onText, String.toList_ofList]
    exact slash_not_mem_snakeCase h
  unfold pythonName pythonIdentifier
  split
  · rw [String.toList_append, List.mem_append, not_or]
    exact ⟨hsnake, by decide⟩
  · exact hsnake

end Naming

/-! ### Names of files -/

/-- A text with an ending is the name of a file. -/
theorem FileTree.isName_append {stem ending : String} (hstem : '/' ∉ stem.toList)
    (hending : '/' ∉ ending.toList) (hlong : 2 < ending.length) :
    FileTree.IsName (stem ++ ending) := by
  have hlength : 2 < (stem ++ ending).length := by
    rw [String.length_append]
    omega
  refine ⟨?_, fun h => ?_, fun h => ?_, fun h => ?_⟩
  · rw [String.toList_append, List.mem_append, not_or]
    exact ⟨hstem, hending⟩
  · rw [h] at hlength
    exact absurd hlength (by decide)
  · rw [h] at hlength
    exact absurd hlength (by decide)
  · rw [h] at hlength
    exact absurd hlength (by decide)

theorem Generate.Vocabulary.fileName_isName (language : VocabularyLanguage) {vocabulary : String}
    (h : '/' ∉ vocabulary.toList) : FileTree.IsName (fileName language vocabulary) := by
  cases language with
  | java => exact FileTree.isName_append h (by decide) (by decide)
  | python =>
      exact FileTree.isName_append (slash_not_mem_pythonName h) (by decide) (by decide)

/-! ### Described classes -/

/-- **A class is described** by the fields for the properties that it declares and by the
collections that it keeps, whose names have passed the check. -/
theorem Ontology.describe_ok {target : Target} {o : Ontology} {class_ : Iri} {c : ClassDescription}
    (h : describe target o class_ = .ok c) :
    ∃ properties fields, propertiesOf o.graph class_ .domain = .ok properties ∧
      properties.mapM (fun iri => fieldWith (inverseCollections target o)
        (propertyOf target o iri)) = .ok fields ∧
      inverseCollections target o class_ = .ok c.inverses ∧
      c = assemble o class_ fields c.inverses ∧ checkNames c [] c.fieldNames = .ok () := by
  obtain ⟨properties, hproperties, h⟩ := bind_eq_ok.mp h
  obtain ⟨fields, hfields, h⟩ := bind_eq_ok.mp h
  obtain ⟨inverses, hinverses, h⟩ := bind_eq_ok.mp h
  obtain ⟨⟨⟩, hcheck, h⟩ := bind_eq_ok.mp h
  cases h
  exact ⟨properties, fields, hproperties, hfields, hinverses, rfl, hcheck⟩

namespace Generator

variable {g : Generator} {classes : List ClassDescription}

theorem sharedFile_isName {vocabulary : String} (h : '/' ∉ vocabulary.toList) :
    FileTree.IsName (g.sharedFile vocabulary) := by
  unfold sharedFile
  cases g.target with
  | java => exact FileTree.isName_append h (by decide) (by decide)
  | python =>
      exact FileTree.isName_append (slash_not_mem_pythonName h) (by decide) (by decide)
  | javaScript => exact FileTree.isName_append h (by decide) (by decide)

theorem classFile_isName {c : ClassDescription} (h : c.name = className c.iri) :
    FileTree.IsName (g.classFile c) := by
  have hplain : '/' ∉ c.name.toList := h ▸ slash_not_mem_className c.iri
  unfold classFile
  cases g.target with
  | java => exact FileTree.isName_append hplain (by decide) (by decide)
  | python =>
      exact FileTree.isName_append (slash_not_mem_pythonName hplain) (by decide) (by decide)
  | javaScript => exact FileTree.isName_append hplain (by decide) (by decide)

/-! ### The described classes -/

/-- Checks that go through classes in order, and let no class pass that has the key of an earlier
one, find different keys. -/
theorem nodup_of_check {check : List ClassDescription → List ClassDescription → Except Failure Unit}
    {key : ClassDescription → String}
    (hstep : ∀ earlier c rest, check earlier (c :: rest) = .ok () →
      earlier.find? (fun e => key e = key c) = none ∧ check (earlier ++ [c]) rest = .ok ())
    {earlier : List ClassDescription} (hearlier : (earlier.map key).Nodup)
    (h : check earlier classes = .ok ()) : ((earlier ++ classes).map key).Nodup := by
  induction classes generalizing earlier with
  | nil => rwa [List.append_nil]
  | cons c rest ih =>
      obtain ⟨hfresh, hrest⟩ := hstep earlier c rest h
      rw [List.append_cons]
      refine ih ?_ hrest
      rw [List.map_append, List.map_singleton, List.nodup_append]
      refine ⟨hearlier, List.nodup_singleton _, fun name hname last hlast heq => ?_⟩
      obtain ⟨e, he, rfl⟩ := List.mem_map.mp hname
      rw [List.mem_singleton.mp hlast] at heq
      exact absurd (decide_eq_true heq) (List.find?_eq_none.mp hfresh e he)

/-- Classes that pass have different names. -/
theorem nodup_of_checkClassNames (h : checkClassNames [] classes = .ok ()) :
    (classes.map (·.name)).Nodup := by
  refine nodup_of_check (fun earlier c rest hcheck => ?_) (by simp) h
  unfold checkClassNames at hcheck
  cases hfind : earlier.find? (·.name = c.name) with
  | some other => simp [hfind] at hcheck
  | none => exact ⟨rfl, by simpa [hfind] using hcheck⟩

/-- Classes that pass have different modules. -/
theorem nodup_of_checkModules (h : checkModules [] classes = .ok ()) :
    (classes.map fun c => pythonName c.name).Nodup := by
  refine nodup_of_check (fun earlier c rest hcheck => ?_) (by simp) h
  unfold checkModules at hcheck
  cases hfind : earlier.find? fun e => pythonName e.name = pythonName c.name with
  | some other => simp [hfind] at hcheck
  | none => exact ⟨rfl, by simpa [hfind] using hcheck⟩

theorem iri_of_describe {target : Target} {o : Ontology} {class_ : Iri} {c : ClassDescription}
    (h : describe target o class_ = .ok c) : c.iri = class_ ∧ c.name = className class_ := by
  obtain ⟨_, _, -, -, -, hassembled, -⟩ := describe_ok h
  rw [hassembled]
  exact ⟨rfl, rfl⟩

/-- The classes are the ones that a generator describes. -/
structure Describes (g : Generator) (classes : List ClassDescription) : Prop where
  /-- All classes to generate are among them, each once, and no other. -/
  iris : (classes.map (·.iri)).Perm g.classesToGenerate
  /-- They are named after their IRIs. -/
  named : ∀ c ∈ classes, c.name = className c.iri
  /-- They have different names. -/
  distinct : (classes.map (·.name)).Nodup

theorem described_spec (h : g.described = .ok classes) : g.Describes classes := by
  obtain ⟨found, hfound, h⟩ := bind_eq_ok.mp h
  obtain ⟨⟨⟩, hcheck, h⟩ := bind_eq_ok.mp h
  cases h
  have hperm := Hierarchy.order_perm found
  obtain ⟨hiris, hdescribed⟩ :=
    results_of_mapM (fun class_ c hc => (iri_of_describe hc).1) hfound
  refine ⟨(hperm.map _).trans (by rw [hiris]), fun c hc => ?_,
    ((hperm.map _).nodup_iff).mpr (nodup_of_checkClassNames hcheck)⟩
  exact (iri_of_describe (hdescribed c (hperm.mem_iff.mp hc))).2

/-! ### The files of a generator -/

/-- The files that are made of classes: one for each class and one that names them all, or the
latter alone. -/
def files (g : Generator) (style : Style) (classes : List ClassDescription) : List CodeFile :=
  match g.target with
  | .javaScript => [(g.sharedFile style.vocabulary, g.sharedText style classes)]
  | .java | .python =>
    let extended := classes.map (g.extendable (classes.map (·.iri)))
    extended.map (fun c => (g.classFile c, g.classText style c)) ++
      [(g.sharedFile style.vocabulary, g.sharedText style extended)]

theorem iri_extendable (known : List Iri) (c : ClassDescription) :
    (g.extendable known c).iri = c.iri ∧ (g.extendable known c).name = c.name := by
  unfold extendable
  split
  · split <;> exact ⟨rfl, rfl⟩
  · exact ⟨rfl, rfl⟩

theorem classFile_extendable (known : List Iri) (c : ClassDescription) :
    g.classFile (g.extendable known c) = g.classFile c := by
  unfold classFile
  rw [(iri_extendable known c).2]

theorem files_isName (hdescribes : g.Describes classes) {style : Style}
    (h : '/' ∉ style.vocabulary.toList) :
    ∀ file ∈ g.files style classes, FileTree.IsName file.1 := by
  have hentities : ∀ file ∈ (classes.map (g.extendable (classes.map (·.iri)))).map
      (fun c => (g.classFile c, g.classText style c)) ++
        [(g.sharedFile style.vocabulary,
          g.sharedText style (classes.map (g.extendable (classes.map (·.iri)))))],
      FileTree.IsName file.1 := by
    intro file hfile
    rcases List.mem_append.mp hfile with hin | hin
    · obtain ⟨extended, hextended, rfl⟩ := List.mem_map.mp hin
      obtain ⟨c, hc, rfl⟩ := List.mem_map.mp hextended
      show FileTree.IsName (g.classFile (g.extendable _ c))
      rw [classFile_extendable]
      exact classFile_isName (hdescribes.named c hc)
    · rw [List.mem_singleton.mp hin]
      exact sharedFile_isName h
  unfold files
  cases g.target with
  | java => exact hentities
  | python => exact hentities
  | javaScript =>
      intro file hfile
      rw [List.mem_singleton.mp hfile]
      exact sharedFile_isName h

/-- Classes that pass the checks have different files. -/
theorem nodup_classFiles (hdescribes : g.Describes classes)
    (h : g.target = .python → checkModules [] classes = .ok ()) :
    (classes.map g.classFile).Nodup := by
  have hending : ∀ ending : String, Function.Injective fun stem : String => stem ++ ending := by
    intro ending a b heq
    rw [← String.toList_inj, String.toList_append, String.toList_append] at heq
    exact String.toList_inj.mp (List.append_cancel_right heq)
  have hnames := hdescribes.distinct.map (hending ".java")
  unfold classFile
  cases htarget : g.target with
  | java => rwa [List.map_map] at hnames
  | javaScript => rwa [List.map_map] at hnames
  | python =>
      have hmodules := (nodup_of_checkModules (h htarget)).map (hending ".py")
      rwa [List.map_map] at hmodules

theorem entityFiles_ok {style : Style} {files : List CodeFile}
    (hclasses : (classes.map g.classFile).Nodup) (h : g.entityFiles style classes = .ok files) :
    files = (classes.map (g.extendable (classes.map (·.iri)))).map
        (fun c => (g.classFile c, g.classText style c)) ++
        [(g.sharedFile style.vocabulary,
          g.sharedText style (classes.map (g.extendable (classes.map (·.iri)))))] ∧
      (files.map (·.1)).Nodup := by
  unfold entityFiles at h
  dsimp only at h
  split at h
  · cases h
  · rename_i hshared
    cases h
    refine ⟨rfl, ?_⟩
    have hfiles : ((classes.map (g.extendable (classes.map (·.iri)))).map
        (fun c => (g.classFile c, g.classText style c))).map (·.1) = classes.map g.classFile := by
      rw [List.map_map, List.map_map]
      exact List.map_congr_left fun c _ => classFile_extendable _ c
    rw [List.map_append, hfiles, List.nodup_append]
    refine ⟨hclasses, List.nodup_singleton _, fun name hname last hlast heq => ?_⟩
    rw [← hfiles] at hname
    obtain ⟨file, hfile, rfl⟩ := List.mem_map.mp hname
    rw [List.map_singleton, List.mem_singleton] at hlast
    exact hshared (List.any_eq_true.mpr ⟨file, hfile, decide_eq_true (heq.trans hlast)⟩)

theorem renderedEntities_ok {found : List CodeFile} (h : g.renderedEntities classes = .ok found) :
    (g.target = .python → checkModules [] classes = .ok ()) ∧
      ∃ style, g.style? = .ok style ∧ g.entityFiles style classes = .ok found := by
  unfold renderedEntities at h
  split at h
  · obtain ⟨⟨⟩, hcheck, h⟩ := bind_eq_ok.mp h
    exact ⟨fun _ => hcheck, bind_eq_ok.mp h⟩
  · rename_i hother
    exact ⟨fun htarget => absurd htarget hother, bind_eq_ok.mp h⟩

/-- **Rendered files have different names.** -/
theorem rendered_ok {found : List CodeFile} (hdescribes : g.Describes classes)
    (h : g.rendered classes = .ok found) :
    ∃ style, g.style? = .ok style ∧ found = g.files style classes ∧ (found.map (·.1)).Nodup := by
  have hentities : g.renderedEntities classes = .ok found →
      ∃ style, g.style? = .ok style ∧ g.entityFiles style classes = .ok found ∧
        (classes.map g.classFile).Nodup := by
    intro hfound
    obtain ⟨hmodules, style, hstyle, hfiles⟩ := renderedEntities_ok hfound
    exact ⟨style, hstyle, hfiles, nodup_classFiles hdescribes hmodules⟩
  unfold rendered at h
  unfold files
  cases htarget : g.target with
  | java =>
      rw [htarget] at h
      obtain ⟨style, hstyle, hfiles, hclasses⟩ := hentities h
      exact ⟨style, hstyle, entityFiles_ok hclasses hfiles⟩
  | python =>
      rw [htarget] at h
      obtain ⟨style, hstyle, hfiles, hclasses⟩ := hentities h
      exact ⟨style, hstyle, entityFiles_ok hclasses hfiles⟩
  | javaScript =>
      rw [htarget] at h
      obtain ⟨style, hstyle, hfiles⟩ := bind_eq_ok.mp h
      cases hfiles
      exact ⟨style, hstyle, rfl, List.nodup_singleton _⟩

/-- Files that pass are not reserved. -/
theorem unreserved_ok {directory : String} {reserved : List String} {files found : List CodeFile}
    (h : g.unreserved directory reserved files = .ok found) :
    found = files ∧ ∀ file ∈ files, file.1 ∉ reserved := by
  unfold unreserved at h
  dsimp only at h
  split at h
  · rename_i hnone
    cases h
    refine ⟨rfl, fun file hfile hreserved => ?_⟩
    have hclash : file.1 ∈ sortByTexts (fun n => [n])
        ((files.map (·.1)).eraseDups.filter fun name => reserved.contains name) := by
      rw [mem_sortByTexts, List.mem_filter, List.mem_eraseDups]
      exact ⟨List.mem_map_of_mem hfile, List.contains_iff_mem.mpr hreserved⟩
    rw [List.isEmpty_iff.mp hnone] at hclash
    exact absurd hclash List.not_mem_nil
  · cases h

/-- **Generated files have different names, none of which is reserved.** -/
theorem generated_ok {directory : Option String} {reserved : List String} {found : List CodeFile}
    (h : g.generated directory reserved = .ok found) :
    ∃ classes style, g.described = .ok classes ∧ g.style? = .ok style ∧
      found = g.files style classes ∧ (found.map (·.1)).Nodup ∧
        ∀ file ∈ found, file.1 ∉ reserved := by
  obtain ⟨classes, hclasses, h⟩ := bind_eq_ok.mp h
  obtain ⟨rendered, hrendered, h⟩ := bind_eq_ok.mp h
  obtain ⟨rfl, hfree⟩ := unreserved_ok h
  obtain ⟨style, hstyle, hfiles, hnodup⟩ := rendered_ok (described_spec hclasses) hrendered
  exact ⟨classes, style, hclasses, hstyle, hfiles, hnodup, hfree⟩

end Generator

end OntoCode
