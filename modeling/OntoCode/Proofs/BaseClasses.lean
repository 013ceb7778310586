/-
The base classes of Python modules.

A module extends the class of the superclass where that is generated too, and imports
it from the module that is written for it; other classes extend the common base class
of all entities.  Which of them it is shows in two lines of the module: the one that
declares its class, and the one that imports what the class extends.

Following these imports goes from a class to its superclass.  As no two classes have
one module, that comes back to a module only if the superclass links run in a circle.
-/
import OntoCode.Proofs.Identifiers
import OntoCode.Proofs.InsertionOrder
import OntoCode.Proofs.Runs
import OntoCode.Proofs.Sessions
import OntoCode.Proofs.Superclasses

namespace OntoCode

open OntoCode.Generate OntoCode.Naming OntoCode.Ontology OntoCode.Rdf OntoCode.Text

namespace Generate.Python

/-! ### Reading a module -/

/-- Whether a line begins with a text. -/
def begins (text line : String) : Bool := text.toList.isPrefixOf line.toList

/-- The line of a module that declares its class. -/
def declaration? (code : Code) : Option String := code.find? (begins "class ")

/-- The imports in front of the class of a module; what is imported for type checkers only is
indented and none of them. -/
def moduleImports (code : Code) : Code :=
  (code.takeWhile fun line => !begins "class " line).filter (begins "from ")

/-- The import of what the class of a module extends: the last one but that of the vocabulary. -/
def baseImport? (code : Code) : Option String := (moduleImports code).dropLast.getLast?

/-- A line that imports a class from a module. -/
def importLine (module name : String) : String := "from " ++ module ++ " import " ++ name

/-- A line that declares a class and what it extends. -/
def classLine (name base : String) : String := "class " ++ name ++ "(" ++ base ++ "):"

/-- The imports that have nothing to do with other classes. -/
def libraryImports (c : ClassDescription) : Code :=
  ["from __future__ import annotations", "from rdflib import Graph, URIRef"] ++
  given ((literalProperties c).any (literalDatatype · ≠ "None"))
    ["from rdflib.namespace import XSD"] ++
  ["from typing_extensions import " ++ ", ".intercalate (typingNames c),
   "from " ++ pythonRuntimePackage ++ " import EntityFactory, TargetModel" ++
     (if usesLink c then ", link" else "")]

/-- The module and the name of what a class extends. -/
def base (style : Style) (c : ClassDescription) : String × String :=
  match c.superclassName? with
  | some name => (moduleOf style name, name)
  | none => (pythonRuntimePackage, "RDFEntity")

section Reading

variable {style : Style} {c : ClassDescription}

theorem forall_mem_given {condition : Bool} {code : Code} {p : String → Prop} :
    (∀ line ∈ given condition code, p line) ↔ condition = true → ∀ line ∈ code, p line := by
  cases condition <;> simp [given]

theorem filter_given (p : String → Bool) (condition : Bool) (code : Code) :
    (given condition code).filter p = given condition (code.filter p) := by
  cases condition <;> rfl

/-- The imports with the line for the base class told apart. -/
theorem importLines_eq (style : Style) (c : ClassDescription) :
    importLines style c =
      ["from __future__ import annotations", ""] ++
      given ((literalProperties c).any (·.elementType.startsWith "datetime."))
        ["import datetime", ""] ++
      ["from rdflib import Graph, URIRef"] ++
      given ((literalProperties c).any (literalDatatype · ≠ "None"))
        ["from rdflib.namespace import XSD"] ++
      ["from typing_extensions import " ++ ", ".intercalate (typingNames c),
       "",
       "from " ++ pythonRuntimePackage ++ " import EntityFactory, TargetModel" ++
         (if usesLink c then ", link" else ""),
       importLine (base style c).1 (base style c).2,
       importLine (vocabularyModule style) (vocabularyClass style)] ++
      given (!(typeImports c).isEmpty)
        (["", "if TYPE_CHECKING:"] ++ (typeImports c).map fun name =>
          "    from " ++ moduleOf style name ++ " import " ++ name) ++
      ["", ""] := by
  unfold importLines base
  cases c.superclassName? <;> rfl

/-- No import looks like the declaration of a class. -/
theorem not_begins_class (style : Style) (c : ClassDescription) :
    ∀ line ∈ importLines style c, begins "class " line = false := by
  simp only [importLines_eq, List.forall_mem_append, List.forall_mem_cons, forall_mem_given,
    List.forall_mem_map]
  simp [begins, List.isPrefixOf, importLine]

/-- What stands at the left edge in front of the class. -/
theorem filter_importLines :
    (importLines style c).filter (begins "from ") =
      libraryImports c ++ [importLine (base style c).1 (base style c).2,
        importLine (vocabularyModule style) (vocabularyClass style)] := by
  have htypes : ((typeImports c).map fun name =>
      "    from " ++ moduleOf style name ++ " import " ++ name).filter (begins "from ") = [] := by
    refine List.filter_eq_nil_iff.mpr fun line hline => ?_
    obtain ⟨name, -, rfl⟩ := List.mem_map.mp hline
    simp [begins, List.isPrefixOf]
  rw [importLines_eq]
  simp only [List.filter_append, filter_given, htypes, libraryImports]
  simp [begins, List.isPrefixOf, importLine, given]

/-- After the imports a module declares its class. -/
theorem exists_body (style : Style) (c : ClassDescription) :
    ∃ body, classLines style c =
      importLines style c ++ classLine c.name (base style c).2 :: body := by
  have hline : "class " ++ c.name ++ "(" ++ c.superclassName?.getD "RDFEntity" ++ "):" =
      classLine c.name (base style c).2 := by
    unfold base
    cases c.superclassName? <;> rfl
  unfold classLines
  rw [hline]
  simp only [List.append_assoc, List.cons_append, List.nil_append]
  exact ⟨_, rfl⟩

theorem begins_classLine (name base : String) : begins "class " (classLine name base) = true := by
  simp [begins, classLine]

/-- **A module declares its class with the name of what it extends.** -/
theorem declaration?_classLines :
    declaration? (classLines style c) = some (classLine c.name (base style c).2) := by
  obtain ⟨body, hbody⟩ := exists_body style c
  have himports : (importLines style c).find? (begins "class ") = none :=
    List.find?_eq_none.mpr fun line hline => by rw [not_begins_class style c line hline]; simp
  rw [declaration?, hbody, List.find?_append, himports, Option.none_or,
    List.find?_cons_of_pos (begins_classLine _ _)]

/-- **A module imports what its class extends, besides what all modules import.** -/
theorem moduleImports_classLines :
    moduleImports (classLines style c) =
      libraryImports c ++ [importLine (base style c).1 (base style c).2,
        importLine (vocabularyModule style) (vocabularyClass style)] := by
  obtain ⟨body, hbody⟩ := exists_body style c
  have hnone : ∀ line ∈ importLines style c, (!begins "class " line) = true :=
    fun line hline => by rw [not_begins_class style c line hline]; rfl
  rw [moduleImports, hbody, List.takeWhile_append_of_pos hnone,
    List.takeWhile_cons_of_neg (by simp [begins_classLine]), List.append_nil, filter_importLines]

theorem baseImport?_classLines :
    baseImport? (classLines style c) =
      some (importLine (base style c).1 (base style c).2) := by
  rw [baseImport?, moduleImports_classLines]
  simp

end Reading

/-! ### Telling import lines apart -/

/-- A text is told apart by what stands before and behind its last blank. -/
theorem eq_of_append_blank {before after first second : List Char}
    (hfirst : ' ' ∉ first) (hsecond : ' ' ∉ second)
    (h : before ++ ' ' :: first = after ++ ' ' :: second) : before = after ∧ first = second := by
  rcases List.append_eq_append_iff.mp h with ⟨between, hafter, htail⟩ | ⟨between, hbefore, htail⟩
  · cases between with
    | nil => exact ⟨by rw [hafter, List.append_nil], (List.cons.inj htail).2⟩
    | cons c rest =>
        refine absurd ?_ hfirst
        rw [(List.cons.inj htail).2]
        simp
  · cases between with
    | nil => exact ⟨by rw [hbefore, List.append_nil], (List.cons.inj htail).2.symm⟩
    | cons c rest =>
        refine absurd ?_ hsecond
        rw [(List.cons.inj htail).2]
        simp

/-- Import lines are told apart by the modules and by the names, which have no blank. -/
theorem importLine_inj {module other name second : String} (hname : ' ' ∉ name.toList)
    (hsecond : ' ' ∉ second.toList) (h : importLine module name = importLine other second) :
    module = other ∧ name = second := by
  have hsplit : ∀ module name : String, (importLine module name).toList =
      ("from ".toList ++ module.toList ++ " import".toList) ++ ' ' :: name.toList := by
    intro module name
    simp [importLine]
  have hlists := congrArg String.toList h
  rw [hsplit, hsplit] at hlists
  obtain ⟨hbefore, hnames⟩ := eq_of_append_blank hname hsecond hlists
  exact ⟨String.toList_inj.mp (List.append_cancel_left (List.append_cancel_right hbefore)),
    String.toList_inj.mp hnames⟩

end Generate.Python

namespace Generator

open Generate.Python

variable {g : Generator} {style : Style} {classes : List ClassDescription}
  {b c d : ClassDescription}

/-! ### The modules of a generator -/

/-- The code of the module of a class that is generated among others. -/
def moduleCode (g : Generator) (style : Style) (classes : List ClassDescription)
    (c : ClassDescription) : Code :=
  Python.classLines style (g.extendable (classes.map (·.iri)) c)

/-- A class extends the class of its superclass, from the module that is named after it. -/
theorem base_of_below (h : g.Describes classes) (hbelow : Hierarchy.Below classes c b) :
    base style (g.extendable (classes.map (·.iri)) c) = (moduleOf style b.name, b.name) := by
  have hknown : (classes.map (·.iri)).contains b.iri = true :=
    List.contains_iff_mem.mpr (List.mem_map_of_mem hbelow.2.1)
  have hkept : g.extendable (classes.map (·.iri)) c = c := by
    unfold extendable
    rw [hbelow.2.2]
    split
    · rename_i superclass _ heq
      cases heq
      rw [if_pos hknown]
    · rfl
  rw [hkept, base, h.superclassName_of_below hbelow]

/-- A class without a superclass that is generated extends the common base class. -/
theorem base_of_not_below (hpython : g.target = .python)
    (h : ∀ b ∈ classes, c.superclass ≠ some b.iri) :
    base style (g.extendable (classes.map (·.iri)) c) = (pythonRuntimePackage, "RDFEntity") := by
  have hnone : (g.extendable (classes.map (·.iri)) c).superclass = none := by
    unfold extendable
    rw [hpython]
    cases hsuper : c.superclass with
    | none => exact hsuper
    | some superclass =>
        have hknown : ¬ (classes.map (·.iri)).contains superclass = true := by
          rw [List.contains_iff_mem]
          intro hin
          obtain ⟨b, hb, rfl⟩ := List.mem_map.mp hin
          exact h b hb hsuper
        show (if (classes.map (·.iri)).contains superclass then c
          else { c with superclass := none }).superclass = none
        rw [if_neg hknown]
  rw [base, ClassDescription.superclassName?, hnone, Option.map_none]

/-- The module of a class imports what the class extends from the module of another one. -/
def ImportsBase (g : Generator) (style : Style) (classes : List ClassDescription)
    (module other : String) : Prop :=
  ∃ c ∈ classes, ∃ b ∈ classes, module = moduleOf style c.name ∧ other = moduleOf style b.name ∧
    baseImport? (g.moduleCode style classes c) = some (importLine other b.name)

theorem Describes.blank_not_mem (h : g.Describes classes) (hc : c ∈ classes) :
    ' ' ∉ c.name.toList := by
  rw [h.named c hc]
  intro hin
  exact absurd (isNameText_className c.iri ' ' hin) (by decide)

/-- The common base class is not in a module that is named after it. -/
theorem moduleOf_ne_runtime : moduleOf style "RDFEntity" ≠ pythonRuntimePackage := by
  have hname : pythonName "RDFEntity" = "rdf_entity" := by decide +kernel
  rw [moduleOf, hname, qualified]
  split
  · decide
  · intro heq
    have hlast := congrArg (fun s : String => s.toList.getLast?) heq
    simp [pythonRuntimePackage] at hlast

/-- Base imports lead from a class to its superclass. -/
theorem below_of_baseImport (h : g.Describes classes) (hpython : g.target = .python)
    (hc : c ∈ classes) (hb : b ∈ classes)
    (hline : baseImport? (g.moduleCode style classes c) =
      some (importLine (moduleOf style b.name) b.name)) :
    Hierarchy.Below classes c b := by
  rw [moduleCode, baseImport?_classLines, Option.some.injEq] at hline
  by_cases hfound : ∃ d ∈ classes, c.superclass = some d.iri
  · obtain ⟨d, hd, hsuper⟩ := hfound
    rw [base_of_below h ⟨hc, hd, hsuper⟩] at hline
    obtain ⟨-, hname⟩ := importLine_inj (h.blank_not_mem hd) (h.blank_not_mem hb) hline
    obtain rfl := h.eq_of_name hd hb hname
    exact ⟨hc, hd, hsuper⟩
  · rw [base_of_not_below hpython fun d hd hsuper => hfound ⟨d, hd, hsuper⟩] at hline
    obtain ⟨hmodule, hname⟩ := importLine_inj (by decide) (h.blank_not_mem hb) hline
    rw [← hname] at hmodule
    exact absurd hmodule.symm moduleOf_ne_runtime

/-- Classes that pass the check are in different modules, whatever the package. -/
theorem moduleOf_inj (h : checkModules [] classes = .ok ()) (hc : c ∈ classes) (hd : d ∈ classes)
    (heq : moduleOf style c.name = moduleOf style d.name) : c = d := by
  have hname : pythonName c.name = pythonName d.name := by
    simp only [moduleOf, qualified] at heq
    split at heq
    · exact heq
    · have hlists := congrArg String.toList heq
      simp only [String.toList_append] at hlists
      exact String.toList_inj.mp (List.append_cancel_left hlists)
  exact List.inj_on_of_nodup_map (nodup_of_checkModules h) hc hd hname

/-- **Following base imports never comes back to a module,** if nothing is reported about the order
of the classes. -/
theorem not_importsBase_cycle (h : g.Ordered classes) (hpython : g.target = .python)
    (hmodules : checkModules [] classes = .ok ()) (module : String) :
    ¬ Relation.TransGen (g.ImportsBase style classes) module module := by
  have hstep : ∀ {module other}, g.ImportsBase style classes module other →
      ∀ c ∈ classes, moduleOf style c.name = module →
        ∃ b ∈ classes, moduleOf style b.name = other ∧ Hierarchy.Below classes c b := by
    rintro module other ⟨d, hd, b, hb, rfl, rfl, hline⟩ c hc heq
    obtain rfl := moduleOf_inj hmodules hc hd heq
    exact ⟨b, hb, rfl, below_of_baseImport h.describes hpython hc hb hline⟩
  have hchain : ∀ {other}, Relation.TransGen (g.ImportsBase style classes) module other →
      ∀ c ∈ classes, moduleOf style c.name = module →
        ∃ b ∈ classes, moduleOf style b.name = other ∧
          Relation.TransGen (Hierarchy.Below classes) c b := by
    intro other hpath c hc heq
    induction hpath with
    | single hlast =>
        obtain ⟨b, hb, hbase, hbelow⟩ := hstep hlast c hc heq
        exact ⟨b, hb, hbase, .single hbelow⟩
    | tail _ hlast ih =>
        obtain ⟨d, hd, hmiddle, habove⟩ := ih
        obtain ⟨b, hb, hbase, hbelow⟩ := hstep hlast d hd hmiddle
        exact ⟨b, hb, hbase, habove.tail hbelow⟩
  intro hcycle
  obtain ⟨c, hc, heq⟩ : ∃ c ∈ classes, moduleOf style c.name = module := by
    obtain ⟨-, ⟨c, hc, -, -, hmodule, -⟩, -⟩ := Relation.TransGen.head'_iff.mp hcycle
    exact ⟨c, hc, hmodule.symm⟩
  obtain ⟨b, hb, hback, habove⟩ := hchain hcycle c hc heq
  obtain rfl := moduleOf_inj hmodules hb hc (hback.trans heq.symm)
  exact h.not_cyclic ⟨b, habove⟩

/-- Python code is only generated for classes in different modules. -/
theorem modules_of_generated (hpython : g.target = .python) {directory : Option String}
    {reserved : List String} {found : List CodeFile}
    (h : g.generated directory reserved = .ok found) (hclasses : g.described = .ok classes) :
    checkModules [] classes = .ok () := by
  obtain ⟨described, hdescribed, h⟩ := bind_eq_ok.mp h
  obtain ⟨rendered, hrendered, -⟩ := bind_eq_ok.mp h
  obtain rfl := Except.ok.inj (hdescribed.symm.trans hclasses)
  rw [Generator.rendered, hpython] at hrendered
  exact (renderedEntities_ok hrendered).1 hpython

theorem files_python (hpython : g.target = .python) (hc : c ∈ classes) :
    (pythonName c.name ++ ".py", textOf (g.moduleCode style classes c)) ∈ g.files style classes := by
  have hfile : g.classFile (g.extendable (classes.map (·.iri)) c) = pythonName c.name ++ ".py" := by
    rw [classFile_extendable, classFile, hpython]
  have htext : g.classText style (g.extendable (classes.map (·.iri)) c) =
      textOf (g.moduleCode style classes c) := by
    rw [classText, hpython, moduleCode]
  rw [files, hpython, ← hfile, ← htext]
  exact List.mem_append_left _ (List.mem_map.mpr ⟨_, List.mem_map_of_mem hc, rfl⟩)

/-- **The base classes of Python modules resolve.**

Take a session with a Python generator, in which any steps were made before, and let it generate
all code into a directory.  If that ends well, it has written files with different names, among them
a module for each class, and

  * a class whose superclass is generated is declared to extend the class of the superclass, which
    is imported from the module of that class, inside of the package of the classes,
  * any other class extends the common base class of all entities, and no import stands where that of
    a base module would be,
  * if nothing was reported about the order of the classes, following the imports of base classes
    from module to module never comes back to a module. -/
theorem base_classes_resolve (hpython : g.target = .python) (earlier : List Step)
    (before : FileTree) {directory : Option String} {reserved paths : List String}
    (h : (Step.generate directory reserved).outcome g (session g earlier before) = .ok paths) :
    let w := session g earlier before
    let step := Step.generate directory reserved
    ∃ classes style found, g.described = .ok classes ∧ g.style? = .ok style ∧
      step.texts g = OnFiles.inDirectory (g.directoryFor directory) found ∧
      w.files.writeAll (step.texts g) = .ok (step.after g w).files ∧
      (found.map (·.1)).Nodup ∧
      (∀ c ∈ classes,
        (pythonName c.name ++ ".py", textOf (g.moduleCode style classes c)) ∈ found) ∧
      (∀ c ∈ classes, ∀ b ∈ classes, c.superclass = some b.iri →
        declaration? (g.moduleCode style classes c) = some (classLine c.name b.name) ∧
        moduleImports (g.moduleCode style classes c) =
          libraryImports (g.extendable (classes.map (·.iri)) c) ++
            [importLine (qualified g.settings.effectiveClassPackage (pythonName b.name)) b.name,
             importLine (vocabularyModule style) (vocabularyClass style)]) ∧
      (∀ c ∈ classes, (∀ b ∈ classes, c.superclass ≠ some b.iri) →
        declaration? (g.moduleCode style classes c) = some (classLine c.name "RDFEntity") ∧
        moduleImports (g.moduleCode style classes c) =
          libraryImports (g.extendable (classes.map (·.iri)) c) ++
            [importLine pythonRuntimePackage "RDFEntity",
             importLine (vocabularyModule style) (vocabularyClass style)]) ∧
      (g.orderNotices = .ok [] →
        ∀ module, ¬ Relation.TransGen (g.ImportsBase style classes) module module) := by
  intro w step
  obtain ⟨files, hfiles, -⟩ := Step.generate_ok h
  obtain ⟨classes, style, hclasses, hstyle, rfl, hnodup, -⟩ := generated_ok hfiles
  have hdescribes := described_spec hclasses
  have hmodules := modules_of_generated hpython hfiles hclasses
  have hsettings : style.settings = g.settings := by rw [(style_eq hstyle).2]
  have hname : ∀ c : ClassDescription,
      (g.extendable (classes.map (·.iri)) c).name = c.name := fun c => (iri_extendable _ c).2
  refine ⟨classes, style, g.files style classes, hclasses, hstyle, ?_, step.writes_session h, hnodup,
    fun c hc => files_python hpython hc, fun c hc b hb hsuper => ?_, fun c hc hnone => ?_,
    fun hquiet module => not_importsBase_cycle ⟨hclasses, hquiet⟩ hpython hmodules module⟩
  · rw [Step.texts, hfiles]
    rfl
  · rw [moduleCode, declaration?_classLines, moduleImports_classLines, hname,
      base_of_below hdescribes ⟨hc, hb, hsuper⟩, moduleOf, hsettings]
    exact ⟨rfl, rfl⟩
  · rw [moduleCode, declaration?_classLines, moduleImports_classLines, hname,
      base_of_not_below hpython hnone]
    exact ⟨rfl, rfl⟩

end Generator

namespace People

open Generate.Python

/-- A directory without files. -/
def school : FileTree := { root := "school" }

/-- The style of the code for persons. -/
def style : Style := ⟨(generator .python).settings, "People", "\t"⟩

theorem generated_python :
    (generator .python).generated (some ".") [] = .ok ((generator .python).files style classes) := by
  have hmodules : Generator.checkModules [] classes = .ok () := by decide +kernel
  have hfiles : (generator .python).entityFiles style classes =
      .ok ((generator .python).files style classes) := by
    unfold Generator.entityFiles
    dsimp only
    rw [if_neg (by decide +kernel)]
    rfl
  have hrendered : (generator .python).rendered classes =
      .ok ((generator .python).files style classes) :=
    bind_eq_ok.mpr ⟨(), hmodules, bind_eq_ok.mpr ⟨style, rfl, hfiles⟩⟩
  refine bind_eq_ok.mpr ⟨classes, (ordered .python).described, bind_eq_ok.mpr ⟨_, hrendered, ?_⟩⟩
  simp [Generator.unreserved, sortByTexts]

/-- All files are written into the empty directory. -/
theorem exists_paths :
    ∃ paths, (Step.generate (some ".") []).outcome (generator .python)
      (session (generator .python) [] school) = .ok paths := by
  have hschool : school.Rooted := ⟨.inl (by decide), by decide +kernel, by simp [school]⟩
  have hdirectory : school.isDirectory "." = true := by decide +kernel
  have hnames : ∀ file ∈ (generator .python).files style classes, FileTree.IsName file.1 :=
    Generator.files_isName (ordered .python).describes (by decide)
  obtain ⟨left, hleft, -⟩ := FileTree.writeAll_ok fun file hfile =>
    have hinside := OnFiles.isInside_inDirectory hdirectory hnames file hfile
    hinside.canWrite hschool (hinside.isDirectory_eq_false hschool rfl)
  obtain ⟨paths, hpaths⟩ := OnFiles.run_saveIn hdirectory hleft
  refine ⟨paths, ?_⟩
  rw [Step.outcome_session]
  show (((OnFiles.saveIn ((generator .python).directoryFor (some "."))
    ((generator .python).generated (some ".") [])).run.run school)).1 = _
  rw [generated_python]
  exact congrArg Prod.fst hpaths

/-- Students extend persons, from their module, and persons the common base class. -/
theorem base_classes_resolve_people :
    ((generator .python).target = .python ∧
      ∃ paths, (Step.generate (some ".") []).outcome (generator .python)
        (session (generator .python) [] school) = .ok paths) ∧
    declaration? ((generator .python).moduleCode style classes student) =
      some "class Student(Person):" ∧
    "from person import Person" ∈
      moduleImports ((generator .python).moduleCode style classes student) ∧
    declaration? ((generator .python).moduleCode style classes person) =
      some "class Person(RDFEntity):" ∧
    ∀ module, ¬ Relation.TransGen ((generator .python).ImportsBase style classes) module module := by
  obtain ⟨paths, hpaths⟩ := exists_paths
  refine ⟨⟨rfl, paths, hpaths⟩, ?_⟩
  obtain ⟨described, chosen, -, hdescribed, hchosen, -, -, -, -, hbelow, hcommon, hcycle⟩ :=
    Generator.base_classes_resolve rfl [] school hpaths
  obtain rfl := Except.ok.inj ((ordered .python).described.symm.trans hdescribed)
  obtain rfl : style = chosen := Except.ok.inj hchosen
  obtain ⟨hstudent, himports⟩ := hbelow student student_below_person.1 person List.mem_cons_self rfl
  refine ⟨?_, ?_, ?_, hcycle (ordered .python).quiet⟩
  · rw [hstudent]
    decide
  · have hline : importLine (qualified (generator .python).settings.effectiveClassPackage
        (pythonName person.name)) person.name = "from person import Person" := by decide +kernel
    rw [himports, hline]
    simp
  · rw [(hcommon person List.mem_cons_self person_not_below).1]
    decide

end People

end OntoCode
