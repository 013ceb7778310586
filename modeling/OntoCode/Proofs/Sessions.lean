/-
A session with a generator.

One generator can be asked for many things, in any order: what the ontology says, how
classes and properties are described, and files of code.  Only the first question about
the collections of a class looks them up, so later answers rest on earlier ones, and a
step that fails leaves behind what it looked up until then.

None of that shows.  Every step answers and writes what it does as the very first one
of a session, and what it writes is fixed by the ontology and the settings alone.
-/
import OntoCode.Proofs.Effects

namespace OntoCode

open OntoCode.Generate OntoCode.Ontology OntoCode.Rdf

/-! ### The steps of a session -/

/-- What the statements of an ontology answer by themselves. -/
inductive Question
  | classes
  | properties
  | terms
  | propertiesOf (class_ : Iri) (side : PropertyEnd)
  | referencedTypes (subject : Term) (predicate : Iri)
  | unionTypes (node : Term)
  | firstIri (subject : Term) (predicate : Iri)
  | superclass (class_ : Term)
  | range (property : Term)
  | firstLiteral (subject : Term) (language : Option String) (predicates : List Iri)
  | title (resource : Term)
  | description (resource : Term)
  | seeAlso (resource : Term)
  | isFunctional (property : Term)
  | isInverseFunctional (property : Term)
  | ownNamespace
  | label (space : String)
  | kind (property : Iri)
  | elementType (property : Iri)
  | fieldType (property : Iri)
  | rangeClass (property : Iri)

namespace Question

/-- What the answer to a question is. -/
def Answer : Question → Type
  | classes => List Term
  | properties | terms | propertiesOf .. | referencedTypes .. | unionTypes .. => List Iri
  | firstIri .. | superclass .. | range .. | rangeClass .. => Option Iri
  | firstLiteral .. => Option Literal
  | title .. | description .. | label .. => Option String
  | seeAlso .. => List String
  | isFunctional .. | isInverseFunctional .. => Bool
  | ownNamespace | elementType .. | fieldType .. => String
  | kind .. => PropertyKind

/-- The answer to a question, for the language of a target. -/
def answer (target : Target) (o : Ontology) : (q : Question) → Except Failure q.Answer
  | classes => .ok (Ontology.classes o.graph)
  | properties => .ok (Ontology.properties o.graph)
  | terms => .ok (Ontology.terms o.graph)
  | propertiesOf class_ side => Ontology.propertiesOf o.graph class_ side
  | referencedTypes subject predicate => Ontology.referencedTypes o.graph subject predicate
  | unionTypes node => Ontology.unionTypes o.graph node
  | firstIri subject predicate => .ok (firstIri? o.graph subject predicate)
  | superclass class_ => .ok (superclass? o.graph class_)
  | range property => .ok (range? o.graph property)
  | firstLiteral subject language predicates =>
    .ok (firstLiteral? o.graph subject language predicates)
  | title resource => .ok (title? o.graph o.language resource)
  | description resource => .ok (description? o.graph o.language resource)
  | seeAlso resource => .ok (Ontology.seeAlso o.graph resource)
  | isFunctional property => .ok (Ontology.isFunctional o.graph property)
  | isInverseFunctional property => .ok (Ontology.isInverseFunctional o.graph property)
  | ownNamespace => .ok (namespaceOf o.graph)
  | label space => .ok (o.prefixes.label? space)
  | kind property => .ok (kindOf o.graph property)
  | elementType property => .ok (target.elementType o.graph property)
  | fieldType property => .ok (target.fieldType o.graph property)
  | rangeClass property => .ok (rangeClass? o.graph property)

/-- What is reported along with the answer. -/
def notices (g : Graph) : Question → List Notice
  | propertiesOf _ side => propertiesNotices g side
  | referencedTypes subject predicate => severalTypesNotices g subject predicate
  | superclass class_ => superclassNotices g class_
  | _ => []

end Question

/-- What can be asked of a generator without changing its ontology. -/
inductive Step
  | ask (question : Question)
  | describe (class_ : Iri)
  | describeProperty (property : Iri) (withInverse : Bool)
  | inverses (class_ : Iri)
  | findClasses
  | describeClasses
  | render
  | emitClass (class_ : Iri) (directory : Option String)
  | generate (directory : Option String) (reserved : List String)
  | vocabularyTerms (language : VocabularyLanguage)
  | renderVocabulary (language : VocabularyLanguage)
  | generateVocabulary (language : VocabularyLanguage) (directory : Option String)

namespace Step

/-- What the answer to a step is. -/
def Answer : Step → Type
  | ask question => question.Answer
  | describe .. => ClassDescription
  | describeProperty .. => Field
  | inverses .. => List InverseCollection
  | findClasses => List Iri
  | describeClasses => List ClassDescription
  | render => List Generator.CodeFile
  | emitClass .. | generateVocabulary .. => String
  | generate .. => List String
  | vocabularyTerms .. => List VocabularyTerm
  | renderVocabulary .. => Generator.CodeFile

/-- A step of a session with a generator. -/
def work (g : Generator) : (step : Step) → Work step.Answer
  | ask question => do
    reportAll (question.notices g.ontology.graph)
    settle (question.answer g.target g.ontology)
  | describe class_ => recalledClass g.target g.ontology class_
  | describeProperty property true => recalledField g.target g.ontology property
  | describeProperty property false => pure { property := propertyOf g.target g.ontology property }
  | inverses class_ => recalledCollections g.target g.ontology class_
  | findClasses => g.findClasses
  | describeClasses => g.describeClasses
  | render => do g.render (← g.describeClasses)
  | emitClass class_ directory => g.emitClass class_ directory
  | generate directory reserved => g.generate directory reserved
  | vocabularyTerms language => Vocabulary.terms language g.ontology
  | renderVocabulary language => Vocabulary.render language g.settings g.ontology
  | generateVocabulary language directory =>
    Vocabulary.generate language g.settings g.ontology directory

/-- What a step gives, or why it fails. -/
def outcome (g : Generator) (step : Step) (w : Workspace) : Except Failure step.Answer :=
  ((step.work g).run.run w).1

/-- The workspace that a step leaves, also where it fails. -/
def after (g : Generator) (w : Workspace) (step : Step) : Workspace :=
  ((step.work g).run.run w).2

/-- What a step writes where it ends well: paths with texts, found without a memory or a look at
the files. -/
def texts (g : Generator) : Step → List (String × String)
  | emitClass class_ directory =>
    OnFiles.inDirectory (g.directoryFor directory) ((g.emitted class_).toOption.toList)
  | generate directory reserved =>
    OnFiles.inDirectory (g.directoryFor directory)
      (((g.generated directory reserved).toOption).getD [])
  | generateVocabulary language directory =>
    OnFiles.inDirectory (Vocabulary.directoryFor g.settings directory)
      (Vocabulary.rendered language g.settings g.ontology).toOption.toList
  | _ => []

end Step

/-- The workspace after the steps of a session, those that fail included. -/
def session (g : Generator) (steps : List Step) (files : FileTree) : Workspace :=
  steps.foldl (Step.after g) { files }

/-! ### Steps without a memory -/

namespace Step

/-- What a step comes down to on the files alone. -/
def effect (g : Generator) : (step : Step) → OnFiles step.Answer
  | ask question => .known (question.answer g.target g.ontology)
  | describe class_ => .known (Ontology.describe g.target g.ontology class_)
  | describeProperty property true =>
    .known (fieldWith (inverseCollections g.target g.ontology)
      (propertyOf g.target g.ontology property))
  | describeProperty property false =>
    .known (.ok { property := propertyOf g.target g.ontology property })
  | inverses class_ => .known (inverseCollections g.target g.ontology class_)
  | findClasses => .known (.ok g.classesToGenerate)
  | describeClasses => .known g.described
  | render => .known (g.described >>= g.rendered)
  | emitClass class_ directory => .saveOne (g.directoryFor directory) (g.emitted class_)
  | generate directory reserved =>
    .saveIn (g.directoryFor directory) (g.generated directory reserved)
  | vocabularyTerms language => .known (.ok (Generate.Vocabulary.constants language g.ontology).1)
  | renderVocabulary language => .known (Vocabulary.rendered language g.settings g.ontology)
  | generateVocabulary language directory =>
    .saveOne (Vocabulary.directoryFor g.settings directory)
      (Vocabulary.rendered language g.settings g.ontology)

/-- **No step depends on what earlier ones remembered.** -/
theorem work_performs (g : Generator) (step : Step) :
    Performs g.target g.ontology (step.work g) (step.effect g) := by
  have hdescribe : Performs g.target g.ontology g.describeClasses (.known g.described) :=
    .of_yields g.describeClasses_yields g.describeClasses_leavesFiles
  cases step with
  | ask question => exact .reportAll_bind _ (.settle _)
  | describe class_ =>
      exact .of_yields (recalledClass_yields _ _ class_) (recalledClass_leavesFiles _ _ class_)
  | describeProperty property withInverse =>
      cases withInverse with
      | true =>
          exact .of_yields (recalledField_yields _ _ property)
            (recalledField_leavesFiles _ _ property)
      | false => exact .pure _
  | inverses class_ =>
      exact .of_yields (recalledCollections_yields _ _ class_)
        (recalledCollections_leavesFiles _ _ class_)
  | findClasses => exact .reportAll_bind _ (.pure _)
  | describeClasses => exact hdescribe
  | render => exact hdescribe.bind_known g.render_performs
  | emitClass class_ directory => exact g.emitClass_performs class_ directory
  | generate directory reserved => exact g.generate_performs directory reserved
  | vocabularyTerms language => exact Vocabulary.terms_performs language g.ontology
  | renderVocabulary language => exact Vocabulary.render_performs language g.settings g.ontology
  | generateVocabulary language directory =>
      exact Vocabulary.generate_performs language g.settings g.ontology directory

/-- A step that ends well has written its texts and nothing else. -/
theorem effect_writes (g : Generator) (step : Step) {t left : FileTree} {a : step.Answer}
    (h : ((step.effect g).run.run t) = (.ok a, left)) : t.writeAll (step.texts g) = .ok left := by
  cases step with
  | emitClass class_ directory =>
      obtain ⟨file, hfile, -, hleft⟩ := OnFiles.saveOne_ok h
      rw [texts, hfile]
      exact hleft
  | generate directory reserved =>
      obtain ⟨files, hfiles, -, hleft⟩ := OnFiles.saveIn_ok h
      rw [texts, hfiles]
      exact hleft
  | generateVocabulary language directory =>
      obtain ⟨file, hfile, -, hleft⟩ := OnFiles.saveOne_ok h
      rw [texts, hfile]
      exact hleft
  | describeProperty property withInverse =>
      cases withInverse <;> exact congrArg (fun r => Except.ok r.2) h
  -- The other steps write no texts, and leave the files as they find them.
  | _ => exact congrArg (fun r => Except.ok r.2) h

end Step

/-- The collections remembered in a session are those that looking them up gives. -/
theorem session_faithful (g : Generator) (steps : List Step) (files : FileTree) :
    (session g steps files).Faithful g.target g.ontology := by
  have hkept : ∀ w : Workspace, w.Faithful g.target g.ontology →
      (steps.foldl (Step.after g) w).Faithful g.target g.ontology := by
    induction steps with
    | nil => exact fun w hw => hw
    | cons step rest ih => exact fun w hw => ih _ (step.work_performs g w hw).2.2
  exact hkept { files } (Workspace.faithful_of_empty rfl _ _)

section Outcomes

variable {g : Generator} {earlier : List Step} {files : FileTree}

/-- A step in a session gives and leaves what its effect on the files does. -/
theorem Step.run_session (step : Step) :
    (step.effect g).run.run (session g earlier files).files =
      (step.outcome g (session g earlier files), (step.after g (session g earlier files)).files) := by
  obtain ⟨houtcome, hfiles, -⟩ := step.work_performs g _ (session_faithful g earlier files)
  exact Prod.ext houtcome.symm hfiles.symm

theorem Step.outcome_session (step : Step) :
    step.outcome g (session g earlier files) =
      ((step.effect g).run.run (session g earlier files).files).1 :=
  congrArg Prod.fst step.run_session.symm

/-- A step that ends well in a session has written its texts. -/
theorem Step.writes_session (step : Step) {a : step.Answer}
    (h : step.outcome g (session g earlier files) = .ok a) :
    (session g earlier files).files.writeAll (step.texts g) =
      .ok (step.after g (session g earlier files)).files :=
  step.effect_writes g (step.run_session.trans (by rw [h]))

/-- Code that is rendered in a session is made of the described classes. -/
theorem Step.render_ok {rendered : List Generator.CodeFile}
    (h : Step.render.outcome g (session g earlier files) = .ok rendered) :
    ∃ classes, g.described = .ok classes ∧ g.rendered classes = .ok rendered :=
  bind_eq_ok.mp (Step.render.outcome_session.symm.trans h)

/-- Code that is generated in a session is written to its directory, and the paths are given. -/
theorem Step.generate_ok {directory : Option String} {reserved paths : List String}
    (h : (Step.generate directory reserved).outcome g (session g earlier files) = .ok paths) :
    ∃ found, g.generated directory reserved = .ok found ∧
      paths = (OnFiles.inDirectory (g.directoryFor directory) found).map (·.1) := by
  rw [Step.outcome_session] at h
  obtain ⟨found, hfound, hpaths, -⟩ := OnFiles.saveIn_ok (Prod.ext h rfl)
  exact ⟨found, hfound, hpaths⟩

end Outcomes

/-- **Every step of a session is as good as its first one.**

Take a session with a generator, in which any steps were made before, well or not, and one more
step. Take as well a generator that starts now: it finds the files as the session left them, and
remembers nothing, whatever was reported before. Then

  * the step gives the same in both, or fails for the same reason,
  * it leaves the same files in both,
  * where it ends well, what it wrote are the texts that are found without a memory; neither the
    steps before nor the files have a part in them,
  * every collection that the session remembers is the one that looking it up gives. -/
theorem session_step_as_first (g : Generator) (files : FileTree) (earlier : List Step)
    (step : Step) (log : List Notice) (ambiguous : List (Term × Iri)) :
    let w := session g earlier files
    let fresh : Workspace := { files := w.files, log, ambiguous }
    step.outcome g w = step.outcome g fresh ∧
      (step.after g w).files = (step.after g fresh).files ∧
      (∀ a, step.outcome g w = .ok a → w.files.writeAll (step.texts g) = .ok (step.after g w).files) ∧
      ∀ class_ found, w.collections.lookup class_ = some found →
        inverseCollections g.target g.ontology class_ = .ok found := by
  intro w fresh
  have hw : w.Faithful g.target g.ontology := session_faithful g earlier files
  have hfresh : fresh.Faithful g.target g.ontology := Workspace.faithful_of_empty rfl _ _
  obtain ⟨houtcome, hfiles, -⟩ := step.work_performs g w hw
  obtain ⟨hfirst, hfirstFiles, -⟩ := step.work_performs g fresh hfresh
  refine ⟨houtcome.trans hfirst.symm, hfiles.trans hfirstFiles.symm, ?_, hw⟩
  intro a ha
  refine step.effect_writes g (a := a) ?_
  exact Prod.ext (houtcome.symm.trans ha) hfiles.symm

end OntoCode
