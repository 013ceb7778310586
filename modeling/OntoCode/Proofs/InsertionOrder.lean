/-
What is generated depends on the statements of an ontology, not on their order.

Descriptions are put together from queries.  So once all queries answer alike, so do
the describer, the vocabulary and the namespace, and nothing has to be said about how
the answers are grouped, told apart by suffixes, checked and ordered: those steps see
equal inputs.
-/
import OntoCode.Proofs.Queries
import OntoCode.Proofs.Remembered

namespace OntoCode

open OntoCode.Rdf OntoCode.Rdf.Graph OntoCode.Ontology OntoCode.Generate

/-- Of IRIs, if there are any, some namespace is the most common one. -/
theorem commonNamespace?_isSome {iris : List Iri} (hiris : iris ≠ []) :
    (commonNamespace? iris).isSome = true := by
  unfold commonNamespace?
  cases hspaces : (iris.map (·.namespaceText)).eraseDups with
  | nil =>
      obtain ⟨i, hi⟩ := List.exists_mem_of_ne_nil iris hiris
      have hmem : i.namespaceText ∈ (iris.map (·.namespaceText)).eraseDups :=
        List.mem_eraseDups.mpr (List.mem_map_of_mem hi)
      simp [hspaces] at hmem
  | cons first rest =>
      rw [List.foldl_cons]
      refine List.foldlRecOn rest _ (motive := fun best : Option String => best.isSome = true) rfl ?_
      intro best hbest candidate _
      split
      · rfl
      · simp only
        split <;> rfl

/-- Two ontologies give the same answer to every query that descriptions are made of. -/
structure SameAnswers (o p : Ontology) : Prop where
  language : o.language = p.language
  classIris : (classes o.graph).filterMap Term.iri? = (classes p.graph).filterMap Term.iri?
  isClass : ∀ i : Iri, (classes o.graph).contains (.iri i) = (classes p.graph).contains (.iri i)
  terms : terms o.graph = terms p.graph
  propertiesOf : ∀ class_ side, propertiesOf o.graph class_ side = propertiesOf p.graph class_ side
  superclass? : ∀ s, superclass? o.graph s = superclass? p.graph s
  range? : ∀ s, range? o.graph s = range? p.graph s
  domain? : ∀ i, domain? o.graph i = domain? p.graph i
  title? : ∀ language s, title? o.graph language s = title? p.graph language s
  description? : ∀ language s, description? o.graph language s = description? p.graph language s
  seeAlso : ∀ s, seeAlso o.graph s = seeAlso p.graph s
  isFunctional : ∀ s, isFunctional o.graph s = isFunctional p.graph s
  isInverseFunctional : ∀ s, isInverseFunctional o.graph s = isInverseFunctional p.graph s

/-- Ontologies that hold the same statements answer alike if no query has to choose. -/
theorem sameAnswers {o p : Ontology} (hsame : SameStatements o.graph p.graph)
    (hclear : Unambiguous o.graph) (hlanguage : o.language = p.language) : SameAnswers o p where
  language := hlanguage
  classIris := classIris_congr hsame
  isClass := classes_contains_congr hsame
  terms := terms_congr hsame
  propertiesOf := propertiesOf_congr hsame hclear
  superclass? _ := firstIri?_congr_of_mem hsame hclear (by simp)
  range? _ := firstIri?_congr_of_mem hsame hclear (by simp)
  domain? _ := firstIri?_congr_of_mem hsame hclear (by simp)
  title? := title?_congr hsame hclear
  description? := description?_congr hsame hclear
  seeAlso := seeAlso_congr hsame
  isFunctional _ := hasType_congr hsame _ _
  isInverseFunctional _ := hasType_congr hsame _ _

namespace SameAnswers

variable {o p : Ontology} (h : SameAnswers o p)

include h

theorem rangeType (property : Iri) : rangeType o.graph property = rangeType p.graph property := by
  simp only [Ontology.rangeType, h.range?]

theorem kindOf (property : Iri) : kindOf o.graph property = kindOf p.graph property := by
  simp only [Ontology.kindOf, h.rangeType, h.isFunctional]

theorem elementType (target : Target) (property : Iri) :
    target.elementType o.graph property = target.elementType p.graph property := by
  simp only [Target.elementType, h.rangeType]

theorem fieldType (target : Target) (property : Iri) :
    target.fieldType o.graph property = target.fieldType p.graph property := by
  simp only [Target.fieldType, h.elementType, h.kindOf]

theorem propertyOf (target : Target) (property : Iri) :
    propertyOf target o property = propertyOf target p property := by
  simp only [Ontology.propertyOf, h.kindOf, h.fieldType, h.elementType, h.isFunctional,
    h.isInverseFunctional, h.range?, h.title?, h.description?, h.seeAlso, h.language]

theorem needsInverse (property : Iri) :
    needsInverse o.graph property = needsInverse p.graph property := by
  simp only [Ontology.needsInverse, h.kindOf, h.isInverseFunctional]

theorem plainCollections (target : Target) (properties : List Iri) :
    plainCollections target o properties = plainCollections target p properties := by
  have hneeds : Ontology.needsInverse o.graph = Ontology.needsInverse p.graph :=
    funext h.needsInverse
  simp only [Ontology.plainCollections, hneeds, h.domain?, h.propertyOf]

theorem inverseCollections (target : Target) (class_ : Iri) :
    inverseCollections target o class_ = inverseCollections target p class_ := by
  simp only [Ontology.inverseCollections, h.propertiesOf, h.plainCollections]

theorem assemble (class_ : Iri) (fields : List Field) (inverses : List InverseCollection) :
    assemble o class_ fields inverses = assemble p class_ fields inverses := by
  simp only [Ontology.assemble, h.superclass?, h.title?, h.description?, h.seeAlso, h.language]

theorem describe (target : Target) (class_ : Iri) :
    describe target o class_ = describe target p class_ := by
  have hinverses : Ontology.inverseCollections target o = Ontology.inverseCollections target p :=
    funext (h.inverseCollections target)
  simp only [Ontology.describe, h.propertiesOf, h.propertyOf, hinverses, h.assemble]

theorem classesToGenerate (target : Target) (settings : Settings) :
    (Generator.make target settings o).classesToGenerate =
      (Generator.make target settings p).classesToGenerate := by
  simp only [Generator.classesToGenerate, Generator.make, h.classIris]

theorem described (target : Target) (settings : Settings) :
    (Generator.make target settings o).described = (Generator.make target settings p).described := by
  have hdescribe : Ontology.describe target o = Ontology.describe target p :=
    funext (h.describe target)
  simp only [Generator.described, h.classesToGenerate target settings]
  simp only [Generator.make, hdescribe]

theorem termName (language : VocabularyLanguage) (iri : Iri) :
    Vocabulary.termName language o.graph iri = Vocabulary.termName language p.graph iri := by
  unfold Vocabulary.termName
  rw [h.isClass]

theorem collect (language : VocabularyLanguage) :
    ∀ (iris : List Iri) (kept : List VocabularyTerm),
      Vocabulary.collect language o kept iris = Vocabulary.collect language p kept iris := by
  intro iris
  induction iris with
  | nil => intro kept; rfl
  | cons iri rest ih =>
      intro kept
      simp only [Vocabulary.collect, h.termName, h.title?, h.description?, h.language, ih]

theorem constants (language : VocabularyLanguage) :
    Vocabulary.constants language o = Vocabulary.constants language p := by
  simp only [Vocabulary.constants, h.terms, h.collect]

/-- The vocabulary is the same from all workspaces: collecting it remembers nothing. -/
theorem vocabulary (language : VocabularyLanguage) (v w : Workspace) :
    ((OntoCode.Vocabulary.terms language o).run.run v).1 =
      ((OntoCode.Vocabulary.terms language p).run.run w).1 := by
  have hterms : ∀ (q : Ontology) (u : Workspace),
      ((OntoCode.Vocabulary.terms language q).run.run u).1 =
        .ok (Vocabulary.constants language q).1 := fun _ _ => rfl
  rw [hterms, hterms, h.constants]

theorem namespaceOf (hterms : Ontology.terms o.graph ≠ []) :
    namespaceOf o.graph = namespaceOf p.graph := by
  obtain ⟨found, hfound⟩ := Option.isSome_iff_exists.mp (commonNamespace?_isSome hterms)
  unfold Ontology.namespaceOf
  rw [← h.terms, hfound]

end SameAnswers

/-- **What is generated does not depend on the order of the statements.**

Take two ontologies with one language that hold the same statements, such that no query has to
choose. For each target and settings the classes are described alike, or refused for the same
reason, whatever was rightly remembered before. The vocabulary is the same, and so is the
namespace if the ontology has a class or property at all. Without one, the namespace is taken from
the first of the ontologies that are declared, and that does depend on the order. -/
theorem sameStatements_generated {o p : Ontology} (hsame : SameStatements o.graph p.graph)
    (hlanguage : o.language = p.language) (hclear : Unambiguous o.graph) (target : Target)
    (settings : Settings) (language : VocabularyLanguage) :
    (∀ v w : Workspace, v.Faithful target o → w.Faithful target p →
      ((Generator.make target settings o).describeClasses.run.run v).1 =
        ((Generator.make target settings p).describeClasses.run.run w).1) ∧
    (∀ v w : Workspace, ((Vocabulary.terms language o).run.run v).1 =
      ((Vocabulary.terms language p).run.run w).1) ∧
    (terms o.graph ≠ [] → namespaceOf o.graph = namespaceOf p.graph) := by
  have hanswers := sameAnswers hsame hclear hlanguage
  refine ⟨?_, hanswers.vocabulary language, hanswers.namespaceOf⟩
  intro v w hv hw
  obtain ⟨hleft, _⟩ := (Generator.make target settings o).describeClasses_yields v hv
  obtain ⟨hright, _⟩ := (Generator.make target settings p).describeClasses_yields w hw
  rw [hleft, hright, hanswers.described]

/-- Two classes, and a property that one of them has by a union of classes. -/
def archiveStatements : List Triple :=
  [⟨.iri ⟨"x:Library"⟩, rdfType, .iri (owl "Class")⟩,
   ⟨.iri ⟨"x:Archive"⟩, rdfType, .iri (owl "Class")⟩,
   ⟨.iri ⟨"x:Archive"⟩, rdfs "subClassOf", .iri ⟨"x:Library"⟩⟩,
   ⟨.iri ⟨"x:keeps"⟩, rdfType, .iri (owl "ObjectProperty")⟩,
   ⟨.iri ⟨"x:keeps"⟩, rdfs "domain", .blank ⟨"union", false⟩⟩,
   ⟨.blank ⟨"union", false⟩, owl "unionOf", .blank ⟨"node", false⟩⟩,
   ⟨.blank ⟨"node", false⟩, rdfFirst, .iri ⟨"x:Library"⟩⟩,
   ⟨.blank ⟨"node", false⟩, rdfRest, .iri rdfNil⟩,
   ⟨.iri ⟨"x:keeps"⟩, rdfs "range", .iri ⟨"x:Archive"⟩⟩,
   ⟨.iri ⟨"x:keeps"⟩, rdfs "label", .literal { text := "keeps" }⟩]

/-- The ontology of some statements, added in their order. -/
def ontologyOf (statements : List Triple) : Ontology := { graph := ofList statements }

/-- The options of a run that leaves all of them as they are. -/
def plainSettings : Settings := { vocabularyDir := "out" }

/-- A workspace in which nothing is remembered. -/
def freshWorkspace : Workspace := { files := { root := "/" } }

theorem archive_generated_backwards :
    (SameStatements (ontologyOf archiveStatements).graph (ontologyOf archiveStatements.reverse).graph ∧
      (ontologyOf archiveStatements).language = (ontologyOf archiveStatements.reverse).language ∧
      Unambiguous (ontologyOf archiveStatements).graph ∧
      terms (ontologyOf archiveStatements).graph ≠ []) ∧
    ((Generator.make .java plainSettings (ontologyOf archiveStatements)).describeClasses.run.run
        freshWorkspace).1 =
      ((Generator.make .java plainSettings
        (ontologyOf archiveStatements.reverse)).describeClasses.run.run freshWorkspace).1 ∧
    namespaceOf (ontologyOf archiveStatements).graph =
      namespaceOf (ontologyOf archiveStatements.reverse).graph := by
  have hsame : SameStatements (ontologyOf archiveStatements).graph
      (ontologyOf archiveStatements.reverse).graph :=
    sameStatements_ofList (List.reverse_perm archiveStatements).symm
  have hclear : Unambiguous (ontologyOf archiveStatements).graph :=
    unambiguous_of_rank (fun text => if text = "node" then 1 else 0)
      (by decide +kernel) (by decide +kernel)
  have hterms : terms (ontologyOf archiveStatements).graph ≠ [] :=
    List.ne_nil_of_mem (mem_terms_of_class (mem_classes_iri.mpr
      ⟨owl "Class", by decide +kernel, (by decide +kernel :
        (ontologyOf archiveStatements).graph.contains
          ⟨.iri ⟨"x:Library"⟩, rdfType, .iri (owl "Class")⟩ = true)⟩))
  obtain ⟨hclasses, -, hspace⟩ := sameStatements_generated hsame rfl hclear .java plainSettings .java
  exact ⟨⟨hsame, rfl, hclear, hterms⟩,
    hclasses _ _ (Workspace.faithful_of_empty rfl _ _) (Workspace.faithful_of_empty rfl _ _),
    hspace hterms⟩

end OntoCode
