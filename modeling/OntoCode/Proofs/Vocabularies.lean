/-
The constants of a vocabulary, and the terms that have none.

The vocabulary goes through the classes and properties once, in the order of their IRIs.  A
term is kept if no earlier one has its name, and is reported otherwise, with the one that does.
So each term has one of two ends, and which one it has does not depend on the pass: a term is kept
exactly if it is the first one of its name.

The induction is on the terms that are left, for any constants that are kept already.  What it
carries is that constants are only added behind those, so that a term which is reported is
compared with a constant that stays.
-/
import OntoCode.Proofs.Constants

namespace OntoCode

open OntoCode.Generate OntoCode.Ontology OntoCode.Rdf

namespace Generate.Vocabulary

variable {language : VocabularyLanguage} {o : Ontology} {kept : List VocabularyTerm}

/-! ### One pass over the terms -/

/-- **A term is reported for having the name of a constant.** -/
def Reports (language : VocabularyLanguage) (o : Ontology) (kept : List VocabularyTerm) (iri : Iri)
    (notice : Notice) : Prop :=
  ∃ t ∈ kept, t.name = termName language o.graph iri ∧ notice = .termSkipped iri t.name t.iri

/-- The report is a warning that names the term, the name and the term of the constant. -/
theorem Reports.spec {iri : Iri} {notice : Notice} (h : Reports language o kept iri notice) :
    notice.level = .warning ∧ ∃ t ∈ kept, t.name = termName language o.graph iri ∧
      notice.message = "Vocabulary term " ++ iri.text ++ " is named " ++ t.name ++ " like " ++
        t.iri.text ++ ", skipping it" := by
  obtain ⟨t, ht, hname, rfl⟩ := h
  exact ⟨rfl, t, ht, hname, rfl⟩

/-- **One pass over terms:** some are added behind the constants, in order, and each of the others
is reported, in order. -/
theorem exists_collect (kept : List VocabularyTerm) {iris : List Iri} (hnodup : iris.Nodup) :
    ∃ added : List Iri, added.Sublist iris ∧
      (collect language o kept iris).1 = kept ++ added.map (constantOf language o) ∧
      List.Forall₂ (Reports language o (collect language o kept iris).1)
        (iris.filter (· ∉ added)) (collect language o kept iris).2 := by
  induction iris generalizing kept with
  | nil => exact ⟨[], .slnil, (List.append_nil kept).symm, .nil⟩
  | cons iri rest ih =>
      obtain ⟨hfresh, hrest⟩ := List.nodup_cons.mp hnodup
      rw [collect]
      cases hfind : kept.find? (·.name = termName language o.graph iri) with
      | some earlier =>
          obtain ⟨added, hsublist, hkept, hreports⟩ := ih kept hrest
          have hadded : iri ∉ added := fun hin => hfresh (hsublist.subset hin)
          have hname : earlier.name = termName language o.graph iri := by
            simpa using List.find?_some hfind
          have hreport : Reports language o (collect language o kept rest).1 iri
              (.termSkipped iri (termName language o.graph iri) earlier.iri) := by
            refine ⟨earlier, ?_, hname, by rw [hname]⟩
            rw [hkept]
            exact List.mem_append_left _ (List.mem_of_find?_eq_some hfind)
          refine ⟨added, hsublist.cons iri, hkept, ?_⟩
          rw [List.filter_cons_of_pos (by simpa using hadded)]
          exact .cons hreport hreports
      | none =>
          obtain ⟨added, hsublist, hkept, hreports⟩ :=
            ih (kept ++ [constantOf language o iri]) hrest
          refine ⟨iri :: added, hsublist.cons_cons iri, ?_, ?_⟩
          · rw [List.map_cons, ← List.singleton_append, ← List.append_assoc]
            exact hkept
          · have hothers : rest.filter (· ∉ iri :: added) = rest.filter (· ∉ added) := by
              refine List.filter_congr fun other hother => ?_
              have hne : other ≠ iri := fun heq => hfresh (heq ▸ hother)
              simp [hne]
            rw [List.filter_cons_of_neg (by simp), hothers]
            exact hreports

/-- **The constants of a vocabulary stand in the order of their IRIs, and the terms that have none
are reported**, each one once. -/
theorem constants_spec (language : VocabularyLanguage) (o : Ontology) :
    let (kept, notices) := constants language o
    kept.Pairwise (fun t u => t.iri.text < u.iri.text) ∧
      List.Forall₂ (Reports language o kept)
        ((terms o.graph).filter (· ∉ kept.map (·.iri))) notices := by
  have hnodup : (terms o.graph).Nodup :=
    (terms_sorted o.graph).imp fun hlt heq => absurd (heq ▸ hlt) (lt_irrefl _)
  obtain ⟨added, hsublist, hkept, hreports⟩ := @exists_collect language o [] _ hnodup
  have hiris : (constants language o).1.map (·.iri) = added := by
    rw [constants, hkept, List.nil_append, List.map_map]
    exact List.map_id added
  rw [← hiris] at hreports
  refine ⟨?_, hreports⟩
  have hsorted := (terms_sorted o.graph).sublist hsublist
  rw [← hiris, List.pairwise_map] at hsorted
  exact hsorted

end Generate.Vocabulary

/-! ### The log of a session -/

open Generate.Vocabulary

/-- Reports of terms are added to the log as they are. -/
theorem log_report_terms {language : VocabularyLanguage} {o : Ontology}
    {kept : List VocabularyTerm} {iris : List Iri} {notices : List Notice}
    (h : List.Forall₂ (Reports language o kept) iris notices) (w : Workspace) :
    (notices.foldl Workspace.report w).log = w.log ++ notices := by
  induction h generalizing w with
  | nil => exact (List.append_nil _).symm
  | cons hreport hrest ih =>
      obtain ⟨t, -, -, rfl⟩ := hreport
      rw [List.foldl_cons, ih]
      exact List.append_assoc w.log [_] _

/-- **A vocabulary keeps the first term of each name, and reports the others.**

Take a session with a generator, in which any steps were made before, and let it give the constants
of the vocabulary of either language.

  * The constants have different names, and stand in the order of their IRIs.
  * The names of the constants are the names of the classes and properties of the ontology.
  * The constant of a name is for the smallest IRI of a class or property of this name, and has the
    title and the description of this term.
  * The log grows by one warning for each class and property that has no constant, in order, and by
    nothing else.  The warning names the term, its name, and the term of the constant with this
    name. -/
theorem vocabulary_keeps_first (g : Generator) (language : VocabularyLanguage)
    (earlier : List Step) (files : FileTree) :
    let w := session g earlier files
    let o := g.ontology
    let named := termName language o.graph
    ∃ (constants : List VocabularyTerm) (notices : List Notice),
      (Step.vocabularyTerms language).outcome g w = .ok constants ∧
      (Step.after g w (.vocabularyTerms language)).log = w.log ++ notices ∧
      (constants.map (·.name)).Nodup ∧
      constants.Pairwise (fun t u => t.iri.text < u.iri.text) ∧
      (∀ name, (∃ t ∈ constants, t.name = name) ↔ ∃ iri ∈ terms o.graph, named iri = name) ∧
      (∀ t ∈ constants, t.iri ∈ terms o.graph ∧ named t.iri = t.name ∧
        (∀ iri ∈ terms o.graph, named iri = t.name → t.iri.text ≤ iri.text) ∧
        t.title = title? o.graph o.language (.iri t.iri) ∧
        t.description = description? o.graph o.language (.iri t.iri)) ∧
      List.Forall₂ (fun iri notice => notice.level = .warning ∧
          ∃ t ∈ constants, t.name = named iri ∧
            notice.message = "Vocabulary term " ++ iri.text ++ " is named " ++ t.name ++
              " like " ++ t.iri.text ++ ", skipping it")
        ((terms o.graph).filter (· ∉ constants.map (·.iri))) notices := by
  intro w o named
  obtain ⟨hsorted, hreports⟩ := constants_spec language o
  refine ⟨(constants language o).1, (constants language o).2, Step.outcome_session _, ?_,
    constants_nodup, hsorted, fun name => ⟨?_, ?_⟩, fun t ht => ?_,
    hreports.imp fun iri notice h => h.spec⟩
  · exact log_report_terms hreports w
  · rintro ⟨t, ht, rfl⟩
    obtain ⟨hfirst, -⟩ := mem_constants.mp ht
    exact ⟨t.iri, hfirst.term, hfirst.named⟩
  · rintro ⟨iri, hiri, rfl⟩
    obtain ⟨t, ht, hname, -⟩ := exists_constant hiri rfl
    exact ⟨t, ht, hname⟩
  · obtain ⟨hfirst, heq⟩ := mem_constants.mp ht
    exact ⟨hfirst.term, hfirst.named, hfirst.first, congrArg VocabularyTerm.title heq,
      congrArg VocabularyTerm.description heq⟩

end OntoCode
