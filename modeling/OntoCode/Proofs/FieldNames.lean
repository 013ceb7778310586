/-
Which classes are refused for the names of their fields.

Whatever a class declares, it has its fields: one for each property that names it at its
domain, and behind them the collections that it keeps.  It is refused exactly if two of
these share a name, in whatever spelling.  The check goes through them in order, and
refuses the first field that has a name of an earlier one; a field is never held against
itself, so it may spell both of its names alike.
-/
import OntoCode.Proofs.InverseCollections

namespace OntoCode

open OntoCode.Rdf OntoCode.Ontology OntoCode.Text

/-! ### The field that is refused -/

namespace FieldName

/-- Fields are apart if no spelling of one is a spelling of the other. -/
theorem apart_iff {e f : FieldName} :
    e.Apart f ↔ ∀ name ∈ [e.camel, e.python], name ∉ [f.camel, f.python] := by
  rw [Apart, List.forall_mem_cons, List.forall_mem_singleton, List.mem_pair, List.mem_pair, not_or,
    not_or, and_assoc]

end FieldName

/-- The name a field is refused for is one that it shares with an earlier field. -/
theorem clash?_eq_some {earlier : List FieldName} {f : FieldName} {name owner : String}
    (h : clash? earlier f = some (name, owner)) :
    ∃ e ∈ earlier, e.owner = owner ∧ name ∈ [e.camel, e.python] ∧ name ∈ [f.camel, f.python] := by
  obtain ⟨shared, hshared, hfound⟩ := List.exists_of_findSome?_eq_some h
  obtain ⟨e, he, heq⟩ := Option.map_eq_some_iff.mp hfound
  have hname : e.camel = shared ∨ e.python = shared := by simpa using List.find?_some he
  cases heq
  exact ⟨e, List.mem_of_find?_eq_some he, rfl, List.mem_pair.mpr (hname.imp Eq.symm Eq.symm),
    List.mem_pair.mpr (FieldName.mem_spellings.mp hshared)⟩

/-- **The check fails at the first field that shares a name with one before it.** -/
theorem checkNames_eq_error {c : ClassDescription} {earlier rest : List FieldName}
    {failure : Failure} (h : checkNames c earlier rest = .error failure) :
    ∃ before f after name owner, rest = before ++ f :: after ∧
      checkNames c earlier before = .ok () ∧ clash? (earlier ++ before) f = some (name, owner) ∧
      failure = .sameFieldName owner f.owner name c.name c.iri := by
  induction rest generalizing earlier with
  | nil => cases h
  | cons f rest ih =>
      rw [checkNames] at h
      cases hclash : clash? earlier f with
      | some shared =>
          rw [hclash] at h
          obtain ⟨name, owner⟩ := shared
          cases h
          exact ⟨[], f, rest, name, owner, rfl, rfl, by rwa [List.append_nil], rfl⟩
      | none =>
          rw [hclash] at h
          obtain ⟨before, g, after, name, owner, rfl, hbefore, hfound, hfailure⟩ := ih h
          refine ⟨f :: before, g, after, name, owner, rfl, ?_, ?_, hfailure⟩
          · rw [checkNames, hclash]
            exact hbefore
          · rwa [List.append_assoc] at hfound

namespace ClassDescription

variable {c : ClassDescription}

/-- **Two fields of a class share a name:** a spelling of the one is a spelling of the other, which
comes behind it. -/
def Share (c : ClassDescription) (e f : FieldName) (name : String) : Prop :=
  [e, f].Sublist c.fieldNames ∧ name ∈ [e.camel, e.python] ∧ name ∈ [f.camel, f.python]

theorem checked_eq_ok : c.checked = .ok c ↔ ¬ ∃ e f name, c.Share e f name := by
  have hcheck : c.checked = .ok c ↔ checkNames c [] c.fieldNames = .ok () := by
    unfold checked
    cases checkNames c [] c.fieldNames <;> simp [bind, Except.bind, pure, Except.pure]
  rw [hcheck, checkNames_eq_ok, List.pairwise_iff_forall_sublist]
  simp only [FieldName.apart_iff, List.not_mem_nil, false_implies, implies_true, true_and, Share,
    not_exists, not_and]
  exact ⟨fun h e f name hboth he => h hboth name he, fun h e f hboth name he => h e f name hboth he⟩

theorem eq_of_checked {d : ClassDescription} (h : c.checked = .ok d) : d = c := by
  obtain ⟨_, -, h⟩ := bind_eq_ok.mp h
  exact (Except.ok.inj h).symm

/-- The failure names two fields of the class, and a name that they share. -/
theorem share_of_checked {failure : Failure} (h : c.checked = .error failure) :
    ∃ e f name, c.Share e f name ∧
      failure = .sameFieldName e.owner f.owner name c.name c.iri := by
  have hcheck : checkNames c [] c.fieldNames = .error failure := by
    rcases bind_eq_error.mp h with hcheck | ⟨_, -, hok⟩
    · exact hcheck
    · cases hok
  obtain ⟨before, f, after, name, owner, hfields, -, hclash, rfl⟩ := checkNames_eq_error hcheck
  rw [List.nil_append] at hclash
  obtain ⟨e, he, rfl, hleft, hright⟩ := clash?_eq_some hclash
  refine ⟨e, f, name, ⟨?_, hleft, hright⟩, rfl⟩
  rw [hfields]
  exact (List.singleton_sublist.mpr he).append (List.singleton_sublist.mpr List.mem_cons_self)

end ClassDescription

/-! ### The fields of a class -/

namespace Ontology

/-- **What a class declares**, whether it may have fields of these names or not. -/
structure Declares (target : Target) (o : Ontology) (class_ : Iri) (c : ClassDescription) :
    Prop where
  iri : c.iri = class_
  name : c.name = Naming.className class_
  /-- There is a field for each property that names the class at its domain. -/
  mem : ∀ iri, (∃ f ∈ c.fields, f.property.iri = iri) ↔
    (∃ type ∈ propertyTypes, o.graph.contains ⟨.iri iri, rdfType, .iri type⟩ = true) ∧
      NamesAt o.graph iri .domain class_
  once : (c.fields.map (·.property.iri)).Nodup
  described : ∀ f ∈ c.fields, f.property = propertyOf target o f.property.iri
  sorted : c.fields.Pairwise fun e f => notAfter [e.property.name, e.property.iri.text]
    [f.property.name, f.property.iri.text] = true
  inverses : inverseCollections target o class_ = .ok c.inverses

section Declared

variable {target : Target} {o : Ontology}

/-- **If all lists end, the description of a class is the check of what it declares.** -/
theorem exists_declares (hends : ListsEnd o.graph) (class_ : Iri) :
    ∃ c, describe target o class_ = c.checked ∧ Declares target o class_ c := by
  have hfound := propertiesOf_eq hends class_ .domain
  obtain ⟨found, heq⟩ : ∃ found, propertiesOf o.graph class_ .domain = .ok found := ⟨_, hfound⟩
  obtain ⟨fields, hfields⟩ : ∃ fields, found.mapM (fun iri =>
      fieldWith (inverseCollections target o) (propertyOf target o iri)) = .ok fields := by
    refine exists_mapM_ok fun iri _ => ?_
    obtain ⟨f, hf, -⟩ := @exists_fieldOf target o hends iri
    exact ⟨f, hf⟩
  obtain ⟨inverses, hinverses, -⟩ := @exists_keeps target o hends class_
  obtain ⟨hiris, heach⟩ := results_of_mapM
    (fun iri f hfield => congrArg Property.iri (property_of_fieldWith hfield)) hfields
  have hperm : (assemble o class_ fields inverses).fields.Perm fields := sortByTexts_perm _ _
  refine ⟨assemble o class_ fields inverses, ?_, rfl, rfl, ?_, ?_, ?_, sortByTexts_sorted _ _,
    hinverses⟩
  · unfold describe
    simp only [heq, hfields, hinverses, bind, Except.bind]
  · intro iri
    rw [← mem_properties, ← mem_propertiesOf hends heq, ← hiris, List.mem_map]
    simp only [hperm.mem_iff]
  · rw [(hperm.map _).nodup_iff, hiris]
    exact (properties_nodup o.graph).sublist (sublist_of_filterM heq).1
  · intro f hf
    exact property_of_fieldWith (heach f (hperm.mem_iff.mp hf))

end Declared

end Ontology

/-- **A class is refused exactly if two of its fields share a name.**

Take a session with a generator, in which any steps were made before, for an ontology whose lists
end, and any class.  The class declares its fields and keeps its collections.  It is described by
these if no two of them, one behind the other, share a name in whatever spelling, and its code is
refused if two do.  It fails for nothing else: the failure names two fields of the class with a name
that they share. -/
theorem refused_iff_names_shared {g : Generator} (hends : ListsEnd g.ontology.graph)
    (earlier : List Step) (files : FileTree) (class_ : Iri) :
    let outcome := (Step.describe class_).outcome g (session g earlier files)
    ∃ c : ClassDescription, Declares g.target g.ontology class_ c ∧
      (outcome = .ok c ↔ ¬ ∃ e f name, c.Share e f name) ∧
      ((∃ failure, outcome = .error failure ∧ failure.kind = .generation) ↔
        ∃ e f name, c.Share e f name) ∧
      ∀ failure, outcome = .error failure → ∃ e f name, c.Share e f name ∧
        failure = .sameFieldName e.owner f.owner name (Naming.className class_) class_ := by
  intro outcome
  obtain ⟨c, hdescribe, hdeclares⟩ := @exists_declares g.target g.ontology hends class_
  have houtcome : outcome = c.checked := (Step.describe class_).outcome_session.trans hdescribe
  rw [houtcome]
  refine ⟨c, hdeclares, ClassDescription.checked_eq_ok, ?_, fun failure h => ?_⟩
  · constructor
    · rintro ⟨failure, herror, -⟩
      obtain ⟨e, f, name, hshare, -⟩ := ClassDescription.share_of_checked herror
      exact ⟨e, f, name, hshare⟩
    · intro hshare
      cases hchecked : c.checked with
      | ok d =>
          rw [ClassDescription.eq_of_checked hchecked] at hchecked
          exact absurd hshare (ClassDescription.checked_eq_ok.mp hchecked)
      | error failure =>
          obtain ⟨e, f, name, -, rfl⟩ := ClassDescription.share_of_checked hchecked
          exact ⟨_, rfl, rfl⟩
  · obtain ⟨e, f, name, hshare, rfl⟩ := ClassDescription.share_of_checked h
    exact ⟨e, f, name, hshare, by rw [hdeclares.iri, hdeclares.name]⟩

/-! ### A field that is named like a collection -/

namespace Roster

/-- A team has a number of persons, and persons refer to their team. -/
def statements : List Triple :=
  [⟨.iri ⟨"http://ex.org/a#persons"⟩, rdfType, .iri (owl "DatatypeProperty")⟩,
   ⟨.iri ⟨"http://ex.org/a#persons"⟩, rdfs "domain", .iri ⟨"http://ex.org/a#Team"⟩⟩,
   ⟨.iri ⟨"http://ex.org/a#team"⟩, rdfType, .iri (owl "ObjectProperty")⟩,
   ⟨.iri ⟨"http://ex.org/a#team"⟩, rdfs "domain", .iri ⟨"http://ex.org/a#Person"⟩⟩,
   ⟨.iri ⟨"http://ex.org/a#team"⟩, rdfs "range", .iri ⟨"http://ex.org/a#Team"⟩⟩]

/-- A generator of Java classes for these. -/
def generator : Generator :=
  .make .java { plainSettings with vocabularyName := some "Roster" } (ontologyOf statements)

theorem listsEnd : ListsEnd generator.ontology.graph :=
  listsEnd_of_acyclic (acyclic_of_rank (fun _ => 0) (by decide +kernel))

theorem properties_eq : Ontology.properties generator.ontology.graph =
    [⟨"http://ex.org/a#persons"⟩, ⟨"http://ex.org/a#team"⟩] := by
  unfold Ontology.properties
  rw [sortByTexts_of_sorted (by decide)]
  decide

/-- Why the class of teams is refused. -/
def failure : Failure :=
  .sameFieldName "http://ex.org/a#persons" "inverse of http://ex.org/a#team" "persons" "Team"
    ⟨"http://ex.org/a#Team"⟩

theorem team_refused (files : FileTree) :
    (Step.describe ⟨"http://ex.org/a#Team"⟩).outcome generator (session generator [] files) =
      .error failure := by
  have hdescribe : describe .java generator.ontology ⟨"http://ex.org/a#Team"⟩ = .error failure := by
    delta describe inverseCollections propertiesOf
    simp only [properties_eq]
    decide +kernel
  exact (Step.describe _).outcome_session.trans hdescribe

/-- The team of a person: a field that spells both of its names alike. -/
def team : Property :=
  { iri := ⟨"http://ex.org/a#team"⟩, kind := .collection, fieldType := "Set<Team>",
    elementType := "Team", functional := false, range := some ⟨"http://ex.org/a#Team"⟩ }

/-- The class of persons. -/
def person : ClassDescription :=
  { iri := ⟨"http://ex.org/a#Person"⟩
    fields := [⟨team, some { property := team, source := ⟨"http://ex.org/a#Person"⟩ }⟩] }

theorem person_described (files : FileTree) :
    (Step.describe person.iri).outcome generator (session generator [] files) = .ok person := by
  have hdescribe : describe .java generator.ontology person.iri = .ok person := by
    delta describe inverseCollections propertiesOf
    simp only [properties_eq]
    decide +kernel
  exact (Step.describe _).outcome_session.trans hdescribe

end Roster

/-- A team is refused for a field that is named like its collection; a person, whose only field
spells both of its names alike, is not. -/
theorem team_refused_and_person_described :
    ListsEnd Roster.generator.ontology.graph ∧
    (∃ c : ClassDescription, Declares .java Roster.generator.ontology ⟨"http://ex.org/a#Team"⟩ c ∧
      ∃ e f, c.Share e f "persons" ∧ e.owner = "http://ex.org/a#persons" ∧
        f.owner = "inverse of http://ex.org/a#team") ∧
    ∃ c : ClassDescription, Declares .java Roster.generator.ontology Roster.person.iri c ∧
      ¬ ∃ e f name, c.Share e f name := by
  obtain ⟨c, hteam, -, -, hfailure⟩ := refused_iff_names_shared Roster.listsEnd []
    { root := "/" } ⟨"http://ex.org/a#Team"⟩
  obtain ⟨d, hperson, -, hrefused, -⟩ := refused_iff_names_shared Roster.listsEnd []
    { root := "/" } Roster.person.iri
  obtain ⟨e, f, name, hshare, heq⟩ := hfailure _ (Roster.team_refused _)
  simp only [Roster.failure, Failure.sameFieldName.injEq] at heq
  obtain ⟨hfirst, hsecond, rfl, -⟩ := heq
  refine ⟨Roster.listsEnd, ⟨c, hteam, e, f, hshare, hfirst.symm, hsecond.symm⟩, d, hperson, ?_⟩
  rw [← hrefused]
  rintro ⟨failure, herror, -⟩
  rw [Roster.person_described] at herror
  cases herror

end OntoCode
