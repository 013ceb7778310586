/-
The names of the members of a Python class.

A class that is described has fields with different names in either spelling: the
check goes through them in order and lets no field pass that shares a name with an
earlier one.

A Python class has more members than its fields.  There is a method for each field
that can be added to, named after the field, and one for each inverse collection,
named after the class of what is in it.  The check does not look at those.  Methods
of the first kind differ from each other as their fields do; nothing keeps the others
apart from them, from each other, or from the fields.
-/
import OntoCode.Proofs.FileNames
import OntoCode.Proofs.InsertionOrder
import OntoCode.Proofs.Sessions

namespace OntoCode

open OntoCode.Generate OntoCode.Naming OntoCode.Ontology OntoCode.Rdf OntoCode.Text

/-! ### The check of the fields -/

namespace FieldName

/-- Two fields share no name, in whatever spelling. -/
def Apart (e f : FieldName) : Prop :=
  e.camel ≠ f.camel ∧ e.camel ≠ f.python ∧ e.python ≠ f.camel ∧ e.python ≠ f.python

theorem mem_spellings {f : FieldName} {name : String} :
    name ∈ f.spellings ↔ name = f.camel ∨ name = f.python := by
  unfold spellings
  split
  · rename_i hsame
    rw [List.mem_singleton, ← hsame, or_self]
  · split
    · rw [List.mem_pair]
    · rw [List.mem_pair, or_comm]

end FieldName

theorem clash?_eq_none {earlier : List FieldName} {f : FieldName} :
    clash? earlier f = none ↔ ∀ e ∈ earlier, e.Apart f := by
  simp only [clash?, List.findSome?_eq_none_iff, Option.map_eq_none_iff, List.find?_eq_none,
    FieldName.mem_spellings, Bool.or_eq_true, decide_eq_true_eq, not_or, FieldName.Apart]
  constructor
  · intro h e he
    have hcamel := h f.camel (.inl rfl) e he
    have hpython := h f.python (.inr rfl) e he
    exact ⟨hcamel.1, hpython.1, hcamel.2, hpython.2⟩
  · rintro h name (rfl | rfl) e he
    · exact ⟨(h e he).1, (h e he).2.2.1⟩
    · exact ⟨(h e he).2.1, (h e he).2.2.2⟩

/-- Fields pass exactly if none shares a name with an earlier one. -/
theorem checkNames_eq_ok {c : ClassDescription} {earlier rest : List FieldName} :
    checkNames c earlier rest = .ok () ↔
      (∀ f ∈ rest, ∀ e ∈ earlier, e.Apart f) ∧ rest.Pairwise FieldName.Apart := by
  induction rest generalizing earlier with
  | nil => simp [checkNames]
  | cons f rest ih =>
      have hstep : checkNames c earlier (f :: rest) = .ok () ↔
          clash? earlier f = none ∧ checkNames c (earlier ++ [f]) rest = .ok () := by
        rw [checkNames]
        cases clash? earlier f <;> simp
      rw [hstep, clash?_eq_none, ih, List.forall_mem_cons, List.pairwise_cons]
      constructor
      · rintro ⟨hf, hrest, hpairs⟩
        exact ⟨⟨hf, fun e he d hd => hrest e he d (List.mem_append_left _ hd)⟩,
          fun e he => hrest e he f (List.mem_append_right _ (List.mem_singleton.mpr rfl)), hpairs⟩
      · rintro ⟨⟨hf, hrest⟩, hfirst, hpairs⟩
        refine ⟨hf, fun e he d hd => ?_, hpairs⟩
        rcases List.mem_append.mp hd with hd | hd
        · exact hrest e he d hd
        · rw [List.mem_singleton.mp hd]
          exact hfirst e he

namespace ClassDescription

variable {c : ClassDescription}

/-- The fields of a described class share no name. -/
theorem apart_of_describe {target : Target} {o : Ontology} {class_ : Iri}
    (h : describe target o class_ = .ok c) : c.fieldNames.Pairwise FieldName.Apart := by
  obtain ⟨_, _, -, -, -, -, hcheck⟩ := describe_ok h
  exact (checkNames_eq_ok.mp hcheck).2

/-! ### The members of a Python class -/

/-- The names of the fields in Python: those of the properties and those of the collections. -/
def pythonNames (c : ClassDescription) : List String :=
  c.fields.map (·.property.pythonName) ++ c.inverses.map (·.pythonName)

/-- The names of the methods that add to a property with several values. -/
def propertyAdders (c : ClassDescription) : List String :=
  (c.fields.filter fun f => !f.property.functional && f.property.kind.isMultiValued).map
    fun f => "add_" ++ f.property.pythonName

/-- The names of the methods that add to an inverse collection. -/
def inverseAdders (c : ClassDescription) : List String := c.inverses.map (·.pythonAdderName)

/-- **The names that the body of the Python class gives to its accessors.** -/
def memberNames (c : ClassDescription) : List String :=
  c.pythonNames ++ c.propertyAdders ++ c.inverseAdders

theorem pythonNames_eq (c : ClassDescription) : c.pythonNames = c.fieldNames.map (·.python) := by
  simp [pythonNames, fieldNames, Function.comp_def]

theorem pythonNames_nodup (h : c.fieldNames.Pairwise FieldName.Apart) : c.pythonNames.Nodup := by
  rw [pythonNames_eq]
  exact List.pairwise_map.mpr (h.imp fun hapart => hapart.2.2.2)

theorem propertyAdders_nodup (h : c.fieldNames.Pairwise FieldName.Apart) :
    c.propertyAdders.Nodup := by
  have hnames : (c.fields.map (·.property.pythonName)).Nodup :=
    (pythonNames_nodup h).of_append_left
  have hkept : ((c.fields.filter fun f => !f.property.functional &&
      f.property.kind.isMultiValued).map (·.property.pythonName)).Nodup :=
    hnames.sublist (List.filter_sublist.map _)
  have hadders : c.propertyAdders = ((c.fields.filter fun f => !f.property.functional &&
      f.property.kind.isMultiValued).map (·.property.pythonName)).map ("add_" ++ ·) := by
    rw [propertyAdders, List.map_map]
    rfl
  rw [hadders]
  refine hkept.map fun a b heq => ?_
  rw [← String.toList_inj, String.toList_append, String.toList_append] at heq
  exact String.toList_inj.mp (List.append_cancel_left heq)

section Definitions

variable {style : Style}

/-- The line of a class body that defines a function of some name. -/
def definition (name parameters : String) : String := "    def " ++ name ++ "(self" ++ parameters

theorem accessorLines_subset {f : Field} (hf : f ∈ c.fields) {line : String}
    (h : line ∈ Python.accessorLines f) : line ∈ Python.classLines style c := by
  have hin : line ∈ c.fields.flatMap Python.accessorLines := List.mem_flatMap.mpr ⟨f, hf, h⟩
  simp [Python.classLines, hin]

theorem inverseLines_subset {i : InverseCollection} (hi : i ∈ c.inverses) {line : String}
    (h : line ∈ Python.inverseLines i) : line ∈ Python.classLines style c := by
  have hin : line ∈ c.inverses.flatMap Python.inverseLines := List.mem_flatMap.mpr ⟨i, hi, h⟩
  simp [Python.classLines, hin]

/-! The lines begin with longer texts than a definition does, made of the same characters. -/

theorem definition_getter {f : Field} (hf : f ∈ c.fields) :
    definition f.property.pythonName (") -> " ++ Python.annotation f.property ++ ":") ∈
      Python.classLines style c := by
  have htext : "(self) -> " = "(self" ++ ") -> " := by decide
  refine accessorLines_subset hf ?_
  simp only [definition, Python.accessorLines, htext, String.append_assoc]
  simp

theorem definition_adder {f : Field} (hf : f ∈ c.fields) (hfunctional : f.property.functional = false)
    (hmulti : f.property.kind.isMultiValued = true) :
    definition ("add_" ++ f.property.pythonName) (", value: " ++ f.property.elementType ++ "):") ∈
      Python.classLines style c := by
  have hstart : "    def add_" = "    def " ++ "add_" := by decide
  have htext : "(self, value: " = "(self" ++ ", value: " := by decide
  refine accessorLines_subset hf ?_
  simp only [definition, Python.accessorLines, Python.adderLines, given, hfunctional, hmulti, hstart,
    htext, String.append_assoc, if_true, Bool.false_eq_true, if_false]
  simp

theorem definition_collection {i : InverseCollection} (hi : i ∈ c.inverses) :
    definition i.pythonName (") -> Set[" ++ i.sourceType ++ "]:") ∈ Python.classLines style c := by
  have htext : "(self) -> Set[" = "(self" ++ ") -> Set[" := by decide
  refine inverseLines_subset hi ?_
  simp only [definition, Python.inverseLines, htext, String.append_assoc]
  simp

theorem definition_inverseAdder {i : InverseCollection} (hi : i ∈ c.inverses) :
    definition i.pythonAdderName (", " ++ i.pythonParameterName ++ ": " ++ i.sourceType ++ "):") ∈
      Python.classLines style c := by
  have htext : "(self, " = "(self" ++ ", " := by decide
  refine inverseLines_subset hi ?_
  simp only [definition, Python.inverseLines, htext, String.append_assoc]
  simp

/-- Each of the names is defined by a function of the class body. -/
theorem exists_definition {name : String} (h : name ∈ c.memberNames) :
    ∃ parameters, definition name parameters ∈ Python.classLines style c := by
  simp only [memberNames, pythonNames, propertyAdders, inverseAdders, List.mem_append,
    List.mem_map, List.mem_filter, Bool.and_eq_true, Bool.not_eq_true'] at h
  rcases h with ((⟨f, hf, rfl⟩ | ⟨i, hi, rfl⟩) | ⟨f, ⟨hf, hfunctional, hmulti⟩, rfl⟩) | ⟨i, hi, rfl⟩
  · exact ⟨_, definition_getter hf⟩
  · exact ⟨_, definition_collection hi⟩
  · exact ⟨_, definition_adder hf hfunctional hmulti⟩
  · exact ⟨_, definition_inverseAdder hi⟩

end Definitions

/-! ### Classes that a session describes -/

/-- **The names of the members of a Python class.**

Take a session with a generator, in which any steps were made before, and let it describe a class.
Then the fields have different names, and so have the methods that add to them.  The names of all
accessors are different exactly if those of the methods that add to inverse collections differ from
each other and from those of the former methods, and no such method has the name of a field. Each of
the names is defined in the class. -/
theorem memberNames_of_described {g : Generator} {class_ : Iri} (earlier : List Step)
    (files : FileTree) (style : Style)
    (h : (Step.describe class_).outcome g (session g earlier files) = .ok c) :
    c.pythonNames.Nodup ∧ c.propertyAdders.Nodup ∧
    (c.memberNames.Nodup ↔
      c.inverseAdders.Nodup ∧ c.propertyAdders.Disjoint c.inverseAdders ∧
        c.pythonNames.Disjoint (c.propertyAdders ++ c.inverseAdders)) ∧
    ∀ name ∈ c.memberNames,
      ∃ parameters, definition name parameters ∈ Python.classLines style c := by
  have hdescribe : describe g.target g.ontology class_ = .ok c :=
    (Step.describe class_).outcome_session.symm.trans h
  have hapart := apart_of_describe hdescribe
  have hfields := pythonNames_nodup hapart
  have hadders := propertyAdders_nodup hapart
  refine ⟨hfields, hadders, ?_, fun name => exists_definition⟩
  rw [memberNames, List.append_assoc, List.nodup_append', List.nodup_append']
  constructor
  · rintro ⟨-, ⟨-, hinverses, hapart⟩, hfree⟩
    exact ⟨hinverses, hapart, hfree⟩
  · rintro ⟨hinverses, hapart, hfree⟩
    exact ⟨hfields, ⟨hadders, hinverses, hapart⟩, hfree⟩

/-- Teams that have persons, and persons that play for teams. -/
def teamStatements : List Triple :=
  [⟨.iri ⟨"http://ex.org/a#Team"⟩, rdfType, .iri (owl "Class")⟩,
   ⟨.iri ⟨"http://ex.org/a#Person"⟩, rdfType, .iri (owl "Class")⟩,
   ⟨.iri ⟨"http://ex.org/a#person"⟩, rdfType, .iri (owl "ObjectProperty")⟩,
   ⟨.iri ⟨"http://ex.org/a#person"⟩, rdfs "domain", .iri ⟨"http://ex.org/a#Team"⟩⟩,
   ⟨.iri ⟨"http://ex.org/a#person"⟩, rdfs "range", .iri ⟨"http://ex.org/a#Person"⟩⟩,
   ⟨.iri ⟨"http://ex.org/a#playsFor"⟩, rdfType, .iri (owl "ObjectProperty")⟩,
   ⟨.iri ⟨"http://ex.org/a#playsFor"⟩, rdfs "domain", .iri ⟨"http://ex.org/a#Person"⟩⟩,
   ⟨.iri ⟨"http://ex.org/a#playsFor"⟩, rdfs "range", .iri ⟨"http://ex.org/a#Team"⟩⟩]

/-- A generator of Python classes for teams. -/
def teams : Generator :=
  .make .python { plainSettings with vocabularyName := some "Teams" } (ontologyOf teamStatements)

theorem properties_teams :
    Ontology.properties teams.ontology.graph =
      [⟨"http://ex.org/a#person"⟩, ⟨"http://ex.org/a#playsFor"⟩] := by
  unfold Ontology.properties
  rw [sortByTexts_of_sorted (by decide)]
  decide

/-- That a team has persons. -/
def hasPerson : Property :=
  { iri := ⟨"http://ex.org/a#person"⟩, kind := .collection, fieldType := "Set[Person]",
    elementType := "Person", functional := false, range := some ⟨"http://ex.org/a#Person"⟩ }

/-- That a person plays for teams. -/
def playsFor : Property :=
  { iri := ⟨"http://ex.org/a#playsFor"⟩, kind := .collection, fieldType := "Set[Team]",
    elementType := "Team", functional := false, range := some ⟨"http://ex.org/a#Team"⟩ }

/-- The class of teams. -/
def team : ClassDescription :=
  { iri := ⟨"http://ex.org/a#Team"⟩
    fields := [⟨hasPerson, some { property := hasPerson, source := ⟨"http://ex.org/a#Team"⟩ }⟩]
    inverses := [{ property := playsFor, source := ⟨"http://ex.org/a#Person"⟩ }] }

theorem team_described :
    (Step.describe team.iri).outcome teams (session teams [] { root := "/" }) = .ok team := by
  rw [Step.outcome_session]
  show describe teams.target teams.ontology team.iri = .ok team
  delta describe inverseCollections propertiesOf
  simp only [properties_teams]
  decide +kernel

/-- The names of the members of the class of teams, by what they are for. -/
theorem names_team : team.pythonNames = ["person", "persons"] ∧
    team.propertyAdders = ["add_person"] ∧ team.inverseAdders = ["add_person"] := by
  decide +kernel

theorem memberNames_of_team :
    (Step.describe team.iri).outcome teams (session teams [] { root := "/" }) = .ok team ∧
      ["person", "persons"].Nodup ∧ ["add_person"].Nodup := by
  obtain ⟨hnames, hadders, -⟩ := memberNames_of_described [] { root := "/" }
    ⟨teams.settings, "Teams", teams.indent⟩ team_described
  exact ⟨team_described, names_team.1 ▸ hnames, names_team.2.1 ▸ hadders⟩

/-- A team has two methods of one name: one adds to its persons, and one to those who play for it. -/
theorem team_adds_persons_twice :
    (Step.describe team.iri).outcome teams (session teams [] { root := "/" }) = .ok team ∧
    team.memberNames = ["person", "persons", "add_person", "add_person"] ∧
    ¬ team.memberNames.Nodup ∧
    ∀ style, definition "add_person" ", value: Person):" ∈ Python.classLines style team ∧
      definition "add_person" ", person: Person):" ∈ Python.classLines style team := by
  have hnames : team.memberNames = ["person", "persons", "add_person", "add_person"] := by
    obtain ⟨hfields, hadders, hinverses⟩ := names_team
    rw [memberNames, hfields, hadders, hinverses]
    rfl
  refine ⟨team_described, hnames, ?_, fun style => ⟨?_, ?_⟩⟩
  · rw [hnames]
    decide
  · exact accessorLines_subset List.mem_cons_self (by decide +kernel)
  · exact inverseLines_subset List.mem_cons_self (by decide +kernel)

end ClassDescription

end OntoCode
