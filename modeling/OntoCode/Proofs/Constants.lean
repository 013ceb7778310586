/-
The constants that generated classes refer to.

A class refers to its properties by constants of the vocabulary, whose names it finds
from the IRIs of the properties alone.  The vocabulary goes through all classes and
properties in the order of their IRIs, names them by what they are, and keeps the
first term of each name.

So there is a constant of the name that a class uses, but it need not be for the
property the class means: of properties in several namespaces with one local name,
all but the first are left out, with a report.
-/
import OntoCode.Proofs.InsertionOrder
import OntoCode.Proofs.Plans
import OntoCode.Proofs.Sessions
import OntoCode.Proofs.Superclasses

namespace OntoCode

open OntoCode.Generate OntoCode.Naming OntoCode.Ontology OntoCode.Rdf OntoCode.Text

/-! ### The constants of a vocabulary -/

namespace Ontology

variable {g : Graph}

theorem mem_terms {i : Iri} :
    i ∈ terms g ↔ i ∈ (classes g).filterMap Term.iri? ∨ i ∈ properties g := by
  unfold terms
  rw [mem_sortByTexts, List.mem_eraseDups, List.mem_append]

/-- The terms come in the order of their texts, each once. -/
theorem terms_sorted (g : Graph) : (terms g).Pairwise fun i j => i.text < j.text := by
  have hnodup : (terms g).Nodup :=
    (sortByTexts_perm _ _).nodup_iff.mpr (nodup_eraseDups _ _ (Nat.le_refl _))
  refine ((sortByTexts_sorted _ _).and hnodup).imp ?_
  rintro i j ⟨hsorted, hne⟩
  rcases (notAfter_cons _ _ _ _).mp hsorted with hlt | ⟨heq, -⟩
  · exact hlt
  · exact absurd (Iri.text_inj.mp heq) hne

end Ontology

namespace Generate.Vocabulary

variable {language : VocabularyLanguage} {o : Ontology}

/-- The constant for a class or property. -/
def constantOf (language : VocabularyLanguage) (o : Ontology) (iri : Iri) : VocabularyTerm :=
  ⟨iri, termName language o.graph iri, title? o.graph o.language (.iri iri),
    description? o.graph o.language (.iri iri)⟩

/-- What is found under a name was kept before, or is made of the first term of that name. -/
theorem find?_collect (kept : List VocabularyTerm) (iris : List Iri) (name : String) :
    (collect language o kept iris).1.find? (·.name = name) =
      (kept.find? (·.name = name)).or
        ((iris.find? (termName language o.graph · = name)).map (constantOf language o)) := by
  induction iris generalizing kept with
  | nil => simp [collect]
  | cons iri rest ih =>
      rw [collect]
      cases hkept : kept.find? (·.name = termName language o.graph iri) with
      | some earlier =>
          show (collect language o kept rest).1.find? _ = _
          rw [ih]
          by_cases hname : termName language o.graph iri = name
          · rw [← hname, hkept]
            rfl
          · rw [List.find?_cons_of_neg (by simp [hname])]
      | none =>
          show (collect language o (kept ++ [constantOf language o iri]) rest).1.find? _ = _
          rw [ih, List.find?_append, Option.or_assoc]
          by_cases hname : termName language o.graph iri = name
          · rw [List.find?_cons_of_pos (by simp [constantOf, hname]),
              List.find?_cons_of_pos (by simp [hname])]
            rfl
          · rw [List.find?_cons_of_neg (by simp [constantOf, hname]),
              List.find?_cons_of_neg (by simp [hname])]
            rfl

/-- No name is kept twice. -/
theorem collect_nodup {kept : List VocabularyTerm} (h : (kept.map (·.name)).Nodup)
    (iris : List Iri) : ((collect language o kept iris).1.map (·.name)).Nodup := by
  induction iris generalizing kept with
  | nil => exact h
  | cons iri rest ih =>
      rw [collect]
      cases hkept : kept.find? (·.name = termName language o.graph iri) with
      | some earlier => exact ih h
      | none =>
          refine ih ?_
          rw [List.map_append, List.map_singleton, List.nodup_append']
          refine ⟨h, List.nodup_singleton _, fun name hname hlast => ?_⟩
          obtain ⟨t, ht, rfl⟩ := List.mem_map.mp hname
          have hfree := List.find?_eq_none.mp hkept t ht
          exact hfree (decide_eq_true (List.mem_singleton.mp hlast))

/-- The constants have different names. -/
theorem constants_nodup : ((constants language o).1.map (·.name)).Nodup :=
  @collect_nodup language o [] List.nodup_nil _

/-- The first term of a name, in the order of the IRIs. -/
structure IsFirst (language : VocabularyLanguage) (o : Ontology) (name : String) (iri : Iri) :
    Prop where
  term : iri ∈ terms o.graph
  named : termName language o.graph iri = name
  first : ∀ other ∈ terms o.graph, termName language o.graph other = name → iri.text ≤ other.text

section First

variable {name : String} {iri first : Iri}

theorem IsFirst.unique (h : IsFirst language o name iri) (hfirst : IsFirst language o name first) :
    iri = first :=
  Iri.text_inj.mp (le_antisymm (h.first _ hfirst.term hfirst.named)
    (hfirst.first _ h.term h.named))

/-- A term is the first one of its name exactly if no term with an earlier IRI has the name. -/
theorem IsFirst.eq_iff (h : IsFirst language o name first) (hterm : iri ∈ terms o.graph)
    (hname : termName language o.graph iri = name) :
    first = iri ↔ ∀ other ∈ terms o.graph, other.text < iri.text →
      termName language o.graph other ≠ name := by
  constructor
  · rintro rfl other hother hlt heq
    exact absurd hlt (not_lt_of_ge (h.first other hother heq))
  · intro hfree
    by_contra hne
    have hlt : first.text < iri.text :=
      lt_of_le_of_ne (h.first iri hterm hname) fun heq => hne (Iri.text_inj.mp heq)
    exact hfree first h.term hlt h.named

/-- The term that is found under a name is the first one: the terms are sorted. -/
theorem isFirst_of_find?
    (h : (terms o.graph).find? (termName language o.graph · = name) = some iri) :
    IsFirst language o name iri := by
  obtain ⟨hname, before, after, hsplit, hbefore⟩ := List.find?_eq_some_iff_append.mp h
  refine ⟨List.mem_of_find?_eq_some h, of_decide_eq_true hname, fun other hother heq => ?_⟩
  have hsorted := terms_sorted o.graph
  rw [hsplit] at hother hsorted
  rcases List.mem_append.mp hother with hin | hin
  · exact absurd heq (by simpa using hbefore other hin)
  · rcases List.mem_cons.mp hin with rfl | hin
    · exact le_refl _
    · exact le_of_lt ((List.pairwise_cons.mp (List.pairwise_append.mp hsorted).2.1).1 other hin)

theorem exists_find? (hterm : iri ∈ terms o.graph) (hname : termName language o.graph iri = name) :
    ∃ found, (terms o.graph).find? (termName language o.graph · = name) = some found :=
  Option.isSome_iff_exists.mp (List.find?_isSome.mpr ⟨iri, hterm, decide_eq_true hname⟩)

theorem find?_eq_some_iff :
    (terms o.graph).find? (termName language o.graph · = name) = some iri ↔
      IsFirst language o name iri := by
  refine ⟨isFirst_of_find?, fun h => ?_⟩
  obtain ⟨found, hfound⟩ := exists_find? h.term h.named
  rw [hfound, (isFirst_of_find? hfound).unique h]

end First

theorem eq_of_name {t u : VocabularyTerm} (ht : t ∈ (constants language o).1)
    (hu : u ∈ (constants language o).1) (h : t.name = u.name) : t = u :=
  List.inj_on_of_nodup_map constants_nodup ht hu h

/-- The constants are made of the first terms of their names. -/
theorem mem_constants {t : VocabularyTerm} :
    t ∈ (constants language o).1 ↔
      IsFirst language o t.name t.iri ∧ t = constantOf language o t.iri := by
  have hfind := @find?_collect language o [] (terms o.graph) t.name
  rw [List.find?_nil, Option.none_or] at hfind
  rw [← find?_eq_some_iff]
  constructor
  · intro ht
    obtain ⟨found, hfound⟩ : ∃ found, (constants language o).1.find? (·.name = t.name) =
        some found := Option.isSome_iff_exists.mp (List.find?_isSome.mpr ⟨t, ht, by simp⟩)
    have hname : found.name = t.name := by simpa using List.find?_some hfound
    obtain rfl := eq_of_name (List.mem_of_find?_eq_some hfound) ht hname
    rw [constants, hfind] at hfound
    obtain ⟨iri, hiri, rfl⟩ := Option.map_eq_some_iff.mp hfound
    exact ⟨hiri, rfl⟩
  · rintro ⟨hiri, ht⟩
    rw [hiri, Option.map_some, ← ht] at hfind
    exact List.mem_of_find?_eq_some hfind

/-- The name of a class or property has a constant, for the first term of that name. -/
theorem exists_constant {iri : Iri} (hterm : iri ∈ terms o.graph) {name : String}
    (hname : termName language o.graph iri = name) :
    ∃ t ∈ (constants language o).1, t.name = name ∧ IsFirst language o name t.iri := by
  obtain ⟨first, hfind⟩ := exists_find? hterm hname
  have hfirst := isFirst_of_find? hfind
  refine ⟨constantOf language o first, mem_constants.mpr ⟨?_, rfl⟩, hfirst.named, hfirst⟩
  exact ⟨hfirst.term, rfl, fun other hother heq => hfirst.first other hother (heq.trans hfirst.named)⟩

end Generate.Vocabulary

/-! ### The properties of described classes -/

namespace Ontology

variable {target : Target} {o : Ontology}

theorem property_of_fieldWith {inverses : Iri → Except Failure (List InverseCollection)}
    {p : Property} {f : Field} (h : fieldWith inverses p = .ok f) : f.property = p := by
  unfold fieldWith at h
  split at h
  · obtain ⟨found, -, h⟩ := bind_eq_ok.mp h
    cases h
    rfl
  · cases h
    rfl

/-- A described class has a field for each property that it declares. -/
theorem fields_of_describe {class_ : Iri} {c : ClassDescription}
    (h : describe target o class_ = .ok c) :
    ∃ properties, propertiesOf o.graph class_ .domain = .ok properties ∧
      (∀ iri, iri ∈ properties ↔ ∃ f ∈ c.fields, f.property.iri = iri) ∧
      ∀ f ∈ c.fields, fieldWith (inverseCollections target o)
        (propertyOf target o f.property.iri) = .ok f := by
  obtain ⟨properties, fields, hproperties, hfields, -, hassembled, -⟩ := describe_ok h
  obtain ⟨hiris, heach⟩ := results_of_mapM
    (fun iri f hfield => congrArg Property.iri (property_of_fieldWith hfield)) hfields
  have hin : ∀ f, f ∈ c.fields ↔ f ∈ fields := by
    intro f
    rw [hassembled]
    exact mem_sortByTexts
  refine ⟨properties, hproperties, fun iri => ?_, fun f hf => heach f ((hin f).mp hf)⟩
  rw [← hiris, List.mem_map]
  exact exists_congr fun f => and_congr_left fun _ => (hin f).symm

/-- The fields of a described class are for properties of the ontology. -/
theorem field_of_describe {class_ : Iri} {c : ClassDescription}
    (h : describe target o class_ = .ok c) {f : Field} (hf : f ∈ c.fields) :
    f.property = propertyOf target o f.property.iri ∧
      f.property.iri ∈ Ontology.properties o.graph := by
  obtain ⟨properties, hproperties, hiris, heach⟩ := fields_of_describe h
  exact ⟨property_of_fieldWith (heach f hf),
    (mem_of_filterM hproperties _ ((hiris _).mpr ⟨f, hf, rfl⟩)).1⟩

end Ontology

theorem Generator.described_of_mem {g : Generator} {classes : List ClassDescription}
    (h : g.described = .ok classes) {c : ClassDescription} (hc : c ∈ classes) :
    describe g.target g.ontology c.iri = .ok c := by
  obtain ⟨found, hfound, h⟩ := bind_eq_ok.mp h
  obtain ⟨⟨⟩, -, h⟩ := bind_eq_ok.mp h
  cases h
  obtain ⟨-, heach⟩ := results_of_mapM (fun class_ c hc => (iri_of_describe hc).1) hfound
  exact heach c ((Hierarchy.order_perm found).mem_iff.mp hc)

/-! ### What classes refer to -/

namespace Generate

/-- A text occurs in a line of code. -/
def Mentions (line text : String) : Prop := text.toList.IsInfix line.toList

section Mentions

variable {line text : String}

theorem Mentions.refl (text : String) : Mentions text text := List.infix_refl _

theorem Mentions.append (h : Mentions line text) (more : String) : Mentions (line ++ more) text := by
  rw [Mentions, String.toList_append]
  exact h.trans (List.prefix_append _ _).isInfix

theorem Mentions.prepend (h : Mentions line text) (before : String) :
    Mentions (before ++ line) text := by
  rw [Mentions, String.toList_append]
  exact h.trans (List.suffix_append _ _).isInfix

end Mentions

namespace VocabularyLanguage

/-- The name of the constant that classes refer to a property by. -/
def constantName (language : VocabularyLanguage) (p : Property) : String :=
  match language with
  | .java => p.name
  | .python => pythonIdentifier p.name

/-- The class of the vocabulary. -/
def vocabularyClass (language : VocabularyLanguage) (style : Style) : String :=
  match language with
  | .java => style.vocabulary
  | .python => Python.vocabularyClass style

/-- The code of a class. -/
def classLines (language : VocabularyLanguage) (style : Style) (c : ClassDescription) : Code :=
  match language with
  | .java => Java.classLines style c
  | .python => Python.classLines style c

variable {language : VocabularyLanguage} {style : Style} {c : ClassDescription} {f : Field}

theorem exists_mention_java (hf : f ∈ c.fields) :
    ∃ line ∈ Java.classLines style c, Mentions line (Java.constant style f.property) := by
  obtain ⟨line, hline, hmention⟩ : ∃ line ∈ Java.addToModelLines style c,
      Mentions line (Java.constant style f.property) := by
    simp only [Java.addToModelLines, Style.deep, List.mem_append, List.mem_map]
    refine ⟨_, .inl (.inl (.inr ⟨_, .inl (.inr ⟨f, hf, rfl⟩), rfl⟩)), .prepend ?_ _⟩
    exact (((Mentions.refl _).prepend _).append _ |>.append _).append _
  refine ⟨line, ?_, hmention⟩
  simp only [Java.classLines, List.mem_append, hline, true_or, or_true]

theorem exists_mention_python (hf : f ∈ c.fields) :
    ∃ line ∈ Python.classLines style c, Mentions line (Python.constant style f.property) := by
  obtain ⟨line, hline, hmention⟩ : ∃ line ∈ Python.addToModelLines style c,
      Mentions line (Python.constant style f.property) := by
    simp only [Python.addToModelLines, List.mem_append, List.mem_map]
    refine ⟨_, .inl (.inr ⟨f, hf, rfl⟩), ?_⟩
    -- The calls differ in what stands before and after the arguments they share.
    have harguments : Mentions ("(target, " ++ Python.constant style f.property ++ ", self." ++
        Python.slot f.property.pythonName) (Python.constant style f.property) :=
      (((Mentions.refl _).prepend _).append _).append _
    cases f.property.kind with
    | value | array => exact (((harguments.prepend _).append _).append _).append _
    | object | collection => exact (harguments.prepend _).append _
  refine ⟨line, ?_, hmention⟩
  simp only [Python.classLines, List.mem_append, hline, true_or, or_true]

/-- The code of a class refers to each of its properties by the name of a constant. -/
theorem exists_mention (hf : f ∈ c.fields) :
    ∃ line ∈ language.classLines style c,
      Mentions line (language.vocabularyClass style ++ "." ++ language.constantName f.property) := by
  cases language with
  | java => exact exists_mention_java hf
  | python => exact exists_mention_python hf

/-- The vocabulary names a property by the name that classes use, if it is not a class as well. -/
theorem termName_of_not_class {g : Graph} {p : Property}
    (h : Term.iri p.iri ∉ Ontology.classes g) :
    Vocabulary.termName language g p.iri = language.constantName p := by
  have hclass : (Ontology.classes g).contains (.iri p.iri) = false := by
    rw [← Bool.not_eq_true, List.contains_iff_mem]
    exact h
  simp only [Vocabulary.termName, hclass, Bool.false_eq_true, if_false]
  cases language <;> rfl

end VocabularyLanguage

end Generate

/-! ### Classes and vocabulary of one session -/

open Generate.Vocabulary

/-- **The constants that generated classes refer to.**

Take a session with a Java or Python generator, in which any steps were made before, and a property,
not a class as well, that a described class declares.  The code of the class refers to it by a name.
The vocabulary has exactly one constant of this name, for the first term that is given the name in
the order of the IRIs; this is the property itself exactly if no term with an earlier IRI is given
the name. -/
theorem constants_of_described {g : Generator} {language : VocabularyLanguage}
    (hlanguage : g.vocabularyLanguage? = some language) (earlier : List Step) (files : FileTree)
    {classes : List ClassDescription}
    (h : Step.describeClasses.outcome g (session g earlier files) = .ok classes)
    {c : ClassDescription} (hc : c ∈ classes) {f : Field} (hf : f ∈ c.fields)
    (hproperty : Term.iri f.property.iri ∉ Ontology.classes g.ontology.graph) :
    let name := language.constantName f.property
    (∀ style, g.classText style c = textOf (language.classLines style c) ∧
      ∃ line ∈ language.classLines style c,
        Mentions line (language.vocabularyClass style ++ "." ++ name)) ∧
    ∃ constants : List VocabularyTerm,
      (Step.vocabularyTerms language).outcome g (session g earlier files) = .ok constants ∧
      ∃ t ∈ constants, t.name = name ∧ (∀ other ∈ constants, other.name = name → other = t) ∧
        IsFirst language g.ontology name t.iri ∧
        (t.iri = f.property.iri ↔ ∀ other ∈ terms g.ontology.graph,
          other.text < f.property.iri.text → termName language g.ontology.graph other ≠ name) := by
  intro name
  have hdescribed : g.described = .ok classes := Step.describeClasses.outcome_session.symm.trans h
  have hterm : f.property.iri ∈ terms g.ontology.graph :=
    mem_terms.mpr (.inr (field_of_describe (Generator.described_of_mem hdescribed hc) hf).2)
  have hname : termName language g.ontology.graph f.property.iri = name :=
    VocabularyLanguage.termName_of_not_class hproperty
  refine ⟨fun style => ⟨?_, VocabularyLanguage.exists_mention hf⟩,
    (constants language g.ontology).1, Step.outcome_session _, ?_⟩
  · unfold Generator.vocabularyLanguage? at hlanguage
    unfold Generator.classText
    cases htarget : g.target <;> rw [htarget] at hlanguage <;> cases hlanguage <;> rfl
  · obtain ⟨t, ht, htname, hfirst⟩ := exists_constant hterm hname
    exact ⟨t, ht, htname, fun other hother heq => eq_of_name hother ht (heq.trans htname.symm),
      hfirst, hfirst.eq_iff hterm hname⟩

/-! ### Two properties of one name

Persons and teams come from two namespaces, and both have a property called a name.
-/

namespace Names

/-- Persons with names, and teams with names. -/
def statements : List Triple :=
  [⟨.iri ⟨"http://ex.org/a#Person"⟩, rdfType, .iri (owl "Class")⟩,
   ⟨.iri ⟨"http://ex.org/a#name"⟩, rdfType, .iri (owl "DatatypeProperty")⟩,
   ⟨.iri ⟨"http://ex.org/a#name"⟩, rdfs "domain", .iri ⟨"http://ex.org/a#Person"⟩⟩,
   ⟨.iri ⟨"http://ex.org/b#Team"⟩, rdfType, .iri (owl "Class")⟩,
   ⟨.iri ⟨"http://ex.org/b#name"⟩, rdfType, .iri (owl "DatatypeProperty")⟩,
   ⟨.iri ⟨"http://ex.org/b#name"⟩, rdfs "domain", .iri ⟨"http://ex.org/b#Team"⟩⟩]

/-- A generator of Python classes for both. -/
def generator : Generator :=
  .make .python { plainSettings with vocabularyName := some "Names" } (ontologyOf statements)

/-- A property without a range. -/
def fieldFor (iri : String) : Field :=
  { property :=
      { iri := ⟨iri⟩, kind := .value, fieldType := "str", elementType := "str", functional := false } }

/-- The class of persons. -/
def person : ClassDescription :=
  { iri := ⟨"http://ex.org/a#Person"⟩, fields := [fieldFor "http://ex.org/a#name"] }

/-- The class of teams. -/
def team : ClassDescription :=
  { iri := ⟨"http://ex.org/b#Team"⟩, fields := [fieldFor "http://ex.org/b#name"] }

theorem classes_eq :
    Ontology.classes generator.ontology.graph = [.iri person.iri, .iri team.iri] := by
  unfold Ontology.classes
  rw [sortByTexts_of_sorted (by decide)]
  decide

theorem properties_eq :
    Ontology.properties generator.ontology.graph =
      [⟨"http://ex.org/a#name"⟩, ⟨"http://ex.org/b#name"⟩] := by
  unfold Ontology.properties
  rw [sortByTexts_of_sorted (by decide)]
  decide

/-- Both classes are described. -/
theorem described :
    Step.describeClasses.outcome generator (session generator [] { root := "/" }) =
      .ok [person, team] := by
  have hiris : generator.classesToGenerate = [person.iri, team.iri] := by
    unfold Generator.classesToGenerate
    rw [classes_eq]
    rfl
  have hfound : generator.classesToGenerate.mapM
      (describe generator.target generator.ontology) = .ok [person, team] := by
    rw [hiris]
    delta describe inverseCollections propertiesOf
    simp only [properties_eq]
    decide +kernel
  have hordered : generator.Ordered [person, team] := Generator.ordered_of_found hfound (by decide)
    (Hierarchy.order_of_taken (sortByTexts_of_sorted (by decide)) (by decide +kernel))
  exact Step.describeClasses.outcome_session.trans hordered.described

/-- The first term of this name is the one for persons. -/
theorem isFirst_name : IsFirst .python generator.ontology "name" ⟨"http://ex.org/a#name"⟩ := by
  refine ⟨mem_terms.mpr (.inr ?_), ?_, fun other hother hname => ?_⟩
  · rw [properties_eq]
    exact List.mem_cons_self
  · unfold termName
    rw [classes_eq]
    decide
  · rw [mem_terms, classes_eq, properties_eq, ← List.mem_append] at hother
    unfold termName at hname
    rw [classes_eq] at hname
    revert other
    decide

end Names

/-- The class of persons refers to the constant for the names of persons. -/
theorem constants_of_names :
    (Names.generator.vocabularyLanguage? = some .python ∧
      Step.describeClasses.outcome Names.generator
          (session Names.generator [] { root := "/" }) = .ok [Names.person, Names.team] ∧
      Names.fieldFor "http://ex.org/a#name" ∈ Names.person.fields ∧
      Term.iri ⟨"http://ex.org/a#name"⟩ ∉ Ontology.classes Names.generator.ontology.graph) ∧
    ∃ constants : List VocabularyTerm,
      (Step.vocabularyTerms .python).outcome Names.generator
          (session Names.generator [] { root := "/" }) = .ok constants ∧
      ∃ t ∈ constants, t.name = "name" ∧ t.iri = ⟨"http://ex.org/a#name"⟩ := by
  have hperson : Names.person ∈ [Names.person, Names.team] := List.mem_cons_self
  have hfield : Names.fieldFor "http://ex.org/a#name" ∈ Names.person.fields := List.mem_cons_self
  have hplain : Term.iri ⟨"http://ex.org/a#name"⟩ ∉
      Ontology.classes Names.generator.ontology.graph := by
    rw [Names.classes_eq]
    decide
  obtain ⟨-, constants, hconstants, t, ht, hname, -, hfirst, -⟩ :=
    constants_of_described rfl [] { root := "/" } Names.described hperson hfield hplain
  have hused : VocabularyLanguage.python.constantName
      (Names.fieldFor "http://ex.org/a#name").property = "name" := by decide
  rw [hused] at hname hfirst
  refine ⟨⟨rfl, Names.described, hfield, hplain⟩, constants, hconstants, t, ht, hname, ?_⟩
  exact hfirst.unique Names.isFirst_name

/-- The class of teams refers to a constant that is not for the names of teams. -/
theorem no_constant_for_team_name :
    Step.describeClasses.outcome Names.generator
        (session Names.generator [] { root := "/" }) = .ok [Names.person, Names.team] ∧
    Names.fieldFor "http://ex.org/b#name" ∈ Names.team.fields ∧
    Python.constant ⟨Names.generator.settings, "Names", Names.generator.indent⟩
      (Names.fieldFor "http://ex.org/b#name").property = "Names.name" ∧
    ∃ constants : List VocabularyTerm,
      (Step.vocabularyTerms .python).outcome Names.generator
          (session Names.generator [] { root := "/" }) = .ok constants ∧
      ¬ ∃ t ∈ constants, t.name = "name" ∧ t.iri = ⟨"http://ex.org/b#name"⟩ := by
  refine ⟨Names.described, List.mem_cons_self, by decide, _, Step.outcome_session _, ?_⟩
  rintro ⟨t, ht, hname, hiri⟩
  have hfirst := (mem_constants.mp ht).1
  rw [hname, hiri] at hfirst
  exact absurd (hfirst.unique Names.isFirst_name) (by decide)

end OntoCode
