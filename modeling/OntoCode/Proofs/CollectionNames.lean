/-
The names of inverse collections in Python.

A collection is named after the class of its entities: the plural of the name of that class with a
small letter in front, and behind it a suffix if other collections of the class have this name.
The method that adds to the collection and its parameter are named after the same class.

If the name of the class is an identifier, all three are.  The parameter goes through the check
for reserved words that the names of properties go through, and the name of the method starts like
no reserved word.  The name of the collection is not checked, and two plurals are reserved words:
those of the letters "a" and "i".
-/
import OntoCode.Proofs.InverseCollections
import OntoCode.Proofs.Plurals
import OntoCode.Proofs.PythonNames

namespace OntoCode

open OntoCode.Naming OntoCode.Ontology OntoCode.Rdf OntoCode.Text

namespace Naming

/-! ### Reserved words among spellings and plurals -/

/-- **A name whose spelling is reserved is spelled as it is.**  Reserved words have no underscores,
but for the one that is nothing else. -/
theorem snakeCase_eq_of_reserved {name : List Char} (hchars : IsNameText name)
    (hfirst : ∀ c ∈ name.head?, isAsciiUpper c = false) (hlong : 2 ≤ name.length)
    (hreserved : String.ofList (snakeCase name) ∈ pythonKeywords) : snakeCase name = name := by
  have hspaced : ∀ word ∈ pythonKeywords, '_' ∈ word.toList → word.toList.length = 1 := by decide
  refine snakeCase_eq_self hchars hfirst fun hmem => ?_
  have hlength := hspaced _ hreserved (by rwa [String.toList_ofList])
  rw [String.toList_ofList, snakeCase_eq_map hchars, List.length_map] at hlength
  have hle := (spaced_spacedWords name).sublist.length_le
  omega

/-- **Two words have a reserved plural.** -/
theorem eq_of_reserved_plural {word p : List Char} (hchars : IsNameText word) (hne : word ≠ [])
    (h : plural? word = some p) (hreserved : String.ofList p ∈ pythonKeywords) :
    word = ['a'] ∨ word = ['i'] := by
  obtain ⟨q, hq, hplural⟩ := exists_plural hchars.newline_not_mem hne
  cases hq.symm.trans h
  rcases hplural.eq_or_ending with heq | ⟨ending, hending, hsuffix⟩
  · -- Of the reserved words that end with an "s", "class" and "pass" are no plurals.
    have hstems : ∀ reserved ∈ pythonKeywords, reserved.toList.getLast? = some 's' →
        reserved.toList.dropLast ∈ [['a'], ['i'], ['c', 'l', 'a', 's'], ['p', 'a', 's']] := by
      decide
    have hword := hstems _ hreserved (by rw [String.toList_ofList, heq, List.getLast?_concat])
    rw [String.toList_ofList, heq, List.dropLast_concat] at hword
    rw [heq] at hq
    rcases List.mem_cons.mp hword with rfl | hword
    · exact .inl rfl
    rcases List.mem_cons.mp hword with rfl | hword
    · exact .inr rfl
    rcases List.mem_pair.mp hword with rfl | rfl
    · exact absurd hq (by decide)
    · exact absurd hq (by decide)
  · have hnone : ∀ ending ∈ irregularEndings, ∀ reserved ∈ pythonKeywords,
        ¬ ending <:+ reserved.toList := by decide
    exact absurd (by rwa [String.toList_ofList]) (hnone ending hending _ hreserved)

end Naming

namespace InverseCollection

variable {c : InverseCollection}

/-! ### The plain name -/

/-- **The plain name of a collection is the plural of an identifier that starts with no capital.** -/
theorem plainName_spec (hsource : IsIdentifier c.sourceType.toList) :
    plural? (lowerFirst c.sourceType.toList) = some c.plainName.toList ∧
      IsIdentifier c.plainName.toList ∧ 2 ≤ c.plainName.toList.length ∧
        ∀ d ∈ c.plainName.toList.head?, isAsciiUpper d = false := by
  have hword := isIdentifier_lowerFirst hsource
  obtain ⟨p, hp, hplural⟩ :=
    exists_plural (fun hline => absurd (hword.chars _ hline) (by decide)) hword.nonempty
  have hname : c.plainName.toList = p := by
    rw [plainName, pluralName, onText, String.toList_ofList, onText, String.toList_ofList, hp,
      Option.getD_some]
  rw [hname]
  refine ⟨hp, hplural.isIdentifier hword, ?_, ?_⟩
  all_goals obtain ⟨d, rest, more, hcons, rfl, hmore⟩ := hplural.exists_cons hword.nonempty
  · have hpositive := List.length_pos_of_ne_nil hmore
    rw [List.length_cons]
    omega
  · obtain ⟨first, others, heq⟩ := List.exists_cons_of_ne_nil hsource.nonempty
    have hfirst : isNameChar first = true := hsource.chars first (heq ▸ List.mem_cons_self)
    rw [heq, lowerFirst_cons hfirst] at hcons
    obtain ⟨rfl, -⟩ := List.cons.inj hcons
    intro e he
    exact Option.some.inj he ▸ isAsciiUpper_lowerAscii first

/-- The plain name is a plural also where the name of the class is no identifier. -/
theorem exists_plural_plainName (c : InverseCollection) :
    let word := lowerFirst c.sourceType.toList
    IsNameText word ∧ word ≠ [] ∧ plural? word = some c.plainName.toList ∧
      IsPlural word c.plainName.toList := by
  intro word
  obtain ⟨hne, hchars, -⟩ := className_isIdentifier_iff c.source
  obtain ⟨first, rest, hcons⟩ := List.exists_cons_of_ne_nil hne
  have hcons : c.sourceType.toList = first :: rest := hcons
  have hfirst : isNameChar first = true := hchars first (hcons ▸ List.mem_cons_self)
  have hword : word = lowerAscii first :: rest := (congrArg lowerFirst hcons).trans
    (lowerFirst_cons hfirst rest)
  have htext : IsNameText word := by
    rw [hword]
    exact List.forall_mem_cons.mpr ⟨isNameChar_lowerAscii hfirst,
      fun d hd => hchars d (hcons ▸ List.mem_cons_of_mem first hd)⟩
  have hnonempty : word ≠ [] := hword ▸ List.cons_ne_nil _ rest
  obtain ⟨p, hp, hplural⟩ := exists_plural htext.newline_not_mem hnonempty
  have hname : c.plainName.toList = p := by
    rw [plainName, pluralName, onText, String.toList_ofList, onText, String.toList_ofList, hp,
      Option.getD_some]
  rw [hname]
  exact ⟨htext, hnonempty, hp, hplural⟩

/-! ### The suffix -/

/-- A suffix that a collection of a class can have. -/
def HasSuffix (c : InverseCollection) : Prop :=
  c.suffix = "" ∨ c.suffix = "By" ++ c.property.upperName

theorem isNameText_suffix (h : c.HasSuffix) : IsNameText c.suffix.toList := by
  rcases h with heq | heq
  · rw [heq]
    decide
  · rw [heq, String.toList_append]
    refine IsNameText.append (by decide) ?_
    rw [Property.upperName, onText, String.toList_ofList]
    exact isNameText_upperFirst (isIdentifier_propertyName c.property.iri).chars

theorem isNameText_name (h : c.HasSuffix) : IsNameText c.name.toList := by
  obtain ⟨hword, -, -, hplural⟩ := c.exists_plural_plainName
  rw [name, String.toList_append]
  exact (hplural.isNameText hword).append (isNameText_suffix h)

/-! ### The names in Python -/

theorem isSmallIdentifier_pythonName (h : c.HasSuffix) (hsource : IsIdentifier c.sourceType.toList) :
    IsSmallIdentifier c.pythonName.toList := by
  obtain ⟨-, hplain, -⟩ := plainName_spec hsource
  have hname : IsIdentifier c.name.toList := by
    rw [name, String.toList_append]
    exact hplain.append (isNameText_suffix h)
  rw [pythonName, onText, String.toList_ofList]
  exact isSmallIdentifier_snakeCase hname

/-- A class whose name is a single letter, as its collections spell it. -/
theorem sourceType_of_letter (hsource : IsIdentifier c.sourceType.toList)
    (h : lowerFirst c.sourceType.toList = ['a'] ∨ lowerFirst c.sourceType.toList = ['i']) :
    c.sourceType = "A" ∨ c.sourceType = "I" := by
  obtain ⟨capital, rest, heq, hsmall, -⟩ := exists_className_eq_cons c.source
  have heq : c.sourceType.toList = capital :: rest := heq
  have hname : isNameChar capital = true := hsource.chars capital (heq ▸ List.mem_cons_self)
  rw [heq, lowerFirst_cons hname, List.cons.injEq, List.cons.injEq] at h
  rw [← String.toList_inj, ← String.toList_inj, heq]
  rcases h with ⟨hletter, rfl⟩ | ⟨hletter, rfl⟩
  · have hcode := toNat_of_lowerAscii_eq hsmall rfl hletter
    have hcapital : capital = 'A' := Char.toNat_inj.mp (Nat.add_right_cancel hcode)
    exact .inl (congrArg (· :: []) hcapital)
  · have hcode := toNat_of_lowerAscii_eq hsmall rfl hletter
    have hcapital : capital = 'I' := Char.toNat_inj.mp (Nat.add_right_cancel hcode)
    exact .inr (congrArg (· :: []) hcapital)

/-- **The name of a collection is reserved for two classes only,** and if it has no suffix. -/
theorem pythonName_reserved_iff (h : c.HasSuffix) (hsource : IsIdentifier c.sourceType.toList) :
    c.pythonName ∈ pythonKeywords ↔
      c.suffix = "" ∧ (c.sourceType = "A" ∨ c.sourceType = "I") := by
  obtain ⟨hplural, hplain, hlong, hfirst⟩ := plainName_spec hsource
  constructor
  · intro hreserved
    have hname : c.name.toList = c.plainName.toList ++ c.suffix.toList := String.toList_append
    have hsame : snakeCase c.name.toList = c.name.toList := by
      refine snakeCase_eq_of_reserved ?_ ?_ ?_ hreserved
      · exact hname ▸ hplain.chars.append (isNameText_suffix h)
      · rwa [hname, List.head?_append_of_ne_nil _ hplain.nonempty]
      · rw [hname, List.length_append]
        omega
    rcases h with hnone | hby
    · refine ⟨hnone, sourceType_of_letter hsource ?_⟩
      have hword := isIdentifier_lowerFirst hsource
      rw [hnone, String.toList_empty, List.append_nil] at hname
      rw [pythonName, onText, hsame, hname] at hreserved
      exact eq_of_reserved_plural hword.chars hword.nonempty hplural hreserved
    · -- The suffix has a capital, which no spelling has.
      have hcapital : 'B' ∈ c.name.toList := by
        rw [hname, hby, String.toList_append]
        exact List.mem_append_right _ (List.mem_append_left _ (by decide))
      have hsmall := (isSmallIdentifier_pythonName (.inr hby) hsource).small 'B'
      rw [pythonName, onText, String.toList_ofList, hsame] at hsmall
      exact absurd (hsmall hcapital) (by decide)
  · rintro ⟨hsuffix, hsource⟩
    rw [pythonName, name, plainName, hsuffix]
    rcases hsource with hsource | hsource
    · rw [hsource]
      decide +kernel
    · rw [hsource]
      decide +kernel

theorem adderName_spec (h : c.HasSuffix) (hsource : IsIdentifier c.sourceType.toList) :
    IsSmallIdentifier c.pythonAdderName.toList ∧ c.pythonAdderName ∉ pythonKeywords := by
  have hname : c.adderName.toList = ['a', 'd', 'd'] ++ (c.sourceType.toList ++ c.suffix.toList) := by
    rw [adderName, String.toList_append, String.toList_append, List.append_assoc]
    rfl
  have hchars : IsNameText (c.sourceType.toList ++ c.suffix.toList) :=
    hsource.chars.append (isNameText_suffix h)
  have hidentifier : IsIdentifier c.adderName.toList := by
    rw [hname]
    exact IsIdentifier.append (by decide) hchars
  constructor
  · rw [pythonAdderName, onText, String.toList_ofList]
    exact isSmallIdentifier_snakeCase hidentifier
  · intro hreserved
    have hnone : ∀ reserved ∈ pythonKeywords, ¬ ['a', 'd', 'd'] <+: reserved.toList := by decide
    have hsame : snakeCase c.adderName.toList = c.adderName.toList := by
      refine snakeCase_eq_of_reserved hidentifier.chars ?_ ?_ hreserved
      · rw [hname]
        exact fun d hd => Option.some.inj hd ▸ rfl
      · rw [hname, List.length_append]
        exact Nat.le_add_right_of_le (by decide)
    refine hnone _ hreserved ?_
    rw [pythonAdderName, onText, String.toList_ofList, hsame, hname]
    exact List.prefix_append _ _

end InverseCollection

/-- A collection that a class keeps has one of the suffixes. -/
theorem Ontology.Keeps.hasSuffix {target : Target} {o : Ontology} {class_ : Iri}
    {collections : List InverseCollection} {c : InverseCollection}
    (h : Keeps target o class_ collections) (hc : c ∈ collections) : c.HasSuffix := by
  by_cases hshares : c.SharesName collections
  · exact .inr (h.told c hc hshares)
  · exact .inl (h.plain c hc hshares)

/-- **Which names of inverse collections can be used in Python.**

Take a session with a generator, in which any steps were made before, and let it look up the
collections of any class.  For each collection whose entities have a class with an identifier for
its name, the collection, the method that adds to it and the parameter of the method have names that
are identifiers of small letters, digits and underscores.  The names of the method and of the
parameter are not reserved in Python.  The name of the collection is reserved exactly if it has no
suffix and the class of its entities is called "A" or "I". -/
theorem collection_names_usable {g : Generator} (earlier : List Step) (files : FileTree)
    {class_ : Iri} {collections : List InverseCollection}
    (h : (Step.inverses class_).outcome g (session g earlier files) = .ok collections)
    {c : InverseCollection} (hc : c ∈ collections) (hsource : IsIdentifier c.sourceType.toList) :
    (IsSmallIdentifier c.pythonName.toList ∧
      (c.pythonName ∈ pythonKeywords ↔
        c.suffix = "" ∧ (c.sourceType = "A" ∨ c.sourceType = "I"))) ∧
    (IsSmallIdentifier c.pythonAdderName.toList ∧ c.pythonAdderName ∉ pythonKeywords) ∧
    IsSmallIdentifier c.pythonParameterName.toList ∧ c.pythonParameterName ∉ pythonKeywords := by
  have hfound : inverseCollections g.target g.ontology class_ = .ok collections :=
    (Step.inverses class_).outcome_session.symm.trans h
  have hsuffix := (keeps_of_inverseCollections hfound).hasSuffix hc
  exact ⟨⟨InverseCollection.isSmallIdentifier_pythonName hsuffix hsource,
      InverseCollection.pythonName_reserved_iff hsuffix hsource⟩,
    InverseCollection.adderName_spec hsuffix hsource,
    Naming.isSmallIdentifier_pythonName hsource, pythonIdentifier_not_reserved _⟩

/-- A team keeps the persons who joined it under names that can be used. -/
theorem team_collections_usable :
    ((Step.inverses ⟨"http://ex.org/a#Team"⟩).outcome Clubs.generator
        (session Clubs.generator [] { root := "/" }) = .ok [Clubs.ofTeam, Clubs.leaders] ∧
      Clubs.ofTeam ∈ [Clubs.ofTeam, Clubs.leaders] ∧
      IsIdentifier Clubs.ofTeam.sourceType.toList) ∧
    Clubs.ofTeam.pythonName = "persons_by_joins" ∧
    IsSmallIdentifier Clubs.ofTeam.pythonName.toList ∧
    Clubs.ofTeam.pythonName ∉ pythonKeywords := by
  have hsource : IsIdentifier Clubs.ofTeam.sourceType.toList := by decide +kernel
  have hcollections := Clubs.teams_collections { root := "/" }
  obtain ⟨⟨hidentifier, hreserved⟩, -⟩ :=
    collection_names_usable [] { root := "/" } hcollections List.mem_cons_self hsource
  refine ⟨⟨hcollections, List.mem_cons_self, hsource⟩, by decide +kernel, hidentifier, ?_⟩
  rw [hreserved]
  exact fun hplain => absurd hplain.1 (by decide)

/-! ### A class with the name of a letter -/

namespace Letters

/-- A letter precedes another one. -/
def statements : List Triple :=
  [⟨.iri ⟨"http://ex.org/a#precedes"⟩, rdfType, .iri (owl "ObjectProperty")⟩,
   ⟨.iri ⟨"http://ex.org/a#precedes"⟩, rdfs "domain", .iri ⟨"http://ex.org/a#A"⟩⟩,
   ⟨.iri ⟨"http://ex.org/a#precedes"⟩, rdfs "range", .iri ⟨"http://ex.org/a#B"⟩⟩]

/-- A generator of Python classes for letters. -/
def generator : Generator :=
  .make .python { plainSettings with vocabularyName := some "Letters" } (ontologyOf statements)

theorem properties_eq : Ontology.properties generator.ontology.graph =
    [⟨"http://ex.org/a#precedes"⟩] := by
  unfold Ontology.properties
  rw [sortByTexts_of_sorted (by decide)]
  decide

/-- Those that precede a letter. -/
def predecessors : InverseCollection :=
  { property := propertyOf .python generator.ontology ⟨"http://ex.org/a#precedes"⟩,
    source := ⟨"http://ex.org/a#A"⟩ }

theorem letters_collections (files : FileTree) :
    (Step.inverses ⟨"http://ex.org/a#B"⟩).outcome generator (session generator [] files) =
      .ok [predecessors] := by
  have hfound : inverseCollections .python generator.ontology ⟨"http://ex.org/a#B"⟩ =
      .ok [predecessors] := by
    delta inverseCollections propertiesOf
    simp only [properties_eq]
    decide +kernel
  exact (Step.inverses _).outcome_session.trans hfound

end Letters

/-- The letters that precede a letter are kept under a reserved word. -/
theorem predecessors_have_reserved_name :
    (Step.inverses ⟨"http://ex.org/a#B"⟩).outcome Letters.generator
        (session Letters.generator [] { root := "/" }) = .ok [Letters.predecessors] ∧
    Letters.predecessors.sourceType = "A" ∧ IsIdentifier Letters.predecessors.sourceType.toList ∧
    Letters.predecessors.pythonName = "as" ∧
    Letters.predecessors.pythonName ∈ pythonKeywords := by
  have hname : Letters.predecessors.pythonName = "as" := by decide +kernel
  refine ⟨Letters.letters_collections _, by decide +kernel, by decide +kernel, hname, ?_⟩
  rw [hname]
  decide

end OntoCode
