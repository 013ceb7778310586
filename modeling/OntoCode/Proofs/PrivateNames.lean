/-
Attributes that are private to a Python class.

The body of a Python class spells an attribute as an identifier, and a call that links two entities
passes its name as a text.  For most names both are one attribute.  But an identifier that starts
with two underscores is private to the class: it stands for an attribute with the name of the class
in front, unless it ends with two underscores.  No text is ever changed in this way.

An attribute is the name of a property or collection behind an underscore, so it is private if that
name has an underscore in front already.  The steps that make a name keep its first character, up to
its case, and only the first one can put an underscore there: for a local name that starts with a
digit, or with a character that no identifier has.
-/
import Mathlib.Data.List.TakeWhile
import OntoCode.Proofs.Accessors
import OntoCode.Proofs.CollectionNames

namespace OntoCode

open OntoCode.Generate OntoCode.Naming OntoCode.Ontology OntoCode.Rdf OntoCode.Text

/-! ### What an identifier in a class stands for -/

namespace Generate.Python

/-- The identifier is private to the class whose body it stands in. -/
def IsPrivate (identifier : String) : Prop :=
  ['_', '_'] <+: identifier.toList ∧ ¬ ['_', '_'] <:+ identifier.toList

instance (identifier : String) : Decidable (IsPrivate identifier) :=
  inferInstanceAs (Decidable (_ ∧ _))

/-- The attribute that an identifier stands for in the body of a class.  A private one gets the name
of the class in front, without the underscores that it starts with, if anything else is left. -/
def attributeIn (className identifier : String) : String :=
  let plain := className.toList.dropWhile (· = '_')
  if IsPrivate identifier ∧ plain ≠ [] then "_" ++ String.ofList plain ++ identifier
  else identifier

/-- A name as a text. -/
def quoted (name : String) : String := "\"" ++ (name ++ "\"")

/-- An identifier stands for the attribute that it spells unless it is private to a class with a
name of more than underscores. -/
theorem attributeIn_eq_iff {className identifier : String} :
    attributeIn className identifier = identifier ↔
      ¬ IsPrivate identifier ∨ ∀ c ∈ className.toList, c = '_' := by
  have hplain : className.toList.dropWhile (· = '_') = [] ↔ ∀ c ∈ className.toList, c = '_' := by
    simp only [List.dropWhile_eq_nil_iff, decide_eq_true_eq]
  unfold attributeIn
  dsimp only
  rw [← hplain]
  split
  · rename_i hprivate
    refine iff_of_false (fun heq => ?_) (by simpa using hprivate)
    have hlength := congrArg String.length heq
    rw [String.length_append, String.length_append] at hlength
    have hone : ("_" : String).length = 1 := rfl
    omega
  · rename_i hplain
    exact iff_of_true rfl (by rwa [not_and_or, not_not] at hplain)

/-- An attribute is private if its name starts with an underscore and does not end with two. -/
theorem isPrivate_slot_iff {name : String} (hname : name.toList ≠ ['_']) :
    IsPrivate (slot name) ↔ name.toList.head? = some '_' ∧ ¬ ['_', '_'] <:+ name.toList := by
  have hslot : (slot name).toList = '_' :: name.toList := by
    rw [slot, String.toList_append]
    rfl
  have hsuffix : ['_', '_'] <:+ '_' :: name.toList ↔ ['_', '_'] <:+ name.toList := by
    rw [List.suffix_cons_iff]
    refine or_iff_right fun heq => hname ?_
    exact (List.cons.inj heq).2.symm
  rw [IsPrivate, hslot, hsuffix]
  refine and_congr_left fun _ => ?_
  rw [List.cons_prefix_cons, and_iff_right rfl]
  cases name.toList with
  | nil => simp
  | cons c rest => simp [List.cons_prefix_cons, eq_comm]

end Generate.Python

/-! ### Names that start with an underscore -/

namespace Naming

theorem upperAscii_eq_underscore {c : Char} : upperAscii c = '_' ↔ c = '_' := by
  have hcode : '_'.toNat = 95 := rfl
  rw [← Char.toNat_inj, ← Char.toNat_inj, toNat_upperAscii, hcode]
  split <;> omega

/-- The text starts with an underscore. -/
def StartsBare (s : List Char) : Prop := s.head? = some '_'

/-- The text starts with a letter of ASCII. -/
def StartsWithLetter (s : List Char) : Prop := ∃ c ∈ s.head?, isAsciiLetter c = true

/-- **Where the first underscore comes from:** a name that does not start with a letter is sanitised
to one that starts with an underscore. -/
theorem startsBare_sanitize {s : List Char} : StartsBare (sanitize s) ↔ ¬ StartsWithLetter s := by
  cases s with
  | nil => exact iff_of_true rfl (by rintro ⟨c, ⟨⟩, -⟩)
  | cons c rest =>
      have hletter : StartsWithLetter (c :: rest) ↔ isAsciiLetter c = true := by
        simp [StartsWithLetter]
      rw [hletter, StartsBare, sanitize, List.map_cons]
      dsimp only
      by_cases hname : isNameChar c = true
      · rw [if_pos hname]
        have hcode : isAsciiLetter c = true ↔
            65 ≤ c.toNat ∧ c.toNat ≤ 90 ∨ 97 ≤ c.toNat ∧ c.toNat ≤ 122 := by
          rw [isAsciiLetter, Bool.or_eq_true, isAsciiUpper_iff, isAsciiLower_iff]
        have hunderscore : c = '_' ↔ c.toNat = 95 := Char.toNat_inj.symm
        rw [isNameChar_iff] at hname
        split
        · rename_i hdigit
          rw [isAsciiDigit_iff] at hdigit
          refine iff_of_true rfl ?_
          rw [hcode]
          omega
        · rename_i hdigit
          rw [isAsciiDigit_iff] at hdigit
          rw [List.head?_cons, Option.some.injEq, hcode, hunderscore]
          omega
      · rw [if_neg hname]
        refine iff_of_true rfl fun hletter => hname ?_
        rw [isNameChar, hletter, Bool.true_or, Bool.true_or]

section Steps

variable {s t : List Char}

theorem startsBare_append (h : s ≠ []) : StartsBare (s ++ t) ↔ StartsBare s := by
  rw [StartsBare, List.head?_append_of_ne_nil s h, StartsBare]

theorem startsBare_lowerFirst (h : IsNameText s) : StartsBare (lowerFirst s) ↔ StartsBare s := by
  cases s with
  | nil => rfl
  | cons c rest =>
      rw [lowerFirst_cons (h c List.mem_cons_self)]
      simp [StartsBare, lowerAscii_eq_underscore]

theorem startsBare_upperFirst (h : IsNameText s) : StartsBare (upperFirst s) ↔ StartsBare s := by
  cases s with
  | nil => rfl
  | cons c rest =>
      rw [upperFirst, upperChar_of_isNameChar (h c List.mem_cons_self)]
      simp [StartsBare, upperAscii_eq_underscore]

theorem startsBare_snakeCase (h : IsNameText s) : StartsBare (snakeCase s) ↔ StartsBare s := by
  rw [StartsBare, StartsBare, head?_snakeCase h]
  cases s with
  | nil => rfl
  | cons c rest => simp [lowerAscii_eq_underscore]

theorem IsPlural.startsBare (h : IsPlural s t) (hs : s ≠ []) : StartsBare t ↔ StartsBare s := by
  obtain ⟨c, rest, more, rfl, rfl, -⟩ := h.exists_cons hs
  rfl

/-- A run is made of the characters that are kept. -/
theorem keep_of_mem_runs {keep : Char → Bool} :
    ∀ word ∈ runs keep s, ∀ c ∈ word, keep c = true := by
  induction s with
  | nil => simp [runs]
  | cons d rest ih =>
      intro word hword
      rw [runs] at hword
      split at hword
      · rename_i hd
        have hone : ∀ c ∈ [d], keep c = true := List.forall_mem_singleton.mpr hd
        split at hword
        · rename_i first more hruns
          rw [hruns] at ih
          have hfirst := ih first List.mem_cons_self
          split at hword
          · rcases List.mem_cons.mp hword with rfl | hword
            · exact List.forall_mem_cons.mpr ⟨hd, hfirst⟩
            · exact ih word (List.mem_cons_of_mem first hword)
          · rcases List.mem_cons.mp hword with rfl | hword
            · exact hone
            · exact ih word hword
        · exact List.mem_singleton.mp hword ▸ hone
      · exact ih word hword

theorem startsBare_pascalCase (h : IsNameText s) : StartsBare (pascalCase s) ↔
    StartsBare s ∧ (alphanumericWords s).length ≤ 1 := by
  unfold pascalCase
  rw [← runs_of_isNameText h]
  split
  · rename_i first second more hwords
    have hfirst : first ∈ runs (fun c => !isWordGap c) s := hwords ▸ List.mem_cons_self
    obtain ⟨c, word, rfl⟩ := List.exists_cons_of_ne_nil (ne_nil_of_mem_runs first hfirst)
    have hword : IsNameText (c :: word) := fun d hd => h d (mem_of_mem_runs _ _ hfirst d hd)
    have hkept : (!isWordGap c) = true := keep_of_mem_runs _ hfirst c List.mem_cons_self
    refine iff_of_false (fun hbare => ?_) (fun hfew => absurd hfew.2 (by simp [hwords]))
    rw [List.flatMap_cons, startsBare_append (by simp [upperFirst, upperChar_of_isNameChar
      (hword c List.mem_cons_self)]), startsBare_upperFirst hword] at hbare
    rw [Option.some.inj hbare] at hkept
    exact absurd hkept (by decide)
  · rename_i hfew
    rw [startsBare_upperFirst h]
    refine (and_iff_left ?_).symm
    cases hwords : runs (fun c => !isWordGap c) s with
    | nil => exact Nat.zero_le 1
    | cons first more =>
        cases more with
        | nil => exact Nat.le_refl 1
        | cons second more => exact absurd hwords (hfew first second more)

end Steps

/-- **The name of a class starts with an underscore** if its local name does not start with a letter
and does not have several words. -/
theorem startsBare_className (iri : Iri) : StartsBare (className iri).toList ↔
    ¬ StartsWithLetter iri.localName.toList ∧
      (alphanumericWords iri.localName.toList).length ≤ 1 := by
  rw [className, onText, String.toList_ofList, Function.comp_apply,
    startsBare_pascalCase (isNameText_sanitize _), startsBare_sanitize, alphanumericWords_sanitize]

end Naming

/-! ### The ends that are linked -/

/-- What a link keeps at one of its ends: the value of a property, or an inverse collection. -/
inductive LinkEnd
  | forward (p : Property)
  | inverse (i : InverseCollection)

namespace LinkEnd

/-- The name of an end in Python. -/
def name : LinkEnd → String
  | forward p => p.pythonName
  | inverse i => i.pythonName

/-- The local name that an end is named after gives a name that starts with an underscore. -/
def Bare : LinkEnd → Prop
  | forward p => ¬ StartsWithLetter p.iri.localName.toList
  | inverse i => ¬ StartsWithLetter i.source.localName.toList ∧
      (alphanumericWords i.source.localName.toList).length ≤ 1

theorem startsBare_property (p : Property) :
    StartsBare p.pythonName.toList ↔ ¬ StartsWithLetter p.iri.localName.toList := by
  have hsanitized := isNameText_sanitize p.iri.localName.toList
  have hname : IsNameText p.name.toList := (isIdentifier_propertyName p.iri).chars
  have hsnake : StartsBare (snakeCase p.name.toList) ↔
      ¬ StartsWithLetter p.iri.localName.toList := by
    rw [startsBare_snakeCase hname, Property.name, propertyName, onText, String.toList_ofList,
      Function.comp_apply, startsBare_lowerFirst hsanitized, startsBare_sanitize]
  rw [Property.pythonName, Naming.pythonName]
  rcases pythonIdentifier_cases (onText snakeCase p.name) with heq | heq
  · rwa [heq, onText, String.toList_ofList]
  · rw [heq, String.toList_append, onText, String.toList_ofList, startsBare_append, hsnake]
    exact (isIdentifier_snakeCase (isIdentifier_propertyName p.iri)).nonempty

section Collections

variable {i : InverseCollection}

theorem startsBare_collection (h : i.HasSuffix) : StartsBare i.pythonName.toList ↔
    ¬ StartsWithLetter i.source.localName.toList ∧
      (alphanumericWords i.source.localName.toList).length ≤ 1 := by
  obtain ⟨-, hne, -, hplural⟩ := i.exists_plural_plainName
  obtain ⟨c, rest, more, -, hcons, -⟩ := hplural.exists_cons hne
  have hplain : i.plainName.toList ≠ [] := hcons ▸ List.cons_ne_nil c more
  rw [InverseCollection.pythonName, onText, String.toList_ofList,
    startsBare_snakeCase (InverseCollection.isNameText_name h), InverseCollection.name,
    String.toList_append,
    startsBare_append hplain, hplural.startsBare hne, InverseCollection.sourceType,
    startsBare_lowerFirst (isNameText_className i.source)]
  exact startsBare_className i.source

/-- A plural has at least two letters, and the spelling in Python is no shorter. -/
theorem collection_ne_underscore (h : i.HasSuffix) : i.pythonName.toList ≠ ['_'] := by
  obtain ⟨-, hne, -, hplural⟩ := i.exists_plural_plainName
  obtain ⟨c, rest, more, -, hcons, hmore⟩ := hplural.exists_cons hne
  have hlong : 2 ≤ i.name.toList.length := by
    have hpositive := List.length_pos_of_ne_nil hmore
    rw [InverseCollection.name, String.toList_append, hcons, List.length_append, List.length_cons]
    omega
  intro hone
  rw [InverseCollection.pythonName, onText, String.toList_ofList] at hone
  have hle := (spaced_spacedWords i.name.toList).sublist.length_le
  have hlength := congrArg List.length hone
  rw [snakeCase_eq_map (InverseCollection.isNameText_name h), List.length_map,
    List.length_singleton] at hlength
  omega

end Collections

/-- **Which attributes are private,** read off the local names that they are named after. -/
theorem isPrivate_iff {e : LinkEnd} (h : ∀ i, e = .inverse i → i.HasSuffix) :
    Python.IsPrivate (Python.slot e.name) ↔ e.Bare ∧ ¬ ['_', '_'] <:+ e.name.toList := by
  cases e with
  | forward p =>
      have hname : p.pythonName.toList ≠ ['_'] := by
        intro hone
        have hreserved : p.pythonName ∈ pythonKeywords := by
          rw [String.toList_inj.mp (hone.trans (rfl : "_".toList = ['_']).symm)]
          decide
        exact pythonIdentifier_not_reserved _ hreserved
      rw [Bare, ← startsBare_property]
      exact Python.isPrivate_slot_iff hname
  | inverse i =>
      rw [Bare, ← startsBare_collection (h i rfl)]
      exact Python.isPrivate_slot_iff (collection_ne_underscore (h i rfl))

end LinkEnd

/-! ### The ends that a class declares -/

namespace Ontology

variable {target : Target} {o : Ontology}

/-- A class that a property names first at an end has the property there. -/
theorem mem_propertiesOf_of_found {class_ iri : Iri} {side : PropertyEnd} {found : List Iri}
    (hfound : propertiesOf o.graph class_ side = .ok found) (hiri : iri ∈ properties o.graph)
    (hfirst : firstIri? o.graph (.iri iri) side.predicate = some class_) : iri ∈ found := by
  have hobject : Term.iri class_ ∈ o.graph.objects (.iri iri) side.predicate :=
    mem_iris.mp (List.mem_of_head? hfirst)
  obtain ⟨contained, hcontained⟩ := exists_filterM_ok_iff.mp ⟨found, hfound⟩ iri hiri
  obtain ⟨types, htypes, -⟩ := bind_eq_ok.mp hcontained
  have hin : class_ ∈ types := by
    obtain ⟨each, heach, htypes⟩ := bind_eq_ok.mp htypes
    cases htypes
    rw [List.mem_eraseDups, List.mem_flatten]
    exact ⟨_, mem_of_mapM heach hobject rfl, List.mem_singleton.mpr rfl⟩
  refine mem_filterM hfound hiri (bind_eq_ok.mpr ⟨types, htypes, ?_⟩)
  rw [List.contains_iff_mem.mpr hin]
  rfl

/-- The collection that a field has found is one of those of the class at the range. -/
theorem inverse_of_fieldWith {p : Property} {f : Field}
    (h : fieldWith (inverseCollections target o) p = .ok f) {i : InverseCollection}
    (hi : f.inverse = some i) : p.hasInverse = true ∧ ∃ range collections,
      p.range = some range ∧ inverseCollections target o range = .ok collections ∧
        i ∈ collections := by
  unfold fieldWith at h
  split at h
  · rename_i range hinverse hrange
    obtain ⟨collections, hcollections, h⟩ := bind_eq_ok.mp h
    cases h
    exact ⟨hinverse, range, collections, hrange, hcollections, List.mem_of_find?_eq_some hi⟩
  · cases h
    cases hi

end Ontology

namespace ClassDescription

/-- The class keeps an end itself. -/
def Declares (d : ClassDescription) : LinkEnd → Prop
  | .forward p => ∃ f ∈ d.fields, f.property = p
  | .inverse i => i ∈ d.inverses

/-- **The ends whose attributes the accessors of a class pass to a link,** each with the class whose
entities have the attribute. -/
inductive Passes (c : ClassDescription) : Iri → LinkEnd → Prop
  | property {f : Field} {i : InverseCollection} (hf : f ∈ c.fields) (hi : f.inverse = some i) :
      Passes c c.iri (.forward f.property)
  | collection {f : Field} {i : InverseCollection} {range : Iri} (hf : f ∈ c.fields)
      (hi : f.inverse = some i) (hrange : f.property.range = some range) :
      Passes c range (.inverse i)
  | ofProperty {i : InverseCollection} (hi : i ∈ c.inverses) :
      Passes c i.source (.forward i.property)
  | ofCollection {i : InverseCollection} (hi : i ∈ c.inverses) :
      Passes c c.iri (.inverse i)

section Passes

variable {target : Target} {o : Ontology} {class_ owner : Iri} {c d : ClassDescription}
  {e : LinkEnd}

/-- The class whose entities have the attribute declares it. -/
theorem Passes.declares (he : c.Passes owner e) (h : describe target o class_ = .ok c)
    (hd : describe target o owner = .ok d) : d.Declares e := by
  have hiri : c.iri = class_ := (Generator.iri_of_describe h).1
  cases he with
  | property hf hi =>
      rw [hiri, h] at hd
      cases hd
      exact ⟨_, hf, rfl⟩
  | collection hf hi hrange =>
      obtain ⟨-, -, -, heach⟩ := fields_of_describe h
      obtain ⟨-, range, collections, hsame, hcollections, hin⟩ :=
        inverse_of_fieldWith (heach _ hf) hi
      rw [← (field_of_describe h hf).1, hrange] at hsame
      cases hsame
      cases hcollections.symm.trans (inverses_of_describe hd)
      exact hin
  | @ofProperty i hi =>
      have hkeeps := keeps_of_inverseCollections (inverses_of_describe h)
      obtain ⟨⟨found, hfound, hin⟩, -, hsource⟩ :=
        (hkeeps.mem i.property.iri i.source).mp ⟨i, hi, rfl, rfl⟩
      obtain ⟨declared, hdeclared, hiris, -⟩ := fields_of_describe hd
      have hproperty := (mem_of_filterM hfound _ hin).1
      have hmember := mem_propertiesOf_of_found hdeclared hproperty hsource
      obtain ⟨f, hf, hsame⟩ := (hiris _).mp hmember
      refine ⟨f, hf, ?_⟩
      rw [(field_of_describe hd hf).1, hsame, ← hkeeps.described i hi]
  | ofCollection hi =>
      rw [hiri, h] at hd
      cases hd
      exact hi

/-- A collection that is passed has one of the suffixes. -/
theorem Passes.hasSuffix (he : c.Passes owner e) (h : describe target o class_ = .ok c)
    {i : InverseCollection} (hi : e = .inverse i) : i.HasSuffix := by
  cases he with
  | property | ofProperty => cases hi
  | collection hf hfound hrange =>
      cases hi
      obtain ⟨-, -, -, heach⟩ := fields_of_describe h
      obtain ⟨-, range, collections, -, hcollections, hin⟩ :=
        inverse_of_fieldWith (heach _ hf) hfound
      exact (keeps_of_inverseCollections hcollections).hasSuffix hin
  | ofCollection hin =>
      cases hi
      exact (keeps_of_inverseCollections (inverses_of_describe h)).hasSuffix hin

/-- The constructor makes the attribute of an end, and the getter gives it. -/
theorem Declares.lines (h : d.Declares e) (style : Style) :
    (∃ line ∈ Python.initLines d,
      Python.Starts line ("        self." ++ (Python.slot e.name ++ ": "))) ∧
      "        return self." ++ Python.slot e.name ∈ Python.classLines style d := by
  have hstarts : ∀ name more : String, Python.Starts ("        self." ++ (name ++ (": " ++ more)))
      ("        self." ++ (name ++ ": ")) := fun name more =>
    Python.starts_append_left.mpr (Python.starts_append_left.mpr Python.starts_append)
  cases e with
  | forward p =>
      obtain ⟨f, hf, rfl⟩ := h
      constructor
      · refine ⟨_, List.mem_append_left _ (List.mem_append_right _ (List.mem_map_of_mem hf)), ?_⟩
        simp only [String.append_assoc]
        exact hstarts _ _
      · exact accessorLines_subset hf (by simp [Python.accessorLines, LinkEnd.name])
  | inverse i =>
      have hset : ": Set[" = ": " ++ "Set[" := by decide
      constructor
      · refine ⟨_, List.mem_append_right _ (List.mem_map_of_mem h), ?_⟩
        simp only [hset, String.append_assoc]
        exact hstarts _ _
      · exact inverseLines_subset h (by simp [Python.inverseLines, LinkEnd.name])

theorem initLines_infix (style : Style) : Python.initLines d <:+: Python.classLines style d :=
  (((List.infix_append _ _ _).trans (List.prefix_append _ _).isInfix).trans
    (List.prefix_append _ _).isInfix).trans (List.prefix_append _ _).isInfix

theorem mentions_quoted (name more : String) :
    Mentions ("\"" ++ (name ++ ("\"" ++ more))) (Python.quoted name) := by
  have hmore := (Mentions.refl (Python.quoted name)).append more
  simpa only [Python.quoted, String.append_assoc] using hmore

/-- The link of a field passes the names of both attributes. -/
theorem linkLine_mentions (p : Property) (i : InverseCollection) (single : Bool) :
    Mentions (Python.linkLine p i single) (Python.quoted (Python.slot p.pythonName)) ∧
      Mentions (Python.linkLine p i single) (Python.quoted (Python.slot i.pythonName)) := by
  have hopen : "        link(self, \"" = "        link(self, " ++ "\"" := by decide
  have hvalue : "\", value, \"" = "\"" ++ ", value, " ++ "\"" := by decide
  have hclose : "\", single_valued=" = "\"" ++ ", single_valued=" := by decide
  unfold Python.linkLine
  simp only [hopen, hvalue, hclose, String.append_assoc]
  constructor
  · exact Mentions.prepend (mentions_quoted _ _) _
  · refine Mentions.prepend (Mentions.prepend (Mentions.prepend ?_ _) _) _
    exact Mentions.prepend (Mentions.prepend (mentions_quoted _ _) _) _

/-- A field with a collection at its other end links both where it is set or added to. -/
theorem linkLine_mem (h : describe target o class_ = .ok c) {f : Field} (hf : f ∈ c.fields)
    {i : InverseCollection} (hi : f.inverse = some i) (style : Style) :
    ∃ single, Python.linkLine f.property i single ∈ Python.classLines style c := by
  obtain ⟨-, -, -, heach⟩ := fields_of_describe h
  have hinverse := (inverse_of_fieldWith (heach f hf) hi).1
  rw [← (field_of_describe h hf).1, Property.hasInverse, Bool.and_eq_true] at hinverse
  obtain ⟨hobject, hmulti⟩ := functional_of_kind h hf
  cases hkind : f.property.kind with
  | value | array =>
      rw [hkind] at hinverse
      cases hinverse.1
  | object =>
      refine ⟨true, accessorLines_subset hf ?_⟩
      simp [Python.accessorLines, Python.setterLines, hobject hkind, hkind, hi]
  | collection =>
      rw [hkind] at hmulti
      refine ⟨false, accessorLines_subset hf ?_⟩
      simp [Python.accessorLines, Python.adderLines, given, hmulti rfl, hkind, hi,
        PropertyKind.isMultiValued]

/-- The accessors of the class pass the name of the attribute as a text. -/
theorem Passes.mentions (he : c.Passes owner e) (h : describe target o class_ = .ok c)
    (style : Style) : ∃ line ∈ Python.classLines style c,
      Mentions line (Python.quoted (Python.slot e.name)) := by
  have hargument : ∀ name, Mentions ("            \"" ++ Python.slot name ++ "\",")
      (Python.quoted (Python.slot name)) := by
    have hopen : "            \"" = "            " ++ "\"" := by decide
    have hclose : "\"," = "\"" ++ "," := by decide
    intro name
    simp only [hopen, hclose, String.append_assoc]
    exact (mentions_quoted _ _).prepend _
  cases he with
  | property hf hi =>
      obtain ⟨single, hlink⟩ := linkLine_mem h hf hi style
      exact ⟨_, hlink, (linkLine_mentions _ _ _).1⟩
  | collection hf hi hrange =>
      obtain ⟨single, hlink⟩ := linkLine_mem h hf hi style
      exact ⟨_, hlink, (linkLine_mentions _ _ _).2⟩
  | ofProperty hi =>
      exact ⟨_, inverseLines_subset hi (by simp [Python.inverseLines, LinkEnd.name]), hargument _⟩
  | ofCollection hi =>
      exact ⟨_, inverseLines_subset hi (by simp [Python.inverseLines, LinkEnd.name]), hargument _⟩

end Passes

end ClassDescription

/-- **A link finds the attributes of the classes unless they are private.**

Take a session with a generator, in which any steps were made before, and a class that it describes.
The accessors of the class pass the attributes of properties and of inverse collections as texts,
each together with an entity.  Let the session describe the class of that entity as well.  Its
constructor makes the attribute and its getter gives it, both through an identifier in the body of
the class.  The identifier stands for the attribute that the link finds exactly if it is not
private, or if the name of the class has nothing but underscores.  It is private exactly if

  * the local name of the property does not start with a letter; or, for a collection, that of the
    class of its entities does not, and has not two words either;
  * the name in Python does not end with two underscores. -/
theorem link_finds_attribute_iff {g : Generator} (earlier : List Step) (files : FileTree)
    {class_ owner : Iri} {c : ClassDescription} {e : LinkEnd}
    (h : (Step.describe class_).outcome g (session g earlier files) = .ok c)
    (he : c.Passes owner e) :
    let slot := Python.slot e.name
    (∀ style, ∃ line ∈ Python.classLines style c, Mentions line (Python.quoted slot)) ∧
    (∀ (d : ClassDescription) (style : Style),
      (Step.describe owner).outcome g (session g earlier files) = .ok d →
      d.name = className owner ∧ Python.initLines d <:+: Python.classLines style d ∧
      (∃ line ∈ Python.initLines d, Python.Starts line ("        self." ++ (slot ++ ": "))) ∧
      "        return self." ++ slot ∈ Python.classLines style d) ∧
    (Python.attributeIn (className owner) slot = slot ↔
      ¬ Python.IsPrivate slot ∨ ∀ letter ∈ (className owner).toList, letter = '_') ∧
    (Python.IsPrivate slot ↔ e.Bare ∧ ¬ ['_', '_'] <:+ e.name.toList) := by
  intro slot
  have hdescribe : describe g.target g.ontology class_ = .ok c :=
    (Step.describe class_).outcome_session.symm.trans h
  refine ⟨he.mentions hdescribe, fun d style hd => ?_, Python.attributeIn_eq_iff,
    LinkEnd.isPrivate_iff fun i hi => he.hasSuffix hdescribe hi⟩
  have howner : describe g.target g.ontology owner = .ok d :=
    (Step.describe owner).outcome_session.symm.trans hd
  obtain ⟨hmade, hgiven⟩ := (he.declares hdescribe howner).lines style
  exact ⟨(Generator.iri_of_describe howner).2, ClassDescription.initLines_infix style, hmade,
    hgiven⟩

/-! ### The second owner of a car -/

namespace Owners

/-- A car has a second owner. -/
def statements : List Triple :=
  [⟨.iri ⟨"http://ex.org/a#2ndOwner"⟩, rdfType, .iri (owl "ObjectProperty")⟩,
   ⟨.iri ⟨"http://ex.org/a#2ndOwner"⟩, rdfType, .iri (owl "FunctionalProperty")⟩,
   ⟨.iri ⟨"http://ex.org/a#2ndOwner"⟩, rdfs "domain", .iri ⟨"http://ex.org/a#Car"⟩⟩,
   ⟨.iri ⟨"http://ex.org/a#2ndOwner"⟩, rdfs "range", .iri ⟨"http://ex.org/a#Person"⟩⟩]

/-- A generator of Python classes for cars. -/
def generator : Generator :=
  .make .python { plainSettings with vocabularyName := some "Owners" } (ontologyOf statements)

theorem properties_eq : Ontology.properties generator.ontology.graph =
    [⟨"http://ex.org/a#2ndOwner"⟩] := by
  unfold Ontology.properties
  rw [sortByTexts_of_sorted (by decide)]
  decide

/-- That a car has a second owner. -/
def secondOwner : Property :=
  { iri := ⟨"http://ex.org/a#2ndOwner"⟩, kind := .object, fieldType := "Person",
    elementType := "Person", functional := true, range := some ⟨"http://ex.org/a#Person"⟩ }

/-- The cars that a person is the second owner of. -/
def cars : InverseCollection := { property := secondOwner, source := ⟨"http://ex.org/a#Car"⟩ }

/-- The class of cars. -/
def car : ClassDescription :=
  { iri := ⟨"http://ex.org/a#Car"⟩, fields := [⟨secondOwner, some cars⟩] }

theorem car_described (files : FileTree) :
    (Step.describe car.iri).outcome generator (session generator [] files) = .ok car := by
  rw [Step.outcome_session]
  show describe generator.target generator.ontology car.iri = .ok car
  delta describe inverseCollections propertiesOf
  simp only [properties_eq]
  decide +kernel

end Owners

/-- The setter of a car's second owner finds the cars of a person. -/
theorem link_finds_cars :
    ((Step.describe Owners.car.iri).outcome Owners.generator
        (session Owners.generator [] { root := "/" }) = .ok Owners.car ∧
      Owners.car.Passes ⟨"http://ex.org/a#Person"⟩ (.inverse Owners.cars)) ∧
    Python.attributeIn (className ⟨"http://ex.org/a#Person"⟩) (Python.slot Owners.cars.pythonName) =
      Python.slot Owners.cars.pythonName := by
  have hpassed : Owners.car.Passes ⟨"http://ex.org/a#Person"⟩ (.inverse Owners.cars) :=
    .collection List.mem_cons_self rfl rfl
  obtain ⟨-, -, hfound, -⟩ :=
    link_finds_attribute_iff [] { root := "/" } (Owners.car_described _) hpassed
  exact ⟨⟨Owners.car_described _, hpassed⟩, hfound.mpr (.inl (by decide +kernel))⟩

/-- The setter of a car's second owner links an attribute that a car does not have: the one of its
constructor has the name of the class in front. -/
theorem link_misses_second_owner :
    (Step.describe Owners.car.iri).outcome Owners.generator
      (session Owners.generator [] { root := "/" }) = .ok Owners.car ∧
    Owners.car.Passes Owners.car.iri (.forward Owners.secondOwner) ∧
    Python.slot Owners.secondOwner.pythonName = "__2nd_owner" ∧
    Python.attributeIn Owners.car.name "__2nd_owner" = "_Car__2nd_owner" ∧
    "        self.__2nd_owner: Optional[Person] = None" ∈ Python.initLines Owners.car ∧
    "        link(self, \"__2nd_owner\", value, \"_cars\", single_valued=True)" ∈
      Python.accessorLines ⟨Owners.secondOwner, some Owners.cars⟩ := by
  have hpassed : Owners.car.Passes Owners.car.iri (.forward Owners.secondOwner) :=
    @ClassDescription.Passes.property _ ⟨Owners.secondOwner, some Owners.cars⟩ _
      List.mem_cons_self rfl
  exact ⟨Owners.car_described _, hpassed, by decide +kernel, by decide +kernel,
    by decide +kernel, by decide +kernel⟩

end OntoCode
