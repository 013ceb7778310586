/-
The two ends of a property.

A class keeps a collection for each property that refers to its entities.  `Keeps`
says which ones these are: there is one for each property that has the class at its
range and a class of its own at its domain, and where two of them are named after one
class, both are told apart by a suffix.

A field finds the collection at its other end among all that the class at its range
keeps.  It finds one exactly if the property is of the kind that has one, and there is
no second one to find.

A property with several ranges has a collection in each of these classes, and each
class tells its collections apart by itself.  The field knows the one of the first
range.  So both ends use one name where the property needs a suffix in both classes or
in neither, and two names otherwise.
-/
import OntoCode.Proofs.Constants
import OntoCode.Proofs.MemberNames

namespace OntoCode

open OntoCode.Rdf OntoCode.Rdf.Graph OntoCode.Text

/-! ### Collections that share a name -/

namespace InverseCollection

/-- Another collection is named after a class of the same name. -/
def SharesName (c : InverseCollection) (collections : List InverseCollection) : Prop :=
  ∃ d ∈ collections, d.property.iri ≠ c.property.iri ∧ d.plainName = c.plainName

theorem plainName_congr {c d : InverseCollection} (h : c.source = d.source) :
    c.plainName = d.plainName := by
  rw [plainName, plainName, sourceType, sourceType, h]

end InverseCollection

/-- Among different elements, more than one passes a filter if one besides a given one does. -/
theorem one_lt_length_filter {α : Type} {l : List α} {p : α → Bool} (hnodup : l.Nodup) {a : α}
    (ha : a ∈ l) (hp : p a = true) : 1 < (l.filter p).length ↔ ∃ b ∈ l, b ≠ a ∧ p b = true := by
  constructor
  · intro hlength
    by_contra hnone
    have honly : l.filter p ⊆ [a] := by
      intro b hb
      obtain ⟨hb, hpb⟩ := List.mem_filter.mp hb
      by_contra hne
      exact hnone ⟨b, hb, by simpa using hne, hpb⟩
    have := (List.subperm_of_subset (hnodup.filter p) honly).length_le
    rw [List.length_singleton] at this
    exact Nat.not_lt_of_le this hlength
  · rintro ⟨b, hb, hne, hpb⟩
    have hboth : [a, b] ⊆ l.filter p := by
      intro c hc
      rcases List.mem_pair.mp hc with rfl | rfl
      · exact List.mem_filter.mpr ⟨ha, hp⟩
      · exact List.mem_filter.mpr ⟨hb, hpb⟩
    exact (List.subperm_of_subset (by simpa using Ne.symm hne) hboth).length_le

namespace Ontology

section Suffixes

/-- A collection with its suffix, if it needs one among others. -/
def told (collections : List InverseCollection) (c : InverseCollection) : InverseCollection :=
  if 1 < (collections.filter (·.plainName = c.plainName)).length then
    { c with suffix := "By" ++ c.property.upperName }
  else c

variable (collections : List InverseCollection) (c : InverseCollection)

theorem withSuffixes_eq : withSuffixes collections = collections.map (told collections) := rfl

@[simp] theorem property_told : (told collections c).property = c.property := by
  unfold told
  split <;> rfl

@[simp] theorem source_told : (told collections c).source = c.source := by
  unfold told
  split <;> rfl

@[simp] theorem plainName_told : (told collections c).plainName = c.plainName := by
  unfold told
  split <;> rfl

/-- Suffixes have no part in which collections share a name. -/
theorem sharesName_map_told {others : List InverseCollection} :
    (told others c).SharesName (collections.map (told others)) ↔
      c.SharesName collections := by
  constructor
  · rintro ⟨d, hd, hne, hname⟩
    obtain ⟨e, he, rfl⟩ := List.mem_map.mp hd
    rw [property_told, property_told] at hne
    rw [plainName_told, plainName_told] at hname
    exact ⟨e, he, hne, hname⟩
  · rintro ⟨e, he, hne, hname⟩
    refine ⟨_, List.mem_map_of_mem he, ?_, ?_⟩
    · rwa [property_told, property_told]
    · rwa [plainName_told, plainName_told]

end Suffixes

/-! ### The collections of a class -/

/-- **What a class keeps:** a collection for each property that refers to its entities. -/
structure Keeps (target : Target) (o : Ontology) (class_ : Iri)
    (collections : List InverseCollection) : Prop where
  /-- The collections are for the properties that are to have one in this class. -/
  mem : ∀ iri source,
    (∃ c ∈ collections, c.property.iri = iri ∧ c.source = source) ↔
      (∃ found, propertiesOf o.graph class_ .range = .ok found ∧ iri ∈ found) ∧
        needsInverse o.graph iri = true ∧ domain? o.graph iri = some source
  described : ∀ c ∈ collections, c.property = propertyOf target o c.property.iri
  /-- There is one for each property. -/
  once : (collections.map (·.property.iri)).Nodup
  /-- A collection that shares its name is told apart by its property. -/
  told : ∀ c ∈ collections, c.SharesName collections → c.suffix = "By" ++ c.property.upperName
  plain : ∀ c ∈ collections, ¬ c.SharesName collections → c.suffix = ""

theorem properties_nodup (g : Graph) : (properties g).Nodup :=
  (sortByTexts_perm _ _).nodup_iff.mpr (iris_nodup (withTypes_nodup g propertyTypes))

section Collections

variable {target : Target} {o : Ontology} {class_ : Iri} {c : InverseCollection}
  {found : List Iri}

theorem mem_plainCollections :
    c ∈ plainCollections target o found ↔ ∃ iri ∈ found, needsInverse o.graph iri = true ∧
      ∃ source, domain? o.graph iri = some source ∧
        c = { property := propertyOf target o iri, source } := by
  simp only [plainCollections, List.mem_filterMap, List.mem_filter, Option.map_eq_some_iff,
    and_assoc, @eq_comm _ c]

theorem plainCollections_nodup (hfound : found.Nodup) :
    ((plainCollections target o found).map (·.property.iri)).Nodup := by
  refine List.pairwise_map.mpr (List.pairwise_filterMap.mpr ((hfound.filter _).imp ?_))
  intro iri other hne c hc d hd heq
  obtain ⟨_, -, rfl⟩ := Option.map_eq_some_iff.mp hc
  obtain ⟨_, -, rfl⟩ := Option.map_eq_some_iff.mp hd
  exact hne heq

/-- A collection has a suffix if it shares its name with another one. -/
theorem told_suffix (hfound : found.Nodup) (hc : c ∈ plainCollections target o found) :
    let plain := plainCollections target o found
    ((told plain c).SharesName (plain.map (told plain)) →
      (told plain c).suffix = "By" ++ c.property.upperName) ∧
    (¬ (told plain c).SharesName (plain.map (told plain)) → (told plain c).suffix = "") := by
  intro plain
  have hiris : (plain.map (·.property.iri)).Nodup := plainCollections_nodup hfound
  have hshares : (told plain c).SharesName (plain.map (told plain)) ↔
      1 < (plain.filter (·.plainName = c.plainName)).length := by
    rw [one_lt_length_filter (List.Nodup.of_map _ hiris) hc (by simp)]
    rw [sharesName_map_told]
    constructor
    · rintro ⟨d, hd, hne, hname⟩
      exact ⟨d, hd, fun heq => hne (by rw [heq]), decide_eq_true hname⟩
    · rintro ⟨d, hd, hne, hname⟩
      exact ⟨d, hd, fun heq => hne (List.inj_on_of_nodup_map hiris hd hc heq),
        of_decide_eq_true hname⟩
  obtain ⟨iri, -, -, source, -, rfl⟩ := mem_plainCollections.mp hc
  rw [hshares]
  unfold told
  constructor
  · intro hmany
    rw [if_pos hmany]
  · intro hone
    rw [if_neg hone]

/-- **The collections of a class are what it keeps.** -/
theorem keeps_of_inverseCollections {collections : List InverseCollection}
    (h : inverseCollections target o class_ = .ok collections) :
    Keeps target o class_ collections := by
  obtain ⟨found, hfound, h⟩ := bind_eq_ok.mp h
  have hnodup : found.Nodup := (properties_nodup o.graph).sublist (sublist_of_filterM hfound).1
  let plain := plainCollections target o found
  have hperm : collections.Perm (plain.map (told plain)) := by
    rw [← Except.ok.inj h, ← withSuffixes_eq]
    exact sortByTexts_perm _ _
  have hshares : ∀ c : InverseCollection,
      c.SharesName collections ↔ c.SharesName (plain.map (told plain)) := by
    intro c
    simp only [InverseCollection.SharesName, hperm.mem_iff]
  refine ⟨?_, ?_, ?_, ?_, ?_⟩
  · intro iri source
    simp only [hfound, Except.ok.injEq, exists_eq_left']
    constructor
    · rintro ⟨c, hc, rfl, rfl⟩
      obtain ⟨d, hd, rfl⟩ := List.mem_map.mp (hperm.mem_iff.mp hc)
      obtain ⟨iri, hiri, hneeds, source, hsource, rfl⟩ := mem_plainCollections.mp hd
      rw [property_told, source_told]
      exact ⟨hiri, hneeds, hsource⟩
    · rintro ⟨hiri, hneeds, hsource⟩
      refine ⟨_, hperm.mem_iff.mpr (List.mem_map_of_mem
        (mem_plainCollections.mpr ⟨iri, hiri, hneeds, source, hsource, rfl⟩)), ?_, ?_⟩
      · rw [property_told]
        rfl
      · rw [source_told]
  · intro c hc
    obtain ⟨d, hd, rfl⟩ := List.mem_map.mp (hperm.mem_iff.mp hc)
    obtain ⟨iri, -, -, source, -, rfl⟩ := mem_plainCollections.mp hd
    rw [property_told]
    rfl
  · refine ((hperm.map _).nodup_iff).mpr ?_
    rw [List.map_map]
    have hsame : (fun c : InverseCollection => c.property.iri) ∘ told plain =
        fun c => c.property.iri := by
      funext c
      rw [Function.comp_apply, property_told]
    rw [hsame]
    exact plainCollections_nodup hnodup
  · intro c hc hshare
    obtain ⟨d, hd, rfl⟩ := List.mem_map.mp (hperm.mem_iff.mp hc)
    rw [property_told]
    exact (told_suffix hnodup hd).1 ((hshares _).mp hshare)
  · intro c hc hshare
    obtain ⟨d, hd, rfl⟩ := List.mem_map.mp (hperm.mem_iff.mp hc)
    exact (told_suffix hnodup hd).2 fun h => hshare ((hshares _).mpr h)

/-- If all lists end, a class has collections. -/
theorem exists_keeps (hends : ListsEnd o.graph) (class_ : Iri) :
    ∃ collections, inverseCollections target o class_ = .ok collections ∧
      Keeps target o class_ collections := by
  obtain ⟨collections, hcollections⟩ : ∃ collections,
      inverseCollections target o class_ = .ok collections :=
    ⟨_, bind_eq_ok.mpr ⟨_, propertiesOf_eq hends class_ .range, rfl⟩⟩
  exact ⟨collections, hcollections, keeps_of_inverseCollections hcollections⟩

end Collections

/-! ### The collection that a field finds -/

section Fields

variable {target : Target} {o : Ontology} {class_ iri : Iri} {side : PropertyEnd}

/-- A property that refers to entities has a class at its range. -/
theorem exists_range {g : Graph} (h : (kindOf g iri).isReference = true) :
    ∃ range, range? g (.iri iri) = some range := by
  unfold kindOf rangeType at h
  cases hrange : range? g (.iri iri) with
  | none =>
      rw [hrange] at h
      cases h
  | some range => exact ⟨range, rfl⟩

/-- A class has the properties that name it first at an end. -/
theorem mem_propertiesOf_of_first {g : Graph} (hends : ListsEnd g) (hiri : iri ∈ properties g)
    (hfirst : firstIri? g (.iri iri) side.predicate = some class_) {found : List Iri}
    (hfound : propertiesOf g class_ side = .ok found) : iri ∈ found := by
  have hobject : Term.iri class_ ∈ g.objects (.iri iri) side.predicate :=
    mem_iris.mp (List.mem_of_head? hfirst)
  rw [propertiesOf_eq hends, Except.ok.injEq] at hfound
  rw [← hfound, List.mem_filter, List.contains_iff_mem, List.mem_eraseDups, List.mem_flatMap]
  exact ⟨hiri, _, hobject, List.mem_singleton.mpr rfl⟩

/-- Elements that differ in a key are singled out by it. -/
theorem filter_key_eq {α β : Type} [DecidableEq β] {key : α → β} {l : List α}
    (hnodup : (l.map key).Nodup) {a : α} (ha : a ∈ l) : l.filter (key · = key a) = [a] := by
  induction l with
  | nil => cases ha
  | cons b rest ih =>
      rw [List.map_cons, List.nodup_cons] at hnodup
      rcases List.mem_cons.mp ha with rfl | ha
      · have hrest : rest.filter (key · = key a) = [] := by
          refine List.filter_eq_nil_iff.mpr fun c hc heq => hnodup.1 ?_
          rw [← of_decide_eq_true heq]
          exact List.mem_map_of_mem hc
        rw [List.filter_cons_of_pos (by simp), hrest]
      · have hne : key b ≠ key a := fun heq => hnodup.1 (heq ▸ List.mem_map_of_mem ha)
        rw [List.filter_cons_of_neg (by simpa using hne), ih hnodup.2 ha]

namespace Keeps

variable {collections : List InverseCollection} {c : InverseCollection}

/-- The collection for a property is the only one. -/
theorem filter_eq (h : Keeps target o class_ collections) (hc : c ∈ collections) :
    collections.filter (·.property.iri = c.property.iri) = [c] :=
  @filter_key_eq _ _ _ (fun c : InverseCollection => c.property.iri) _ h.once _ hc

theorem find?_eq (h : Keeps target o class_ collections) (hc : c ∈ collections) :
    collections.find? (·.property.iri = c.property.iri) = some c := by
  rw [← List.head?_filter, h.filter_eq hc]
  rfl

/-- The collections that two classes keep for one property are of one source. -/
theorem source_eq (h : Keeps target o class_ collections) (hc : c ∈ collections) :
    domain? o.graph c.property.iri = some c.source :=
  ((h.mem _ c.source).mp ⟨c, hc, rfl, rfl⟩).2.2

/-- Collections of two classes that are named after one class have one name if both of them share it
with others of their class, for properties of one name, or if neither does. -/
theorem name_eq_iff {other : Iri} {others : List InverseCollection} {d : InverseCollection}
    (h : Keeps target o class_ collections) (hother : Keeps target o other others)
    (hc : c ∈ collections) (hd : d ∈ others) (hplain : d.plainName = c.plainName) :
    d.name = c.name ↔ (d.SharesName others ↔ c.SharesName collections) ∧
      (c.SharesName collections → d.property.upperName = c.property.upperName) := by
  have hcancel : ∀ start s t : String, start ++ s = start ++ t ↔ s = t := by
    intro start s t
    rw [← String.toList_inj, String.toList_append, String.toList_append,
      List.append_cancel_left_eq, String.toList_inj]
  have hsuffix : ∀ p : Property, "By" ++ p.upperName ≠ "" := by
    intro p heq
    have hlist := congrArg String.toList heq
    simp at hlist
  have hname : d.name = c.name ↔ d.suffix = c.suffix := by
    rw [InverseCollection.name, InverseCollection.name, hplain, hcancel]
  rw [hname]
  by_cases hshares : c.SharesName collections
  · rw [h.told c hc hshares]
    by_cases hothers : d.SharesName others
    · rw [hother.told d hd hothers, hcancel]
      simp [hshares, hothers]
    · rw [hother.plain d hd hothers]
      simp [hshares, hothers, (hsuffix c.property).symm]
  · rw [h.plain c hc hshares]
    by_cases hothers : d.SharesName others
    · rw [hother.told d hd hothers]
      simp [hshares, hothers, hsuffix d.property]
    · rw [hother.plain d hd hothers]
      simp [hshares, hothers]

/-- The collections that two classes keep for one property are of entities of one class. -/
theorem source_congr {other : Iri} {others : List InverseCollection} {d : InverseCollection}
    (h : Keeps target o class_ collections) (hother : Keeps target o other others)
    (hc : c ∈ collections) (hd : d ∈ others) (hproperty : d.property.iri = c.property.iri) :
    d.source = c.source := by
  have hfirst := hother.source_eq hd
  rw [hproperty, h.source_eq hc] at hfirst
  exact (Option.some.inj hfirst).symm

end Keeps

/-- What a field is, for a property of an ontology. -/
structure FieldOf (target : Target) (o : Ontology) (iri : Iri) (f : Field) : Prop where
  property : f.property = propertyOf target o iri
  /-- It has found the collection of the class at the range, for its own property. -/
  inverse : ∀ c, f.inverse = some c ↔ needsInverse o.graph iri = true ∧
    ∃ range collections, range? o.graph (.iri iri) = some range ∧
      inverseCollections target o range = .ok collections ∧ c ∈ collections ∧ c.property.iri = iri

/-- **Every property has a field, which finds the collection at its other end.** -/
theorem exists_fieldOf (hends : ListsEnd o.graph) (iri : Iri) :
    ∃ f, fieldWith (inverseCollections target o) (propertyOf target o iri) = .ok f ∧
      FieldOf target o iri f := by
  cases hneeds : needsInverse o.graph iri with
  | false =>
      have hfield : fieldWith (inverseCollections target o) (propertyOf target o iri) =
          .ok { property := propertyOf target o iri } := by
        have hinverse : (propertyOf target o iri).hasInverse = false := hneeds
        unfold fieldWith
        rw [hinverse]
        rfl
      exact ⟨_, hfield, rfl, by simp [hneeds]⟩
  | true =>
      obtain ⟨range, hrange⟩ := exists_range (Bool.and_eq_true_iff.mp hneeds).1
      obtain ⟨collections, hcollections, hkeeps⟩ := @exists_keeps target o hends range
      have hfield : fieldWith (inverseCollections target o) (propertyOf target o iri) =
          .ok { property := propertyOf target o iri,
                inverse := collections.find? (·.property.iri = iri) } := by
        have hinverse : (propertyOf target o iri).hasInverse = true := hneeds
        have hclass : (propertyOf target o iri).range = some range := hrange
        unfold fieldWith
        rw [hinverse, hclass]
        dsimp only
        rw [hcollections]
        rfl
      refine ⟨_, hfield, rfl, fun c => ⟨fun hc => ?_, ?_⟩⟩
      · refine ⟨hneeds, range, collections, hrange, hcollections, List.mem_of_find?_eq_some hc, ?_⟩
        simpa using List.find?_some hc
      · rintro ⟨-, other, others, hother, hothers, hc, rfl⟩
        obtain rfl := Option.some.inj (hrange.symm.trans hother)
        obtain rfl := Except.ok.inj (hcollections.symm.trans hothers)
        exact hkeeps.find?_eq hc

/-- A field has found a collection if its property is to have one and a class declares it. -/
theorem FieldOf.isSome_iff (hends : ListsEnd o.graph) (hiri : iri ∈ properties o.graph) {f : Field}
    (h : FieldOf target o iri f) :
    f.inverse.isSome = true ↔ needsInverse o.graph iri = true ∧
      ∃ source, domain? o.graph iri = some source := by
  rw [Option.isSome_iff_exists]
  constructor
  · rintro ⟨c, hc⟩
    obtain ⟨hneeds, range, collections, -, hcollections, hin, hproperty⟩ := (h.inverse c).mp hc
    obtain ⟨others, hothers, hkeeps⟩ := @exists_keeps target o hends range
    obtain rfl := Except.ok.inj (hcollections.symm.trans hothers)
    exact ⟨hneeds, c.source, hproperty ▸ hkeeps.source_eq hin⟩
  · rintro ⟨hneeds, source, hsource⟩
    obtain ⟨range, hrange⟩ := exists_range (Bool.and_eq_true_iff.mp hneeds).1
    obtain ⟨collections, hcollections, hkeeps⟩ := @exists_keeps target o hends range
    have hfound := propertiesOf_eq hends range .range
    obtain ⟨c, hin, hproperty, -⟩ := (hkeeps.mem iri source).mpr
      ⟨⟨_, hfound, @mem_propertiesOf_of_first range iri .range _ hends hiri hrange _ hfound⟩,
        hneeds, hsource⟩
    exact ⟨c, (h.inverse c).mpr ⟨hneeds, range, collections, hrange, hcollections, hin, hproperty⟩⟩

end Fields

/-! ### What a described class holds -/

section Described

variable {target : Target} {o : Ontology} {class_ : Iri} {d : ClassDescription}

theorem inverses_of_describe (h : describe target o class_ = .ok d) :
    inverseCollections target o class_ = .ok d.inverses := by
  obtain ⟨_, _, -, -, hinverses, -⟩ := describe_ok h
  exact hinverses

/-- A described class has the field of each property that names it first at its domain. -/
theorem mem_fields_of_describe (hends : ListsEnd o.graph) (h : describe target o class_ = .ok d)
    {iri : Iri} (hiri : iri ∈ properties o.graph) (hdomain : domain? o.graph iri = some class_)
    {f : Field}
    (hf : fieldWith (inverseCollections target o) (propertyOf target o iri) = .ok f) :
    f ∈ d.fields := by
  obtain ⟨found, hfound, hiris, heach⟩ := fields_of_describe h
  have hin : iri ∈ found :=
    @mem_propertiesOf_of_first class_ iri .domain _ hends hiri hdomain _ hfound
  obtain ⟨e, he, rfl⟩ := (hiris iri).mp hin
  obtain rfl := Except.ok.inj ((heach e he).symm.trans hf)
  exact he

end Described

end Ontology

open OntoCode.Ontology

/-! ### Sessions -/

section Sessions

variable {g : Generator} {earlier : List Step} {files : FileTree}

/-- In a session a property has its field. -/
theorem Step.exists_fieldOf (hends : ListsEnd g.ontology.graph) (iri : Iri) :
    ∃ f : Field, (Step.describeProperty iri true).outcome g (session g earlier files) = .ok f ∧
      FieldOf g.target g.ontology iri f ∧
      fieldWith (inverseCollections g.target g.ontology)
        (propertyOf g.target g.ontology iri) = .ok f := by
  obtain ⟨f, hf, hfield⟩ := @Ontology.exists_fieldOf g.target g.ontology hends iri
  exact ⟨f, (Step.describeProperty iri true).outcome_session.trans hf, hfield, hf⟩

/-- In a session a class gives what it keeps. -/
theorem Step.exists_keeps (hends : ListsEnd g.ontology.graph) (class_ : Iri) :
    ∃ collections : List InverseCollection,
      (Step.inverses class_).outcome g (session g earlier files) = .ok collections ∧
      inverseCollections g.target g.ontology class_ = .ok collections ∧
      Keeps g.target g.ontology class_ collections := by
  obtain ⟨collections, hcollections, hkeeps⟩ :=
    @Ontology.exists_keeps g.target g.ontology hends class_
  exact ⟨collections, (Step.inverses class_).outcome_session.trans hcollections, hcollections,
    hkeeps⟩

end Sessions

/-- **A field finds exactly the collection at its other end.**

Take a session with a generator, in which any steps were made before, and a property of an ontology
whose lists end.  The property has a field, and this has a collection at its other end exactly if

  * the property is kept as a reference to an entity or as a set of them,
  * it is not inverse functional,
  * some class with an IRI is at its domain.

Then the class that is first at its range keeps this very collection, with its suffix and all its
names, and no other one for the property, whichever other properties refer to the class.  What the
class keeps is what it is described with, if its description is not refused. -/
theorem inverse_of_field {g : Generator} (hends : ListsEnd g.ontology.graph) {iri : Iri}
    (hiri : iri ∈ properties g.ontology.graph) (earlier : List Step) (files : FileTree) :
    let graph := g.ontology.graph
    let w := session g earlier files
    ∃ f : Field, (Step.describeProperty iri true).outcome g w = .ok f ∧
      f.property = propertyOf g.target g.ontology iri ∧
      (f.inverse.isSome = true ↔ (kindOf graph iri).isReference = true ∧
        isInverseFunctional graph (.iri iri) = false ∧
        ∃ source, graph.contains ⟨.iri iri, rdfs "domain", .iri source⟩ = true) ∧
      ∀ c, f.inverse = some c → ∃ (range : Iri) (collections : List InverseCollection),
        range? graph (.iri iri) = some range ∧
        (Step.inverses range).outcome g w = .ok collections ∧
        collections.filter (·.property.iri = iri) = [c] ∧
        domain? graph iri = some c.source ∧
        ∀ d : ClassDescription, (Step.describe range).outcome g w = .ok d →
          d.inverses = collections := by
  intro graph w
  obtain ⟨f, houtcome, hfield, -⟩ := @Step.exists_fieldOf g earlier files hends iri
  refine ⟨f, houtcome, hfield.property, ?_, fun c hc => ?_⟩
  · have hneeds : needsInverse graph iri = true ↔ (kindOf graph iri).isReference = true ∧
        isInverseFunctional graph (.iri iri) = false := by simp [needsInverse]
    have hdomain : (∃ source, domain? graph iri = some source) ↔
        ∃ source, graph.contains ⟨.iri iri, rdfs "domain", .iri source⟩ = true := by
      simp only [← mem_objectIris, domain?, firstIri?, ← Option.isSome_iff_exists,
        List.isSome_head?, ne_eq, List.eq_nil_iff_forall_not_mem, not_forall, not_not]
    rw [hfield.isSome_iff hends hiri, hneeds, hdomain, and_assoc]
  · obtain ⟨-, range, collections, hrange, hcollections, hin, rfl⟩ := (hfield.inverse c).mp hc
    obtain ⟨others, hothers, hsame, hkeeps⟩ := @Step.exists_keeps g earlier files hends range
    obtain rfl := Except.ok.inj (hcollections.symm.trans hsame)
    refine ⟨range, collections, hrange, hothers, hkeeps.filter_eq hin, hkeeps.source_eq hin,
      fun d hd => ?_⟩
    have hdescribe := inverses_of_describe ((Step.describe range).outcome_session.symm.trans hd)
    exact Except.ok.inj (hdescribe.symm.trans hcollections)

/-- **Both ends of a property use one name if it needs a suffix at both of its ranges or at none.**

Take a session with a generator, in which any steps were made before, for an ontology whose lists
end.  Each class gives the collections it keeps.  For each of them, the field of its property, in
the description of the class that the collection holds entities of, has found a collection at its
other end.  That is the one of the class that is first at the range of the property; it is for the
same property and holds entities of the same class.  If the first class is the one that was asked,
it is the same collection.  In any case it has the same name, also in Python, exactly if the
property needs a suffix in both classes or in neither of them. -/
theorem names_at_both_ends {g : Generator} (hends : ListsEnd g.ontology.graph) (earlier : List Step)
    (files : FileTree) (class_ : Iri) :
    let w := session g earlier files
    ∃ collections : List InverseCollection,
      (Step.inverses class_).outcome g w = .ok collections ∧ ∀ c ∈ collections,
      ∃ (f : Field) (other : InverseCollection) (range : Iri) (others : List InverseCollection),
        (Step.describeProperty c.property.iri true).outcome g w = .ok f ∧
        (∀ d : ClassDescription, (Step.describe c.source).outcome g w = .ok d → f ∈ d.fields) ∧
        f.inverse = some other ∧
        range? g.ontology.graph (.iri c.property.iri) = some range ∧
        (Step.inverses range).outcome g w = .ok others ∧ other ∈ others ∧
        other.property = c.property ∧ other.source = c.source ∧
        (range = class_ → other = c) ∧
        (other.name = c.name ∧ other.pythonName = c.pythonName ↔
          (other.SharesName others ↔ c.SharesName collections)) := by
  intro w
  obtain ⟨collections, houtcome, hcollections, hkeeps⟩ :=
    @Step.exists_keeps g earlier files hends class_
  refine ⟨collections, houtcome, fun c hc => ?_⟩
  obtain ⟨⟨found, hfound, hiri⟩, hneeds, hsource⟩ := (hkeeps.mem _ c.source).mp ⟨c, hc, rfl, rfl⟩
  have hproperty := (mem_of_filterM hfound _ hiri).1
  obtain ⟨f, hf, hfield, hfieldWith⟩ := @Step.exists_fieldOf g earlier files hends c.property.iri
  obtain ⟨other, hother⟩ := Option.isSome_iff_exists.mp
    ((hfield.isSome_iff hends hproperty).mpr ⟨hneeds, c.source, hsource⟩)
  obtain ⟨-, range, others, hrange, hothers, hin, hsame⟩ := (hfield.inverse other).mp hother
  obtain ⟨again, hagain, heq, hkeepsOther⟩ := @Step.exists_keeps g earlier files hends range
  obtain rfl := Except.ok.inj (hothers.symm.trans heq)
  have hproperties : other.property = c.property := by
    rw [hkeepsOther.described other hin, hsame, ← hkeeps.described c hc]
  have hsources : other.source = c.source := hkeeps.source_congr hkeepsOther hc hin hsame
  have hname := hkeeps.name_eq_iff hkeepsOther hc hin (InverseCollection.plainName_congr hsources)
  refine ⟨f, other, range, others, hf, fun d hd => ?_, hother, hrange, hagain, hin, hproperties,
    hsources, ?_, ?_⟩
  · exact mem_fields_of_describe hends ((Step.describe c.source).outcome_session.symm.trans hd)
      hproperty hsource hfieldWith
  · rintro rfl
    obtain rfl := Except.ok.inj (hcollections.symm.trans hothers)
    exact List.inj_on_of_nodup_map hkeeps.once hin hc hsame
  · simp only [hproperties, implies_true, and_true] at hname
    rw [← hname]
    refine ⟨And.left, fun h => ⟨h, ?_⟩⟩
    rw [InverseCollection.pythonName, h]
    rfl

/-! ### Clubs and teams

Persons join clubs and teams by one property, and lead teams by another one.
-/

namespace Clubs

/-- What persons do with clubs and teams. -/
def statements : List Triple :=
  [⟨.iri ⟨"http://ex.org/a#joins"⟩, rdfType, .iri (owl "ObjectProperty")⟩,
   ⟨.iri ⟨"http://ex.org/a#joins"⟩, rdfs "domain", .iri ⟨"http://ex.org/a#Person"⟩⟩,
   ⟨.iri ⟨"http://ex.org/a#joins"⟩, rdfs "range", .iri ⟨"http://ex.org/a#Club"⟩⟩,
   ⟨.iri ⟨"http://ex.org/a#joins"⟩, rdfs "range", .iri ⟨"http://ex.org/a#Team"⟩⟩,
   ⟨.iri ⟨"http://ex.org/a#leads"⟩, rdfType, .iri (owl "ObjectProperty")⟩,
   ⟨.iri ⟨"http://ex.org/a#leads"⟩, rdfs "domain", .iri ⟨"http://ex.org/a#Person"⟩⟩,
   ⟨.iri ⟨"http://ex.org/a#leads"⟩, rdfs "range", .iri ⟨"http://ex.org/a#Team"⟩⟩]

/-- A generator of Python classes for clubs. -/
def generator : Generator :=
  .make .python { plainSettings with vocabularyName := some "Clubs" } (ontologyOf statements)

theorem listsEnd : ListsEnd generator.ontology.graph :=
  listsEnd_of_acyclic (acyclic_of_rank (fun _ => 0) (by decide +kernel))

theorem properties_eq : Ontology.properties generator.ontology.graph =
    [⟨"http://ex.org/a#joins"⟩, ⟨"http://ex.org/a#leads"⟩] := by
  unfold Ontology.properties
  rw [sortByTexts_of_sorted (by decide)]
  decide

/-- That a person joins clubs or teams. -/
def joins : Property :=
  { iri := ⟨"http://ex.org/a#joins"⟩, kind := .collection, fieldType := "Set[Club]",
    elementType := "Club", functional := false, range := some ⟨"http://ex.org/a#Club"⟩ }

/-- That a person leads teams. -/
def leads : Property :=
  { iri := ⟨"http://ex.org/a#leads"⟩, kind := .collection, fieldType := "Set[Team]",
    elementType := "Team", functional := false, range := some ⟨"http://ex.org/a#Team"⟩ }

/-- Those who joined a club. -/
def ofClub : InverseCollection := { property := joins, source := ⟨"http://ex.org/a#Person"⟩ }

/-- Those who joined a team. -/
def ofTeam : InverseCollection :=
  { property := joins, source := ⟨"http://ex.org/a#Person"⟩, suffix := "ByJoins" }

/-- Those who lead a team. -/
def leaders : InverseCollection :=
  { property := leads, source := ⟨"http://ex.org/a#Person"⟩, suffix := "ByLeads" }

theorem inverses_club : inverseCollections .python generator.ontology ⟨"http://ex.org/a#Club"⟩ =
    .ok [ofClub] := by
  delta inverseCollections propertiesOf
  simp only [properties_eq]
  decide +kernel

theorem inverses_team : inverseCollections .python generator.ontology ⟨"http://ex.org/a#Team"⟩ =
    .ok [ofTeam, leaders] := by
  have hfound : propertiesOf generator.ontology.graph ⟨"http://ex.org/a#Team"⟩ .range =
      .ok [joins.iri, leads.iri] := by
    delta propertiesOf
    simp only [properties_eq]
    decide +kernel
  have hplain : withSuffixes (plainCollections .python generator.ontology
      [joins.iri, leads.iri]) = [ofTeam, leaders] := by decide +kernel
  unfold inverseCollections
  rw [hfound]
  change Except.ok (sortByTexts _ (withSuffixes _)) = _
  rw [hplain, sortByTexts_of_sorted (by decide +kernel)]

theorem teams_collections (files : FileTree) :
    (Step.inverses ⟨"http://ex.org/a#Team"⟩).outcome generator (session generator [] files) =
      .ok [ofTeam, leaders] :=
  (Step.inverses _).outcome_session.trans inverses_team

theorem joins_described (files : FileTree) :
    (Step.describeProperty joins.iri true).outcome generator (session generator [] files) =
      .ok ⟨joins, some ofClub⟩ := by
  have hrange : (propertyOf .python generator.ontology joins.iri).range =
      some ⟨"http://ex.org/a#Club"⟩ := by decide +kernel
  have hinverse : (propertyOf .python generator.ontology joins.iri).hasInverse = true := by
    decide +kernel
  have hfield : fieldWith (inverseCollections .python generator.ontology)
      (propertyOf .python generator.ontology joins.iri) = .ok ⟨joins, some ofClub⟩ := by
    unfold fieldWith
    rw [hrange, hinverse]
    dsimp only
    rw [inverses_club]
    decide +kernel
  exact (Step.describeProperty joins.iri true).outcome_session.trans hfield

end Clubs

/-- The field for leading a team finds the one collection for it, which has a suffix. -/
theorem inverse_of_leads :
    (ListsEnd Clubs.generator.ontology.graph ∧
      Clubs.leads.iri ∈ properties Clubs.generator.ontology.graph) ∧
    ∃ f : Field, (Step.describeProperty Clubs.leads.iri true).outcome Clubs.generator
        (session Clubs.generator [] { root := "/" }) = .ok f ∧
      f.inverse = some Clubs.leaders ∧ Clubs.leaders.name = "personsByLeads" ∧
      [Clubs.ofTeam, Clubs.leaders].filter (·.property.iri = Clubs.leads.iri) =
        [Clubs.leaders] := by
  have hiri : Clubs.leads.iri ∈ properties Clubs.generator.ontology.graph := by
    rw [Clubs.properties_eq]
    exact List.mem_cons_of_mem _ List.mem_cons_self
  obtain ⟨f, houtcome, -, hsome, hfound⟩ :=
    inverse_of_field Clubs.listsEnd hiri [] { root := "/" }
  have hdeclared : Clubs.generator.ontology.graph.contains
      ⟨.iri Clubs.leads.iri, rdfs "domain", .iri ⟨"http://ex.org/a#Person"⟩⟩ = true := by
    decide +kernel
  obtain ⟨c, hc⟩ := Option.isSome_iff_exists.mp
    (hsome.mpr ⟨by decide +kernel, by decide +kernel, _, hdeclared⟩)
  obtain ⟨range, collections, hrange, hcollections, hone, -⟩ := hfound c hc
  have hteam : range? Clubs.generator.ontology.graph (.iri Clubs.leads.iri) =
      some ⟨"http://ex.org/a#Team"⟩ := by decide +kernel
  obtain rfl := Option.some.inj (hteam.symm.trans hrange)
  obtain rfl := Except.ok.inj ((Clubs.teams_collections _).symm.trans hcollections)
  have hleaders : [Clubs.ofTeam, Clubs.leaders].filter (·.property.iri = Clubs.leads.iri) =
      [Clubs.leaders] := by decide
  obtain rfl : Clubs.leaders = c := by simpa [hleaders] using hone
  exact ⟨⟨Clubs.listsEnd, hiri⟩, f, houtcome, hc, by decide +kernel, hleaders⟩

/-- A field finds the collection of a team for those who lead it under the name it has there. -/
theorem names_of_leaders :
    ListsEnd Clubs.generator.ontology.graph ∧
    (Step.inverses ⟨"http://ex.org/a#Team"⟩).outcome Clubs.generator
      (session Clubs.generator [] { root := "/" }) = .ok [Clubs.ofTeam, Clubs.leaders] ∧
    ∃ f : Field, (Step.describeProperty Clubs.leads.iri true).outcome Clubs.generator
        (session Clubs.generator [] { root := "/" }) = .ok f ∧
      f.inverse = some Clubs.leaders := by
  obtain ⟨collections, hcollections, heach⟩ :=
    names_at_both_ends Clubs.listsEnd [] { root := "/" } ⟨"http://ex.org/a#Team"⟩
  obtain rfl := Except.ok.inj ((Clubs.teams_collections _).symm.trans hcollections)
  obtain ⟨f, other, range, others, hf, -, hother, hrange, -, -, -, -, hsame, -⟩ :=
    heach Clubs.leaders (List.mem_cons_of_mem _ List.mem_cons_self)
  have hteam : range? Clubs.generator.ontology.graph (.iri Clubs.leads.iri) =
      some ⟨"http://ex.org/a#Team"⟩ := by decide +kernel
  obtain rfl := hsame (Option.some.inj (hrange.symm.trans hteam))
  exact ⟨Clubs.listsEnd, hcollections, f, hf, hother⟩

/-- A person that joins a team is kept in a set that the field for it does not know: the person's
method links to the set of persons that clubs have, and the team's method to one with a suffix. -/
theorem joins_has_two_names :
    ListsEnd Clubs.generator.ontology.graph ∧
    (Step.inverses ⟨"http://ex.org/a#Team"⟩).outcome Clubs.generator
      (session Clubs.generator [] { root := "/" }) = .ok [Clubs.ofTeam, Clubs.leaders] ∧
    (Step.describeProperty Clubs.ofTeam.property.iri true).outcome Clubs.generator
      (session Clubs.generator [] { root := "/" }) = .ok ⟨Clubs.joins, some Clubs.ofClub⟩ ∧
    (Clubs.ofTeam.name = "personsByJoins" ∧ Clubs.ofTeam.pythonName = "persons_by_joins") ∧
    (Clubs.ofClub.name = "persons" ∧ Clubs.ofClub.pythonName = "persons") ∧
    "        link(self, \"_joins\", value, \"_persons\", single_valued=False)" ∈
      Generate.Python.accessorLines ⟨Clubs.joins, some Clubs.ofClub⟩ ∧
    "            \"_persons_by_joins\"," ∈ Generate.Python.inverseLines Clubs.ofTeam :=
  ⟨Clubs.listsEnd, Clubs.teams_collections _, Clubs.joins_described _, by decide +kernel,
    by decide +kernel, by decide +kernel, by decide +kernel⟩

end OntoCode
