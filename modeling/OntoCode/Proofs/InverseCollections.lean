/-
The collections that a class keeps, read off the statements of the ontology.

A property names a class at its range by a statement of its own, or by a description of
a union that has the class as a member.  The class keeps one collection for each
property that names it so, that refers to entities, that may have several subjects for
one value, and that some class with an IRI declares; it keeps no others.  A collection
has a suffix exactly if another one of the class has its plain name, and the collections
stand in the order of their names, then of the IRIs of their properties.
-/
import OntoCode.Proofs.Inverses

namespace OntoCode

open OntoCode.Rdf OntoCode.Rdf.Graph OntoCode.Text

namespace Ontology

/-! ### The classes at the ends of a property -/

/-- **A property names a class at an end**, by itself or among the classes of a union. -/
inductive NamesAt (g : Graph) (iri : Iri) (side : PropertyEnd) (class_ : Iri) : Prop
  | itself (h : Term.iri class_ ∈ g.objects (.iri iri) side.predicate)
  | inUnion {node : BlankNode} {head : Term} {members : List Term}
      (hnode : Term.blank node ∈ g.objects (.iri iri) side.predicate)
      (hhead : head ∈ g.objects (.blank node) (owl "unionOf"))
      (hmembers : g.listMembers? head = some members) (hin : Term.iri class_ ∈ members)

section Ends

variable {g : Graph} {iri class_ : Iri} {side : PropertyEnd}

theorem mem_memberIris {head : Term} :
    class_ ∈ memberIris g head ↔
      ∃ members, g.listMembers? head = some members ∧ Term.iri class_ ∈ members := by
  unfold memberIris
  rw [mem_iris]
  cases g.listMembers? head <;> simp

theorem mem_types_iff :
    class_ ∈ (g.objects (.iri iri) side.predicate).flatMap (typesIn g) ↔
      NamesAt g iri side class_ := by
  rw [List.mem_flatMap]
  constructor
  · rintro ⟨object, hobject, hin⟩
    cases object with
    | iri i =>
        rw [typesIn, List.mem_singleton] at hin
        exact .itself (hin ▸ hobject)
    | blank node =>
        obtain ⟨head, hhead, hin⟩ := List.mem_flatMap.mp hin
        obtain ⟨members, hmembers, hin⟩ := mem_memberIris.mp hin
        exact .inUnion hobject hhead hmembers hin
    | literal l => cases hin
  · intro h
    cases h with
    | itself h => exact ⟨_, h, List.mem_singleton.mpr rfl⟩
    | inUnion hnode hhead hmembers hin =>
        exact ⟨_, hnode, List.mem_flatMap.mpr ⟨_, hhead, mem_memberIris.mpr ⟨_, hmembers, hin⟩⟩⟩

theorem mem_properties :
    iri ∈ properties g ↔
      ∃ type ∈ propertyTypes, g.contains ⟨.iri iri, rdfType, .iri type⟩ = true := by
  unfold properties
  rw [mem_sortByTexts, mem_iris, mem_withTypes_iri]

/-- **The properties found for a class at an end are those that name it there.** -/
theorem mem_propertiesOf (hends : ListsEnd g) {found : List Iri}
    (hfound : propertiesOf g class_ side = .ok found) :
    iri ∈ found ↔ iri ∈ properties g ∧ NamesAt g iri side class_ := by
  rw [propertiesOf_eq hends, Except.ok.injEq] at hfound
  rw [← hfound, List.mem_filter, List.contains_iff_mem, List.mem_eraseDups, mem_types_iff]

/-- A class that declares a property is one that the property names by an IRI. -/
theorem exists_domain? :
    (∃ source, domain? g iri = some source) ↔
      ∃ source, g.contains ⟨.iri iri, rdfs "domain", .iri source⟩ = true := by
  simp only [← mem_objectIris, domain?, firstIri?, ← Option.isSome_iff_exists,
    List.isSome_head?, ne_eq, List.eq_nil_iff_forall_not_mem, not_forall, not_not]

theorem needsInverse_iff :
    needsInverse g iri = true ↔ (kindOf g iri = .object ∨ kindOf g iri = .collection) ∧
      isInverseFunctional g (.iri iri) = false := by
  unfold needsInverse
  cases kindOf g iri <;> simp [PropertyKind.isReference]

end Ends

/-! ### The order of collections -/

/-- A collection comes before another one by its name, or else by the IRI of its property. -/
def Before (c d : InverseCollection) : Prop :=
  c.name < d.name ∨ c.name = d.name ∧ c.property.iri.text < d.property.iri.text

theorem sorted_of_inverseCollections {target : Target} {o : Ontology} {class_ : Iri}
    {collections : List InverseCollection}
    (h : inverseCollections target o class_ = .ok collections) : collections.Pairwise Before := by
  have honce := (keeps_of_inverseCollections h).once
  obtain ⟨found, -, h⟩ := bind_eq_ok.mp h
  have hsorted := sortByTexts_sorted (fun c : InverseCollection => [c.name, c.property.iri.text])
    (withSuffixes (plainCollections target o found))
  rw [Except.ok.inj h] at hsorted
  refine hsorted.imp₂ ?_ (List.pairwise_map.mp honce)
  intro c d hcd hne
  rw [notAfter_cons, notAfter_cons] at hcd
  rcases hcd with hlt | ⟨hname, hlt | ⟨heq, -⟩⟩
  · exact .inl hlt
  · exact .inr ⟨hname, hlt⟩
  · exact absurd (Iri.text_inj.mp heq) hne

namespace Keeps

variable {target : Target} {o : Ontology} {class_ : Iri} {collections : List InverseCollection}
  {c : InverseCollection}

/-- A collection shares its name exactly with the other ones that have its plain name. -/
theorem sharesName_iff (h : Keeps target o class_ collections) (hc : c ∈ collections) :
    c.SharesName collections ↔ ∃ d ∈ collections, d ≠ c ∧ d.plainName = c.plainName := by
  constructor
  · rintro ⟨d, hd, hne, hname⟩
    exact ⟨d, hd, fun heq => hne (by rw [heq]), hname⟩
  · rintro ⟨d, hd, hne, hname⟩
    exact ⟨d, hd, fun heq => hne (List.inj_on_of_nodup_map h.once hd hc heq), hname⟩

/-- A collection has the name of its property for a suffix, or none. -/
theorem suffix_eq (h : Keeps target o class_ collections) (hc : c ∈ collections) :
    (c.suffix = "By" ++ c.property.upperName ↔
        ∃ d ∈ collections, d ≠ c ∧ d.plainName = c.plainName) ∧
      (c.suffix = "" ↔ ¬ ∃ d ∈ collections, d ≠ c ∧ d.plainName = c.plainName) := by
  have hby : "By" ++ c.property.upperName ≠ "" := by
    intro heq
    have hlist := congrArg String.toList heq
    simp at hlist
  rw [← h.sharesName_iff hc]
  by_cases hshares : c.SharesName collections
  · rw [h.told c hc hshares]
    simp [hshares, hby]
  · rw [h.plain c hc hshares]
    simp [hshares, hby.symm]

/-- A class keeps a collection for the properties that the statements ask for. -/
theorem mem_iff (hends : ListsEnd o.graph) (h : Keeps target o class_ collections) {iri : Iri} :
    (∃ c ∈ collections, c.property.iri = iri) ↔
      (∃ type ∈ propertyTypes, o.graph.contains ⟨.iri iri, rdfType, .iri type⟩ = true) ∧
        NamesAt o.graph iri .range class_ ∧
        (kindOf o.graph iri = .object ∨ kindOf o.graph iri = .collection) ∧
        isInverseFunctional o.graph (.iri iri) = false ∧
        ∃ source, o.graph.contains ⟨.iri iri, rdfs "domain", .iri source⟩ = true := by
  have hfound := propertiesOf_eq hends class_ .range
  have hmem : (∃ c ∈ collections, c.property.iri = iri) ↔
      (∃ found, propertiesOf o.graph class_ .range = .ok found ∧ iri ∈ found) ∧
        needsInverse o.graph iri = true ∧ ∃ source, domain? o.graph iri = some source := by
    constructor
    · rintro ⟨c, hc, hiri⟩
      obtain ⟨hin, hneeds, hsource⟩ := (h.mem iri c.source).mp ⟨c, hc, hiri, rfl⟩
      exact ⟨hin, hneeds, _, hsource⟩
    · rintro ⟨hin, hneeds, source, hsource⟩
      obtain ⟨c, hc, hiri, -⟩ := (h.mem iri source).mpr ⟨hin, hneeds, hsource⟩
      exact ⟨c, hc, hiri⟩
  have hin : (∃ found, propertiesOf o.graph class_ .range = .ok found ∧ iri ∈ found) ↔
      iri ∈ properties o.graph ∧ NamesAt o.graph iri .range class_ := by
    constructor
    · rintro ⟨found, hfound, hin⟩
      exact (mem_propertiesOf hends hfound).mp hin
    · intro hnames
      exact ⟨_, hfound, (mem_propertiesOf hends hfound).mpr hnames⟩
  rw [hmem, hin, mem_properties, needsInverse_iff, exists_domain?, and_assoc, and_assoc]

end Keeps

end Ontology

open OntoCode.Ontology

/-- **A class keeps a collection for each property that the statements ask for, and no others.**

Take a session with a generator, in which any steps were made before, for an ontology whose lists
end, and any class.  Looking its collections up ends well.  There is at most one for each property,
and there is one exactly for the properties that

  * name the class at their range, by itself or in a union,
  * are kept as a reference to an entity or as a set of them,
  * are not inverse functional,
  * have a class with an IRI at their domain.

A collection holds entities of the class that is first at the domain.  It has the name of its
property for a suffix exactly if another one has its plain name, and no suffix exactly if none has.
The collections are sorted by their names, and by the IRIs of their properties. -/
theorem inverses_of_class {g : Generator} (hends : ListsEnd g.ontology.graph) (earlier : List Step)
    (files : FileTree) (class_ : Iri) :
    let graph := g.ontology.graph
    ∃ collections : List InverseCollection,
      (Step.inverses class_).outcome g (session g earlier files) = .ok collections ∧
      (collections.map (·.property.iri)).Nodup ∧
      (∀ iri, (∃ c ∈ collections, c.property.iri = iri) ↔
        (∃ type ∈ propertyTypes, graph.contains ⟨.iri iri, rdfType, .iri type⟩ = true) ∧
          NamesAt graph iri .range class_ ∧
          (kindOf graph iri = .object ∨ kindOf graph iri = .collection) ∧
          isInverseFunctional graph (.iri iri) = false ∧
          ∃ source, graph.contains ⟨.iri iri, rdfs "domain", .iri source⟩ = true) ∧
      (∀ c ∈ collections,
        c.property = propertyOf g.target g.ontology c.property.iri ∧
        domain? graph c.property.iri = some c.source ∧
        (c.suffix = "By" ++ c.property.upperName ↔
          ∃ d ∈ collections, d ≠ c ∧ d.plainName = c.plainName) ∧
        (c.suffix = "" ↔ ¬ ∃ d ∈ collections, d ≠ c ∧ d.plainName = c.plainName)) ∧
      collections.Pairwise Before := by
  intro graph
  obtain ⟨collections, houtcome, hcollections, hkeeps⟩ :=
    @Step.exists_keeps g earlier files hends class_
  refine ⟨collections, houtcome, hkeeps.once, fun iri => hkeeps.mem_iff hends, fun c hc => ?_,
    sorted_of_inverseCollections hcollections⟩
  exact ⟨hkeeps.described c hc, hkeeps.source_eq hc, hkeeps.suffix_eq hc⟩

/-- A team keeps the persons who joined it and those who lead it, told apart by their suffixes. -/
theorem inverses_of_team :
    ListsEnd Clubs.generator.ontology.graph ∧
    (Step.inverses ⟨"http://ex.org/a#Team"⟩).outcome Clubs.generator
      (session Clubs.generator [] { root := "/" }) = .ok [Clubs.ofTeam, Clubs.leaders] ∧
    Clubs.ofTeam.suffix = "By" ++ Clubs.joins.upperName ∧
    NamesAt Clubs.generator.ontology.graph Clubs.joins.iri .range ⟨"http://ex.org/a#Team"⟩ := by
  obtain ⟨collections, houtcome, -, hmem, hsuffix, -⟩ :=
    inverses_of_class Clubs.listsEnd [] { root := "/" } ⟨"http://ex.org/a#Team"⟩
  obtain rfl := Except.ok.inj ((Clubs.teams_collections _).symm.trans houtcome)
  obtain ⟨-, hnames, -⟩ := (hmem Clubs.joins.iri).mp ⟨Clubs.ofTeam, List.mem_cons_self, rfl⟩
  obtain ⟨-, -, htold, -⟩ := hsuffix Clubs.ofTeam List.mem_cons_self
  have hshared : Clubs.leaders.plainName = Clubs.ofTeam.plainName := rfl
  have hother : Clubs.leaders ≠ Clubs.ofTeam := by decide
  exact ⟨Clubs.listsEnd, houtcome,
    htold.mpr ⟨_, List.mem_cons_of_mem _ List.mem_cons_self, hother, hshared⟩, hnames⟩

end OntoCode
