/-
Which class of entities is made for an IRI.

The types that a graph gives to an IRI are candidates as far as the factory makes a class
for them and the class is below the expected one.  If a candidate is below all of them,
the entity is one of that class, and else of the class that is expected.

What is chosen is told by the candidates alone.  They are compared in the order of their
types, but since no two classes are below each other there is at most one that is below
all, wherever it stands.  So types that the factory does not know, types whose class is
not below the expected one, and the order of the statements make no difference.
-/
import OntoCode.Proofs.Lineages
import OntoCode.Proofs.Requests

namespace OntoCode

open OntoCode.Rdf OntoCode.Text

namespace EntityFactory

section Choice

variable (factory : EntityFactory) (classes : EntityClasses) (graph : Graph) (above : String)
  (iri : Iri)

/-- The factory makes the class for one of the types of an IRI, and it is below the expected one. -/
def Candidate (className : String) : Prop :=
  ∃ type, graph.contains ⟨.iri iri, rdfType, .iri type⟩ = true ∧
    factory.creator? type = some className ∧ classes.Below className above

/-- One of the candidates is below all of them. -/
def MostSpecific (className : String) : Prop :=
  factory.Candidate classes graph above iri className ∧
    ∀ other, factory.Candidate classes graph above iri other → classes.Below className other

/-- The class is the most specific one, or the expected one where there is no such class. -/
def Chosen (className : String) : Prop :=
  factory.MostSpecific classes graph above iri className ∨
    className = above ∧ ∀ other, ¬ factory.MostSpecific classes graph above iri other

/-- Graphs give the same types to an IRI, among those with a class below the expected one. -/
def SameTypes (g h : Graph) : Prop :=
  ∀ type className, factory.creator? type = some className → classes.Below className above →
    (g.contains ⟨.iri iri, rdfType, .iri type⟩ = true ↔
      h.contains ⟨.iri iri, rdfType, .iri type⟩ = true)

end Choice

variable {factory : EntityFactory} {classes : EntityClasses} {graph other : Graph}
  {above c d : String} {expected iri : Iri}

/-- At most one candidate is below all of them. -/
theorem MostSpecific.unique (hroot : anyEntity ∉ classes.declared.map (·.name))
    (hc : factory.MostSpecific classes graph above iri c)
    (hd : factory.MostSpecific classes graph above iri d) : c = d :=
  (hc.2 d hd.1).antisymm hroot (hd.2 c hc.1)

/-- Only one class can be chosen. -/
theorem Chosen.unique (hroot : anyEntity ∉ classes.declared.map (·.name))
    (hc : factory.Chosen classes graph above iri c)
    (hd : factory.Chosen classes graph above iri d) : c = d := by
  rcases hc with hc | ⟨rfl, hnone⟩
  · rcases hd with hd | ⟨-, hnone⟩
    · exact hc.unique hroot hd
    · exact absurd hc (hnone c)
  · rcases hd with hd | ⟨rfl, -⟩
    · exact absurd hd (hnone d)
    · rfl

/-! ### What the factory looks at -/

/-- The candidates, in the order of their types. -/
def candidates (factory : EntityFactory) (classes : EntityClasses) (graph : Graph)
    (above : String) (iri : Iri) : List String :=
  ((factory.knownTypes graph iri).filterMap factory.creator?).filter (classes.isBelow · above)

theorem mem_candidates :
    c ∈ factory.candidates classes graph above iri ↔
      factory.Candidate classes graph above iri c := by
  unfold Candidate candidates knownTypes
  simp only [List.mem_filter, List.mem_filterMap, mem_sortByTexts, Graph.mem_objectIris,
    EntityClasses.isBelow_iff]
  constructor
  · rintro ⟨⟨type, ⟨htype, -⟩, hcreator⟩, hbelow⟩
    exact ⟨type, htype, hcreator, hbelow⟩
  · rintro ⟨type, htype, hcreator, hbelow⟩
    exact ⟨⟨type, ⟨htype, by rw [hcreator]; rfl⟩, hcreator⟩, hbelow⟩

theorem mostSpecific_iff :
    factory.MostSpecific classes graph above iri c ↔
      c ∈ factory.candidates classes graph above iri ∧
        (factory.candidates classes graph above iri).all (classes.isBelow c ·) = true := by
  rw [List.all_eq_true]
  refine and_congr mem_candidates.symm (forall_congr' fun other => ?_)
  rw [mem_candidates, EntityClasses.isBelow_iff]

/-- **What the factory chooses is the most specific class,** if there is such a class. -/
theorem exists_choose (hexpected : factory.creator? expected = some above) :
    ∃ className, factory.choose classes graph expected iri = .ok className ∧
      factory.Chosen classes graph above iri className := by
  have hchoose : factory.choose classes graph expected iri =
      .ok (((factory.candidates classes graph above iri).find? fun c =>
        (factory.candidates classes graph above iri).all (classes.isBelow c ·)).getD above) := by
    unfold choose creator
    rw [hexpected]
    rfl
  refine ⟨_, hchoose, ?_⟩
  cases hfind : (factory.candidates classes graph above iri).find? fun c =>
      (factory.candidates classes graph above iri).all (classes.isBelow c ·) with
  | some c =>
      have hall := List.find?_some hfind
      exact .inl (mostSpecific_iff.mpr ⟨List.mem_of_find?_eq_some hfind, hall⟩)
  | none =>
      refine .inr ⟨rfl, fun other hother => ?_⟩
      obtain ⟨hmem, hall⟩ := mostSpecific_iff.mp hother
      exact List.find?_eq_none.mp hfind other hmem hall

/-! ### Other graphs -/

theorem SameTypes.refl : factory.SameTypes classes above iri graph graph :=
  fun _ _ _ _ => Iff.rfl

theorem SameTypes.candidate_iff (h : factory.SameTypes classes above iri graph other) :
    factory.Candidate classes graph above iri c ↔ factory.Candidate classes other above iri c := by
  refine exists_congr fun type => ⟨fun ⟨htype, hcreator, hbelow⟩ => ?_,
    fun ⟨htype, hcreator, hbelow⟩ => ?_⟩
  · exact ⟨(h type c hcreator hbelow).mp htype, hcreator, hbelow⟩
  · exact ⟨(h type c hcreator hbelow).mpr htype, hcreator, hbelow⟩

/-- What is chosen depends on the types that are known and fit, and on no others. -/
theorem SameTypes.chosen_iff (h : factory.SameTypes classes above iri graph other) :
    factory.Chosen classes graph above iri c ↔ factory.Chosen classes other above iri c := by
  have hmost : ∀ d, factory.MostSpecific classes graph above iri d ↔
      factory.MostSpecific classes other above iri d := fun d =>
    and_congr h.candidate_iff (forall_congr' fun _ => imp_congr_left h.candidate_iff)
  exact or_congr (hmost c) (and_congr_right fun _ => forall_congr' fun d => not_congr (hmost d))

end EntityFactory

namespace EntitySource

variable {source : EntitySource} {factory : EntityFactory} {script : Script}

/-- A question for an IRI that was not met leaves a new entity of the class that is chosen. -/
theorem Runs.made {owner : Option Iri} {expected iri : Iri} {className : String}
    {next : Except EntityFailure EntityId → Reading} {l m : Loaded} {trace : List LoadEvent}
    {outcome : Except EntityFailure Unit}
    (h : Runs source factory script owner (.ask expected iri next) l trace outcome m)
    (hnew : l.resolved.lookup iri = none)
    (hchoose : factory.choose source.classes source.graph expected iri = .ok className) :
    m.resolved.lookup iri = some l.store.next ∧
      m.store.key? l.store.next = some (className, iri) := by
  cases h with
  | old hmet =>
      rw [hnew] at hmet
      cases hmet
  | refused _ hrefused =>
      rw [hchoose] at hrefused
      cases hrefused
  | new _ hchosen hown hrest =>
      obtain rfl := Except.ok.inj (hchoose.symm.trans hchosen)
      exact ⟨hrest.lookup_mono (hown.lookup_mono (Loaded.lookup_meet_self hnew)),
        hrest.key_mono (hown.key_mono (Loaded.key?_meet_self ..))⟩

/-- A request for an IRI that was not met gives the new entity, if it gives any. -/
theorem made_of_request {expected iri : Iri} {className : String} {before after : Loaded}
    {outcome : Except EntityFailure EntityId} (hasks : script.AsksForObjects source.graph)
    (hnew : before.resolved.lookup iri = none)
    (hchoose : factory.choose source.classes source.graph expected iri = .ok className)
    (hrun : (source.resolveBy factory script source.depth expected iri).run.run before =
      (outcome, after)) :
    after.resolved.lookup iri = some before.store.next ∧
      after.store.key? before.store.next = some (className, iri) ∧
      ∀ id, outcome = .ok id → id = before.store.next := by
  obtain ⟨first, answer, left, hasked, hanswered⟩ :=
    @answered_resolveBy source factory script hasks expected iri before
  rw [hrun] at hasked
  obtain ⟨rfl, rfl⟩ := Prod.mk.inj hasked
  have hruns := hanswered.goesOn none (fun _ => .done) [] (.ok ()) after .done
  obtain ⟨hmet, hkey⟩ := hruns.made hnew hchoose
  refine ⟨hmet, hkey, ?_⟩
  rintro id rfl
  have hgiven : after.resolved.lookup iri = some id :=
    hruns.lookup_of_answer iri id (by simp [hanswered.told])
  exact Option.some.inj (hgiven.symm.trans hmet)

/--
**The entity that is made for an IRI is one of its most specific class.**

This is said of all ways in which entities may read themselves, as long as they ask
only for IRIs that the graph has as objects of their own one.  Entities of classes that
are described by fields read themselves in one of these ways, by `EntitySource.script`.

Take any classes, none of which bears the name of the one that all entities belong to.
There is one class that is chosen: the candidate that is below all candidates, or the
expected class if there is none.  Where the IRI is met first, an entity of this class is
made and remembered, and is what the request gives if it gives any.  That is so with the
graph itself, in whatever order its statements come, and with all graphs that differ from
it in other statements, in types that the factory does not know, or in types whose class is
not below the expected one.
-/
theorem entity_of_most_specific (classes : EntityClasses) (graph : Graph)
    (factory : EntityFactory) (expected iri : Iri) (above : String)
    (hroot : anyEntity ∉ classes.declared.map (·.name))
    (hexpected : factory.creator? expected = some above) :
    ∃ className,
      (∀ c, factory.Chosen classes graph above iri c ↔ c = className) ∧
      ∀ other : Graph, factory.SameTypes classes above iri graph other →
        let source : EntitySource := ⟨classes, other, some factory⟩
        (source.script.AsksForObjects other ∧
          source.resolve = source.resolveBy factory source.script source.depth) ∧
        ∀ script : Script, script.AsksForObjects other → ∀ before outcome after,
          before.resolved.lookup iri = none →
          (source.resolveBy factory script source.depth expected iri).run.run before =
            (outcome, after) →
          after.resolved.lookup iri = some before.store.next ∧
          after.store.key? before.store.next = some (className, iri) ∧
          ∀ id, outcome = .ok id → id = before.store.next := by
  obtain ⟨className, -, hchosen⟩ :=
    @EntityFactory.exists_choose factory classes graph above expected iri hexpected
  refine ⟨className, fun c => ⟨fun hc => hc.unique hroot hchosen, fun hc => hc ▸ hchosen⟩, ?_⟩
  intro other hsame source
  refine ⟨⟨source.script_asksForObjects, resolve_eq rfl⟩, ?_⟩
  intro script hasks before outcome after hnew hrun
  obtain ⟨found, hchoose, hfound⟩ :=
    @EntityFactory.exists_choose factory classes other above expected iri hexpected
  obtain rfl := (hsame.chosen_iff.mpr hfound).unique hroot hchosen
  exact @made_of_request source factory script expected iri found before after outcome hasks hnew
    hchoose hrun

/-! ### Performers -/

def agentClass : Iri := ⟨"http://ex.org/a#Agent"⟩

def artistClass : Iri := ⟨"http://ex.org/a#Artist"⟩

def singerClass : Iri := ⟨"http://ex.org/a#Singer"⟩

/-- Persons and artists are agents, and singers are both.  Dogs are no agents. -/
def performers : EntityClasses :=
  .ofList [
    { name := "Agent", iri := some agentClass },
    { name := "Person", iri := some personClass, bases := ["Agent"] },
    { name := "Artist", iri := some artistClass, bases := ["Agent"] },
    { name := "Singer", iri := some singerClass, bases := ["Person", "Artist"] },
    { name := "Dog", iri := some dogClass }]

/-- A factory that makes all of them. -/
def performerFactory : EntityFactory :=
  ⟨[(agentClass, "Agent"), (personClass, "Person"), (artistClass, "Artist"),
    (singerClass, "Singer"), (dogClass, "Dog")]⟩

/-- The statements that give types to the one that is asked for. -/
def typed (types : List Iri) : Graph :=
  .ofList (types.map fun type => ⟨.iri someone, rdfType, .iri type⟩)

/-- One that is a person, an artist and a singer, besides a dog and something not known. -/
def manyTypes : Graph := typed [dogClass, personClass, carClass, singerClass, artistClass]

/-- The same one in another order, without the types that do not matter. -/
def fewTypes : Graph := typed [artistClass, singerClass, personClass]

theorem mostSpecific_singer :
    performerFactory.MostSpecific performers manyTypes "Agent" someone "Singer" := by
  have hall : ∀ entry ∈ performerFactory.creators, performers.isBelow entry.2 "Agent" = true →
      performers.isBelow "Singer" entry.2 = true := by decide
  refine ⟨⟨singerClass, by decide, by decide, EntityClasses.isBelow_iff.mp (by decide)⟩, ?_⟩
  rintro other ⟨type, -, hcreator, hbelow⟩
  exact EntityClasses.isBelow_iff.mp
    (hall (type, other) (mem_of_lookup hcreator) (EntityClasses.isBelow_iff.mpr hbelow))

theorem sameTypes_fewTypes :
    performerFactory.SameTypes performers "Agent" someone manyTypes fewTypes := by
  have hall : ∀ entry ∈ performerFactory.creators, performers.isBelow entry.2 "Agent" = true →
      (manyTypes.contains ⟨.iri someone, rdfType, .iri entry.1⟩ = true ↔
        fewTypes.contains ⟨.iri someone, rdfType, .iri entry.1⟩ = true) := by decide
  intro type className hcreator hbelow
  exact hall (type, className) (mem_of_lookup hcreator) (EntityClasses.isBelow_iff.mpr hbelow)

/-- With many types and with few, a singer is made. -/
theorem singer_is_made :
    anyEntity ∉ performers.declared.map (·.name) ∧
    performerFactory.creator? agentClass = some "Agent" ∧
    ∀ graph ∈ [manyTypes, fewTypes],
      let source : EntitySource := ⟨performers, graph, some performerFactory⟩
      let after := ((source.resolve agentClass someone).run.run {}).2
      after.resolved.lookup someone = some 0 ∧ after.store.key? 0 = some ("Singer", someone) := by
  have hroot : anyEntity ∉ performers.declared.map (·.name) := by decide
  have hexpected : performerFactory.creator? agentClass = some "Agent" := rfl
  obtain ⟨className, hchosen, hall⟩ :=
    entity_of_most_specific performers manyTypes performerFactory agentClass someone "Agent" hroot
      hexpected
  obtain rfl : "Singer" = className := (hchosen "Singer").mp (.inl mostSpecific_singer)
  refine ⟨hroot, hexpected, fun graph hgraph => ?_⟩
  have hsame : performerFactory.SameTypes performers "Agent" someone manyTypes graph := by
    rcases List.mem_pair.mp hgraph with rfl | rfl
    · exact .refl
    · exact sameTypes_fewTypes
  obtain ⟨⟨hasks, hresolve⟩, hmade⟩ := hall graph hsame
  intro source after
  have hsource : source.resolve =
      source.resolveBy performerFactory source.script source.depth := hresolve
  have hrun : (source.resolveBy performerFactory source.script source.depth agentClass
      someone).run.run {} = (((source.resolve agentClass someone).run.run {}).1, after) := by
    rw [← hsource]
    exact Prod.mk.eta.symm
  obtain ⟨hmet, hkey, -⟩ := hmade source.script hasks {} _ after rfl hrun
  exact ⟨hmet, hkey⟩

end EntitySource

end OntoCode
