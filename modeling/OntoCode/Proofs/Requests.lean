/-
What requests for entities give.

A factory is asked for the entity of an IRI, where one of a class is expected.  It
remembers the entity by the IRI alone, and does so before the entity reads itself, so
that references in a circle come to an end.  This has two consequences.

An entity whose reading gives up stays remembered.  Asked for again, it is given as it
is, and nothing tells it from one that was read to its end.

The class that is expected counts only where the IRI is met first.  The entity that is
made then fits it; whoever asks for the IRI later is given the same one, whatever class
is expected there.
-/
import OntoCode.Proofs.LoadedOnce

namespace OntoCode

open OntoCode.Rdf

/-- Asks for an entity, and gives up if there is none. -/
def Reading.request (expected iri : Iri) : Reading :=
  .ask expected iri fun answer =>
    match answer with
    | .ok _ => .done
    | .error failure => .fail failure

/-- The class that is expected by the first of the questions for an IRI for which a factory knows
the class. -/
def firstExpected (factory : EntityFactory) (iri : Iri) (trace : List LoadEvent) : Option Iri :=
  trace.findSome? fun event =>
    match event with
    | .ask _ expected asked =>
      if asked = iri ∧ (factory.creator? expected).isSome then some expected else none
    | _ => none

namespace EntitySource

variable {source : EntitySource} {factory : EntityFactory} {script : Script}

/-! ### Requests that fail -/

/-- What a factory remembers is given again. -/
theorem run_resolveBy_met {l : Loaded} {iri : Iri} {id : EntityId}
    (hmet : l.resolved.lookup iri = some id) (depth : Nat) (expected : Iri) :
    (source.resolveBy factory script (depth + 1) expected iri).run.run l = (.ok id, l) := by
  unfold resolveBy
  rw [run_get_bind, hmet]
  rfl

/-- **A request that fails leaves what it met.**

This is said of all ways in which entities may read themselves, as long as they ask
only for IRIs that the graph has as objects of their own one.  Entities of classes that
are described by fields read themselves in one of these ways, by `EntitySource.script`.

A request fails only for an IRI that was not met.  If the factory does not know the
class that is expected, all stays as it was.  Otherwise it was the reading of the entity
that gave up.  Then the entity is remembered, and so are all that began to read
themselves in the course of it.  As long as they are not forgotten, every request for
the IRI gives the entity, whatever class is expected, and does not read it again. -/
theorem resolve_failed (classes : EntityClasses) (graph : Graph) (factory : EntityFactory) :
    let source : EntitySource := ⟨classes, graph, some factory⟩
    (source.script.AsksForObjects graph ∧
      source.resolve = source.resolveBy factory source.script source.depth) ∧
    ∀ script : Script, script.AsksForObjects graph → ∀ expected iri before failure after,
      (source.resolveBy factory script source.depth expected iri).run.run before =
        (.error failure, after) →
      before.resolved.lookup iri = none ∧
      (factory.creator? expected = none ∧ failure = .unknownClass expected ∧ after = before ∨
        ∃ className inner, factory.choose classes graph expected iri = .ok className ∧
          Runs source factory script (some iri) (script className iri before.store.next)
            (before.meet classes className iri) inner (.error failure) after ∧
          after.resolved = before.resolved ++ (iri, before.store.next) :: loadsOf inner ∧
          ∀ later : Loaded, after.resolved <+: later.resolved → ∀ again,
            (source.resolveBy factory script source.depth again iri).run.run later =
              (.ok before.store.next, later)) := by
  intro source
  refine ⟨⟨source.script_asksForObjects, resolve_eq rfl⟩, ?_⟩
  intro script hasks expected iri before failure after hfailed
  obtain ⟨trace, outcome, left, hrun, hruns⟩ :=
    @exists_run source factory script hasks none (.request expected iri) before
  unfold Reading.request at hrun hruns
  rw [Reading.run_ask, hfailed] at hrun
  obtain ⟨rfl, rfl⟩ := Prod.mk.inj hrun
  cases hruns with
  | old hmet hrest => cases hrest
  | refused hnew hchoose hrest =>
      cases hrest
      obtain ⟨hunknown, hfailure⟩ := unknownClass_of_choose hchoose
      exact ⟨hnew, .inl ⟨hunknown, hfailure, rfl⟩⟩
  | @new _ _ _ _ _ between _ className inner outer result _ hnew hchoose hown hrest =>
      cases result with
      | ok u => cases hrest
      | error given =>
          cases hrest
          have hresolved : after.resolved =
              before.resolved ++ (iri, before.store.next) :: loadsOf inner := by
            rw [hown.resolved_eq]
            simp [Loaded.meet, Loaded.remember, Loaded.create]
          refine ⟨hnew, .inr ⟨className, inner, hchoose, hown, hresolved, ?_⟩⟩
          intro later hlater again
          obtain ⟨more, hmore⟩ := hlater
          refine run_resolveBy_met ?_ _ again
          rw [← hmore, List.lookup_append,
            hown.lookup_mono (Loaded.lookup_meet_self hnew), Option.some_or]

/-! ### Households

Persons own cars, and there are dogs.  The factory makes persons and dogs but no cars.
-/

/-- The class of persons, as it is expected. -/
def personClass : Iri := ⟨"http://ex.org/a#Person"⟩

def dogClass : Iri := ⟨"http://ex.org/a#Dog"⟩

def carClass : Iri := ⟨"http://ex.org/a#Car"⟩

/-- The one that is asked for. -/
def someone : Iri := ⟨"http://ex.org/a#a"⟩

/-- The classes of persons and dogs. -/
def households : EntityClasses :=
  .ofList [
    { name := "Person", iri := some personClass, fields := [
      { name := "owns", kind := .object, predicate := ⟨"http://ex.org/a#owns"⟩,
        range := carClass }] },
    { name := "Dog", iri := some dogClass }]

/-- A factory that makes persons and dogs. -/
def householdFactory : EntityFactory := ⟨[(personClass, "Person"), (dogClass, "Dog")]⟩

/-- A graph in which one owns a car. -/
def driver : EntitySource where
  classes := households
  graph := .ofList [⟨.iri someone, ⟨"http://ex.org/a#owns"⟩, .iri ⟨"http://ex.org/a#c"⟩⟩]
  factory := some householdFactory

/-- What is left when the driver could not be read. -/
def stranded : Loaded := ((driver.resolve personClass someone).run.run {}).2

theorem resolve_driver :
    (driver.resolve personClass someone).run.run {} =
        (.error (.unknownClass carClass), stranded) ∧
      stranded.resolved.lookup someone = some 0 ∧
      (driver.resolve dogClass someone).run.run stranded = (.ok 0, stranded) := by
  obtain ⟨⟨hasks, hresolve⟩, hall⟩ := resolve_failed driver.classes driver.graph householdFactory
  have hfailed : (driver.resolve personClass someone).run.run {} =
      (.error (.unknownClass carClass), stranded) := Prod.ext (by decide +kernel) rfl
  have hsame : driver.resolve = driver.resolveBy householdFactory driver.script driver.depth :=
    hresolve
  obtain ⟨-, ⟨hunknown, -, -⟩ | ⟨className, inner, -, -, hresolved, hagain⟩⟩ :=
    hall driver.script hasks personClass someone {} _ stranded (by rw [← hfailed, hsame]; rfl)
  · cases hunknown
  · refine ⟨hfailed, by rw [hresolved]; rfl, ?_⟩
    rw [hsame]
    exact hagain stranded (List.prefix_refl _) _

/-- A request that failed leaves an entity to be remembered, and the next request gives it. -/
theorem failed_request_remembers :
    ((driver.resolve personClass someone).run.run {}).1 = .error (.unknownClass carClass) ∧
      stranded.resolved ≠ ({} : Loaded).resolved ∧
      ((driver.resolve personClass someone).run.run stranded).1 = .ok 0 := by
  decide +kernel

/-! ### Classes that are expected -/

/-- The most specific class is the one that is expected or one below it. -/
theorem isBelow_mostSpecific (classes : EntityClasses) (expected : String)
    (candidates : List String) :
    classes.isBelow (mostSpecific classes.isBelow expected candidates) expected = true := by
  unfold mostSpecific
  dsimp only
  cases hfound : (candidates.filter (classes.isBelow · expected)).find? fun c =>
      (candidates.filter (classes.isBelow · expected)).all fun other => classes.isBelow c other with
  | none => exact classes.isBelow_self expected
  | some c => exact (List.mem_filter.mp (List.mem_of_find?_eq_some hfound)).2

/-- The class that is chosen fits the one that is expected. -/
theorem isBelow_of_choose {classes : EntityClasses} {graph : Graph} {expected iri : Iri}
    {className : String} (h : factory.choose classes graph expected iri = .ok className) :
    ∃ name, factory.creator? expected = some name ∧ classes.isBelow className name = true := by
  unfold EntityFactory.choose EntityFactory.creator at h
  cases hcreator : factory.creator? expected with
  | none =>
      rw [hcreator] at h
      cases h
  | some name =>
      rw [hcreator] at h
      exact ⟨name, rfl, Except.ok.inj h ▸ isBelow_mostSpecific classes name _⟩

namespace Runs

variable {owner : Option Iri} {reading : Reading} {l m : Loaded} {trace : List LoadEvent}
  {outcome : Except EntityFailure Unit}

/-- Without an entity that is remembered there was no question to be answered. -/
theorem firstExpected_eq_none (h : Runs source factory script owner reading l trace outcome m)
    {iri : Iri} (hunmet : m.resolved.lookup iri = none) :
    firstExpected factory iri trace = none := by
  refine List.findSome?_eq_none_iff.mpr fun event hevent => ?_
  cases event with
  | ask asking expected asked =>
      refine if_neg fun ⟨hasked, hknown⟩ => ?_
      have hmet := h.lookup_isSome_of_ask asking expected asked hevent hknown
      rw [hasked, hunmet] at hmet
      cases hmet
  | answer => rfl
  | load => rfl
  | raise => rfl

/-- **The first question for an IRI decides on the class of its entity.** -/
theorem class_of_lookup (h : Runs source factory script owner reading l trace outcome m)
    {iri : Iri} {id : EntityId} (hunmet : l.resolved.lookup iri = none)
    (hmet : m.resolved.lookup iri = some id) :
    ∃ expected name className, firstExpected factory iri trace = some expected ∧
      factory.creator? expected = some name ∧ m.store.key? id = some (className, iri) ∧
      source.classes.isBelow className name = true := by
  induction h with
  | done => rw [hunmet] at hmet; cases hmet
  | fail => rw [hunmet] at hmet; cases hmet
  | look _ ih => exact ih hunmet hmet
  | change _ ih => exact ih hunmet hmet
  | @old owner expected asked next l m old trace outcome hasked hrest ih =>
      have hne : asked ≠ iri := by
        rintro rfl
        rw [hunmet] at hasked
        cases hasked
      simpa [firstExpected, hne] using ih hunmet hmet
  | refused _ hchoose _ ih =>
      simpa [firstExpected, (unknownClass_of_choose hchoose).1] using ih hunmet hmet
  | @new owner expected asked next l between m className inner outer result outcome hnew hchoose
      hown hrest ihown ihrest =>
      by_cases hasked : asked = iri
      · subst hasked
        obtain ⟨name, hname, hbelow⟩ := isBelow_of_choose hchoose
        have hmade : m.resolved.lookup asked = some l.store.next :=
          hrest.lookup_mono (hown.lookup_mono (Loaded.lookup_meet_self hnew))
        obtain rfl : l.store.next = id := Option.some.inj (hmade.symm.trans hmet)
        refine ⟨expected, name, className, ?_, hname,
          hrest.key_mono (hown.key_mono (Loaded.key?_meet_self ..)), hbelow⟩
        simp [firstExpected, hname]
      · have hstill : (l.meet source.classes className asked).resolved.lookup iri = none := by
          rw [Loaded.lookup_meet hnew, if_neg (Ne.symm hasked), hunmet]
        -- The question is among those of the entity that is made, or among the later ones.
        cases hbetween : between.resolved.lookup iri with
        | some made =>
            obtain rfl : made = id :=
              Option.some.inj ((hrest.lookup_mono hbetween).symm.trans hmet)
            obtain ⟨first, name, own, hfirst, hname, hkey, hbelow⟩ := ihown hstill hbetween
            refine ⟨first, name, own, ?_, hname, hrest.key_mono hkey, hbelow⟩
            unfold firstExpected at hfirst ⊢
            simp [hasked, List.findSome?_append, hfirst]
        | none =>
            obtain ⟨first, name, own, hfirst, hname, hkey, hbelow⟩ := ihrest hbetween hmet
            refine ⟨first, name, own, ?_, hname, hkey, hbelow⟩
            have hinner := hown.firstExpected_eq_none hbetween
            unfold firstExpected at hfirst hinner ⊢
            simp [hasked, List.findSome?_append, hinner, hfirst]

end Runs

/-- **Requests for one IRI give one entity, of the class that was expected first.**

This is said of all ways in which entities may read themselves, as long as they ask
only for IRIs that the graph has as objects of their own one.  Entities of classes that
are described by fields read themselves in one of these ways, by `EntitySource.script`.

Take any sequence of requests, which may depend on what the earlier ones gave, and
whatever was met before.  Everyone who is given an entity for an IRI, while entities read
themselves or afterwards, is given the one that is remembered for it.  If the IRI was
not met before, the entity is one of the class that the factory makes for what was
expected by the first question for the IRI, or of a class below it. -/
theorem answers_fit_first (classes : EntityClasses) (graph : Graph) (factory : EntityFactory) :
    let source : EntitySource := ⟨classes, graph, some factory⟩
    (source.script.AsksForObjects graph ∧
      source.resolve = source.resolveBy factory source.script source.depth) ∧
    ∀ script : Script, script.AsksForObjects graph → ∀ (requests : Reading) (before : Loaded),
      ∃ trace outcome after,
        (requests.run (source.resolveBy factory script source.depth)).run.run before =
          (outcome, after) ∧
        Runs source factory script none requests before trace outcome after ∧
        ∀ iri id, .answer iri (.ok id) ∈ trace →
          after.resolved.lookup iri = some id ∧
          (before.resolved.lookup iri = some id ∨
            before.resolved.lookup iri = none ∧
              ∃ expected name className, firstExpected factory iri trace = some expected ∧
                factory.creator? expected = some name ∧
                after.store.key? id = some (className, iri) ∧
                classes.isBelow className name = true) := by
  intro source
  refine ⟨⟨source.script_asksForObjects, resolve_eq rfl⟩, ?_⟩
  intro script hasks requests before
  obtain ⟨trace, outcome, after, hrun, hruns⟩ :=
    @exists_run source factory script hasks none requests before
  refine ⟨trace, outcome, after, hrun, hruns, fun iri id hanswer => ?_⟩
  have hkept : after.resolved.lookup iri = some id := hruns.lookup_of_answer iri id hanswer
  refine ⟨hkept, ?_⟩
  cases hbefore : before.resolved.lookup iri with
  | some met => exact .inl ((hruns.lookup_mono hbefore).symm.trans hkept)
  | none => exact .inr ⟨rfl, hruns.class_of_lookup hbefore hkept⟩

/-- A graph without statements. -/
def emptyHousehold : EntitySource := ⟨households, {}, some householdFactory⟩

/-- A request for a person, then one for a dog, both for one IRI. -/
def personThenDog : Reading :=
  (Reading.request personClass someone).andThen (.request dogClass someone)

theorem answers_personThenDog : ∃ trace after,
    (personThenDog.run emptyHousehold.resolve).run.run {} = (.ok (), after) ∧
    Runs emptyHousehold householdFactory emptyHousehold.script none personThenDog {} trace (.ok ())
      after ∧
    (∃ id, .answer someone (.ok id) ∈ trace) ∧
    ∀ iri id, .answer iri (.ok id) ∈ trace → ∃ expected name className,
      firstExpected householdFactory iri trace = some expected ∧
      householdFactory.creator? expected = some name ∧
      after.store.key? id = some (className, iri) ∧
      households.isBelow className name = true := by
  obtain ⟨⟨hasks, hresolve⟩, hall⟩ :=
    answers_fit_first households emptyHousehold.graph householdFactory
  obtain ⟨trace, outcome, after, hrun, hruns, hanswers⟩ :=
    hall emptyHousehold.script hasks personThenDog {}
  have hsame : emptyHousehold.resolve = emptyHousehold.resolveBy householdFactory
      emptyHousehold.script emptyHousehold.depth := hresolve
  have hdone : ((personThenDog.run emptyHousehold.resolve).run.run {}).1 = .ok () := by
    decide +kernel
  replace hrun : (personThenDog.run emptyHousehold.resolve).run.run {} = (outcome, after) := by
    rw [hsame]
    exact hrun
  obtain rfl : outcome = .ok () := by rw [← hdone, hrun]
  have hanswered : ∃ id, .answer someone (.ok id) ∈ trace := by
    cases hruns with
    | old hmet => cases hmet
    | refused _ _ hrest => cases hrest
    | @new _ _ _ _ _ _ _ _ _ _ result _ _ _ _ hrest =>
        cases result with
        | ok u => exact ⟨({} : Loaded).store.next, by simp [Except.map]⟩
        | error failure => cases hrest
  refine ⟨trace, after, hrun, hruns, hanswered, fun iri id hanswer => ?_⟩
  exact ((hanswers iri id hanswer).2.resolve_left (by simp)).2

/-- Whoever expects a dog is given the person that was made for the IRI. -/
theorem dog_is_person :
    let first := (emptyHousehold.resolve personClass someone).run.run {}
    let second := (emptyHousehold.resolve dogClass someone).run.run first.2
    first.1 = .ok 0 ∧ second.1 = .ok 0 ∧
      householdFactory.creator? dogClass = some "Dog" ∧
      second.2.store.key? 0 = some ("Person", someone) ∧
      households.isBelow "Person" "Dog" = false := by
  decide +kernel

end EntitySource

end OntoCode
