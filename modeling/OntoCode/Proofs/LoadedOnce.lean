/-
Loading reads every entity that is met, and each once.

`Runs` says what a reading does and lists what happens on the way: who asks for which
IRI, what is answered, which entities read themselves, and what gives up.  All that is
said about loading is proved by induction on it.

An entity is remembered before it reads itself.  So a question for it that comes up
meanwhile is answered at once, and every nested reading leaves fewer IRIs to be met.
Since only objects of the graph are asked for, there are not many of them to begin
with, and the depth that loading has is never used up.
-/
import OntoCode.Proofs.Meeting
import OntoCode.Proofs.Readings
import OntoCode.Proofs.RoundTrip

namespace OntoCode

open OntoCode.Rdf OntoCode.Rdf.Graph

/-! ### What happens -/

/-- What happens while entities are loaded. -/
inductive LoadEvent
  /-- An entity is asked for: by the one that stands for an IRI, or by the one who loads. -/
  | ask (owner : Option Iri) (expected iri : Iri)
  | answer (iri : Iri) (outcome : Except EntityFailure EntityId)
  /-- The entity made for an IRI reads itself. -/
  | load (iri : Iri) (id : EntityId)
  /-- A reading gives up. -/
  | raise (failure : EntityFailure)

/-- The entities that read themselves, in order. -/
def loadsOf (trace : List LoadEvent) : List (Iri × EntityId) :=
  trace.filterMap fun event =>
    match event with
    | .load iri id => some (iri, id)
    | _ => none

/-- The entity for the first IRI asks for the second one. -/
def Leads (trace : List LoadEvent) (i j : Iri) : Prop := ∃ expected, .ask (some i) expected j ∈ trace

namespace Loaded

/-- What entities hold is changed. -/
def update (u : Store.Update) (l : Loaded) : Loaded := { l with store := u.apply l.store }

end Loaded

namespace EntitySource

section Runs

variable (source : EntitySource) (factory : EntityFactory) (script : Script)

/-- **A reading runs from one state to another one,** with an outcome and all that happens. -/
inductive Runs : Option Iri → Reading → Loaded → List LoadEvent → Except EntityFailure Unit →
    Loaded → Prop
  | done {owner : Option Iri} {l : Loaded} : Runs owner .done l [] (.ok ()) l
  | fail {owner : Option Iri} {l : Loaded} (failure : EntityFailure) :
      Runs owner (.fail failure) l [.raise failure] (.error failure) l
  | look {owner : Option Iri} {next : Store → Reading} {l m : Loaded} {trace : List LoadEvent}
      {outcome : Except EntityFailure Unit} (hrest : Runs owner (next l.store) l trace outcome m) :
      Runs owner (.look next) l trace outcome m
  | change {owner : Option Iri} {u : Store.Update} {next : Reading} {l m : Loaded}
      {trace : List LoadEvent} {outcome : Except EntityFailure Unit}
      (hrest : Runs owner next (l.update u) trace outcome m) :
      Runs owner (.change u next) l trace outcome m
  /-- The entity for an IRI that was met is the answer. -/
  | old {owner : Option Iri} {expected iri : Iri} {next : Except EntityFailure EntityId → Reading}
      {l m : Loaded} {id : EntityId} {trace : List LoadEvent}
      {outcome : Except EntityFailure Unit} (hmet : l.resolved.lookup iri = some id)
      (hrest : Runs owner (next (.ok id)) l trace outcome m) :
      Runs owner (.ask expected iri next) l
        (.ask owner expected iri :: .answer iri (.ok id) :: trace) outcome m
  /-- No entity can be made where one of an unknown class is expected. -/
  | refused {owner : Option Iri} {expected iri : Iri}
      {next : Except EntityFailure EntityId → Reading} {l m : Loaded} {failure : EntityFailure}
      {trace : List LoadEvent} {outcome : Except EntityFailure Unit}
      (hnew : l.resolved.lookup iri = none)
      (hchoose : factory.choose source.classes source.graph expected iri = .error failure)
      (hrest : Runs owner (next (.error failure)) l trace outcome m) :
      Runs owner (.ask expected iri next) l
        (.ask owner expected iri :: .answer iri (.error failure) :: trace) outcome m
  /-- An entity that is met first reads itself, then the one that asked for it goes on. -/
  | new {owner : Option Iri} {expected iri : Iri} {next : Except EntityFailure EntityId → Reading}
      {l between m : Loaded} {className : String} {inner outer : List LoadEvent}
      {result outcome : Except EntityFailure Unit} (hnew : l.resolved.lookup iri = none)
      (hchoose : factory.choose source.classes source.graph expected iri = .ok className)
      (hown : Runs (some iri) (script className iri l.store.next)
        (l.meet source.classes className iri) inner result between)
      (hrest : Runs owner (next (result.map fun _ => l.store.next)) between outer outcome m) :
      Runs owner (.ask expected iri next) l
        (.ask owner expected iri :: .load iri l.store.next ::
          (inner ++ .answer iri (result.map fun _ => l.store.next) :: outer)) outcome m

end Runs

variable {source : EntitySource} {factory : EntityFactory} {script : Script}

/-- No class can be chosen only where the factory does not know the one that is expected. -/
theorem unknownClass_of_choose {classes : EntityClasses} {graph : Graph} {expected iri : Iri}
    {failure : EntityFailure} (h : factory.choose classes graph expected iri = .error failure) :
    factory.creator? expected = none ∧ failure = .unknownClass expected := by
  unfold EntityFactory.choose EntityFactory.creator at h
  cases hcreator : factory.creator? expected with
  | none =>
      rw [hcreator] at h
      exact ⟨rfl, (Except.error.inj h).symm⟩
  | some className =>
      rw [hcreator] at h
      cases h

namespace Runs

variable {owner : Option Iri} {reading : Reading} {l m : Loaded} {trace : List LoadEvent}
  {outcome : Except EntityFailure Unit}

/-- What is remembered is what was, then the entities that read themselves. -/
theorem resolved_eq (h : Runs source factory script owner reading l trace outcome m) :
    m.resolved = l.resolved ++ loadsOf trace := by
  induction h with
  | done => simp [loadsOf]
  | fail => simp [loadsOf]
  | look _ ih => exact ih
  | change _ ih => exact ih
  | old _ _ ih => exact ih
  | refused _ _ _ ih => exact ih
  | new _ _ _ _ ihown ihrest =>
      rw [ihrest, ihown]
      simp [loadsOf, Loaded.meet, Loaded.remember, Loaded.create]

/-- An IRI that was met keeps its entity. -/
theorem lookup_mono (h : Runs source factory script owner reading l trace outcome m) {iri : Iri}
    {id : EntityId} (hmet : l.resolved.lookup iri = some id) :
    m.resolved.lookup iri = some id := by
  rw [h.resolved_eq, List.lookup_append, hmet, Option.some_or]

/-- No IRI is remembered twice. -/
theorem nodup (h : Runs source factory script owner reading l trace outcome m)
    (hl : (l.resolved.map (·.1)).Nodup) : (m.resolved.map (·.1)).Nodup := by
  induction h with
  | done => exact hl
  | fail => exact hl
  | look _ ih => exact ih hl
  | change _ ih => exact ih hl
  | old _ _ ih => exact ih hl
  | refused _ _ _ ih => exact ih hl
  | @new owner expected iri next l between m className inner outer result outcome hnew hchoose
      hown hrest ihown ihrest =>
      refine ihrest (ihown ?_)
      show ((l.resolved ++ [(iri, l.store.next)]).map (·.1)).Nodup
      rw [List.map_append, List.nodup_append]
      refine ⟨hl, by simp, ?_⟩
      intro i hi j hj hij
      obtain ⟨entry, hentry, rfl⟩ := List.mem_map.mp hi
      have hne := List.lookup_eq_none_iff.mp hnew entry hentry
      rw [hij, List.mem_singleton.mp hj] at hne
      simp at hne

/-- Entities stay what they are. -/
theorem key_mono (h : Runs source factory script owner reading l trace outcome m) {x : EntityId}
    {key : String × Iri} (hkey : l.store.key? x = some key) : m.store.key? x = some key := by
  induction h with
  | done => exact hkey
  | fail => exact hkey
  | look _ ih => exact ih hkey
  | @change _ u _ _ _ _ _ _ ih => exact ih (u.keeps _ x key hkey)
  | old _ _ ih => exact ih hkey
  | refused _ _ _ ih => exact ih hkey
  | new _ _ _ _ ihown ihrest => exact ihrest (ihown (Loaded.key?_meet hkey))

theorem next_le (h : Runs source factory script owner reading l trace outcome m) :
    l.store.next ≤ m.store.next :=
  Store.next_le_of_key fun _ _ => h.key_mono

/-- An entity that reads itself is a new one, with the IRI that it is loaded for. -/
theorem entity_of_load (h : Runs source factory script owner reading l trace outcome m) :
    ∀ i x, (i, x) ∈ loadsOf trace →
      l.store.next ≤ x ∧ ∃ className, m.store.key? x = some (className, i) := by
  induction h with
  | done => simp [loadsOf]
  | fail => simp [loadsOf]
  | look _ ih => exact ih
  | @change _ u _ l _ _ _ hrest ih =>
      intro i x hx
      obtain ⟨hle, hkey⟩ := ih i x hx
      exact ⟨Nat.le_trans (Store.next_le_of_key (u.keeps l.store)) hle, hkey⟩
  | old _ _ ih => exact ih
  | refused _ _ _ ih => exact ih
  | @new owner expected iri next l between m className inner outer result outcome hnew hchoose
      hown hrest ihown ihrest =>
      intro i x hx
      have hx : (i, x) = (iri, l.store.next) ∨ (i, x) ∈ loadsOf inner ∨ (i, x) ∈ loadsOf outer := by
        simpa [loadsOf] using hx
      have hnext := Loaded.next_le_meet source.classes className iri l
      rcases hx with heq | hx | hx
      · cases heq
        exact ⟨Nat.le_refl _, className,
          hrest.key_mono (hown.key_mono (Loaded.key?_meet_self ..))⟩
      · obtain ⟨hle, name, hkey⟩ := ihown i x hx
        exact ⟨Nat.le_trans hnext hle, name, hrest.key_mono hkey⟩
      · obtain ⟨hle, hkey⟩ := ihrest i x hx
        exact ⟨Nat.le_trans hnext (Nat.le_trans hown.next_le hle), hkey⟩

/-- Whatever is asked for is met, if the class that is expected is known. -/
theorem lookup_isSome_of_ask (h : Runs source factory script owner reading l trace outcome m) :
    ∀ o e j, .ask o e j ∈ trace → (factory.creator? e).isSome → (m.resolved.lookup j).isSome := by
  induction h with
  | done => simp
  | fail => simp
  | look _ ih => exact ih
  | change _ ih => exact ih
  | old hmet hrest ih =>
      intro o e j hj hknown
      rcases (by simpa using hj) with ⟨-, -, rfl⟩ | hj
      · rw [hrest.lookup_mono hmet]
        rfl
      · exact ih o e j hj hknown
  | refused _ hchoose _ ih =>
      intro o e j hj hknown
      rcases (by simpa using hj) with ⟨-, rfl, -⟩ | hj
      · rw [(unknownClass_of_choose hchoose).1] at hknown
        simp at hknown
      · exact ih o e j hj hknown
  | @new owner expected iri next l between m className inner outer result outcome hnew hchoose
      hown hrest ihown ihrest =>
      have hmade : between.resolved.lookup iri = some l.store.next :=
        hown.lookup_mono (Loaded.lookup_meet_self hnew)
      intro o e j hj hknown
      rcases (by simpa using hj) with ⟨-, -, rfl⟩ | hj | hj
      · rw [hrest.lookup_mono hmade]
        rfl
      · obtain ⟨x, hx⟩ := Option.isSome_iff_exists.mp (ihown o e j hj hknown)
        rw [hrest.lookup_mono hx]
        rfl
      · exact ihrest o e j hj hknown

/-- Every answer is the entity that is remembered. -/
theorem lookup_of_answer (h : Runs source factory script owner reading l trace outcome m) :
    ∀ i x, .answer i (.ok x) ∈ trace → m.resolved.lookup i = some x := by
  induction h with
  | done => simp
  | fail => simp
  | look _ ih => exact ih
  | change _ ih => exact ih
  | old hmet hrest ih =>
      intro i x hx
      rcases (by simpa using hx) with ⟨rfl, rfl⟩ | hx
      · exact hrest.lookup_mono hmet
      · exact ih i x hx
  | refused _ _ _ ih =>
      intro i x hx
      exact ih i x (by simpa using hx)
  | @new owner expected iri next l between m className inner outer result outcome hnew hchoose
      hown hrest ihown ihrest =>
      have hmade : between.resolved.lookup iri = some l.store.next :=
        hown.lookup_mono (Loaded.lookup_meet_self hnew)
      intro i x hx
      rcases (by simpa using hx) with hinner | ⟨rfl, hanswer⟩ | houter
      · exact hrest.lookup_mono (ihown i x hinner)
      · cases result with
        | error failure => simp [Except.map] at hanswer
        | ok u =>
            rw [Except.map, Except.ok.injEq] at hanswer
            rw [hanswer]
            exact hrest.lookup_mono hmade
      · exact ihrest i x houter

/-- An entity reads itself after questions that start with its owner. -/
theorem reached (h : Runs source factory script owner reading l trace outcome m) :
    ∀ i x, (i, x) ∈ loadsOf trace →
      ∃ e j, .ask owner e j ∈ trace ∧ Relation.ReflTransGen (Leads trace) j i := by
  have hmono : ∀ {trace more : List LoadEvent}, (∀ event ∈ trace, event ∈ more) → ∀ {i j : Iri},
      Relation.ReflTransGen (Leads trace) i j → Relation.ReflTransGen (Leads more) i j := by
    intro trace more hmore i j hpath
    exact hpath.lift id fun a b hab => hab.imp fun e he => hmore _ he
  induction h with
  | done => simp [loadsOf]
  | fail => simp [loadsOf]
  | look _ ih => exact ih
  | change _ ih => exact ih
  | old _ _ ih =>
      intro i x hx
      obtain ⟨e, j, hask, hpath⟩ := ih i x hx
      exact ⟨e, j, by simp [hask], hmono (by simp +contextual) hpath⟩
  | refused _ _ _ ih =>
      intro i x hx
      obtain ⟨e, j, hask, hpath⟩ := ih i x hx
      exact ⟨e, j, by simp [hask], hmono (by simp +contextual) hpath⟩
  | @new owner expected iri next l between m className inner outer result outcome hnew hchoose
      hown hrest ihown ihrest =>
      intro i x hx
      have hx : (i, x) = (iri, l.store.next) ∨ (i, x) ∈ loadsOf inner ∨ (i, x) ∈ loadsOf outer := by
        simpa [loadsOf] using hx
      rcases hx with heq | hx | hx
      · cases heq
        exact ⟨expected, iri, by simp, .refl⟩
      · obtain ⟨e, j, hask, hpath⟩ := ihown i x hx
        refine ⟨expected, iri, by simp, .head ⟨e, by simp [hask]⟩ (hmono ?_ hpath)⟩
        simp +contextual
      · obtain ⟨e, j, hask, hpath⟩ := ihrest i x hx
        exact ⟨e, j, by simp [hask], hmono (by simp +contextual) hpath⟩

/-- A reading that fails gives up somewhere. -/
theorem raised (h : Runs source factory script owner reading l trace outcome m)
    {failure : EntityFailure} (houtcome : outcome = .error failure) : .raise failure ∈ trace := by
  induction h with
  | done => cases houtcome
  | fail =>
      cases houtcome
      simp
  | look _ ih => exact ih houtcome
  | change _ ih => exact ih houtcome
  | old _ _ ih => simp [ih houtcome]
  | refused _ _ _ ih => simp [ih houtcome]
  | new _ _ _ _ _ ihrest => simp [ihrest houtcome]

/-- Only what readings may ask for is asked for. -/
theorem may_of_ask {may : Iri → Iri → Iri → Prop} {own : Iri → Iri → Prop}
    (hscript : ∀ className i id, (script className i id).AsksOnly (may i))
    (h : Runs source factory script owner reading l trace outcome m)
    (hreading : reading.AsksOnly own) :
    ∀ o e j, .ask o e j ∈ trace → (o = owner ∧ own e j) ∨ ∃ i, o = some i ∧ may i e j := by
  induction h generalizing own with
  | done => simp
  | fail => simp
  | @look _ _ l _ _ _ _ ih => exact ih (hreading l.store)
  | change _ ih => exact ih hreading
  | old _ _ ih =>
      intro o e j hj
      rcases (by simpa using hj) with ⟨rfl, rfl, rfl⟩ | hj
      · exact .inl ⟨rfl, hreading.1⟩
      · exact ih (hreading.2 _) o e j hj
  | refused _ _ _ ih =>
      intro o e j hj
      rcases (by simpa using hj) with ⟨rfl, rfl, rfl⟩ | hj
      · exact .inl ⟨rfl, hreading.1⟩
      · exact ih (hreading.2 _) o e j hj
  | @new owner expected iri next l between m className inner outer result outcome hnew hchoose
      hown hrest ihown ihrest =>
      intro o e j hj
      rcases (by simpa using hj) with ⟨rfl, rfl, rfl⟩ | hj | hj
      · exact .inl ⟨rfl, hreading.1⟩
      · rcases ihown (hscript className iri l.store.next) o e j hj with ⟨rfl, hmay⟩ | hmay
        · exact .inr ⟨iri, rfl, hmay⟩
        · exact .inr hmay
      · exact ihrest (hreading.2 _) o e j hj

end Runs

end EntitySource

/-! ### References -/

namespace Loaded

/-- From a number on, the remembered entities are those that others refer to. -/
structure Closed (base : EntityId) (l : Loaded) : Prop where
  base_le : base ≤ l.store.next
  remembered : ∀ i x, l.resolved.lookup i = some x → base ≤ x
  refers : ∀ x y, base ≤ x → l.store.Refers x y → ∃ i, l.resolved.lookup i = some y

variable {base : EntityId} {l : Loaded}

/-- What is found from remembered entities is remembered. -/
theorem Closed.of_finds (h : l.Closed base) {known : EntityId → Prop}
    (hknown : ∀ y, known y → ∃ i, l.resolved.lookup i = some y) {y : EntityId}
    (hy : l.store.Finds known y) : ∃ i, l.resolved.lookup i = some y := by
  obtain ⟨x, hx, hpath⟩ := hy
  induction hpath with
  | refl => exact hknown x hx
  | tail _ hstep ih =>
      obtain ⟨i, hi⟩ := ih
      exact h.refers _ _ (h.remembered i _ hi) hstep

theorem Closed.update (h : l.Closed base) {known : EntityId → Prop}
    (hknown : ∀ y, known y → ∃ i, l.resolved.lookup i = some y) {u : Store.Update}
    (hgains : Store.Gains known l.store (u.apply l.store)) : (l.update u).Closed base := by
  refine ⟨Nat.le_trans h.base_le (Store.next_le_of_key hgains.key), h.remembered, ?_⟩
  intro x y hx hxy
  obtain ⟨name, hmem⟩ := hxy
  rcases hgains.items x name y hmem with hmem | hfound
  · exact h.refers x y hx ⟨name, hmem⟩
  · exact h.of_finds hknown hfound

theorem Closed.meet (h : l.Closed base) {classes : EntityClasses} {className : String} {iri : Iri}
    (hnew : l.resolved.lookup iri = none) : (l.meet classes className iri).Closed base := by
  refine ⟨Nat.le_trans h.base_le (next_le_meet ..), ?_, ?_⟩
  · intro i x hx
    rw [lookup_meet hnew] at hx
    split at hx
    · exact Option.some.inj hx ▸ h.base_le
    · exact h.remembered i x hx
  · intro x y hx hxy
    obtain ⟨name, hmem⟩ := hxy
    replace hmem : .entity y ∈ (l.store.add (.ofClass classes className iri)).items x name := hmem
    have hlt := Store.lt_next_of_mem_items hmem
    rw [Store.next_add] at hlt
    rcases Nat.lt_or_eq_of_le (Nat.lt_succ_iff.mp hlt) with hold | rfl
    · rw [Store.items_congr (Store.content?_add_of_lt hold name)] at hmem
      obtain ⟨i, hi⟩ := h.refers x y hx ⟨name, hmem⟩
      exact ⟨i, lookup_meet_of_some hnew hi⟩
    · exact absurd hmem Store.no_references_add

end Loaded

namespace EntitySource

variable {source : EntitySource} {factory : EntityFactory} {script : Script}

/-- **Entities come to refer to remembered ones only.** -/
theorem Runs.closed {owner : Option Iri} {reading : Reading} {l m : Loaded}
    {trace : List LoadEvent} {outcome : Except EntityFailure Unit} {base : EntityId}
    (hscript : ∀ className i id, (script className i id).RefersWithin (· = id))
    (h : Runs source factory script owner reading l trace outcome m) :
    ∀ {known : EntityId → Prop}, reading.RefersWithin known → l.Closed base →
      (∀ y, known y → ∃ i, l.resolved.lookup i = some y) → m.Closed base := by
  induction h with
  | done => exact fun _ hl _ => hl
  | fail => exact fun _ hl _ => hl
  | look _ ih => exact fun hreading hl hknown => ih (hreading _) hl hknown
  | change _ ih =>
      exact fun hreading hl hknown => ih hreading.2 (hl.update hknown (hreading.1 _)) hknown
  | @old _ _ iri _ _ _ id _ _ hmet _ ih =>
      intro known hreading hl hknown
      refine ih (hreading.1 id) hl fun y hy => ?_
      rcases hy with hy | rfl
      · exact hknown y hy
      · exact ⟨iri, hmet⟩
  | refused _ _ _ ih => exact fun hreading hl hknown => ih (hreading.2 _) hl hknown
  | @new owner expected iri next l between m className inner outer result outcome hnew hchoose
      hown hrest ihown ihrest =>
      intro known hreading hl hknown
      have hmade : between.resolved.lookup iri = some l.store.next :=
        hown.lookup_mono (Loaded.lookup_meet_self hnew)
      have hbetween : between.Closed base := by
        refine ihown (hscript className iri l.store.next) (hl.meet hnew) fun y hy => ⟨iri, ?_⟩
        rw [Loaded.lookup_meet_self hnew, hy]
      have hstill : ∀ y, known y → ∃ i, between.resolved.lookup i = some y := by
        intro y hy
        obtain ⟨i, hi⟩ := hknown y hy
        exact ⟨i, hown.lookup_mono (Loaded.lookup_meet_of_some hnew hi)⟩
      cases result with
      | error failure => exact ihrest (hreading.2 failure) hbetween hstill
      | ok u =>
          refine ihrest (hreading.1 l.store.next) hbetween fun y hy => ?_
          rcases hy with hy | rfl
          · exact hstill y hy
          · exact ⟨iri, hmade⟩

end EntitySource

/-! ### Every reading runs -/

namespace EntitySource

variable {source : EntitySource} {factory : EntityFactory} {script : Script} {targets : List Iri}

/-- Readings run wherever no more than so many IRIs are left to be met. -/
def RunsWithin (source : EntitySource) (factory : EntityFactory) (script : Script)
    (targets : List Iri) (bound : Nat) : Prop :=
  ∀ reading : Reading, reading.AsksOnly (fun _ j => j ∈ targets) →
    ∀ (owner : Option Iri) (l : Loaded), l.unmet targets ≤ bound →
      ∃ trace outcome m,
        (reading.run (source.resolveBy factory script (bound + 1))).run.run l = (outcome, m) ∧
          Runs source factory script owner reading l trace outcome m

/-- A question that is asked in one state is answered in another, where readings go on from it. -/
structure Answered (source : EntitySource) (factory : EntityFactory) (script : Script)
    (expected iri : Iri) (l : Loaded) (first : List LoadEvent)
    (answer : Except EntityFailure EntityId) (between : Loaded) : Prop where
  kept : ∀ i x, l.resolved.lookup i = some x → between.resolved.lookup i = some x
  told : .answer iri answer ∈ first
  /-- A failure comes from a class that is not known or from a reading that gave up. -/
  failed : ∀ failure, answer = .error failure →
    factory.creator? expected = none ∨ .raise failure ∈ first
  goesOn : ∀ owner next rest outcome m,
    Runs source factory script owner (next answer) between rest outcome m →
      Runs source factory script owner (.ask expected iri next) l
        (.ask owner expected iri :: (first ++ rest)) outcome m

section Answered

variable {expected iri : Iri} {l : Loaded}

theorem answered_old {id : EntityId} (hmet : l.resolved.lookup iri = some id) :
    Answered source factory script expected iri l [.answer iri (.ok id)] (.ok id) l where
  kept := fun _ _ h => h
  told := List.mem_singleton_self _
  failed := by simp
  goesOn := fun _ _ _ _ _ hrest => .old hmet hrest

theorem answered_refused {failure : EntityFailure} (hnew : l.resolved.lookup iri = none)
    (hchoose : factory.choose source.classes source.graph expected iri = .error failure) :
    Answered source factory script expected iri l [.answer iri (.error failure)] (.error failure) l
    where
  kept := fun _ _ h => h
  told := List.mem_singleton_self _
  failed := fun _ _ => .inl (unknownClass_of_choose hchoose).1
  goesOn := fun _ _ _ _ _ hrest => .refused hnew hchoose hrest

theorem answered_new {className : String} {inner : List LoadEvent}
    {result : Except EntityFailure Unit} {between : Loaded}
    (hnew : l.resolved.lookup iri = none)
    (hchoose : factory.choose source.classes source.graph expected iri = .ok className)
    (hown : Runs source factory script (some iri) (script className iri l.store.next)
      (l.meet source.classes className iri) inner result between) :
    Answered source factory script expected iri l
      (.load iri l.store.next :: (inner ++ [.answer iri (result.map fun _ => l.store.next)]))
      (result.map fun _ => l.store.next) between where
  kept := fun _ _ h => hown.lookup_mono (Loaded.lookup_meet_of_some hnew h)
  told := by simp
  failed := by
    intro failure hfailure
    cases result with
    | ok u => simp [Except.map] at hfailure
    | error f =>
        rw [Except.map, Except.error.injEq] at hfailure
        exact .inr (by simp [hown.raised (congrArg Except.error hfailure)])
  goesOn := by
    intro owner next rest outcome m hrest
    simpa using Runs.new hnew hchoose hown hrest

end Answered

/-- A question for an IRI that may be asked for is answered. -/
theorem exists_answer {bound : Nat}
    (hscript : ∀ className i id, (script className i id).AsksOnly fun _ j => j ∈ targets)
    (hinner : ∀ less, bound = less + 1 → RunsWithin source factory script targets less)
    (expected : Iri) {iri : Iri} (hiri : iri ∈ targets) {l : Loaded}
    (hl : l.unmet targets ≤ bound) :
    ∃ first answer between,
      (source.resolveBy factory script (bound + 1) expected iri).run.run l = (answer, between) ∧
        Answered source factory script expected iri l first answer between := by
  unfold resolveBy
  rw [run_get_bind]
  cases hmet : l.resolved.lookup iri with
  | some id => exact ⟨_, .ok id, l, rfl, answered_old hmet⟩
  | none =>
      cases hchoose : factory.choose source.classes source.graph expected iri with
      | error failure => exact ⟨_, .error failure, l, rfl, answered_refused hmet hchoose⟩
      | ok className =>
          have hfewer : (l.meet source.classes className iri).unmet targets < l.unmet targets :=
            Loaded.unmet_meet_lt hmet hiri
          obtain ⟨less, rfl⟩ : ∃ less, bound = less + 1 := ⟨bound - 1, by omega⟩
          obtain ⟨inner, result, between, hrun, hown⟩ :=
            hinner less rfl _ (hscript className iri l.store.next) (some iri)
              (l.meet source.classes className iri) (by omega)
          have hsettled : settled (.ok className) = (pure className : Loading String) := rfl
          refine ⟨_, result.map fun _ => l.store.next, between, ?_, answered_new hmet hchoose hown⟩
          unfold Loaded.meet at hrun
          simp only [hsettled, pure_bind]
          rw [run_get_bind, run_modify_bind, run_bind, hrun]
          cases result <;> rfl

/-- A reading runs if its questions are answered, and the states they leave let it go on. -/
theorem exists_run_of_answers {resolve : Resolver} {may : Iri → Prop} (fits : Loaded → Prop)
    (hupdate : ∀ u l, fits l → fits (l.update u))
    (hanswer : ∀ expected iri l, may iri → fits l → ∃ first answer between,
      (resolve expected iri).run.run l = (answer, between) ∧
        Answered source factory script expected iri l first answer between ∧ fits between)
    (reading : Reading) (hreading : reading.AsksOnly fun _ j => may j) (owner : Option Iri)
    (l : Loaded) (hl : fits l) :
    ∃ trace outcome m, (reading.run resolve).run.run l = (outcome, m) ∧
      Runs source factory script owner reading l trace outcome m := by
  induction reading generalizing l with
  | done => exact ⟨[], .ok (), l, rfl, .done⟩
  | fail failure => exact ⟨_, .error failure, l, rfl, .fail failure⟩
  | look next ih =>
      obtain ⟨trace, outcome, m, hrun, hruns⟩ := ih l.store (hreading l.store) l hl
      exact ⟨trace, outcome, m, hrun, .look hruns⟩
  | change u next ih =>
      obtain ⟨trace, outcome, m, hrun, hruns⟩ := ih hreading (l.update u) (hupdate u l hl)
      exact ⟨trace, outcome, m, hrun, .change hruns⟩
  | ask expected iri next ih =>
      obtain ⟨first, answer, between, hasked, hanswered, hbetween⟩ :=
        hanswer expected iri l hreading.1 hl
      obtain ⟨rest, outcome, m, hrun, hruns⟩ := ih answer (hreading.2 answer) between hbetween
      refine ⟨_, outcome, m, ?_, hanswered.goesOn owner next rest outcome m hruns⟩
      rw [Reading.run_ask, hasked]
      exact hrun

/-- **To as many levels as there are IRIs to be met, every reading runs.** -/
theorem runs_within (hscript : ∀ className i id,
    (script className i id).AsksOnly fun _ j => j ∈ targets) :
    ∀ bound, RunsWithin source factory script targets bound := by
  intro bound
  induction bound using Nat.strongRecOn with
  | ind bound ih =>
      intro reading hreading owner l hl
      refine exists_run_of_answers (·.unmet targets ≤ bound) (fun _ _ h => h) ?_ reading hreading
        owner l hl
      intro expected iri l hiri hl
      obtain ⟨first, answer, between, hasked, hanswered⟩ :=
        exists_answer hscript (fun less hless => ih less (by omega)) expected hiri hl
      exact ⟨first, answer, between, hasked, hanswered,
        Nat.le_trans (Loaded.unmet_le hanswered.kept) hl⟩

end EntitySource

/-! ### Loading a root -/

/-- Entities ask only for objects that the graph has for them. -/
def Script.AsksForObjects (script : Script) (graph : Graph) : Prop :=
  ∀ className iri id, (script className iri id).AsksOnly
    fun _ asked => ∃ predicate, asked ∈ graph.sortedIris iri predicate

/-- Entities come to refer only to themselves, to answers, and to what these lead to. -/
def Script.RefersToFound (script : Script) : Prop :=
  ∀ className iri id, (script className iri id).RefersWithin (· = id)

/-- Entities of classes that are described by fields ask only for objects of their own one. -/
theorem EntitySource.script_asksForObjects (source : EntitySource) :
    source.script.AsksForObjects source.graph :=
  fun className iri id => (source.script_reads className iri id).asks.mono
    fun _ _ ⟨f, _, _, hasked⟩ => ⟨f.predicate, hasked⟩

/-- They come to refer only to what they find. -/
theorem EntitySource.script_refersToFound (source : EntitySource) : source.script.RefersToFound :=
  fun className iri id => (source.script_reads className iri id).refers

/-- What is loaded for a root, and how, if no entities are made below a number. -/
structure LoadedOnce (trace : List LoadEvent) (root : Iri) (base : EntityId) (l : Loaded) : Prop where
  /-- An entity is kept for each IRI that questions lead to, and for no other. -/
  kept : ∀ i, (∃ x, l.resolved.lookup i = some x) ↔ Relation.ReflTransGen (Leads trace) root i
  /-- It is a new entity, with the IRI that it is kept for. -/
  entity : ∀ i x, l.resolved.lookup i = some x →
    base ≤ x ∧ ∃ className, l.store.key? x = some (className, i)
  /-- It reads itself, once. -/
  once : ∀ i x, l.resolved.lookup i = some x → (loadsOf trace).filter (·.1 = i) = [(i, x)]
  /-- No other entity reads itself. -/
  only : ∀ i x, (i, x) ∈ loadsOf trace → l.resolved.lookup i = some x
  /-- Whoever asks for an IRI is given it. -/
  answers : ∀ i x, .answer i (.ok x) ∈ trace → l.resolved.lookup i = some x

/-- Kept entities refer to kept ones, so that references to one IRI are references to one entity. -/
structure RefersToKept (l : Loaded) : Prop where
  kept : ∀ i x y, l.resolved.lookup i = some x → l.store.Refers x y →
    ∃ j, l.resolved.lookup j = some y
  same : ∀ i i' x x' y y' name name' j, l.resolved.lookup i = some x →
    l.resolved.lookup i' = some x' → l.store.Refers x y → l.store.Refers x' y' →
    l.store.key? y = some (name, j) → l.store.key? y' = some (name', j) → y = y'

namespace EntitySource

variable {source : EntitySource} {factory : EntityFactory} {script : Script}

theorem filter_eq_of_lookup {entries : List (Iri × EntityId)} {i : Iri} {x : EntityId}
    (hnodup : (entries.map (·.1)).Nodup) (h : entries.lookup i = some x) :
    entries.filter (·.1 = i) = [(i, x)] := by
  obtain ⟨before, after, rfl, hbefore⟩ := List.lookup_eq_some_iff.mp h
  rw [List.map_append, List.map_cons, List.nodup_append, List.nodup_cons] at hnodup
  obtain ⟨-, ⟨hafter, -⟩, -⟩ := hnodup
  rw [List.filter_append, List.filter_cons]
  have hleft : before.filter (·.1 = i) = [] := by
    rw [List.filter_eq_nil_iff]
    intro entry hentry
    have hne := hbefore entry hentry
    simp only [bne_iff_ne, ne_eq] at hne
    simp [Ne.symm hne]
  have hright : after.filter (·.1 = i) = [] := by
    rw [List.filter_eq_nil_iff]
    intro entry hentry heq
    exact hafter (List.mem_map.mpr ⟨entry, hentry, by simpa using heq⟩)
  simp [hleft, hright]

theorem mem_of_lookup {α : Type} {entries : List (Iri × α)} {i : Iri} {x : α}
    (h : entries.lookup i = some x) : (i, x) ∈ entries := by
  obtain ⟨before, after, rfl, -⟩ := List.lookup_eq_some_iff.mp h
  simp

theorem lookup_of_mem {entries : List (Iri × EntityId)} {i : Iri} {x : EntityId}
    (hnodup : (entries.map (·.1)).Nodup) (h : (i, x) ∈ entries) : entries.lookup i = some x := by
  obtain ⟨y, hy⟩ := Option.isSome_iff_exists.mp
    (List.lookup_isSome_iff.mpr ⟨(i, x), h, beq_self_eq_true i⟩)
  have hin : (i, x) ∈ entries.filter (·.1 = i) := List.mem_filter.mpr ⟨h, by simp⟩
  rw [filter_eq_of_lookup hnodup hy, List.mem_singleton, Prod.mk.injEq] at hin
  rw [hy, hin.2]

section Root

variable {expected root : Iri} {before after : Loaded} {trace : List LoadEvent}
  (h : Runs source factory script none (.ask expected root fun _ => .done) before.forget trace
    (.ok ()) after)

include h

theorem Runs.loads_eq : loadsOf trace = after.resolved := by
  rw [h.resolved_eq]
  rfl

theorem Runs.nodup_root : (after.resolved.map (·.1)).Nodup := h.nodup (by simp [Loaded.forget])

theorem Runs.ask_root : .ask none expected root ∈ trace := by
  cases h <;> simp

/-- Kept entities are new ones, with the IRIs that they are kept for. -/
theorem Runs.entity_of_lookup {i : Iri} {x : EntityId} (hx : after.resolved.lookup i = some x) :
    before.store.next ≤ x ∧ ∃ className, after.store.key? x = some (className, i) :=
  h.entity_of_load i x (by rw [h.loads_eq]; exact mem_of_lookup hx)

/-- **What is loaded by way of known classes is loaded once.** -/
theorem Runs.loadedOnce (hasks : script.AsksForObjects source.graph)
    (hknown : ∀ o e j, .ask o e j ∈ trace → (factory.creator? e).isSome) :
    LoadedOnce trace root before.store.next after := by
  have hnodup := h.nodup_root
  have hloads := h.loads_eq
  have hmet : ∀ o e j, .ask o e j ∈ trace → (after.resolved.lookup j).isSome :=
    fun o e j hask => h.lookup_isSome_of_ask o e j hask (hknown o e j hask)
  refine ⟨fun i => ⟨fun ⟨x, hx⟩ => ?_, fun hpath => ?_⟩, fun i x hx => h.entity_of_lookup hx, ?_,
    ?_, h.lookup_of_answer⟩
  · obtain ⟨e, j, hask, hpath⟩ := h.reached i x (by rw [hloads]; exact mem_of_lookup hx)
    -- Nobody asks without an owner but the one who loads, for the root.
    have hroot : (Reading.ask expected root fun _ => .done).AsksOnly fun _ j => j = root :=
      ⟨rfl, fun _ => trivial⟩
    rcases h.may_of_ask (fun className i id => hasks className i id) hroot none e j hask with
      ⟨-, rfl⟩ | ⟨i, hi, -⟩
    · exact hpath
    · cases hi
  · refine Option.isSome_iff_exists.mp ?_
    induction hpath with
    | refl => exact hmet none expected root h.ask_root
    | @tail a b _ hstep _ =>
        obtain ⟨e, hask⟩ := hstep
        exact hmet (some a) e b hask
  · intro i x hx
    rw [hloads]
    exact filter_eq_of_lookup hnodup hx
  · intro i x hx
    rw [hloads] at hx
    exact lookup_of_mem hnodup hx

/-- **References to one IRI are references to one entity.** -/
theorem Runs.refersToKept (hrefers : script.RefersToFound) : RefersToKept after := by
  have hclosed : after.Closed before.store.next := by
    have hroot : (Reading.ask expected root fun _ => .done).RefersWithin fun _ => False :=
      ⟨fun _ => trivial, fun _ => trivial⟩
    refine h.closed hrefers hroot ⟨Nat.le_refl _, by simp [Loaded.forget], ?_⟩ fun _ hy => hy.elim
    -- There are no entities from the number of the next one on.
    intro x y hx hxy
    obtain ⟨name, hmem⟩ := hxy
    exact absurd (Store.lt_next_of_mem_items hmem) (Nat.not_lt_of_le hx)
  have hkept : ∀ i x y, after.resolved.lookup i = some x → after.store.Refers x y →
      ∃ j, after.resolved.lookup j = some y :=
    fun i x y hx hxy => hclosed.refers x y (hclosed.remembered i x hx) hxy
  refine ⟨hkept, ?_⟩
  intro i i' x x' y y' name name' j hx hx' hxy hxy' hy hy'
  -- An entity that is kept is kept for the IRI it has.
  have hiri : ∀ {z className} (k : Iri), after.resolved.lookup k = some z →
      after.store.key? z = some (className, j) → k = j := by
    intro z className k hk hz
    obtain ⟨-, other, hother⟩ := h.entity_of_lookup hk
    rw [hz, Option.some.injEq, Prod.mk.injEq] at hother
    exact hother.2.symm
  obtain ⟨k, hk⟩ := hkept i x y hx hxy
  obtain ⟨k', hk'⟩ := hkept i' x' y' hx' hxy'
  rw [hiri k hk hy] at hk
  rw [hiri k' hk' hy', hk] at hk'
  exact Option.some.inj hk'

end Root

/-- Entities that are asked for have IRIs among the objects of the graph. -/
theorem mem_targetsOf_of_object {graph : Graph} {root iri predicate asked : Iri}
    (h : asked ∈ graph.sortedIris iri predicate) : asked ∈ targetsOf graph root := by
  unfold Rdf.Graph.sortedIris at h
  rw [Text.mem_sortByTexts, mem_objectIris, ← mem_objects_iri] at h
  obtain ⟨t, ht, -, -, hobject⟩ := mem_objects.mp h
  refine List.mem_cons_of_mem _ (List.mem_filterMap.mpr ⟨t, ht, ?_⟩)
  rw [hobject]
  rfl

/-- Every request is answered. -/
theorem answered_resolveBy (hasks : script.AsksForObjects source.graph) (expected root : Iri)
    (before : Loaded) :
    ∃ first answer after,
      (source.resolveBy factory script source.depth expected root).run.run before =
        (answer, after) ∧
      Answered source factory script expected root before first answer after := by
  have htargets : ∀ className i id,
      (script className i id).AsksOnly fun _ j => j ∈ targetsOf source.graph root :=
    fun className i id => (hasks className i id).mono
      fun e j ⟨predicate, hj⟩ => mem_targetsOf_of_object hj
  have hsize : before.unmet (targetsOf source.graph root) ≤ source.graph.size + 1 := by
    refine Nat.le_trans (Loaded.unmet_le_length ..) ?_
    exact Nat.succ_le_succ (List.length_filterMap_le ..)
  exact exists_answer htargets (fun less _ => runs_within htargets less) expected
    List.mem_cons_self hsize

/-- **Every reading runs** when its questions are answered by requests. -/
theorem exists_run (hasks : script.AsksForObjects source.graph) (owner : Option Iri)
    (reading : Reading) (before : Loaded) :
    ∃ trace outcome after,
      (reading.run (source.resolveBy factory script source.depth)).run.run before =
        (outcome, after) ∧
      Runs source factory script owner reading before trace outcome after := by
  refine exists_run_of_answers (fun _ => True) (fun _ _ h => h) ?_ reading reading.asksOnly_any
    owner before trivial
  intro expected iri l _ _
  obtain ⟨first, answer, between, hasked, hanswered⟩ :=
    @answered_resolveBy source factory script hasks expected iri l
  exact ⟨first, answer, between, hasked, hanswered, trivial⟩

/-- Loading by readings runs to its end. -/
theorem exists_loads (hasks : script.AsksForObjects source.graph) (expected root : Iri)
    (before : Loaded) :
    ∃ trace outcome after,
      (source.loadBy factory script expected root).run.run before = (outcome, after) ∧
      Runs source factory script none (.ask expected root fun _ => .done) before.forget trace
        (.ok ()) after ∧
      .answer root outcome ∈ trace ∧ ∀ failure, outcome = .error failure →
        factory.creator? expected = none ∨ .raise failure ∈ trace := by
  obtain ⟨first, answer, after, hrun, hanswered⟩ :=
    @answered_resolveBy source factory script hasks expected root before.forget
  refine ⟨_, answer, after, hrun,
    hanswered.goesOn none (fun _ => .done) [] (.ok ()) after .done, ?_, ?_⟩
  · simp [hanswered.told]
  · intro failure hfailure
    exact (hanswered.failed failure hfailure).imp_right fun hraise => by simp [hraise]

/--
**Loading ends, and loads what it meets once.**

This is said of all ways in which entities may read themselves, as long as they ask
only for IRIs that the graph has as objects of their own one; the graph may lead in
circles, and from an entity to itself.  Entities of classes that are described by
fields read themselves in one of these ways, by `EntitySource.script`.

Take any root, and whatever was loaded before.  If the factory knows every class that
is expected on the way, loading gives the entity kept for the root, unless a reading
gave up, and in any case

  * an entity is kept for each IRI that questions lead to from the root, and for no other,
  * it is a new one, and it alone reads itself for its IRI, and does so once,
  * whoever asks for the IRI is given this entity.

If entities come to refer only to what they find that way, references to one IRI are
references to one entity.
-/
theorem load_each_once (classes : EntityClasses) (graph : Graph) (factory : EntityFactory) :
    let source : EntitySource := ⟨classes, graph, some factory⟩
    (source.script.AsksForObjects graph ∧ source.script.RefersToFound ∧
      source.load = source.loadBy factory source.script) ∧
    ∀ script : Script, script.AsksForObjects graph → ∀ expected root before,
      ∃ trace outcome after,
        (source.loadBy factory script expected root).run.run before = (outcome, after) ∧
        Runs source factory script none (.ask expected root fun _ => .done) before.forget trace
          (.ok ()) after ∧
        ((∀ o e j, .ask o e j ∈ trace → (factory.creator? e).isSome) →
          ((∃ x, outcome = .ok x ∧ after.resolved.lookup root = some x) ∨
            ∃ failure, outcome = .error failure ∧ .raise failure ∈ trace) ∧
          LoadedOnce trace root before.store.next after ∧
          (script.RefersToFound → RefersToKept after)) := by
  intro source
  refine ⟨⟨source.script_asksForObjects, source.script_refersToFound, load_eq rfl⟩,
    fun script hasks expected root before => ?_⟩
  obtain ⟨trace, outcome, after, hrun, hruns, hanswer, herror⟩ :=
    @exists_loads source factory script hasks expected root before
  refine ⟨trace, outcome, after, hrun, hruns, fun hknown =>
    ⟨?_, hruns.loadedOnce hasks hknown, hruns.refersToKept⟩⟩
  cases outcome with
  | ok x => exact .inl ⟨x, rfl, hruns.lookup_of_answer root x hanswer⟩
  | error failure =>
      refine .inr ⟨failure, rfl, (herror failure rfl).resolve_left fun hnone => ?_⟩
      have hroot := hknown none expected root hruns.ask_root
      rw [hnone] at hroot
      simp at hroot

/-- A class whose entities know each other. -/
def acquaintances : EntityClasses :=
  .ofList [{ name := "Person", iri := some ⟨"x:Person"⟩, inverses := ["knownBy"], fields :=
    [{ name := "knows", kind := .collection, predicate := ⟨"x:knows"⟩, range := ⟨"x:Person"⟩,
       inverse := some "knownBy" }] }]

/-- Two that know each other, and one that knows itself. -/
def circle : Graph :=
  .ofList [⟨.iri ⟨"x:a"⟩, ⟨"x:knows"⟩, .iri ⟨"x:b"⟩⟩, ⟨.iri ⟨"x:a"⟩, ⟨"x:knows"⟩, .iri ⟨"x:a"⟩⟩,
    ⟨.iri ⟨"x:b"⟩, ⟨"x:knows"⟩, .iri ⟨"x:a"⟩⟩]

/-- A factory that makes persons. -/
def personFactory : EntityFactory := ⟨[(⟨"x:Person"⟩, "Person")]⟩

/-- Whom a person knows. -/
def knows : EntityField where
  name := "knows"
  kind := .collection
  predicate := ⟨"x:knows"⟩
  range := ⟨"x:Person"⟩
  inverse := some "knownBy"

theorem fields_acquaintances (c : String) :
    acquaintances.fields c = if "Person" = c then [knows] else [] := by
  unfold EntityClasses.fields EntityClasses.lineage acquaintances
  by_cases hc : "Person" = c <;>
    simp [EntityClasses.ofList, EntityClasses.declare, EntityClasses.lineageIn,
      EntityClasses.lastOfEach, hc, knows]

theorem eq_knows {c : String} {f : EntityField} (hf : f ∈ acquaintances.fields c) : f = knows := by
  rw [fields_acquaintances] at hf
  split at hf
  · exact List.mem_singleton.mp hf
  · cases hf

/-- All fields of these classes refer to persons. -/
theorem range_eq_person {className : String} {f : EntityField}
    (hf : f ∈ acquaintances.fields className) : f.range = ⟨"x:Person"⟩ := by
  rw [eq_knows hf]
  rfl

theorem load_circle_once : ∃ trace outcome after id,
    ((⟨acquaintances, circle, some personFactory⟩ : EntitySource).load ⟨"x:Person"⟩
      ⟨"x:a"⟩).run.run {} = (outcome, after) ∧
    LoadedOnce trace ⟨"x:a"⟩ 0 after ∧ RefersToKept after ∧
    after.resolved.lookup ⟨"x:a"⟩ = some id ∧
    (loadsOf trace).filter (·.1 = ⟨"x:a"⟩) = [(⟨"x:a"⟩, id)] := by
  let source : EntitySource := ⟨acquaintances, circle, some personFactory⟩
  obtain ⟨⟨hasks, hrefersToFound, hload⟩, hall⟩ :=
    load_each_once acquaintances circle personFactory
  obtain ⟨trace, outcome, after, hrun, hruns, honce⟩ :=
    hall source.script hasks ⟨"x:Person"⟩ ⟨"x:a"⟩ {}
  have hpersons : ∀ className i id,
      (source.script className i id).AsksOnly fun e _ => e = ⟨"x:Person"⟩ :=
    fun className i id => (source.script_reads className i id).asks.mono
      fun e j ⟨f, hf, hrange, _⟩ => hrange ▸ range_eq_person hf
  have hperson : ∀ o e j, .ask o e j ∈ trace → e = ⟨"x:Person"⟩ := by
    intro o e j hj
    have hroot : (Reading.ask ⟨"x:Person"⟩ ⟨"x:a"⟩ fun _ => .done).AsksOnly
        fun e _ => e = ⟨"x:Person"⟩ := ⟨rfl, fun _ => trivial⟩
    rcases hruns.may_of_ask hpersons hroot o e j hj with ⟨-, he⟩ | ⟨i, -, he⟩
    · exact he
    · exact he
  obtain ⟨-, hloaded, hrefers⟩ := honce fun o e j hj => by rw [hperson o e j hj]; rfl
  obtain ⟨id, hid⟩ := (hloaded.kept ⟨"x:a"⟩).mpr .refl
  refine ⟨trace, outcome, after, id, ?_, hloaded, hrefers hrefersToFound, hid,
    hloaded.once _ id hid⟩
  rw [hload, hrun]

end EntitySource

end OntoCode
