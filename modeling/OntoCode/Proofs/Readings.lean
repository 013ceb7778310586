/-
How entities read themselves.

A factory does not know how the entities of a class read what a graph says of them.
It only knows that they may ask it for further entities while they do.  A `Reading` is
any way to do that: it looks at the entities there are, changes what they hold, asks,
goes on with the answer or with the failure to get one, and may give up.

Asking is what makes loading recursive.  `loadBy` loads with whatever readings classes
have.  Loading entities whose classes are described by fields is one case of it, with
the readings that `script` puts together field by field.  They ask only for objects of
their own entity, and let entities refer only to what they find: themselves, the
answers, and what these lead to.
-/
import Mathlib.Logic.Relation
import OntoCode.Proofs.Linking
import OntoCode.Proofs.Steps

namespace OntoCode

open OntoCode.Rdf

/-! ### Changes of a store -/

/-- The first entity refers to the second one. -/
def Store.Refers (s : Store) (x y : EntityId) : Prop := ∃ name, .entity y ∈ s.items x name

/-- References lead to an entity from one that is known. -/
def Store.Finds (s : Store) (known : EntityId → Prop) (y : EntityId) : Prop :=
  ∃ x, known x ∧ Relation.ReflTransGen s.Refers x y

/-- Entities stay what they are, and refer to nothing new but what is found from known entities. -/
structure Store.Gains (known : EntityId → Prop) (s t : Store) : Prop where
  key : ∀ x key, s.key? x = some key → t.key? x = some key
  items : ∀ x name y, .entity y ∈ t.items x name → .entity y ∈ s.items x name ∨ s.Finds known y

namespace Store

variable {known : EntityId → Prop} {s t u : Store}

theorem finds_known {y : EntityId} (h : known y) : s.Finds known y := ⟨y, h, .refl⟩

theorem Finds.mono {more : EntityId → Prop} {y : EntityId} (h : s.Finds known y)
    (hmore : ∀ y, known y → more y) : s.Finds more y := by
  obtain ⟨x, hx, hxy⟩ := h
  exact ⟨x, hmore x hx, hxy⟩

namespace Gains

theorem refl (s : Store) : Gains known s s := ⟨fun _ _ h => h, fun _ _ _ h => .inl h⟩

/-- What is found after a change was found before. -/
theorem finds (h : Gains known s t) {y : EntityId} (hy : t.Finds known y) : s.Finds known y := by
  obtain ⟨x, hx, hxy⟩ := hy
  induction hxy with
  | refl => exact finds_known hx
  | tail _ hstep ih =>
      obtain ⟨name, hmem⟩ := hstep
      rcases h.items _ name _ hmem with hmem | hfound
      · obtain ⟨z, hz, hpath⟩ := ih
        exact ⟨z, hz, hpath.tail ⟨name, hmem⟩⟩
      · exact hfound

theorem trans (hst : Gains known s t) (htu : Gains known t u) : Gains known s u := by
  refine ⟨fun x key h => htu.key x key (hst.key x key h), fun x name y hy => ?_⟩
  rcases htu.items x name y hy with hy | hy
  · exact hst.items x name y hy
  · exact .inr (hst.finds hy)

theorem mono {more : EntityId → Prop} (h : Gains known s t) (hmore : ∀ y, known y → more y) :
    Gains more s t :=
  ⟨h.key, fun x name y hy => (h.items x name y hy).imp_right fun hy => hy.mono hmore⟩

/-- An attribute is assigned what it held and what is known. -/
theorem assign {x : EntityId} {name : String} {content : Content}
    (h : ∀ y, .entity y ∈ content.items → .entity y ∈ s.items x name ∨ known y) :
    Gains known s (s.assign x name content) := by
  refine ⟨fun z key hkey => by rw [key?_assign, hkey], fun z other y hy => ?_⟩
  obtain ⟨held, hheld, hy⟩ := exists_content_of_mem_items hy
  rcases eq_or_of_content_assign hheld with ⟨hz, hother, hcontent⟩ | hheld
  · rw [hz, hother]
    exact (h y (hcontent ▸ hy)).imp_right finds_known
  · exact .inl (by rwa [items_of_content hheld])

end Gains

theorem gains_insertInto {x : EntityId} {name : String} {item : Item}
    (h : s.insertInto? x name item = some t) (hitem : ∀ y, item = .entity y → known y) :
    Gains known s t := by
  obtain ⟨members, hmembers, rfl⟩ := insertInto?_eq_some.mp h
  refine .assign fun y hy => ?_
  rw [items_of_content hmembers]
  exact (mem_of_mem_insertMember hy).imp_right fun heq => hitem y heq.symm

theorem gains_release {sides : LinkSides} {x : EntityId} {item : Item}
    (h : s.release? sides x item = some t) : Gains known s t := by
  rcases release?_cases h with rfl | ⟨p, herase⟩
  · exact .refl t
  · obtain ⟨members, hmembers, rfl⟩ := eraseFrom?_eq_some.mp herase
    refine .assign fun y hy => .inl ?_
    rw [items_of_content hmembers]
    exact (List.mem_filter.mp hy).1

section Put

variable {x : EntityId} {item : Item} (hx : known x) (hitem : ∀ y, item = .entity y → known y)

include hitem

theorem gains_point {sides : LinkSides} (h : s.point? sides x item = some t) :
    Gains known s t := by
  rcases point?_cases h with rfl | hinsert | ⟨released, hreleased, rfl⟩
  · exact .refl t
  · exact gains_insertInto hinsert hitem
  · refine (gains_release hreleased).trans (.assign fun y hy => .inr (hitem y ?_))
    exact (List.mem_singleton.mp hy).symm

include hx

/-- **Putting a known item into an entity makes no others known.** -/
theorem gains_put (f : EntityField) : Gains known s (s.put x f item).store := by
  rcases s.put_cases x f item with heq | ⟨content, hcontent, heq⟩ |
    ⟨inverse, pointed, -, hpoint, hback⟩
  · rw [heq]
    exact .refl s
  · rw [heq]
    exact .assign fun y hy => (hcontent _ hy).imp_right fun heq => hitem y heq.symm
  · refine (gains_point hitem hpoint).trans ?_
    rcases hback with heq | hback
    · rw [heq]
      exact .refl pointed
    · rcases pointBack?_cases hback with heq | ⟨y, hinsert⟩
      · rw [heq]
        exact .refl pointed
      · exact gains_insertInto hinsert fun z hz => Item.entity.inj hz ▸ hx

end Put

/-- Where all entities stay, there are no fewer of them. -/
theorem next_le_of_key (h : ∀ x key, s.key? x = some key → t.key? x = some key) :
    s.next ≤ t.next := by
  by_contra hlt
  obtain ⟨e, he⟩ := entity?_isSome_iff.mpr (Nat.lt_of_not_le hlt)
  have hkey : s.key? t.next = some e.key := by simp [key?, he]
  obtain ⟨e', he', -⟩ := Option.map_eq_some_iff.mp (h t.next e.key hkey)
  exact Nat.lt_irrefl _ (entity?_isSome_iff.mp ⟨e', he'⟩)

/-- A change of what entities hold, after which they are still there. -/
structure Update where
  apply : Store → Store
  keeps : ∀ s x key, s.key? x = some key → (apply s).key? x = some key

/-- Replaces what an attribute of an entity holds. -/
def Update.assign (id : EntityId) (name : String) (content : Content) : Update where
  apply s := s.assign id name content
  keeps s x key h := by rw [key?_assign, h]

/-- Puts an item into a field of an entity, as far as that is possible. -/
def Update.put (id : EntityId) (f : EntityField) (item : Item) : Update where
  apply s := (s.put id f item).store
  keeps s := (gains_put trivial (fun _ _ => trivial) f : Gains (fun _ => True) s _).key

end Store

/-! ### Readings -/

/-- A way for an entity to read itself. -/
inductive Reading
  /-- All is read. -/
  | done
  | fail (failure : EntityFailure)
  /-- Goes on as the entities there are call for. -/
  | look (next : Store → Reading)
  | change (update : Store.Update) (next : Reading)
  /-- Asks for the entity of an IRI, where one of a class of the ontology is expected. -/
  | ask (expected iri : Iri) (next : Except EntityFailure EntityId → Reading)

namespace Reading

/-- Reads, and has the questions answered by a resolver. -/
def run (resolve : Resolver) : Reading → Loading Unit
  | done => pure ()
  | fail failure => throw failure
  | look next => do (next (← get).store).run resolve
  | change update next => do
    modify fun l => { l with store := update.apply l.store }
    next.run resolve
  | ask expected iri next => ExceptT.mk do
    let answer ← (resolve expected iri).run
    ((next answer).run resolve).run

theorem run_ask (resolve : Resolver) (expected iri : Iri)
    (next : Except EntityFailure EntityId → Reading) (l : Loaded) :
    ((ask expected iri next).run resolve).run.run l =
      ((next ((resolve expected iri).run.run l).1).run resolve).run.run
        ((resolve expected iri).run.run l).2 := rfl

/-- Gives up if there is a failure. -/
def endWith : Option EntityFailure → Reading
  | some failure => fail failure
  | none => done

/-- One reading after another one. -/
def andThen : Reading → Reading → Reading
  | done, rest => rest
  | fail failure, _ => .fail failure
  | look next, rest => .look fun s => (next s).andThen rest
  | change update next, rest => .change update (next.andThen rest)
  | ask expected iri next, rest => .ask expected iri fun answer => (next answer).andThen rest

/-- Readings one after the other. -/
def sequence : List Reading → Reading
  | [] => .done
  | r :: rest => r.andThen (sequence rest)

/-- Goes on with an outcome, or gives up. -/
def settling {α : Type} (outcome : Except EntityFailure α) (next : α → Reading) : Reading :=
  match outcome with
  | .ok a => next a
  | .error failure => .fail failure

/-- Replaces what an attribute holds. -/
def assigning (id : EntityId) (name : String) (content : Content) : Reading :=
  .change (.assign id name content) .done

/-- Puts an item into a field, and gives up if that fails. -/
def putting (id : EntityId) (f : EntityField) (item : Item) : Reading :=
  .look fun s => .change (.put id f item) (endWith (s.put id f item).failure)

/-- Asks for the entity of an IRI, and puts it into a field. -/
def referring (id : EntityId) (f : EntityField) (iri : Iri) : Reading :=
  .ask f.range iri fun answer => settling answer fun y => putting id f (.entity y)

/-- Whatever the reading is answered, it asks only for what it may ask for. -/
def AsksOnly (may : Iri → Iri → Prop) : Reading → Prop
  | done => True
  | fail _ => True
  | look next => ∀ s, (next s).AsksOnly may
  | change _ next => next.AsksOnly may
  | ask expected iri next => may expected iri ∧ ∀ answer, (next answer).AsksOnly may

/-- The reading lets entities refer to nothing new but what it finds from entities known to it, to
which every answer is added. -/
def RefersWithin : Reading → (EntityId → Prop) → Prop
  | done, _ => True
  | fail _, _ => True
  | look next, known => ∀ s, (next s).RefersWithin known
  | change update next, known =>
    (∀ s, Store.Gains known s (update.apply s)) ∧ next.RefersWithin known
  | ask _ _ next, known =>
    (∀ y, (next (.ok y)).RefersWithin fun z => known z ∨ z = y) ∧
      ∀ failure, (next (.error failure)).RefersWithin known

theorem asksOnly_endWith {may : Iri → Iri → Prop} (failure : Option EntityFailure) :
    (endWith failure).AsksOnly may := by
  cases failure <;> trivial

theorem refersWithin_endWith {known : EntityId → Prop} (failure : Option EntityFailure) :
    (endWith failure).RefersWithin known := by
  cases failure <;> trivial

theorem AsksOnly.mono {may more : Iri → Iri → Prop} (hmore : ∀ e j, may e j → more e j) :
    ∀ {r : Reading}, r.AsksOnly may → r.AsksOnly more := by
  intro r
  induction r with
  | done => exact fun _ => trivial
  | fail failure => exact fun _ => trivial
  | look next ih => exact fun h s => ih s (h s)
  | change update next ih => exact ih
  | ask expected iri next ih => exact fun h => ⟨hmore _ _ h.1, fun answer => ih _ (h.2 answer)⟩

theorem asksOnly_any (r : Reading) : r.AsksOnly fun _ _ => True := by
  induction r with
  | done => trivial
  | fail failure => trivial
  | look next ih => exact ih
  | change update next ih => exact ih
  | ask expected iri next ih => exact ⟨trivial, ih⟩

theorem AsksOnly.andThen {may : Iri → Iri → Prop} {rest : Reading} : ∀ {r : Reading},
    r.AsksOnly may → rest.AsksOnly may → (r.andThen rest).AsksOnly may := by
  intro r
  induction r with
  | done => exact fun _ hrest => hrest
  | fail failure => exact fun _ _ => trivial
  | look next ih => exact fun h hrest s => ih s (h s) hrest
  | change update next ih => exact fun h hrest => ih h hrest
  | ask expected iri next ih => exact fun h hrest => ⟨h.1, fun answer => ih _ (h.2 answer) hrest⟩

theorem RefersWithin.mono : ∀ {r : Reading} {known more : EntityId → Prop},
    r.RefersWithin known → (∀ y, known y → more y) → r.RefersWithin more := by
  intro r
  induction r with
  | done => exact fun _ _ => trivial
  | fail failure => exact fun _ _ => trivial
  | look next ih => exact fun h hmore s => ih s (h s) hmore
  | change update next ih => exact fun h hmore => ⟨fun s => (h.1 s).mono hmore, ih h.2 hmore⟩
  | ask expected iri next ih =>
      exact fun h hmore => ⟨fun y => ih _ (h.1 y) fun z hz => hz.imp_left (hmore z),
        fun failure => ih _ (h.2 failure) hmore⟩

theorem RefersWithin.andThen {rest : Reading} : ∀ {r : Reading} {known : EntityId → Prop},
    r.RefersWithin known → rest.RefersWithin known → (r.andThen rest).RefersWithin known := by
  intro r
  induction r with
  | done => exact fun _ hrest => hrest
  | fail failure => exact fun _ _ => trivial
  | look next ih => exact fun h hrest s => ih s (h s) hrest
  | change update next ih => exact fun h hrest => ⟨h.1, ih h.2 hrest⟩
  | ask expected iri next ih =>
      exact fun h hrest => ⟨fun y => ih _ (h.1 y) (hrest.mono fun _ => .inl),
        fun failure => ih _ (h.2 failure) hrest⟩

theorem run_andThen (resolve : Resolver) (rest : Reading) (r : Reading) :
    (r.andThen rest).run resolve = r.run resolve >>= fun _ => rest.run resolve := by
  induction r with
  | done => rfl
  | fail failure => rfl
  | look next ih =>
      simp only [andThen, run, bind_assoc]
      exact congrArg _ (funext fun l => ih l.store)
  | change update next ih =>
      simp only [andThen, run, bind_assoc]
      exact congrArg _ (funext fun _ => ih)
  | ask expected iri next ih =>
      simp only [andThen, run, ih]
      rfl

end Reading

/-! ### Loading by readings -/

/-- How the entities of each class read themselves: by the class, the IRI and the number of an
entity. -/
abbrev Script := String → Iri → EntityId → Reading

namespace EntitySource

variable (source : EntitySource) (factory : EntityFactory) (script : Script)

/-- Gives the entity that stands for an IRI, which reads itself when the IRI is met first; questions
are nested to a given depth. -/
def resolveBy : Nat → Resolver
  | 0, _, _ => throw .tooDeep
  | depth + 1, expected, iri => do
    match (← get).resolved.lookup iri with
    | some id => return id
    | none =>
      let className ← settled (factory.choose source.classes source.graph expected iri)
      let id := (← get).store.next
      modify fun l => (l.create source.classes className iri).remember iri id
      (script className iri id).run (resolveBy depth)
      return id

/-- Loads the entity of an IRI afresh, with all that it asks for. -/
def loadBy : Resolver := fun expected iri => do
  modify Loaded.forget
  source.resolveBy factory script source.depth expected iri

end EntitySource

/-- Work that is given a resolver is what a reading does, which asks only for what it may ask for and
lets entities refer only to what is known. -/
structure Reads (may : Iri → Iri → Prop) (known : EntityId → Prop) (reading : Reading)
    (work : Resolver → Loading Unit) : Prop where
  asks : reading.AsksOnly may
  refers : reading.RefersWithin known
  run : ∀ resolve, reading.run resolve = work resolve

namespace Reads

variable {may : Iri → Iri → Prop} {known : EntityId → Prop}

theorem throw (failure : EntityFailure) :
    Reads may known (.fail failure) fun _ => throw failure :=
  ⟨trivial, trivial, fun _ => rfl⟩

theorem settling {α : Type} {outcome : Except EntityFailure α} {next : α → Reading}
    {work : α → Resolver → Loading Unit} (h : ∀ a, Reads may known (next a) (work a)) :
    Reads may known (.settling outcome next) fun resolve =>
      settled outcome >>= fun a => work a resolve := by
  cases outcome with
  | error failure => exact throw failure
  | ok a => exact h a

theorem andThen {r q : Reading} {first rest : Resolver → Loading Unit}
    (hfirst : Reads may known r first) (hrest : Reads may known q rest) :
    Reads may known (r.andThen q) fun resolve => first resolve >>= fun _ => rest resolve := by
  refine ⟨hfirst.asks.andThen hrest.asks, hfirst.refers.andThen hrest.refers, fun resolve => ?_⟩
  rw [Reading.run_andThen, hfirst.run, hrest.run]

theorem sequence {α : Type} {reading : α → Reading} {work : α → Resolver → Loading Unit}
    (l : List α) (h : ∀ a ∈ l, Reads may known (reading a) (work a)) :
    Reads may known (.sequence (l.map reading)) fun resolve => l.forM fun a => work a resolve := by
  induction l with
  | nil => exact ⟨trivial, trivial, fun _ => rfl⟩
  | cons a rest ih =>
      exact (h a List.mem_cons_self).andThen (ih fun b hb => h b (List.mem_cons_of_mem _ hb))

theorem assigning {id : EntityId} {name : String} {content : Content}
    (h : ∀ y, .entity y ∉ content.items) :
    Reads may known (.assigning id name content) fun _ => assignTo id name content :=
  ⟨trivial, ⟨fun _ => .assign fun y hy => absurd hy (h y), trivial⟩, fun _ => rfl⟩

theorem putting {id : EntityId} {f : EntityField} {item : Item} (hid : known id)
    (hitem : ∀ y, item = .entity y → known y) :
    Reads may known (.putting id f item) fun _ => putInto id f item := by
  refine ⟨fun s => Reading.asksOnly_endWith _,
    fun s => ⟨fun _ => Store.gains_put hid hitem f, Reading.refersWithin_endWith _⟩,
    fun resolve => ExceptT.ext (StateT.ext fun l => ?_)⟩
  unfold putInto
  simp only [Reading.putting, Reading.run]
  rw [run_get_bind, run_get_bind, run_modify_bind, run_modify_bind]
  cases (l.store.put id f item).failure <;> rfl

theorem referring {id : EntityId} {f : EntityField} {iri : Iri} (hmay : may f.range iri)
    (hid : known id) :
    Reads may known (.referring id f iri) fun resolve =>
      resolve f.range iri >>= fun y => putInto id f (.entity y) := by
  have hput : ∀ y, Reads may (fun z => known z ∨ z = y) (.putting id f (.entity y))
      fun _ => putInto id f (.entity y) :=
    fun y => .putting (.inl hid) fun z hz => .inr (Item.entity.inj hz).symm
  refine ⟨⟨hmay, fun answer => ?_⟩, ⟨fun y => (hput y).refers, fun _ => trivial⟩,
    fun resolve => ExceptT.ext (StateT.ext fun l => ?_)⟩
  · cases answer with
    | ok y => exact (hput y).asks
    | error failure => trivial
  · rw [Reading.referring, Reading.run_ask, run_bind]
    cases (resolve f.range iri).run.run l with
    | mk answer t =>
        cases answer with
        | ok y => exact congrArg (fun work : Loading Unit => work.run.run t) ((hput y).run resolve)
        | error failure => rfl

end Reads

/-! ### Classes that are described by fields -/

namespace EntitySource

variable (source : EntitySource)

/-- How an entity reads a field. -/
def fieldReading (id : EntityId) (iri : Iri) (f : EntityField) : Reading :=
  match f.kind with
  | .value =>
    .settling (source.graph.values iri f.predicate f.type) fun values =>
      .assigning id f.name (.single ((values.head?.map Item.native).getD .null))
  | .array =>
    .settling (source.graph.values iri f.predicate f.type) fun values =>
      .assigning id f.name (.array (values.map .native))
  | .object =>
    match source.graph.sortedIris iri f.predicate with
    | [] => .putting id f .null
    | first :: _ => .referring id f first
  | .collection =>
    (Reading.assigning id f.name (.set [])).andThen
      (.sequence ((source.graph.sortedIris iri f.predicate).map (.referring id f)))

/-- How an entity reads the fields that a class gives to it. -/
def classReading (id : EntityId) (iri : Iri) (c : EntityClass) : Reading :=
  if c.usesFactory && source.factory.isNone then .fail .noFactory
  else .sequence (c.fields.map (source.fieldReading id iri))

/-- **How the entities of classes that are described by fields read themselves:** the fields of the
most general class first. -/
def script : Script := fun className iri id =>
  .sequence ((source.classes.lineage className).reverse.map (source.classReading id iri))

/-- The range of a field of a class, and the objects that an entity has for it: what the entity may
ask for. -/
def FieldAsks (className : String) (iri expected asked : Iri) : Prop :=
  ∃ f ∈ source.classes.fields className, f.range = expected ∧
    asked ∈ source.graph.sortedIris iri f.predicate

variable {className : String} {id : EntityId} {iri : Iri}

theorem loadField_reads {f : EntityField} (hf : f ∈ source.classes.fields className) :
    Reads (source.FieldAsks className iri) (· = id) (source.fieldReading id iri f)
      fun resolve => source.loadField resolve id iri f := by
  have hrefer : ∀ j ∈ source.graph.sortedIris iri f.predicate,
      Reads (source.FieldAsks className iri) (· = id) (.referring id f j)
        fun resolve => resolve f.range j >>= fun y => putInto id f (.entity y) :=
    fun j hj => .referring ⟨f, hf, rfl, hj⟩ rfl
  unfold loadField fieldReading
  cases f.kind with
  | value =>
      refine .settling fun values => .assigning fun y hy => ?_
      cases values <;> simp [Content.items] at hy
  | array => exact .settling fun values => .assigning fun y hy => by simp [Content.items] at hy
  | object =>
      cases hiris : source.graph.sortedIris iri f.predicate with
      | nil => exact .putting rfl (by simp)
      | cons first rest => exact hrefer first (by rw [hiris]; exact List.mem_cons_self)
  | collection =>
      exact .andThen (.assigning fun y hy => by simp [Content.items] at hy) (.sequence _ hrefer)

theorem loadClass_reads {c : EntityClass} (hc : c ∈ (source.classes.lineage className).reverse) :
    Reads (source.FieldAsks className iri) (· = id) (source.classReading id iri c)
      fun resolve => source.loadClass resolve id iri c := by
  unfold loadClass classReading
  split
  · exact .throw _
  · exact .sequence _ fun f hf => source.loadField_reads (List.mem_flatMap.mpr ⟨c, hc, hf⟩)

/-- **Entities whose classes are described by fields read themselves by the script.** -/
theorem script_reads (className : String) (iri : Iri) (id : EntityId) :
    Reads (source.FieldAsks className iri) (· = id) (source.script className iri id) fun resolve =>
      (source.classes.lineage className).reverse.forM (source.loadClass resolve id iri) :=
  .sequence _ fun _ hc => source.loadClass_reads hc

variable {source} {factory : EntityFactory}

/-- A new entity reads its fields by the script. -/
theorem run_loadFields (resolve : Resolver) {m : Loaded}
    (hm : m.store.entity? id = some (.ofClass source.classes className iri)) :
    (source.loadFields resolve id).run.run m =
      ((source.script className iri id).run resolve).run.run m := by
  have hkey := Entity.key_ofClass source.classes className iri
  have hclass : (Entity.ofClass source.classes className iri).className = className :=
    congrArg Prod.fst hkey
  have hiri : (Entity.ofClass source.classes className iri).iri = iri := congrArg Prod.snd hkey
  unfold loadFields
  rw [run_get_bind, hm, (source.script_reads className iri id).run]
  simp only [hclass, hiri]

theorem resolveWithin_eq : ∀ depth,
    source.resolveWithin factory depth = source.resolveBy factory source.script depth := by
  intro depth
  induction depth with
  | zero => rfl
  | succ depth ih =>
      funext expected iri
      refine ExceptT.ext (StateT.ext fun l => ?_)
      unfold resolveWithin resolveBy
      rw [run_get_bind, run_get_bind]
      cases l.resolved.lookup iri with
      | some id => rfl
      | none =>
          cases factory.choose source.classes source.graph expected iri with
          | error failure => rfl
          | ok className =>
              have hmade : (l.store.add (.ofClass source.classes className iri)).entity?
                  l.store.next = some (.ofClass source.classes className iri) :=
                Store.entity?_add_self ..
              have hsettled : settled (.ok className) = (pure className : Loading String) := rfl
              simp only [hsettled, pure_bind]
              rw [run_get_bind, run_get_bind, run_modify_bind, run_modify_bind, run_bind,
                run_bind, run_loadFields _ hmade, ih]

/-- Requests are answered by the script. -/
theorem resolve_eq (hfactory : source.factory = some factory) :
    source.resolve = source.resolveBy factory source.script source.depth := by
  funext expected iri
  unfold resolve
  rw [hfactory, ← resolveWithin_eq]

/-- **Loading is loading by the script.** -/
theorem load_eq (hfactory : source.factory = some factory) :
    source.load = source.loadBy factory source.script := by
  funext expected iri
  unfold load loadBy
  rw [resolve_eq hfactory]

end EntitySource

end OntoCode
