/-
Entities that are made after others.

Loading numbers the entities it makes from the next free number on, and it forgets
which entities were met before.  So what a store holds already can only shift the
numbers.  `above` puts a store on top of an older one: every number in it is raised by
the size of the older one.

Each change of a store commutes with that, as it asks only for entities that it is
given or finds from these.  Work that commutes is `Renumbered`, and so is one piece of
it after another.  Loading an entity is made of such work, whence it does the same on
top of any store as it does in an empty one.
-/
import OntoCode.Entities.Loading
import OntoCode.Proofs.Steps

namespace OntoCode

open OntoCode.Rdf

variable {base : EntityId}

/-! ### What attributes hold -/

namespace Item

/-- The item with its number raised. -/
def above (base : EntityId) : Item → Item
  | null => null
  | native content => native content
  | entity id => entity (base + id)

@[simp] theorem above_inj {a b : Item} : a.above base = b.above base ↔ a = b := by
  cases a <;> cases b <;> simp [above]

end Item

namespace Content

/-- The content with all numbers raised. -/
def above (base : EntityId) : Content → Content
  | single item => single (item.above base)
  | array items => array (items.map (Item.above base))
  | set members => set (members.map (Item.above base))

/-- At first attributes hold no numbers. -/
@[simp] theorem above_initial (kind : PropertyKind) :
    (initial kind).above base = initial kind := by
  cases kind <;> rfl

end Content

namespace Entity

/-- The entity with all numbers that it holds raised. -/
def above (base : EntityId) (e : Entity) : Entity :=
  { e with attributes := e.attributes.map fun (name, content) => (name, content.above base) }

@[simp] theorem content?_above (e : Entity) (name : String) :
    (e.above base).content? name = (e.content? name).map (Content.above base) := by
  unfold content? above
  induction e.attributes with
  | nil => rfl
  | cons entry rest ih =>
      obtain ⟨held, content⟩ := entry
      rw [List.map_cons, List.lookup_cons, List.lookup_cons]
      cases name == held with
      | true => rfl
      | false => exact ih

theorem assign_above (e : Entity) (name : String) (content : Content) :
    (e.above base).assign name (content.above base) = (e.assign name content).above base := by
  have hassigned : ∀ attributes : List (String × Content),
      assigned name (content.above base)
          (attributes.map fun (name, content) => (name, content.above base)) =
        (assigned name content attributes).map fun (name, content) =>
          (name, content.above base) := by
    intro attributes
    induction attributes with
    | nil => rfl
    | cons entry rest ih =>
        obtain ⟨held, old⟩ := entry
        simp only [List.map_cons, assigned]
        split
        · rfl
        · rw [ih, List.map_cons]
  unfold assign above
  rw [hassigned]

/-- A new entity holds no numbers. -/
@[simp] theorem above_ofClass (classes : EntityClasses) (className : String) (iri : Iri) :
    (ofClass classes className iri).above base = ofClass classes className iri := by
  have hfields : ∀ (fields : List EntityField) (e : Entity), e.above base = e →
      (fields.foldl (fun e f => e.assign f.name (.initial f.kind)) e).above base =
        fields.foldl (fun e f => e.assign f.name (.initial f.kind)) e := by
    intro fields
    induction fields with
    | nil => exact fun e he => he
    | cons f rest ih =>
        intro e he
        refine ih _ ?_
        rw [← assign_above, he, Content.above_initial]
  have hinverses : ∀ (inverses : List String) (e : Entity), e.above base = e →
      (inverses.foldl (fun e name => e.assign name (.set [])) e).above base =
        inverses.foldl (fun e name => e.assign name (.set [])) e := by
    intro inverses
    induction inverses with
    | nil => exact fun e he => he
    | cons name rest ih =>
        intro e he
        refine ih _ ?_
        rw [← assign_above, he]
        rfl
  unfold ofClass
  induction classes.lineage className with
  | nil => rfl
  | cons c rest ih =>
      rw [List.foldr_cons]
      exact hinverses _ _ (hfields _ _ ih)

end Entity

/-! ### Stores -/

/-- The store on top of an older one: the numbers of its entities are raised. -/
def Store.above (s old : Store) : Store :=
  ⟨old.entities ++ s.entities.map (Entity.above old.next)⟩

/-- What work on a store ends with, on top of an older one. -/
def StoreResult.above (result : StoreResult) (old : Store) : StoreResult :=
  { result with store := result.store.above old }

namespace Store

section Above

variable (s old : Store)

@[simp] theorem next_above : (s.above old).next = old.next + s.next := by
  simp [above, next]

@[simp] theorem entity?_above (id : EntityId) :
    (s.above old).entity? (old.next + id) = (s.entity? id).map (Entity.above old.next) := by
  rw [entity?, above, next, List.getElem?_append_right (Nat.le_add_right _ _),
    Nat.add_sub_cancel_left, List.getElem?_map]
  rfl

@[simp] theorem content?_above (id : EntityId) (name : String) :
    (s.above old).content? (old.next + id) name =
      (s.content? id name).map (Content.above old.next) := by
  simp only [content?, entity?_above]
  cases s.entity? id with
  | none => rfl
  | some e => exact e.content?_above name

@[simp] theorem same_above (a b : EntityId) :
    (s.above old).same (old.next + a) (old.next + b) = s.same a b := by
  have hkey : ∀ id, (s.above old).key? (old.next + id) = s.key? id := by
    intro id
    rw [key?, entity?_above, Option.map_map]
    rfl
  simp only [same, hkey]

@[simp] theorem sameItem_above (a b : Item) :
    (s.above old).sameItem (a.above old.next) (b.above old.next) = s.sameItem a b := by
  cases a <;> cases b <;> simp [sameItem, Item.above]

theorem assign_above (id : EntityId) (name : String) (content : Content) :
    (s.above old).assign (old.next + id) name (content.above old.next) =
      (s.assign id name content).above old := by
  have hmodify : ∀ (front entities : List Entity),
      (front ++ entities.map (Entity.above old.next)).modify (front.length + id)
          (·.assign name (content.above old.next)) =
        front ++ (entities.modify id (·.assign name content)).map (Entity.above old.next) := by
    intro front entities
    refine List.ext_getElem? fun i => ?_
    rcases Nat.lt_or_ge i front.length with hi | hi
    · have hne : front.length + id ≠ i := by omega
      rw [List.getElem?_modify, List.getElem?_append_left hi, List.getElem?_append_left hi]
      simp [hne]
    · obtain ⟨j, rfl⟩ := Nat.exists_eq_add_of_le hi
      simp only [List.getElem?_modify, List.getElem?_append_right hi, Nat.add_sub_cancel_left,
        List.getElem?_map, Nat.add_left_cancel_iff]
      cases entities[j]? with
      | none => rfl
      | some e => by_cases h : id = j <;> simp [h, Entity.assign_above]
  unfold assign above
  exact congrArg Store.mk (hmodify old.entities s.entities)

theorem add_above (e : Entity) :
    (s.above old).add (e.above old.next) = (s.add e).above old := by
  simp [add, above]

theorem insertMember_above (item : Item) (members : List Item) :
    (s.above old).insertMember (item.above old.next) (members.map (Item.above old.next)) =
      (s.insertMember item members).map (Item.above old.next) := by
  have hany : (members.map (Item.above old.next)).any
      ((s.above old).sameItem (item.above old.next)) = members.any (s.sameItem item) := by
    simp [List.any_map, Function.comp_def]
  unfold insertMember
  rw [hany]
  split
  · rfl
  · rw [List.map_append, List.map_singleton]

theorem eraseMember_above (item : Item) (members : List Item) :
    (s.above old).eraseMember (item.above old.next) (members.map (Item.above old.next)) =
      (s.eraseMember item members).map (Item.above old.next) := by
  simp [eraseMember, List.filter_map, Function.comp_def]

theorem insertInto?_above (id : EntityId) (name : String) (item : Item) :
    (s.above old).insertInto? (old.next + id) name (item.above old.next) =
      (s.insertInto? id name item).map (·.above old) := by
  unfold insertInto?
  rw [content?_above]
  cases s.content? id name with
  | none => rfl
  | some content =>
      cases content with
      | single held => rfl
      | array items => rfl
      | set members =>
          simp only [Option.map_some, Content.above, insertMember_above]
          rw [← assign_above]
          rfl

theorem eraseFrom?_above (id : EntityId) (name : String) (item : Item) :
    (s.above old).eraseFrom? (old.next + id) name (item.above old.next) =
      (s.eraseFrom? id name item).map (·.above old) := by
  unfold eraseFrom?
  rw [content?_above]
  cases s.content? id name with
  | none => rfl
  | some content =>
      cases content with
      | single held => rfl
      | array items => rfl
      | set members =>
          simp only [Option.map_some, Content.above, eraseMember_above]
          rw [← assign_above]
          rfl

/-! ### Links -/

variable (sides : LinkSides) (x : EntityId) (item : Item)

theorem release?_above :
    (s.above old).release? sides (old.next + x) (item.above old.next) =
      (s.release? sides x item).map (·.above old) := by
  unfold release?
  rw [content?_above]
  cases s.content? x sides.forward with
  | none => rfl
  | some content =>
      cases content with
      | array items => rfl
      | set members => rfl
      | single previous =>
          by_cases htarget : previous = item
          · subst htarget
            cases previous <;> simp [Content.above, Item.above]
          · have hmoved : previous.above old.next ≠ item.above old.next :=
              fun h => htarget (Item.above_inj.mp h)
            cases previous with
            | null => rfl
            | native held =>
                change (if (Item.native held).above old.next = item.above old.next then _ else _) =
                  Option.map _ (if Item.native held = item then _ else _)
                rw [if_neg hmoved, if_neg htarget]
                rfl
            | entity p =>
                change (if (Item.entity p).above old.next = item.above old.next then _ else _) =
                  Option.map _ (if Item.entity p = item then _ else _)
                rw [if_neg hmoved, if_neg htarget]
                exact s.eraseFrom?_above old p sides.inverse (.entity x)

theorem point?_above :
    (s.above old).point? sides (old.next + x) (item.above old.next) =
      (s.point? sides x item).map (·.above old) := by
  have hnull : item.above old.next = .null ↔ item = .null := @Item.above_inj _ item .null
  unfold point?
  simp only [release?_above, insertInto?_above, hnull]
  split
  · rw [Option.map_map, Option.map_map]
    refine congrFun (congrArg _ (funext fun released => ?_)) _
    exact released.assign_above old x sides.forward (.single item)
  · split <;> rfl

theorem pointBack?_above :
    (s.above old).pointBack? sides (old.next + x) (item.above old.next) =
      (s.pointBack? sides x item).map (·.above old) := by
  cases item with
  | null => rfl
  | native held => rfl
  | entity target => exact s.insertInto?_above old target sides.inverse (.entity x)

theorem link_above :
    (s.above old).link sides (old.next + x) (item.above old.next) =
      (s.link sides x item).above old := by
  unfold link
  rw [point?_above]
  cases s.point? sides x item with
  | none => rfl
  | some pointed =>
      simp only [Option.map_some, pointBack?_above]
      cases pointed.pointBack? sides x item <;> rfl

/-- **Putting an item into a field is the same on top of an older store.** -/
theorem put_above (f : EntityField) :
    (s.above old).put (old.next + x) f (item.above old.next) = (s.put x f item).above old := by
  unfold put
  cases f.inverse with
  | some inverse => exact s.link_above old _ x item
  | none =>
      cases f.kind with
      | value =>
          exact congrArg (StoreResult.mk · none) (s.assign_above old x f.name (.single item))
      | object =>
          exact congrArg (StoreResult.mk · none) (s.assign_above old x f.name (.single item))
      | array =>
          simp only [content?_above]
          cases s.content? x f.name with
          | none => rfl
          | some content =>
              cases content with
              | single held => rfl
              | set members => rfl
              | array items =>
                  simp only [Option.map_some, Content.above]
                  have happend : items.map (Item.above old.next) ++ [item.above old.next] =
                      (items ++ [item]).map (Item.above old.next) := by
                    rw [List.map_append, List.map_singleton]
                  rw [happend]
                  exact congrArg (StoreResult.mk · none)
                    (s.assign_above old x f.name (.array (items ++ [item])))
      | collection =>
          simp only [insertInto?_above]
          cases s.insertInto? x f.name item <;> rfl

end Above

end Store

/-! ### Loading -/

/-- What was loaded, on top of an older store. -/
def Loaded.above (l : Loaded) (old : Store) : Loaded where
  store := l.store.above old
  resolved := l.resolved.map fun (iri, id) => (iri, old.next + id)

@[simp] theorem Loaded.lookup_above (l : Loaded) (old : Store) (iri : Iri) :
    (l.above old).resolved.lookup iri = (l.resolved.lookup iri).map (old.next + ·) := by
  unfold above
  induction l.resolved with
  | nil => rfl
  | cons entry rest ih =>
      obtain ⟨met, id⟩ := entry
      rw [List.map_cons, List.lookup_cons, List.lookup_cons]
      cases iri == met with
      | true => rfl
      | false => exact ih

theorem Loaded.remember_above (l : Loaded) (old : Store) (classes : EntityClasses)
    (className : String) (iri : Iri) (id : EntityId) :
    ((l.above old).create classes className iri).remember iri (old.next + id) =
      ((l.create classes className iri).remember iri id).above old := by
  have hadd := l.store.add_above old (.ofClass classes className iri)
  rw [Entity.above_ofClass] at hadd
  simp [remember, create, above, hadd]

/-- Work that does on top of an older store what other work does without it. -/
def Renumbered (old : Store) {α : Type} (shift : α → α) (work moved : Loading α) : Prop :=
  ∀ l : Loaded, moved.run.run (l.above old) =
    ((work.run.run l).1.map shift, (work.run.run l).2.above old)

namespace Renumbered

variable {old : Store} {α β : Type} {shift : α → α} {next : β → β}

theorem pure (a : α) : Renumbered old shift (Pure.pure a) (Pure.pure (shift a)) := fun _ => rfl

theorem throw (failure : EntityFailure) :
    Renumbered old shift (MonadExcept.throw failure) (MonadExcept.throw failure) := fun _ => rfl

theorem settled (outcome : Except EntityFailure α) :
    Renumbered old id (settled outcome) (settled outcome) := by
  intro l
  cases outcome <;> rfl

theorem modify {change moved : Loaded → Loaded}
    (h : ∀ l, moved (l.above old) = (change l).above old) :
    Renumbered old id (modify change) (modify moved) := by
  intro l
  change (Except.ok (), moved (l.above old)) = (Except.ok (), (change l).above old)
  rw [h]

theorem bind {first first' : Loading β} {rest rest' : β → Loading α}
    (hfirst : Renumbered old next first first')
    (hrest : ∀ b, Renumbered old shift (rest b) (rest' (next b))) :
    Renumbered old shift (first >>= rest) (first' >>= rest') := by
  intro l
  rw [run_bind, run_bind, hfirst l]
  cases first.run.run l with
  | mk outcome after =>
      cases outcome with
      | error failure => rfl
      | ok b => exact hrest b after

/-- Work goes on as the state calls for. -/
theorem get {rest rest' : Loaded → Loading α}
    (h : ∀ l, Renumbered old shift (rest l) (rest' (l.above old))) :
    Renumbered old shift (get >>= rest) (get >>= rest') := by
  intro l
  rw [run_get_bind, run_get_bind]
  exact h l l

theorem forM {work work' : β → Loading Unit} (h : ∀ b, Renumbered old id (work b) (work' b))
    (l : List β) : Renumbered old id (l.forM work) (l.forM work') := by
  induction l with
  | nil => exact pure ()
  | cons b rest ih => exact (h b).bind fun _ => ih

end Renumbered

section Loading

variable {old : Store}

/-- A resolver gives the same entity on top of an older store. -/
def Resolver.Renumbered (old : Store) (resolve : Resolver) : Prop :=
  ∀ expected iri,
    OntoCode.Renumbered old (old.next + ·) (resolve expected iri) (resolve expected iri)

theorem renumbered_assignTo (x : EntityId) (name : String) (content : Content) :
    Renumbered old id (assignTo x name content)
      (assignTo (old.next + x) name (content.above old.next)) :=
  .modify fun l => by simp only [Loaded.above, Store.assign_above]

theorem renumbered_putInto (x : EntityId) (f : EntityField) (item : Item) :
    Renumbered old id (putInto x f item) (putInto (old.next + x) f (item.above old.next)) := by
  unfold putInto
  refine .get fun l => ?_
  have hput : (l.above old).store.put (old.next + x) f (item.above old.next) =
      (l.store.put x f item).above old := l.store.put_above old x item f
  simp only [hput]
  refine .bind (.modify fun m => rfl) fun _ => ?_
  have hfailure : ((l.store.put x f item).above old).failure = (l.store.put x f item).failure := rfl
  rw [hfailure]
  cases (l.store.put x f item).failure with
  | some failure => exact .throw failure
  | none => exact .pure ()

namespace EntitySource

variable {source : EntitySource} {resolve : Resolver}

theorem renumbered_loadField (hresolve : resolve.Renumbered old) (x : EntityId) (iri : Iri)
    (f : EntityField) :
    Renumbered old id (source.loadField resolve x iri f)
      (source.loadField resolve (old.next + x) iri f) := by
  have hrefer : ∀ target, Renumbered old id
      (do putInto x f (.entity (← resolve f.range target)))
      (do putInto (old.next + x) f (.entity (← resolve f.range target))) :=
    fun target => (hresolve f.range target).bind fun y => renumbered_putInto x f (.entity y)
  unfold loadField
  cases f.kind with
  | value =>
      refine .bind (.settled _) fun values => ?_
      have hitem : ((values.head?.map Item.native).getD .null).above old.next =
          (values.head?.map Item.native).getD .null := by
        cases values.head? <;> rfl
      have hassign := @renumbered_assignTo old x f.name
        (.single ((values.head?.map Item.native).getD .null))
      rwa [Content.above, hitem] at hassign
  | array =>
      refine .bind (.settled _) fun values => ?_
      have hassign := @renumbered_assignTo old x f.name (.array (values.map .native))
      rwa [Content.above, List.map_map] at hassign
  | object =>
      simp only
      cases source.graph.sortedIris iri f.predicate with
      | nil => exact renumbered_putInto x f .null
      | cons first rest => exact hrefer first
  | collection =>
      exact .bind (renumbered_assignTo x f.name (.set [])) fun _ => .forM hrefer _

theorem renumbered_loadFields (hresolve : resolve.Renumbered old) (x : EntityId) :
    Renumbered old id (source.loadFields resolve x) (source.loadFields resolve (old.next + x)) := by
  unfold loadFields
  refine .get fun l => ?_
  have hentity : (l.above old).store.entity? (old.next + x) =
      (l.store.entity? x).map (Entity.above old.next) := l.store.entity?_above old x
  rw [hentity]
  cases l.store.entity? x with
  | none => exact .pure ()
  | some e =>
      refine .forM (fun c => ?_) _
      change Renumbered old id (source.loadClass resolve x e.iri c)
        (source.loadClass resolve (old.next + x) e.iri c)
      unfold loadClass
      have hfields : Renumbered old id (c.fields.forM (source.loadField resolve x e.iri))
          (c.fields.forM (source.loadField resolve (old.next + x) e.iri)) :=
        .forM (fun f => renumbered_loadField hresolve x e.iri f) _
      have hthrow : Renumbered old id (throw .noFactory : Loading Unit) (throw .noFactory) :=
        .throw _
      split
      · exact hthrow.bind fun _ => hfields
      · exact hfields

theorem renumbered_resolveWithin (factory : EntityFactory) (depth : Nat) :
    (source.resolveWithin factory depth).Renumbered old := by
  -- References nest less deeply than the entity they are found in, so the depth carries the claim.
  induction depth with
  | zero => exact fun expected iri => .throw _
  | succ depth ih =>
      intro expected iri
      unfold resolveWithin
      refine .get fun l => ?_
      rw [Loaded.lookup_above]
      cases l.resolved.lookup iri with
      | some y => exact .pure y
      | none =>
          refine .bind (.settled _) fun className => .get fun m => ?_
          have hnext : (m.above old).store.next = old.next + m.store.next :=
            m.store.next_above old
          simp only [hnext, id_eq]
          refine .bind (.modify fun n => n.remember_above old _ _ _ _) fun _ => ?_
          exact .bind (renumbered_loadFields ih m.store.next) fun _ => .pure m.store.next

/-- **What was loaded before only shifts numbers.**  Loading an entity makes on top of the entities
there are what it makes where there are none, and it fails for the same reasons. -/
theorem load_above (expected iri : Iri) (before : Loaded) :
    (source.load expected iri).run.run before =
      (((source.load expected iri).run.run {}).1.map (before.store.next + ·),
        ((source.load expected iri).run.run {}).2.above before.store) := by
  have hforget : before.forget = ({} : Loaded).above before.store := by
    simp [Loaded.forget, Loaded.above, Store.above]
  have hresolve : Renumbered before.store (before.store.next + ·) (source.resolve expected iri)
      (source.resolve expected iri) := by
    unfold resolve
    cases source.factory with
    | none => exact .throw _
    | some factory => exact renumbered_resolveWithin factory _ expected iri
  unfold load
  rw [run_modify_bind, run_modify_bind, hforget]
  exact hresolve {}

end EntitySource

end Loading

end OntoCode
