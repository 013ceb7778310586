/-
What loading has made of what was written, at each moment.

Entities are made while others are half loaded, so nothing can be said about all that
has been made.  What can be said has two parts.  `Consistent` holds at all times: each
entity made stands for one that was written, and links agree with fields, filled or
not.  `Grows` compares the start of some work with its end: what was made before keeps
its fields, except those that the work is about, and what was made in between has all
of them filled.
-/
import OntoCode.Proofs.Meeting
import OntoCode.Proofs.Written

namespace OntoCode

open OntoCode.Rdf

/-- Something that was written and is read back: the classes, the store and the graph that states
it, and the entities that loading is to meet, with their IRIs among some others. -/
structure Transcript where
  classes : EntityClasses
  factory : EntityFactory
  store : Store
  graph : Graph
  ids : List EntityId
  regular : store.Regular classes factory
  stated : StatedBy classes store ids graph
  reached : EntityId → Prop
  listed : ∀ a, reached a → a ∈ ids
  closed : ∀ a b, reached a → store.RefersTo classes a b → reached b
  targets : List Iri
  aimed : ∀ a e, reached a → store.entity? a = some e → e.iri ∈ targets

/-- What entities are loaded from. -/
def Transcript.source (t : Transcript) : EntitySource := ⟨t.classes, t.graph, some t.factory⟩

/-- A loaded field holds what was written: the same value, the values once and sorted, or the
entities that stand for those it referred to. -/
inductive Mirrors (image : EntityId → EntityId → Prop) : Content → Content → Prop
  | null : Mirrors image (.single .null) (.single .null)
  | value (v : Native) : Mirrors image (.single (.native v)) (.single (.native v))
  | array {items : List Item} {values : List Value}
      (hsorted : values.Pairwise fun v w => v.lexical < w.lexical)
      (hmem : ∀ item, item ∈ items ↔ ∃ v ∈ values, item = .native (.value v)) :
      Mirrors image (.array items) (.array (values.map fun v => .native (.value v)))
  | object {a x : EntityId} (himage : image a x) :
      Mirrors image (.single (.entity a)) (.single (.entity x))
  | collection {members loaded : List Item}
      (hall : ∀ a, .entity a ∈ members → ∃ x, image a x ∧ .entity x ∈ loaded)
      (honly : ∀ item ∈ loaded, ∃ a x, .entity a ∈ members ∧ image a x ∧ item = .entity x) :
      Mirrors image (.set members) (.set loaded)

theorem Mirrors.mono {image later : EntityId → EntityId → Prop} {written loaded : Content}
    (h : Mirrors image written loaded) (hlater : ∀ a x, image a x → later a x) :
    Mirrors later written loaded := by
  cases h with
  | null => exact .null
  | value v => exact .value v
  | array hsorted hmem => exact .array hsorted hmem
  | object himage => exact .object (hlater _ _ himage)
  | collection hall honly =>
      refine .collection (fun a ha => ?_) (fun item hitem => ?_)
      · obtain ⟨x, hx, hin⟩ := hall a ha
        exact ⟨x, hlater a x hx, hin⟩
      · obtain ⟨a, x, ha, hx, heq⟩ := honly item hitem
        exact ⟨a, x, ha, hlater a x hx, heq⟩

/-- A mirrored field refers to what stands for an entity if it referred to this entity. -/
theorem Mirrors.mem_items {image : EntityId → EntityId → Prop} {written loaded : Content}
    (h : Mirrors image written loaded) {a : EntityId} (ha : .entity a ∈ written.items) :
    ∃ x, image a x ∧ .entity x ∈ loaded.items := by
  cases h with
  | null => simp [Content.items] at ha
  | value v => simp [Content.items] at ha
  | array _ hmem =>
      obtain ⟨v, -, heq⟩ := (hmem _).mp ha
      simp at heq
  | object himage =>
      obtain rfl := Item.entity.inj (List.mem_singleton.mp ha)
      exact ⟨_, himage, List.mem_singleton.mpr rfl⟩
  | collection hall _ => exact hall a ha

/-- And only then. -/
theorem Mirrors.of_mem_items {image : EntityId → EntityId → Prop} {written loaded : Content}
    (h : Mirrors image written loaded) {x : EntityId} (hx : .entity x ∈ loaded.items) :
    ∃ a, image a x ∧ .entity a ∈ written.items := by
  cases h with
  | null => simp [Content.items] at hx
  | value v => simp [Content.items] at hx
  | array _ _ => simp [Content.items] at hx
  | object himage =>
      obtain rfl := Item.entity.inj (List.mem_singleton.mp hx)
      exact ⟨_, himage, List.mem_singleton.mpr rfl⟩
  | collection _ honly =>
      obtain ⟨a, y, ha, hy, heq⟩ := honly _ hx
      obtain rfl := Item.entity.inj heq
      exact ⟨a, hy, ha⟩

namespace Loaded

variable (t : Transcript)

/-- The entity that stands for one that was written, if it is made already. -/
def image? (l : Loaded) (a : EntityId) : Option EntityId :=
  (t.store.entity? a).bind fun e => l.resolved.lookup e.iri

/-- The number of IRIs that are still to be met. -/
def pending (l : Loaded) : Nat :=
  (t.targets.filter fun iri => (l.resolved.lookup iri).isNone).length

/-- Each entity that was made, from a number on, stands for one that was written, and the links
agree with the fields. -/
structure Consistent (base : EntityId) (l : Loaded) : Prop where
  known : ∀ iri x, l.resolved.lookup iri = some x → ∃ a e, t.reached a ∧
    t.store.entity? a = some e ∧ e.iri = iri ∧ base ≤ x ∧ l.store.key? x = some e.key
  covered : ∀ x, base ≤ x → x < l.store.next → ∃ iri, l.resolved.lookup iri = some x
  linked : l.store.LinkedFrom t.classes base
  base_le : base ≤ l.store.next

/-- The field of the entity that stands for `a` is filled. -/
def Filled (l : Loaded) (a x : EntityId) (f : EntityField) : Prop :=
  ∃ written loaded, t.store.content? a f.name = some written ∧
    l.store.content? x f.name = some loaded ∧
    Mirrors (fun b y => l.image? t b = some y) written loaded

/-- **What work has done in the end**: what was met stays so and keeps its fields, but for those
touched, and what was met meanwhile has its fields filled. -/
structure Grows (touched : EntityId → EntityField → Prop) (l m : Loaded) : Prop where
  lookup : ∀ iri x, l.resolved.lookup iri = some x → m.resolved.lookup iri = some x
  field : ∀ a x e, l.image? t a = some x → t.store.entity? a = some e →
    ∀ f ∈ t.classes.fields e.className, ¬ touched x f →
      m.store.content? x f.name = l.store.content? x f.name
  fresh : ∀ a x e, l.image? t a = none → m.image? t a = some x → t.store.entity? a = some e →
    ∀ f ∈ t.classes.fields e.className, m.Filled t a x f

variable {t} {base : EntityId} {l m n : Loaded} {a b x y : EntityId} {e : Entity}

theorem image?_eq (he : t.store.entity? a = some e) : l.image? t a = l.resolved.lookup e.iri := by
  simp [image?, he]

theorem image?_isSome (h : l.image? t a = some x) :
    ∃ e, t.store.entity? a = some e ∧ l.resolved.lookup e.iri = some x :=
  Option.bind_eq_some_iff.mp h

/-! ### Consistent states -/

namespace Consistent

/-- What stands for an entity is of its class and has its IRI. -/
theorem of_image (h : l.Consistent t base) (hx : l.image? t a = some x)
    (he : t.store.entity? a = some e) :
    t.reached a ∧ base ≤ x ∧ l.store.key? x = some e.key := by
  rw [image?_eq he] at hx
  obtain ⟨b, d, hb, hd, hiri, hbase, hkey⟩ := h.known e.iri x hx
  obtain rfl := t.regular.distinct b a d e hd he hiri
  obtain rfl := Option.some.inj (hd.symm.trans he)
  exact ⟨hb, hbase, hkey⟩

theorem class_of_image (h : l.Consistent t base) (hx : l.image? t a = some x)
    (he : t.store.entity? a = some e) : l.store.class? x = some e.className := by
  rw [Store.class?_eq, (h.of_image hx he).2.2]
  rfl

/-- No entity stands for two. -/
theorem image_inj (h : l.Consistent t base) (ha : l.image? t a = some x)
    (hb : l.image? t b = some x) : a = b := by
  obtain ⟨d, hd, -⟩ := image?_isSome ha
  obtain ⟨e, he, -⟩ := image?_isSome hb
  have hkey := (h.of_image ha hd).2.2.symm.trans (h.of_image hb he).2.2
  exact t.regular.distinct a b d e hd he (congrArg Prod.snd (Option.some.inj hkey))

/-- Each entity that was made stands for one. -/
theorem exists_image (h : l.Consistent t base) (hx : base ≤ x) (hnext : x < l.store.next) :
    ∃ a, l.image? t a = some x := by
  obtain ⟨iri, hiri⟩ := h.covered x hx hnext
  obtain ⟨a, e, -, he, rfl, -⟩ := h.known iri x hiri
  exact ⟨a, by rw [image?_eq he, hiri]⟩

/-- A change of one field that keeps the links. -/
theorem of_agrees (h : l.Consistent t base) {f : EntityField} {u : Store}
    (hlinked : u.LinkedFrom t.classes base)
    (hagrees : Store.AgreesExcept t.classes x f l.store u) :
    Consistent t base { l with store := u } := by
  refine ⟨?_, ?_, hlinked, ?_⟩
  · intro iri z hz
    obtain ⟨b, d, hb, hd, hiri, hbase, hkey⟩ := h.known iri z hz
    exact ⟨b, d, hb, hd, hiri, hbase, by rw [hagrees.key, hkey]⟩
  · intro z hz hnext
    exact h.covered z hz (by rwa [hagrees.next] at hnext)
  · rw [hagrees.next]
    exact h.base_le

end Consistent

/-! ### Growing states -/

theorem Filled.mono {f : EntityField} (h : l.Filled t a x f)
    (hlookup : ∀ iri x, l.resolved.lookup iri = some x → m.resolved.lookup iri = some x)
    (hfield : m.store.content? x f.name = l.store.content? x f.name) : m.Filled t a x f := by
  obtain ⟨written, loaded, hwritten, hloaded, hmirrors⟩ := h
  refine ⟨written, loaded, hwritten, by rw [hfield, hloaded], hmirrors.mono ?_⟩
  intro b y hb
  obtain ⟨d, hd, hlook⟩ := image?_isSome hb
  rw [image?_eq hd, hlookup d.iri y hlook]

namespace Grows

variable {touched later : EntityId → EntityField → Prop}

theorem refl (l : Loaded) : Grows t touched l l := by
  refine ⟨fun _ _ h => h, fun _ _ _ _ _ _ _ _ => rfl, ?_⟩
  intro a x e hnone hsome
  rw [hnone] at hsome
  simp at hsome

theorem image (h : Grows t touched l m) (hx : l.image? t a = some x) : m.image? t a = some x := by
  obtain ⟨e, he, hlook⟩ := image?_isSome hx
  rw [image?_eq he, h.lookup e.iri x hlook]

theorem mono (h : Grows t touched l m) (hlater : ∀ x f, touched x f → later x f) :
    Grows t later l m :=
  ⟨h.lookup, fun a x e hx he f hf hnot => h.field a x e hx he f hf fun ht => hnot (hlater x f ht),
    h.fresh⟩

/-- Work after work, where the later one touches only what was met before the earlier one. -/
theorem trans (h : Grows t touched l m) (h' : Grows t later m n) (hm : m.Consistent t base)
    (hold : ∀ x f, later x f → ∃ a, l.image? t a = some x) :
    Grows t (fun x f => touched x f ∨ later x f) l n := by
  refine ⟨fun iri x hx => h'.lookup iri x (h.lookup iri x hx), ?_, ?_⟩
  · intro a x e hx he f hf hnot
    rw [h'.field a x e (h.image hx) he f hf fun ht => hnot (.inr ht),
      h.field a x e hx he f hf fun ht => hnot (.inl ht)]
  · intro a x e hnone hx he f hf
    cases hmid : m.image? t a with
    | none => exact h'.fresh a x e hmid hx he f hf
    | some y =>
        obtain rfl : y = x := Option.some.inj ((h'.image hmid).symm.trans hx)
        refine (h.fresh a y e hnone hmid he f hf).mono h'.lookup
          (h'.field a y e hmid he f hf fun ht => ?_)
        obtain ⟨b, hb⟩ := hold y f ht
        rw [hm.image_inj hmid (h.image hb), hb] at hnone
        simp at hnone

theorem pending_le (h : Grows t touched l m) : m.pending t ≤ l.pending t := unmet_le h.lookup

/-- A change of one field. -/
theorem of_agrees (hl : l.Consistent t base) (hx : l.image? t a = some x)
    (he : t.store.entity? a = some e) {f : EntityField} (hf : f ∈ t.classes.fields e.className)
    {u : Store} (hagrees : Store.AgreesExcept t.classes x f l.store u) :
    Grows t (fun y g => y = x ∧ g = f) l { l with store := u } := by
  refine ⟨fun _ _ h => h, ?_, ?_⟩
  · intro b y d hy hd g hg hnot
    refine hagrees.field y d.className (hl.class_of_image hy hd) g hg ?_
    rintro ⟨rfl, hname⟩
    obtain rfl := hl.image_inj hy hx
    obtain rfl := Option.some.inj (hd.symm.trans he)
    exact hnot ⟨rfl, (t.regular.declared b d he).apart.eq_of_name hg hf hname⟩
  · intro b y d hnone hy
    have : l.image? t b = some y := hy
    rw [hnone] at this
    simp at this

end Grows

end Loaded

end OntoCode
