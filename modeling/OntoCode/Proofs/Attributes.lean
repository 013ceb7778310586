/-
What classes declare and what their entities hold.

The rules that generated classes keep are stated here.  A class and those above it
keep their attributes and predicates apart, and the factory knows the class by the
IRI that its entities are typed with.  A store of such entities holds in each field
what the field is declared for.

A new entity then holds the initial content of each of its attributes, whatever the
order they are declared in.
-/
import Mathlib.Data.List.Nodup
import Mathlib.Data.List.Perm.Basic
import OntoCode.Entities.Loading
import OntoCode.Entities.Writing

namespace OntoCode

open OntoCode.Rdf

/-! ### Declared attributes -/

namespace EntityClasses

/-- The fields that entities of a class have, those of the most general class first. -/
def fields (classes : EntityClasses) (name : String) : List EntityField :=
  (classes.lineage name).reverse.flatMap (·.fields)

/-- The inverse collections that entities of a class have. -/
def inverses (classes : EntityClasses) (name : String) : List String :=
  (classes.lineage name).reverse.flatMap (·.inverses)

/-- The fields of a class and of those above it have different names, and none is named like an
inverse collection. -/
structure Apart (classes : EntityClasses) (name : String) : Prop where
  nodup : ((classes.fields name).map (·.name)).Nodup
  inverse : ∀ f ∈ classes.fields name, f.name ∉ classes.inverses name

/-- The rules that a class keeps together with those above it.  Texts are written with a datatype
that leaves them as they are. -/
structure Regular (classes : EntityClasses) (factory : EntityFactory) (name : String) : Prop where
  registered : ∃ iri, classes.iri? name = some iri ∧ factory.creator? iri = some name
  apart : classes.Apart name
  predicates : ((classes.fields name).map (·.predicate)).Nodup
  reserved : ∀ f ∈ classes.fields name, f.predicate ≠ rdfType ∧ f.predicate ≠ rdfs "label"
  texts : ∀ f ∈ classes.fields name, f.type = some .text →
    ∀ kind, valueKind? f.datatype = some kind → kind = .text

variable {classes : EntityClasses} {name : String}

theorem isBelow_self (classes : EntityClasses) (name : String) :
    classes.isBelow name name = true := by
  simp [isBelow]

/-- A field is found by its name. -/
theorem Apart.eq_of_name (h : classes.Apart name) {f g : EntityField}
    (hf : f ∈ classes.fields name) (hg : g ∈ classes.fields name) (heq : f.name = g.name) : f = g :=
  List.inj_on_of_nodup_map h.nodup hf hg heq

/-- A field is found by its predicate. -/
theorem Regular.eq_of_predicate {factory : EntityFactory} (h : classes.Regular factory name)
    {f g : EntityField} (hf : f ∈ classes.fields name) (hg : g ∈ classes.fields name)
    (heq : f.predicate = g.predicate) : f = g :=
  List.inj_on_of_nodup_map h.predicates hf hg heq

end EntityClasses

/-! ### New entities -/

namespace Entity

/-- The attributes that a class adds to new entities. -/
def initialOf (c : EntityClass) : List (String × Content) :=
  c.fields.map (fun f => (f.name, .initial f.kind)) ++ c.inverses.map fun name => (name, .set [])

/-- An attribute that is always assigned the same holds that, if it is assigned at all. -/
theorem content?_foldl_assign {name : String} {content : Content} :
    ∀ (attributes : List (String × Content)) (e : Entity),
      (∀ other, (name, other) ∈ attributes → other = content) →
      ((name, content) ∈ attributes ∨ e.content? name = some content) →
      (attributes.foldl (fun e a => e.assign a.1 a.2) e).content? name = some content := by
  intro attributes
  induction attributes with
  | nil =>
      intro e _ h
      exact h.resolve_left List.not_mem_nil
  | cons a rest ih =>
      intro e hsame h
      rw [List.foldl_cons]
      refine ih _ (fun other hother => hsame other (List.mem_cons_of_mem _ hother)) ?_
      rw [content?_assign]
      by_cases hname : name = a.1
      · right
        rw [if_pos hname, hsame a.2 (by rw [hname]; exact List.mem_cons_self)]
      · rw [if_neg hname]
        refine h.imp_left fun hmem => (List.mem_cons.mp hmem).resolve_left fun heq => ?_
        exact hname (congrArg Prod.fst heq)

/-- A new entity has its attributes assigned in one go. -/
theorem ofClass_eq (classes : EntityClasses) (name : String) (iri : Iri) :
    ofClass classes name iri =
      ((classes.lineage name).reverse.flatMap initialOf).foldl (fun e a => e.assign a.1 a.2)
        { className := name, iri } := by
  unfold ofClass
  rw [List.foldr_eq_foldl_reverse, List.foldl_flatMap]
  congr 1
  funext e c
  rw [initialOf, List.foldl_append, List.foldl_map, List.foldl_map]

theorem key_foldl_assign : ∀ (attributes : List (String × Content)) (e : Entity),
    (attributes.foldl (fun e a => e.assign a.1 a.2) e).key = e.key := by
  intro attributes
  induction attributes with
  | nil => intro e; rfl
  | cons a rest ih =>
      intro e
      rw [List.foldl_cons, ih, key_assign]

@[simp] theorem key_ofClass (classes : EntityClasses) (name : String) (iri : Iri) :
    (ofClass classes name iri).key = (name, iri) := by
  rw [ofClass_eq, key_foldl_assign]
  rfl

theorem no_references_foldl_assign : ∀ (attributes : List (String × Content)) (e : Entity),
    (∀ a ∈ attributes, ∀ id, .entity id ∉ a.2.items) →
      (∀ name content, e.content? name = some content → ∀ id, .entity id ∉ content.items) →
      ∀ name content,
        (attributes.foldl (fun e a => e.assign a.1 a.2) e).content? name = some content →
        ∀ id, .entity id ∉ content.items := by
  intro attributes
  induction attributes with
  | nil => exact fun e _ he => he
  | cons a rest ih =>
      intro e hattributes he
      rw [List.foldl_cons]
      refine ih _ (fun b hb => hattributes b (List.mem_cons_of_mem _ hb)) ?_
      intro name content hcontent
      rw [content?_assign] at hcontent
      split at hcontent
      · rw [← Option.some.inj hcontent]
        exact hattributes a List.mem_cons_self
      · exact he name content hcontent

/-- A new entity refers to no entity. -/
theorem no_references_ofClass {classes : EntityClasses} {name : String} {iri : Iri} {held : String}
    {content : Content} (h : (ofClass classes name iri).content? held = some content)
    (id : EntityId) : .entity id ∉ content.items := by
  rw [ofClass_eq] at h
  refine no_references_foldl_assign _ _ ?_ ?_ held content h id
  · intro a ha id hid
    obtain ⟨c, -, hc⟩ := List.mem_flatMap.mp ha
    rcases List.mem_append.mp hc with hc | hc
    · obtain ⟨f, -, rfl⟩ := List.mem_map.mp hc
      cases hkind : f.kind <;> simp [hkind, Content.initial, Content.items] at hid
    · obtain ⟨inverse, -, rfl⟩ := List.mem_map.mp hc
      simp [Content.items] at hid
  · intro name content hcontent
    simp [content?] at hcontent

theorem mem_flatMap_initialOf {classes : EntityClasses} {name held : String} {content : Content} :
    (held, content) ∈ (classes.lineage name).reverse.flatMap initialOf ↔
      (∃ f ∈ classes.fields name, f.name = held ∧ .initial f.kind = content) ∨
        held ∈ classes.inverses name ∧ content = .set [] := by
  simp only [EntityClasses.fields, EntityClasses.inverses, List.mem_flatMap, initialOf,
    List.mem_append, List.mem_map, Prod.mk.injEq]
  constructor
  · rintro ⟨c, hc, ⟨f, hf, hname, heq⟩ | ⟨inverse, hinverse, rfl, rfl⟩⟩
    · exact Or.inl ⟨f, ⟨c, hc, hf⟩, hname, heq⟩
    · exact Or.inr ⟨⟨c, hc, hinverse⟩, rfl⟩
  · rintro (⟨f, ⟨c, hc, hf⟩, hname, heq⟩ | ⟨⟨c, hc, hinverse⟩, rfl⟩)
    · exact ⟨c, hc, Or.inl ⟨f, hf, hname, heq⟩⟩
    · exact ⟨c, hc, Or.inr ⟨held, hinverse, rfl, rfl⟩⟩

variable {classes : EntityClasses} {name : String} (happart : classes.Apart name)

include happart

/-- The fields of a new entity hold nothing yet. -/
theorem content?_ofClass_field (iri : Iri) {f : EntityField} (hf : f ∈ classes.fields name) :
    (ofClass classes name iri).content? f.name = some (.initial f.kind) := by
  rw [ofClass_eq]
  refine content?_foldl_assign _ _ (fun other hother => ?_)
    (.inl (mem_flatMap_initialOf.mpr (.inl ⟨f, hf, rfl, rfl⟩)))
  rcases mem_flatMap_initialOf.mp hother with ⟨g, hg, hname, rfl⟩ | ⟨hinverse, -⟩
  · rw [happart.eq_of_name hg hf hname]
  · exact absurd hinverse (happart.inverse f hf)

/-- Nor do its inverse collections. -/
theorem content?_ofClass_inverse (iri : Iri) {inverse : String}
    (h : inverse ∈ classes.inverses name) :
    (ofClass classes name iri).content? inverse = some (.set []) := by
  rw [ofClass_eq]
  refine content?_foldl_assign _ _ (fun other hother => ?_)
    (.inl (mem_flatMap_initialOf.mpr (.inr ⟨h, rfl⟩)))
  rcases mem_flatMap_initialOf.mp hother with ⟨g, hg, rfl, -⟩ | ⟨-, heq⟩
  · exact absurd h (happart.inverse g hg)
  · exact heq

end Entity

/-! ### Stores -/

/-- What a field of values may hold: texts, integers and truth values, as its type says. -/
def EntityField.AdmitsValue (f : EntityField) (item : Item) : Prop :=
  ∃ v type, item = .native (.value v) ∧ f.type = some type ∧
    type ∈ [ValueType.text, .integer, .boolean] ∧ v.isOf type = true

/-- What a field of references may refer to: entities of the class that its range is registered for,
which have the inverse collection if the field has one. -/
def EntityField.AdmitsEntity (classes : EntityClasses) (factory : EntityFactory) (f : EntityField)
    (e : Entity) : Prop :=
  (∃ above, factory.creator? f.range = some above ∧ classes.isBelow e.className above = true) ∧
    ∀ inverse, f.inverse = some inverse → inverse ∈ classes.inverses e.className

namespace Store

/-- What an attribute of an entity holds, as a list of items. -/
def items (s : Store) (id : EntityId) (name : String) : List Item :=
  ((s.content? id name).map Content.items).getD []

/-- The class of an entity. -/
def class? (s : Store) (id : EntityId) : Option String := (s.entity? id).map (·.className)

/-- What a field may hold. -/
def Admits (classes : EntityClasses) (factory : EntityFactory) (s : Store) (f : EntityField)
    (content : Content) : Prop :=
  match f.kind with
  | .value => ∃ item, content = .single item ∧ (item = .null ∨ f.AdmitsValue item)
  | .array => ∃ items, content = .array items ∧ ∀ item ∈ items, f.AdmitsValue item
  | .object => ∃ item, content = .single item ∧
      (item = .null ∨ ∃ id e, item = .entity id ∧ s.entity? id = some e ∧
        f.AdmitsEntity classes factory e)
  | .collection => ∃ members, content = .set members ∧
      ∀ item ∈ members, ∃ id e, item = .entity id ∧ s.entity? id = some e ∧
        f.AdmitsEntity classes factory e

/-- A store of entities with different IRIs, whose classes keep the rules, and whose attributes hold
what they are declared for. -/
structure Regular (classes : EntityClasses) (factory : EntityFactory) (s : Store) : Prop where
  distinct : ∀ a b d e, s.entity? a = some d → s.entity? b = some e → d.iri = e.iri → a = b
  declared : ∀ a e, s.entity? a = some e → classes.Regular factory e.className
  fields : ∀ a e, s.entity? a = some e → ∀ f ∈ classes.fields e.className,
    ∃ content, e.content? f.name = some content ∧ s.Admits classes factory f content
  inverses : ∀ a e, s.entity? a = some e → ∀ name ∈ classes.inverses e.className,
    ∃ members, e.content? name = some (.set members) ∧
      ∀ item ∈ members, ∃ id, item = .entity id ∧ id < s.next

theorem entity?_isSome_iff {s : Store} {id : EntityId} :
    (∃ e, s.entity? id = some e) ↔ id < s.next := by
  rw [entity?, ← Option.isSome_iff_exists, isSome_getElem?, next]

theorem items_eq {s : Store} {id : EntityId} {e : Entity} (he : s.entity? id = some e)
    (name : String) : s.items id name = ((e.content? name).map Content.items).getD [] := by
  rw [items, content?, he]
  rfl

/-- Each field of an entity holds something that the field may hold. -/
theorem Regular.exists_content {classes : EntityClasses} {factory : EntityFactory} {s : Store}
    (hs : s.Regular classes factory) {a : EntityId} {e : Entity} (he : s.entity? a = some e)
    {f : EntityField} (hf : f ∈ classes.fields e.className) :
    ∃ content, s.content? a f.name = some content ∧ s.items a f.name = content.items ∧
      s.Admits classes factory f content := by
  obtain ⟨content, hcontent, hadmits⟩ := hs.fields a e he f hf
  refine ⟨content, ?_, ?_, hadmits⟩
  · rw [content?, he, Option.bind_some, hcontent]
  · rw [items_eq he, hcontent]
    rfl

end Store

end OntoCode
