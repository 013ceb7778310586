/-
Links between entities, and why work on entities fails.

A property with an inverse has two sides: the source holds the target in an attribute,
alone or in a set, and the target holds the source in an inverse collection.  Linking
changes both.  Where an attribute holds something else than it should, linking fails,
and what it changed before stays changed.
-/
import OntoCode.Entities.Store

namespace OntoCode

open OntoCode.Rdf

/-- Why work on entities fails. -/
inductive EntityFailure
  /-- An attribute is missing, or what it holds is not what is asked of it. -/
  | noAttribute (name : String)
  /-- A factory makes no entities of a class. -/
  | unknownClass (iri : Iri)
  /-- Entities that refer to others are loaded without a factory. -/
  | noFactory
  /-- A number is too large for the type it is to have. -/
  | overflow
  /-- References are nested more deeply than the graph is large. -/
  | tooDeep
  deriving DecidableEq, Repr

/-- The message of a failure, for those that have one. -/
def EntityFailure.message? : EntityFailure → Option String
  | unknownClass iri => some s!"No entity constructor registered for class {iri.text}"
  | noFactory => some "Expected an EntityFactory to load referenced entities, got NoneType"
  | noAttribute _ | overflow | tooDeep => none

/-- The two sides of a property, and whether a source has only one target. -/
structure LinkSides where
  forward : String
  inverse : String
  single : Bool
  deriving DecidableEq, Repr

/-- A store, and why the work on it ended early if it did. -/
structure StoreResult where
  store : Store
  failure : Option EntityFailure := none

namespace Store

/-- The store with the source taken from the inverse collection of the target it had, unless it
keeps it. -/
def release? (s : Store) (sides : LinkSides) (source : EntityId) (target : Item) :
    Option Store :=
  match s.content? source sides.forward with
  | none | some (.single .null) => some s
  | some (.single previous) =>
    if previous = target then some s
    else
      match previous with
      | .entity p => s.eraseFrom? p sides.inverse (.entity source)
      | _ => none
  | some _ => none

/-- The store with the target in the attribute of the source. -/
def point? (s : Store) (sides : LinkSides) (source : EntityId) (target : Item) : Option Store :=
  if sides.single then
    (s.release? sides source target).map (·.assign source sides.forward (.single target))
  else if target = .null then some s
  else s.insertInto? source sides.forward target

/-- The store with the source in the inverse collection of the target. -/
def pointBack? (s : Store) (sides : LinkSides) (source : EntityId) (target : Item) :
    Option Store :=
  match target with
  | .null => some s
  | .entity t => s.insertInto? t sides.inverse (.entity source)
  | .native _ => none

/-- **Links two entities.**  Without a target the source loses the single one it had. -/
def link (s : Store) (sides : LinkSides) (source : EntityId) (target : Item) : StoreResult :=
  match s.point? sides source target with
  | none => ⟨s, some (.noAttribute (if sides.single then sides.inverse else sides.forward))⟩
  | some pointed =>
    match pointed.pointBack? sides source target with
    | none => ⟨pointed, some (.noAttribute sides.inverse)⟩
    | some linked => ⟨linked, none⟩

/-- Puts an item into a field of an entity: at once with its inverse if the field has one.  An
array or a set gains it, anything else is replaced by it. -/
def put (s : Store) (id : EntityId) (field : EntityField) (item : Item) : StoreResult :=
  match field.inverse with
  | some inverse =>
    s.link { forward := field.name, inverse, single := field.kind = .object } id item
  | none =>
    match field.kind with
    | .value | .object => ⟨s.assign id field.name (.single item), none⟩
    | .array =>
      match s.content? id field.name with
      | some (.array items) => ⟨s.assign id field.name (.array (items ++ [item])), none⟩
      | _ => ⟨s, some (.noAttribute field.name)⟩
    | .collection =>
      match s.insertInto? id field.name item with
      | some changed => ⟨changed, none⟩
      | none => ⟨s, some (.noAttribute field.name)⟩

end Store

end OntoCode
