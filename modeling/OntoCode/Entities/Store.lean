/-
Entities and what their attributes hold.

Entities refer to each other, also in circles, so that they are kept in a store and
are referred to by their number in it.  Two entities with one class and one IRI are
equal, and a set of entities holds only one of them, but they remain two entities.
-/
import OntoCode.Entities.Class
import OntoCode.Text.Quoted

namespace OntoCode

open OntoCode.Rdf

/-- The number of an entity in its store. -/
abbrev EntityId := Nat

/-- What attributes hold and sets contain. -/
inductive Item
  | null
  | native (content : Native)
  | entity (id : EntityId)
  deriving DecidableEq, Repr

/-- What an attribute holds. -/
inductive Content
  | single (item : Item)
  | array (items : List Item)
  | set (members : List Item)
  deriving DecidableEq, Repr

/-- What an attribute holds before anything is put into it. -/
def Content.initial : PropertyKind → Content
  | .value | .object => .single .null
  | .array => .array []
  | .collection => .set []

/-- An entity. -/
structure Entity where
  className : String
  iri : Iri
  attributes : List (String × Content) := []
  deriving DecidableEq, Repr

namespace Entity

/-- What identifies an entity among equal ones: its class and its IRI. -/
def key (e : Entity) : String × Iri := (e.className, e.iri)

/-- What an attribute holds. -/
def content? (e : Entity) (name : String) : Option Content := e.attributes.lookup name

/-- The attributes with one of them changed; a new one comes last. -/
def assigned (name : String) (content : Content) :
    List (String × Content) → List (String × Content)
  | [] => [(name, content)]
  | (other, held) :: rest =>
    if other = name then (name, content) :: rest else (other, held) :: assigned name content rest

/-- The entity with what an attribute holds changed. -/
def assign (e : Entity) (name : String) (content : Content) : Entity :=
  { e with attributes := assigned name content e.attributes }

/-- A new entity of a class: its attributes are those of the classes above it, then its own. -/
def ofClass (classes : EntityClasses) (className : String) (iri : Iri) : Entity :=
  (classes.lineage className).foldr (fun c e =>
    let withFields := c.fields.foldl (fun e f => e.assign f.name (.initial f.kind)) e
    c.inverses.foldl (fun e name => e.assign name (.set [])) withFields) { className, iri }

/-- The written form of an entity. -/
def shown (e : Entity) : String := e.className ++ "(" ++ Text.quotedText e.iri.text ++ ")"

theorem lookup_assigned (name : String) (content : Content) (other : String)
    (attributes : List (String × Content)) :
    (assigned name content attributes).lookup other =
      if other = name then some content else attributes.lookup other := by
  have cons (first : String) (held : Content) (rest : List (String × Content)) :
      ((first, held) :: rest).lookup other =
        if other = first then some held else rest.lookup other := by
    rw [List.lookup_cons]
    by_cases h : other = first
    · simp [h]
    · rw [beq_false_of_ne h, if_neg h]
  induction attributes with
  | nil => simp [assigned, cons]
  | cons entry rest ih =>
    obtain ⟨first, held⟩ := entry
    by_cases hname : first = name
    · subst hname
      by_cases h : other = first <;> simp [assigned, cons, h]
    · by_cases h : other = first
      · subst h
        simp [assigned, cons, hname]
      · simp [assigned, cons, hname, h, ih]

/-- An attribute holds what was assigned to it last. -/
@[simp] theorem content?_assign (e : Entity) (name other : String) (content : Content) :
    (e.assign name content).content? other =
      if other = name then some content else e.content? other :=
  lookup_assigned name content other e.attributes

@[simp] theorem key_assign (e : Entity) (name : String) (content : Content) :
    (e.assign name content).key = e.key := rfl

end Entity

/-- The entities of a program, by number. -/
structure Store where
  entities : List Entity := []
  deriving Repr, Inhabited

namespace Store

/-- The entity with a number. -/
def entity? (s : Store) (id : EntityId) : Option Entity := s.entities[id]?

/-- What identifies an entity among equal ones. -/
def key? (s : Store) (id : EntityId) : Option (String × Iri) := (s.entity? id).map Entity.key

/-- Whether two entities are equal. -/
def same (s : Store) (a b : EntityId) : Bool := s.key? a = s.key? b

/-- Whether two items are equal. -/
def sameItem (s : Store) : Item → Item → Bool
  | .entity a, .entity b => s.same a b
  | a, b => a = b

/-- What an attribute of an entity holds. -/
def content? (s : Store) (id : EntityId) (name : String) : Option Content :=
  (s.entity? id).bind (·.content? name)

/-- The store with an entity added. -/
def add (s : Store) (e : Entity) : Store := ⟨s.entities ++ [e]⟩

/-- The number of the entity that is added next. -/
def next (s : Store) : EntityId := s.entities.length

/-- The store with what an attribute holds changed. -/
def assign (s : Store) (id : EntityId) (name : String) (content : Content) : Store :=
  ⟨s.entities.modify id (·.assign name content)⟩

/-- A set with an item put into it.  An equal one that is there stays. -/
def insertMember (s : Store) (item : Item) (members : List Item) : List Item :=
  if members.any (s.sameItem item) then members else members ++ [item]

/-- A set without an item. -/
def eraseMember (s : Store) (item : Item) (members : List Item) : List Item :=
  members.filter fun m => !s.sameItem item m

/-- The store with an item put into a set, if the attribute holds one. -/
def insertInto? (s : Store) (id : EntityId) (name : String) (item : Item) : Option Store :=
  match s.content? id name with
  | some (.set members) => some (s.assign id name (.set (s.insertMember item members)))
  | _ => none

/-- The store with an item taken out of a set, if the attribute holds one. -/
def eraseFrom? (s : Store) (id : EntityId) (name : String) (item : Item) : Option Store :=
  match s.content? id name with
  | some (.set members) => some (s.assign id name (.set (s.eraseMember item members)))
  | _ => none

theorem entity?_assign (s : Store) (id other : EntityId) (name : String) (content : Content) :
    (s.assign id name content).entity? other =
      if other = id then (s.entity? other).map (·.assign name content) else s.entity? other := by
  simp only [assign, entity?, List.getElem?_modify]
  by_cases h : id = other <;> simp [h, eq_comm]

/-- What an attribute holds changes where it is assigned and nowhere else. -/
theorem content?_assign (s : Store) (id other : EntityId) (name asked : String)
    (content : Content) :
    (s.assign id name content).content? other asked =
      if other = id ∧ asked = name then (s.entity? other).map fun _ => content
      else s.content? other asked := by
  simp only [content?, entity?_assign]
  by_cases h : other = id
  · subst h
    cases s.entity? other <;> by_cases hname : asked = name <;> simp [hname]
  · simp [h]

@[simp] theorem key?_assign (s : Store) (id other : EntityId) (name : String)
    (content : Content) : (s.assign id name content).key? other = s.key? other := by
  simp only [key?, entity?_assign]
  split
  · cases s.entity? other <;> simp
  · rfl

@[simp] theorem same_assign (s : Store) (id a b : EntityId) (name : String)
    (content : Content) : (s.assign id name content).same a b = s.same a b := by
  simp [same]

@[simp] theorem same_self (s : Store) (a : EntityId) : s.same a a = true := by simp [same]

@[simp] theorem next_assign (s : Store) (id : EntityId) (name : String) (content : Content) :
    (s.assign id name content).next = s.next := by
  simp [next, assign]

end Store

end OntoCode
