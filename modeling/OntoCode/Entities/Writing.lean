/-
Writing entities to a graph.

An entity is written as statements about its IRI: its type, its label, then its
fields, class by class from the most general one down.  The entities that it refers
to or that refer to it are written along with it, each where it is met first, and no
entity is written twice.  So writing ends, also where references run in a circle.
-/
import OntoCode.Entities.Link

namespace OntoCode

open OntoCode.Rdf

/-- A graph that entities are written to. -/
structure EntityTarget where
  graph : Graph := {}
  /-- The entities written, in order. -/
  written : List EntityId := []
  deriving Repr, Inhabited

/-- What writing an entity consists of. -/
inductive WritingStep
  /-- A statement is added. -/
  | state (t : Triple)
  /-- An entity is written, unless it is already. -/
  | visit (id : EntityId)
  /-- What should be an entity is none. -/
  | refuse
  deriving DecidableEq, Repr

/-- The items that an attribute holds. -/
def Content.items : Content → List Item
  | .single item => [item]
  | .array items => items
  | .set members => members

/-- The literal that an item is written as.  A literal that was not read keeps its text, as far as
the datatype does. -/
def Store.literal? (s : Store) (datatype : Option Iri) : Item → Option Literal
  | .null => none
  | .native (.value v) => some (Literal.ofValue v datatype)
  | .native (.unread l) =>
    match datatype with
    | none => some l
    | some d =>
      let kind := valueKind? datatype
      some { l with
        text := (kind.map (·.shown l.text)).getD l.text,
        datatype := some d,
        value := kind.bind (·.read? l.text) }
  | .entity id => (s.entity? id).map fun e => Literal.ofText e.shown datatype none

/-- Writing items as values of a predicate. -/
def Store.valueSteps (s : Store) (subject predicate : Iri) (datatype : Option Iri)
    (items : List Item) : List WritingStep :=
  (items.filterMap (s.literal? datatype)).map fun l =>
    .state ⟨.iri subject, predicate, .literal l⟩

/-- Writing items as references by a predicate. -/
def Store.referenceSteps (s : Store) (subject predicate : Iri) (items : List Item) :
    List WritingStep :=
  items.flatMap fun item =>
    match item with
    | .null => []
    | .native _ => [.refuse]
    | .entity id =>
      ((s.entity? id).toList.map fun e => .state ⟨.iri subject, predicate, .iri e.iri⟩) ++
        [.visit id]

/-- Writing what an attribute holds. -/
def Store.fieldSteps (s : Store) (e : Entity) (f : EntityField) : List WritingStep :=
  let items := ((e.content? f.name).map Content.items).getD []
  if f.kind.isReference then s.referenceSteps e.iri f.predicate items
  else s.valueSteps e.iri f.predicate f.datatype items

/-- Writing the entities that refer to an entity. -/
def Entity.inverseSteps (e : Entity) (name : String) : List WritingStep :=
  (((e.content? name).map Content.items).getD []).map fun item =>
    match item with
    | .entity id => .visit id
    | _ => .refuse

/-- Writing an entity. -/
def Store.entitySteps (classes : EntityClasses) (s : Store) (id : EntityId) : List WritingStep :=
  match s.entity? id with
  | none => []
  | some e =>
    let about (predicate : Iri) (object : Term) : WritingStep :=
      .state ⟨.iri e.iri, predicate, object⟩
    ((classes.iri? e.className).toList.map fun c => about rdfType (.iri c)) ++
    ((classes.label? e.className).toList.map fun label =>
      about (rdfs "label") (.literal (Literal.ofText label none none))) ++
    (classes.lineage e.className).reverse.flatMap fun c =>
      c.fields.flatMap (s.fieldSteps e) ++ c.inverses.flatMap e.inverseSteps

namespace EntityTarget

/-- Whether an entity, or one equal to it, is written. -/
def contains (t : EntityTarget) (s : Store) (id : EntityId) : Bool := t.written.any (s.same id)

/-- The number of entities that are not written. -/
def unwritten (t : EntityTarget) (s : Store) : Nat :=
  ((List.range s.next).filter fun id => !t.contains s id).length

/-- The target with an entity noted as written. -/
def note (t : EntityTarget) (id : EntityId) : EntityTarget := { t with written := t.written ++ [id] }

/-- The target with a statement added. -/
def insert (t : EntityTarget) (triple : Triple) : EntityTarget :=
  { t with graph := t.graph.insert triple }

@[simp] theorem contains_note (t : EntityTarget) (s : Store) (id other : EntityId) :
    (t.note id).contains s other = (t.contains s other || s.same other id) := by
  simp [contains, note]

/-- Noting an entity that was not written leaves fewer of them. -/
theorem unwritten_note_lt {t : EntityTarget} {s : Store} {id : EntityId}
    (hid : id < s.next) (hnew : t.contains s id = false) :
    (t.note id).unwritten s < t.unwritten s := by
  have hsplit : (List.range s.next).filter (fun other => !(t.note id).contains s other) =
      ((List.range s.next).filter fun other => !t.contains s other).filter
        fun other => !s.same other id := by
    simp [List.filter_filter, Bool.and_comm]
  unfold unwritten
  rw [hsplit]
  refine Nat.lt_of_le_of_ne (List.length_filter_le ..) fun heq => ?_
  have hall := List.length_filter_eq_length_iff.1 heq id (by simp [hid, hnew])
  simp at hall

/-- **Runs the steps of writing.**  `script` gives the steps of an entity, which come before those
that are left. -/
def run (s : Store) (script : EntityId → List WritingStep) :
    List WritingStep → EntityTarget → EntityTarget × Option EntityFailure
  | [], t => (t, none)
  | .state triple :: rest, t => run s script rest (t.insert triple)
  | .refuse :: _, t => (t, some (.noAttribute "iri"))
  | .visit id :: rest, t =>
    if id < s.next ∧ t.contains s id = false then
      run s script (script id ++ rest) (t.note id)
    else run s script rest t
termination_by steps t => (t.unwritten s, steps.length)
decreasing_by
  · exact Prod.Lex.right _ (by simp)
  · next h => exact Prod.Lex.left _ _ (unwritten_note_lt h.1 h.2)
  · exact Prod.Lex.right _ (by simp)

/-- Writes entities, and all that is met on the way. -/
def write (t : EntityTarget) (classes : EntityClasses) (s : Store) (roots : List EntityId) :
    EntityTarget × Option EntityFailure :=
  run s (s.entitySteps classes) (roots.map .visit) t

end EntityTarget

end OntoCode
