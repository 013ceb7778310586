/-
Loading entities from a graph.

A factory knows which class of entities to make for a class of the ontology.  Asked
for the entity of an IRI it makes one of the most specific fitting class, remembers
it, and reads its fields from the graph.  The entities that the fields refer to are
asked for in turn, so that every IRI is loaded once and references in a circle end.

A failure leaves what was made and remembered before.
-/
import OntoCode.Entities.Link

namespace OntoCode

open OntoCode.Rdf OntoCode.Text

/-- What a factory makes for the classes of the ontology, by their IRIs. -/
structure EntityFactory where
  creators : List (Iri × String) := []
  deriving DecidableEq, Repr, Inhabited

namespace EntityFactory

/-- The creators with one of them changed; a new one comes last. -/
def registered (iri : Iri) (className : String) : List (Iri × String) → List (Iri × String)
  | [] => [(iri, className)]
  | (other, name) :: rest =>
    if other = iri then (iri, className) :: rest
    else (other, name) :: registered iri className rest

/-- The factory that makes entities of a class for a class of the ontology. -/
def register (f : EntityFactory) (iri : Iri) (className : String) : EntityFactory :=
  ⟨registered iri className f.creators⟩

/-- What the factory makes for a class of the ontology. -/
def creator? (f : EntityFactory) (iri : Iri) : Option String := f.creators.lookup iri

/-- What the factory makes for a class of the ontology that it has to know. -/
def creator (f : EntityFactory) (iri : Iri) : Except EntityFailure String :=
  match f.creator? iri with
  | some className => .ok className
  | none => .error (.unknownClass iri)

/-- The types of a subject that the factory knows, in order. -/
def knownTypes (f : EntityFactory) (g : Graph) (iri : Iri) : List Iri :=
  (sortByTexts (fun type => [type.text]) (g.objectIris (.iri iri) rdfType)).filter
    fun type => (f.creator? type).isSome

end EntityFactory

/-- The candidate that is below all the others, among those below the expected class. -/
def mostSpecific (isBelow : String → String → Bool) (expected : String)
    (candidates : List String) : String :=
  let fitting := candidates.filter (isBelow · expected)
  (fitting.find? fun c => fitting.all fun other => isBelow c other).getD expected

/-- The class of the entity to make for an IRI, where one of a class of the ontology is expected. -/
def EntityFactory.choose (f : EntityFactory) (classes : EntityClasses) (g : Graph)
    (expected iri : Iri) : Except EntityFailure String := do
  let className ← f.creator expected
  return mostSpecific classes.isBelow className ((f.knownTypes g iri).filterMap f.creator?)

/-- What loading changes: the entities, and which of them stand for the IRIs met. -/
structure Loaded where
  store : Store := {}
  resolved : List (Iri × EntityId) := []
  deriving Repr, Inhabited

/-- Loading that may fail; what it did before stays done. -/
abbrev Loading := ExceptT EntityFailure (StateM Loaded)

namespace Loaded

/-- Adds a new entity of a class. -/
def create (classes : EntityClasses) (className : String) (iri : Iri) (l : Loaded) : Loaded :=
  { l with store := l.store.add (.ofClass classes className iri) }

/-- Remembers the entity that stands for an IRI. -/
def remember (iri : Iri) (id : EntityId) (l : Loaded) : Loaded :=
  { l with resolved := l.resolved ++ [(iri, id)] }

/-- Forgets which entities stand for the IRIs met. -/
def forget (l : Loaded) : Loaded := { l with resolved := [] }

end Loaded

/-! ### Reading statements -/

/-- The failure of a conversion. -/
def EntityFailure.ofConversion : ConversionError → EntityFailure
  | .overflow => .overflow

/-- The literals that a subject has for a predicate, sorted. -/
def Rdf.Graph.sortedLiterals (g : Graph) (subject predicate : Iri) : List Literal :=
  sortByTexts (fun l => [l.text, (l.datatype.map (·.text)).getD "", l.language.getD ""])
    (g.literals (.iri subject) predicate)

/-- The IRIs that a subject has for a predicate, sorted. -/
def Rdf.Graph.sortedIris (g : Graph) (subject predicate : Iri) : List Iri :=
  sortByTexts (fun i => [i.text]) (g.objectIris (.iri subject) predicate)

/-- What a subject's literals for a predicate are read as. -/
def Rdf.Graph.values (g : Graph) (subject predicate : Iri) (type : Option ValueType) :
    Except EntityFailure (List Native) :=
  ((g.sortedLiterals subject predicate).mapM (Literal.readAs · type)).mapError .ofConversion

/-! ### Loading -/

/-- What entities are loaded with: their classes, a graph, and a factory for those referred to. -/
structure EntitySource where
  classes : EntityClasses
  graph : Graph
  factory : Option EntityFactory

/-- Gives the entity of a class of the ontology for an IRI. -/
abbrev Resolver := Iri → Iri → Loading EntityId

/-- Takes over the outcome of something that changes nothing. -/
def settled {α : Type} (outcome : Except EntityFailure α) : Loading α := ExceptT.mk (pure outcome)

/-- Puts an item into a field of an entity. -/
def putInto (id : EntityId) (field : EntityField) (item : Item) : Loading Unit := do
  let result := (← get).store.put id field item
  modify fun l => { l with store := result.store }
  match result.failure with
  | some failure => throw failure
  | none => return ()

/-- Replaces what an attribute of an entity holds. -/
def assignTo (id : EntityId) (name : String) (content : Content) : Loading Unit :=
  modify fun l => { l with store := l.store.assign id name content }

namespace EntitySource

/-- Reads a field of an entity. -/
def loadField (source : EntitySource) (resolve : Resolver) (id : EntityId) (iri : Iri)
    (f : EntityField) : Loading Unit := do
  match f.kind with
  | .value =>
    let values ← settled (source.graph.values iri f.predicate f.type)
    assignTo id f.name (.single ((values.head?.map Item.native).getD .null))
  | .array =>
    let values ← settled (source.graph.values iri f.predicate f.type)
    assignTo id f.name (.array (values.map .native))
  | .object =>
    match source.graph.sortedIris iri f.predicate with
    | [] => putInto id f .null
    | first :: _ => putInto id f (.entity (← resolve f.range first))
  | .collection =>
    assignTo id f.name (.set [])
    (source.graph.sortedIris iri f.predicate).forM fun member => do
      putInto id f (.entity (← resolve f.range member))

/-- Reads the fields that a class gives to an entity. -/
def loadClass (source : EntitySource) (resolve : Resolver) (id : EntityId) (iri : Iri)
    (c : EntityClass) : Loading Unit := do
  if c.usesFactory && source.factory.isNone then throw .noFactory
  c.fields.forM (source.loadField resolve id iri)

/-- Reads all fields of an entity, those of the most general class first. -/
def loadFields (source : EntitySource) (resolve : Resolver) (id : EntityId) : Loading Unit := do
  match (← get).store.entity? id with
  | none => return ()
  | some e =>
    (source.classes.lineage e.className).reverse.forM (source.loadClass resolve id e.iri)

/-- Gives the entity that stands for an IRI, made and loaded when the IRI is met first; references
are followed to a given depth. -/
def resolveWithin (source : EntitySource) (factory : EntityFactory) : Nat → Resolver
  | 0, _, _ => throw .tooDeep
  | depth + 1, expected, iri => do
    match (← get).resolved.lookup iri with
    | some id => return id
    | none =>
      let className ← settled (factory.choose source.classes source.graph expected iri)
      let id := (← get).store.next
      modify fun l => (l.create source.classes className iri).remember iri id
      source.loadFields (source.resolveWithin factory depth) id
      return id

/-- A depth that references do not exceed: every one leads to an object of the graph. -/
def depth (source : EntitySource) : Nat := source.graph.size + 2

/-- **Gives the entity that stands for an IRI.** -/
def resolve (source : EntitySource) : Resolver := fun expected iri =>
  match source.factory with
  | none => throw .noFactory
  | some factory => source.resolveWithin factory source.depth expected iri

/-- **Loads the entity of an IRI afresh**: entities resolved before are forgotten. -/
def load (source : EntitySource) : Resolver := fun expected iri => do
  modify Loaded.forget
  source.resolve expected iri

/-- Reads all fields of an entity again. -/
def reload (source : EntitySource) (id : EntityId) : Loading Unit := source.loadFields source.resolve id

end EntitySource

end OntoCode
