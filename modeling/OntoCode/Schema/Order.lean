/-
The order classes are generated in.

A class comes after its superclass.  Of the classes that may come next, the one least
deep in the hierarchy is taken, and of equally deep ones the first by name.  Depths
are compared by their digits, filled up to six.

A hierarchy that runs in a circle has no such order: its classes are sorted by name.
-/
import OntoCode.Schema.Class

namespace OntoCode

open OntoCode.Rdf OntoCode.Ontology OntoCode.Text

namespace Hierarchy

/-- The last class in a list that has an IRI. -/
def lastWith? (classes : List ClassDescription) (iri : Iri) : Option ClassDescription :=
  classes.reverse.find? (·.iri = iri)

theorem lastWith?_mem {classes : List ClassDescription} {iri : Iri} {c : ClassDescription}
    (h : lastWith? classes iri = some c) : c ∈ classes ∧ c.iri = iri := by
  unfold lastWith? at h
  refine ⟨?_, by simpa using List.find?_some h⟩
  simpa using List.mem_of_find?_eq_some h

/-- The classes with another IRI. -/
def without (classes : List ClassDescription) (iri : Iri) : List ClassDescription :=
  classes.filter (·.iri ≠ iri)

theorem length_without_lt {classes : List ClassDescription} {iri : Iri} {c : ClassDescription}
    (h : lastWith? classes iri = some c) : (without classes iri).length < classes.length := by
  obtain ⟨hmem, hiri⟩ := lastWith?_mem h
  refine Nat.lt_of_le_of_ne (List.length_filter_le _ classes) fun heq => ?_
  have hall := List.length_filter_eq_length_iff.1 heq c hmem
  simp [hiri] at hall

/-- The number of superclass links from a class on: the classes passed are left out, so that a
circle is followed once.  A superclass that is not among the others still counts. -/
def depthAmong (others : List ClassDescription) (c : ClassDescription) : Nat :=
  match c.superclass with
  | none => 0
  | some superclass =>
    match h : lastWith? others superclass with
    | none => 1
    | some next => depthAmong (without others superclass) next + 1
termination_by others.length
decreasing_by exact length_without_lt h

/-- **The depth of a class in a hierarchy.** -/
def depth (classes : List ClassDescription) (c : ClassDescription) : Nat :=
  depthAmong (without classes c.iri) c

/-- The digits of a depth, at least six, in front of a name. -/
def sortKey (depth : Nat) (name : String) : String :=
  let digits := toString depth
  String.ofList (List.replicate (6 - digits.length) '0') ++ digits ++ name

/-- A class at its place in the sorted list, with the key it is chosen by. -/
structure Ranked where
  place : Nat
  key : String
  description : ClassDescription

/-- The place of the last class with an IRI. -/
def placeOf? (sorted : List ClassDescription) (iri : Iri) : Option Nat :=
  (sorted.zipIdx.reverse.find? fun (c, _) => c.iri = iri).map (·.2)

/-- The links of the hierarchy, from the place of a superclass to that of the class below it. -/
def links (sorted : List ClassDescription) : List (Nat × Nat) :=
  sorted.filterMap fun c => do
    let above ← placeOf? sorted (← c.superclass)
    let below ← placeOf? sorted c.iri
    return (above, below)

/-- Whether nothing that is left links to a class. -/
def isFree (links : List (Nat × Nat)) (left : List Ranked) (r : Ranked) : Bool :=
  left.all fun other => !links.contains (other.place, r.place)

/-- The class with the least key, the first of those with one key. -/
def least? (candidates : List Ranked) : Option Ranked :=
  candidates.foldl (fun best r =>
    match best with
    | none => some r
    | some b => if r.key < b.key then some r else some b) none

/-- The class to take next. -/
def next? (links : List (Nat × Nat)) (left : List Ranked) : Option Ranked :=
  least? (left.filter (isFree links left))

/-- Takes the classes one after the other, as long as one may come next; `count` is the number of
those left. -/
def take? (links : List (Nat × Nat)) : Nat → List Ranked → Option (List ClassDescription)
  | 0, _ => some []
  | count + 1, left =>
    match next? links left with
    | none => none
    | some r => (take? links count (left.filter (·.place ≠ r.place))).map (r.description :: ·)

/-- The classes sorted by name and IRI. -/
def byName (classes : List ClassDescription) : List ClassDescription :=
  sortByTexts (fun c => [c.name, c.iri.text]) classes

/-- The classes in their places, with the keys they are chosen by. -/
def ranked (sorted : List ClassDescription) : List Ranked :=
  sorted.zipIdx.map fun (c, place) =>
    ⟨place, sortKey (depth sorted ((lastWith? sorted c.iri).getD c)) c.name, c⟩

/-- The classes with superclasses first, if the hierarchy has such an order. -/
def topological? (classes : List ClassDescription) : Option (List ClassDescription) :=
  let sorted := byName classes
  take? (links sorted) sorted.length (ranked sorted)

/-- **The order to generate classes in, with the report of a circle.** -/
def order (classes : List ClassDescription) : List ClassDescription × List Notice :=
  match topological? classes with
  | some ordered => (ordered, [])
  | none => (byName classes, [.cyclicHierarchy])

end Hierarchy

end OntoCode
