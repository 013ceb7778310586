/-
Reading Turtle documents.

The reader takes one token after the other.  What it has begun and not finished is
kept as a stack of frames, innermost first: a subject with the verb that was read
last, a list with the members so far, a declaration.  A term that is complete is
handed to the innermost frame, and closing a bracket or list makes a term of it.
-/
import OntoCode.Rdf.Datatype
import OntoCode.Rdf.Graph
import OntoCode.Rdf.Reference
import OntoCode.Rdf.Turtle.Token

namespace OntoCode.Rdf.Turtle

/-- What may come next about a subject. -/
inductive Stage
  /-- A verb, unless the subject is done. -/
  | verb
  /-- An object. -/
  | object (verb : Iri)
  /-- Whatever separates objects or verbs, or the end. -/
  | separator (verb : Iri)
  deriving DecidableEq, Repr

/-- Something begun and not finished. -/
inductive Frame
  /-- A subject; `bracketed` tells whether a bracket ends what is said about it. -/
  | subject (node : Term) (bracketed : Bool) (stage : Stage)
  /-- A list with its members so far. -/
  | list (members : List Term)
  /-- A text that waits for its datatype. -/
  | literal (s : String)
  /-- A declaration that waits for the label. -/
  | label (closed : Bool)
  /-- A declaration that waits for the namespace of a label. -/
  | namespaceOf (label : String) (closed : Bool)
  /-- A declaration that waits for the base. -/
  | base (closed : Bool)
  /-- A declaration that waits for its dot. -/
  | closing
  deriving DecidableEq, Repr

/-- How far a document has been read. -/
structure Reader where
  /-- A number of the document, which tells its blank nodes from those of others. -/
  document : Nat
  base : String
  labels : List (String × String) := []
  graph : Graph := {}
  /-- How many blank nodes without labels were met. -/
  made : Nat := 0
  frames : List Frame := []

namespace Reader

/-- A blank node without a label. -/
def makeNode (r : Reader) : Term × Reader :=
  (.blank ⟨"n" ++ toString r.document ++ "b" ++ toString r.made, true⟩,
    { r with made := r.made + 1 })

/-- The blank node that a label stands for in the document. -/
def labelledNode (r : Reader) (label : String) : Term :=
  .blank ⟨"n" ++ toString r.document ++ "l" ++ label, true⟩

/-- Declares a label; a later declaration takes the place of an earlier one. -/
def declare (r : Reader) (label target : String) : Reader :=
  if r.labels.any (·.1 = label) then
    { r with labels := r.labels.map fun l => if l.1 = label then (label, target) else l }
  else { r with labels := r.labels ++ [(label, target)] }

/-- Adds a statement. -/
def state (r : Reader) (subject : Term) (verb : Iri) (object : Term) : Reader :=
  { r with graph := r.graph.insert ⟨subject, verb, object⟩ }

/-- The IRI that a token means. -/
def iri? (r : Reader) : Token → Option Iri
  | .reference s => (resolve? r.base.toList s.toList).map fun i => ⟨String.ofList i⟩
  | .name label rest => (r.labels.lookup label).map fun target => ⟨target ++ rest⟩
  | _ => none

/-- The term that a single token is. -/
def term? (r : Reader) : Token → Option Term
  | .node label => some (r.labelledNode label)
  | .text s => some (.literal (Literal.ofText s none none))
  | .tagged s language => some (.literal (Literal.ofText s none (some language)))
  | .plain s datatype => some (.literal (Literal.ofText s (some datatype) none))
  | token => (r.iri? token).map .iri

/-- Hands a complete term to the innermost frame. -/
def supply (r : Reader) (term : Term) : Option Reader :=
  match r.frames with
  | [] => some { r with frames := [.subject term false .verb] }
  | .subject node bracketed (.object verb) :: outer =>
    some { r.state node verb term with
      frames := .subject node bracketed (.separator verb) :: outer }
  | .list members :: outer => some { r with frames := .list (members ++ [term]) :: outer }
  | _ => none

/-- Adds the statements of a list, and gives its first node. -/
def makeList (r : Reader) : List Term → Term × Reader
  | [] => (.iri rdfNil, r)
  | member :: members =>
    let (node, r) := r.makeNode
    let (rest, r) := r.makeList members
    (node, (r.state node rdfFirst member).state node rdfRest rest)

/-- Ends a declaration, which waits for its dot if it has one. -/
def endDeclaration (r : Reader) (closed : Bool) : Reader :=
  { r with frames := if closed then [.closing] else [] }

/-- Takes an IRI or a name. -/
def takeIri (r : Reader) (token : Token) : Option Reader :=
  match r.frames, token with
  | [.label closed], .name label _ => some { r with frames := [.namespaceOf label closed] }
  | [.label _], _ => none
  | [.namespaceOf label closed], _ => do
    let target ← r.iri? token
    return (r.declare label target.text).endDeclaration closed
  | [.base closed], _ => do
    let base ← r.iri? token
    return { r with base := base.text }.endDeclaration closed
  | .literal s :: outer, _ => do
    let datatype ← r.iri? token
    { r with frames := outer }.supply (.literal (Literal.ofText s (some datatype) none))
  | .subject node bracketed .verb :: outer, _ => do
    let verb ← r.iri? token
    return { r with frames := .subject node bracketed (.object verb) :: outer }
  | _, _ => do r.supply (.iri (← r.iri? token))

/-- Takes a separator that allows another verb. -/
def takeSemicolon (r : Reader) : Option Reader :=
  match r.frames with
  | .subject node bracketed .verb :: outer | .subject node bracketed (.separator _) :: outer =>
    some { r with frames := .subject node bracketed .verb :: outer }
  | _ => none

/-- Takes the end of a statement or of a declaration. -/
def takeDot (r : Reader) : Option Reader :=
  match r.frames with
  | [.closing] | [.subject _ false .verb] | [.subject _ false (.separator _)] =>
    some { r with frames := [] }
  | _ => none

/-- Takes the end of a bracket: the node is a term for the frame around it. -/
def takeClosingBracket (r : Reader) : Option Reader :=
  match r.frames with
  | .subject node true .verb :: outer | .subject node true (.separator _) :: outer =>
    { r with frames := outer }.supply node
  | _ => none

/-- Takes the end of a list. -/
def takeListEnd (r : Reader) : Option Reader :=
  match r.frames with
  | .list members :: outer =>
    let (head, r) := { r with frames := outer }.makeList members
    r.supply head
  | _ => none

/-- Begins a declaration, which stands between statements. -/
def begin (r : Reader) (frame : Frame) : Option Reader :=
  if r.frames = [] then some { r with frames := [frame] } else none

/-- Takes one token. -/
def take (r : Reader) (token : Token) : Option Reader :=
  match token with
  | .reference _ | .name _ _ => r.takeIri token
  | .isA =>
    match r.frames with
    | .subject node bracketed .verb :: outer =>
      some { r with frames := .subject node bracketed (.object rdfType) :: outer }
    | _ => none
  | .comma =>
    match r.frames with
    | .subject node bracketed (.separator verb) :: outer =>
      some { r with frames := .subject node bracketed (.object verb) :: outer }
    | _ => none
  | .semicolon => r.takeSemicolon
  | .dot => r.takeDot
  | .openBracket =>
    let (node, r) := r.makeNode
    some { r with frames := .subject node true .verb :: r.frames }
  | .closeBracket => r.takeClosingBracket
  | .openList => some { r with frames := .list [] :: r.frames }
  | .closeList => r.takeListEnd
  | .typed s => some { r with frames := .literal s :: r.frames }
  | .declareLabel closed => r.begin (.label closed)
  | .declareBase closed => r.begin (.base closed)
  | .node _ | .text _ | .tagged _ _ | .plain _ _ => do r.supply (← r.term? token)

end Reader

/-- **What a document says,** read with a base for its references; none if it breaks the rules. -/
def read? (document : Nat) (base : String) (s : List Char) : Option Document := do
  let s := if s.head? = some '\ufeff' then s.drop 1 else s
  let read ← (← tokens? s).foldlM Reader.take { document, base }
  if read.frames = [] then return { graph := read.graph, labels := read.labels } else none

end OntoCode.Rdf.Turtle
