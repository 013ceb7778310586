/-
IRIs and the two parts that generated names are made of.

The namespace of an IRI ends with its last number sign, or with its last slash
when there is no number sign, or with its last colon when there is neither.  What
follows is the local name.
-/
namespace OntoCode.Rdf

/-- An IRI.  Any text is accepted: the data decide what counts as one. -/
structure Iri where
  text : String
  deriving DecidableEq, Repr, Inhabited

@[simp] theorem Iri.text_inj {a b : Iri} : a.text = b.text ↔ a = b := by
  cases a
  cases b
  simp

/-- The text up to and with the last separator, and the text behind it. -/
def splitAfterLast? (separator : Char) : List Char → Option (List Char × List Char)
  | [] => none
  | c :: rest =>
    match splitAfterLast? separator rest with
    | some (before, after) => some (c :: before, after)
    | none => if c = separator then some ([c], rest) else none

/-- Namespace and local name of the text of an IRI. -/
def splitText (s : List Char) : List Char × List Char :=
  match splitAfterLast? '#' s with
  | some parts => parts
  | none =>
    match splitAfterLast? '/' s with
    | some parts => parts
    | none => (splitAfterLast? ':' s).getD ([], s)

/-- The namespace of an IRI. -/
def Iri.namespaceText (iri : Iri) : String := String.ofList (splitText iri.text.toList).1

/-- The local name of an IRI. -/
def Iri.localName (iri : Iri) : String := String.ofList (splitText iri.text.toList).2

end OntoCode.Rdf
