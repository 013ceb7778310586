/-
What a run reports along the way.

A notice is kept as what happened.  Its text and its level follow from that, so a
run can be told apart from how much of it is shown.
-/
import OntoCode.Rdf.Term

namespace OntoCode

open OntoCode.Rdf

/-- How much a notice matters. -/
inductive Level
  | debug
  | info
  | warning
  deriving DecidableEq, Repr

/-- What a run reports. -/
inductive Notice
  /-- A subject has several domains or ranges. -/
  | severalTypes (subject : Term) (predicate : Iri) (count : Nat)
  /-- A class has several superclasses. -/
  | severalSuperclasses (subject : Term) (count : Nat) (used : Iri)
  /-- A document was read. -/
  | loaded (count : Nat) (path : String)
  /-- A class has no IRI. -/
  | notAnIri (resource : Term)
  /-- A class is none of those asked for. -/
  | outside (iri : Iri) (start : String)
  /-- The classes to generate. -/
  | foundClasses (names : List String)
  /-- A property has a range but no domain with an IRI. -/
  | noDomain (property : Iri)
  /-- The class hierarchy runs in a circle. -/
  | cyclicHierarchy
  /-- The superclass of a class is not generated. -/
  | superclassMissing (superclass : Iri) (name : String)
  /-- A class is being generated. -/
  | generating (name : String)
  /-- A term of the vocabulary has the name of an earlier one. -/
  | termSkipped (iri : Iri) (name : String) (kept : Iri)
  /-- The vocabulary is being generated. -/
  | generatingVocabulary (name : String)
  /-- A file is being written. -/
  | writing (path : String)
  /-- The run is done. -/
  | generated (count : Nat)
  deriving DecidableEq, Repr

/-- The local part of the text of a term. -/
def Rdf.Term.localText : Term → String
  | .iri i => i.localName
  | .blank b => if b.madeUp then "_:anon" else (Iri.mk b.label).localName
  | .literal l => (Iri.mk l.text).localName

namespace Notice

/-- The level of a notice. -/
def level : Notice → Level
  | severalTypes .. | severalSuperclasses .. | notAnIri .. | cyclicHierarchy
  | superclassMissing .. | termSkipped .. => .warning
  | foundClasses .. | generating .. | generatingVocabulary .. | generated .. => .info
  | loaded .. | outside .. | noDomain .. | writing .. => .debug

/-- The text of a notice. -/
def message : Notice → String
  | severalTypes subject predicate count =>
    s!"{subject.localText} has {count} {predicate.localName} statements, using their union"
  | severalSuperclasses subject count used =>
    s!"{subject.localText} has {count} superclasses, only {used.localName} is used"
  | loaded count path => s!"Loaded {count} statements from {path}"
  | notAnIri resource => s!"Skipping resource {resource.shown}, it is not an IRI"
  | outside iri start => s!"Skipping {iri.text}, it is outside of {start}"
  | foundClasses names => "Found classes: " ++ ", ".intercalate names
  | noDomain property =>
    s!"No domain class for {property.text}, no inverse collection generated"
  | cyclicHierarchy => "The class hierarchy contains a cycle, classes are ordered by name"
  | superclassMissing superclass name =>
    s!"Superclass {superclass.text} of {name} is not generated, {name} extends RDFEntity"
  | generating name => s!"Generating {name}"
  | termSkipped iri name kept =>
    s!"Vocabulary term {iri.text} is named {name} like {kept.text}, skipping it"
  | generatingVocabulary name => s!"Generating vocabulary {name}"
  | writing path => s!"Writing {path}"
  | generated count => s!"Generated {count} files"

end Notice

end OntoCode
