/-
Generated code as lines.
-/
import OntoCode.Schema.Order
import OntoCode.Settings
import OntoCode.Text.Wrap

namespace OntoCode.Generate

open OntoCode.Text

/-- The lines of generated code. -/
abbrev Code := List String

/-- Some lines where a condition holds. -/
def given (condition : Bool) (code : Code) : Code := if condition then code else []

/-- The text of some lines, each one ended. -/
def textOf (code : Code) : String := String.join (code.map (· ++ "\n"))

/-- What a class is generated with: the options, the name of the vocabulary, the indentation. -/
structure Style where
  settings : Settings
  vocabulary : String
  indent : String

/-- Lines indented by a number of steps. -/
def Style.deep (style : Style) (level : Nat) (code : Code) : Code :=
  code.map (String.join (List.replicate level style.indent) ++ ·)

/-- What a comment says about a class, a property or a constant. -/
structure Described where
  iri : String
  title : Option String
  description : Option String
  seeAlso : List String

/-- What a comment says about a class. -/
def Described.ofClass (c : ClassDescription) : Described :=
  ⟨c.iri.text, c.title, c.description, c.seeAlso⟩

/-- What a comment says about a property. -/
def Described.ofProperty (p : Property) : Described :=
  ⟨p.iri.text, p.title, p.description, p.seeAlso⟩

/-- A text that is given and not empty, as characters. -/
def proseOf (text : Option String) : Option (List Char) := (Settings.given? text).map String.toList

end OntoCode.Generate
