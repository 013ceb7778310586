/-
The names that generated code gives to classes, properties and modules.
-/
import OntoCode.Naming.Identifier
import OntoCode.Naming.Plural
import OntoCode.Rdf.Iri

namespace OntoCode.Naming

open OntoCode.Rdf OntoCode.Text

/-- A function on characters as one on texts. -/
def onText (f : List Char → List Char) (s : String) : String := String.ofList (f s.toList)

/-- The class that is generated for an IRI. -/
def className (iri : Iri) : String := onText (pascalCase ∘ sanitize) iri.localName

/-- The field that is generated for a property. -/
def propertyName (iri : Iri) : String := onText (lowerFirst ∘ sanitize) iri.localName

/-- The plural of a name; a name without one stays as it is. -/
def pluralName (name : String) : String := onText (fun s => (plural? s).getD s) name

/-- The Python spelling of a field or module: small letters, words apart, no reserved word. -/
def pythonName (name : String) : String := pythonIdentifier (onText snakeCase name)

/-- The word that names a type in the name of its loading method: the last part of a qualified
name, without array brackets, capitalised. -/
def loadingWord (type : String) : String :=
  let plain := dropBrackets type.toList
  onText upperFirst (String.ofList ((splitAfterLast? '.' plain).map (·.2) |>.getD plain))
where
  /-- The text without its pairs of empty square brackets. -/
  dropBrackets : List Char → List Char
    | '[' :: ']' :: rest => dropBrackets rest
    | c :: rest => c :: dropBrackets rest
    | [] => []

end OntoCode.Naming
