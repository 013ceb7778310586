/-
The vocabulary: a constant for each class and property of an ontology.

Terms are taken in the order of their IRIs.  A term whose name an earlier one has is
left out and reported.
-/
import OntoCode.Generate.Java
import OntoCode.Generate.Python

namespace OntoCode.Generate

open OntoCode.Naming OntoCode.Ontology OntoCode.Rdf OntoCode.Text

/-- The languages that a vocabulary is generated for. -/
inductive VocabularyLanguage
  | java
  | python
  deriving DecidableEq, Repr

/-- A constant of the vocabulary. -/
structure VocabularyTerm where
  iri : Iri
  name : String
  title : Option String
  description : Option String
  deriving DecidableEq, Repr

namespace Vocabulary

/-- The name of the constant for a class or property. -/
def termName (language : VocabularyLanguage) (g : Graph) (iri : Iri) : String :=
  let name := if (classes g).contains (.iri iri) then className iri else propertyName iri
  match language with
  | .java => name
  | .python => pythonIdentifier name

/-- Takes terms in order, leaving out and reporting each one with the name of a kept one. -/
def collect (language : VocabularyLanguage) (o : Ontology) (kept : List VocabularyTerm) :
    List Iri → List VocabularyTerm × List Notice
  | [] => (kept, [])
  | iri :: rest =>
    let name := termName language o.graph iri
    match kept.find? (·.name = name) with
    | some earlier =>
      let (terms, notices) := collect language o kept rest
      (terms, .termSkipped iri name earlier.iri :: notices)
    | none =>
      let resource := Term.iri iri
      collect language o
        (kept ++ [⟨iri, name, title? o.graph o.language resource,
          description? o.graph o.language resource⟩]) rest

/-- **The constants of the vocabulary, with a report of each term left out.** -/
def constants (language : VocabularyLanguage) (o : Ontology) :
    List VocabularyTerm × List Notice :=
  collect language o [] (terms o.graph)

/-- The file of the vocabulary. -/
def fileName (language : VocabularyLanguage) (vocabulary : String) : String :=
  match language with
  | .java => vocabulary ++ ".java"
  | .python => pythonName vocabulary ++ ".py"

/-- The Java class of the vocabulary. -/
def javaLines (style : Style) (namespaceText label : String) (constants : List VocabularyTerm) :
    Code :=
  Java.packageLines style.settings.vocabularyPackage ++
  ["import org.eclipse.rdf4j.model.IRI;",
   "import org.eclipse.rdf4j.model.ValueFactory;",
   "import org.eclipse.rdf4j.model.impl.SimpleValueFactory;",
   "",
   "/**",
   " * Vocabulary constants of \x7b@code <" ++ namespaceText ++ ">\x7d.",
   " */",
   "public class " ++ style.vocabulary,
   "\x7b"] ++
  style.deep 1
    ["/** \x7b@code <" ++ namespaceText ++ ">\x7d */",
     "public static final String NAMESPACE = \"" ++ namespaceText ++ "\";"] ++
  [""] ++
  style.deep 1
    ["/** \x7b@code " ++ label ++ "\x7d */",
     "public static final String PREFIX = \"" ++ label ++ "\";"] ++
  [""] ++
  (constants.flatMap fun t =>
    Java.comment style.indent ⟨t.iri.text, t.title, t.description, []⟩ ++
    style.deep 1 ["public static final IRI " ++ t.name ++ ";"] ++ [""]) ++
  style.deep 1 ["static \x7b"] ++
  style.deep 2 ["ValueFactory factory = SimpleValueFactory.getInstance();"] ++
  [""] ++
  style.deep 2 (constants.map fun t =>
    t.name ++ " = factory.createIRI(\"" ++ t.iri.text ++ "\");") ++
  style.deep 1 ["\x7d"] ++
  [""] ++
  style.deep 1 ["private " ++ style.vocabulary ++ "() \x7b", "\x7d"] ++
  ["\x7d"]

/-- The Python module of the vocabulary. -/
def pythonLines (style : Style) (namespaceText label : String)
    (constants : List VocabularyTerm) : Code :=
  let name := Python.vocabularyClass style
  ["\"\"\"",
   "Vocabulary constants of <" ++ namespaceText ++ ">.",
   "\"\"\"",
   "",
   "from rdflib import Namespace, URIRef",
   "",
   "",
   "class " ++ name ++ ":",
   "    \"\"\"",
   "    The classes and properties of the " ++ name ++ " vocabulary.",
   "    \"\"\"",
   "",
   "    NAMESPACE = Namespace(\"" ++ namespaceText ++ "\")",
   "    PREFIX = \"" ++ label ++ "\""] ++
  constants.flatMap fun t =>
    ["", "    " ++ t.name ++ " = URIRef(\"" ++ t.iri.text ++ "\")"] ++
    match proseOf t.title with
    | some title =>
      ["    \"\"\"" ++ String.ofList (escapeTripleQuoted (sentence (singleLine title))) ++ "\"\"\""]
    | none => []

/-- The file of the vocabulary, given the short name of its namespace if it has one. -/
def lines (language : VocabularyLanguage) (style : Style) (namespaceText : String)
    (label : Option String) (constants : List VocabularyTerm) : Code :=
  let label := label.getD (onText snakeCase style.vocabulary)
  match language with
  | .java => javaLines style namespaceText label constants
  | .python => pythonLines style namespaceText label constants

end Vocabulary

end OntoCode.Generate
