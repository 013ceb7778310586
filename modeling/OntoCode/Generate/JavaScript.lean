/-
JavaScript creators.

The module has one creator for each class, which maps the names of its properties to
their IRIs and types, and a registry of the creators by the IRIs of the classes.
-/
import OntoCode.Generate.Layout

namespace OntoCode.Generate.JavaScript

/-- The class whose creator a creator extends: the superclass if a class of its name is generated
too. -/
def extended (classes : List ClassDescription) (c : ClassDescription) : String :=
  match c.superclassName? with
  | some name => if classes.any (·.name = name) then name else "Object"
  | none => "Object"

/-- The creator of a class. -/
def creatorLines (style : Style) (classes : List ClassDescription) (c : ClassDescription) : Code :=
  ["class " ++ c.name ++ "Creator extends " ++ extended classes c ++ "Creator \x7b"] ++
  style.deep 1 ["constructor() \x7b"] ++
  style.deep 2 ["super();", "this.addMapping(\x7b"] ++
  style.deep 3 (c.fields.map fun f =>
    f.property.name ++ ": \x7b name: '" ++ f.property.iri.text ++ "', type: '" ++
      f.property.fieldType ++ "' \x7d,") ++
  style.deep 2 ["\x7d);"] ++
  style.deep 1 ["\x7d"] ++
  ["\x7d", ""]

/-- The entries of the registry, with commas between them. -/
def registryLines : List ClassDescription → Code
  | [] => []
  | [c] => ["'" ++ c.iri.text ++ "': new " ++ c.name ++ "Creator()"]
  | c :: rest => ("'" ++ c.iri.text ++ "': new " ++ c.name ++ "Creator(),") :: registryLines rest

/-- The module of the creators. -/
def moduleLines (style : Style) (classes : List ClassDescription) : Code :=
  ["import ObjectCreator from './objectcreator.js';", ""] ++
  classes.flatMap (creatorLines style classes) ++
  ["export const registry = \x7b"] ++
  style.deep 1 (registryLines classes) ++
  ["\x7d;"]

end OntoCode.Generate.JavaScript
