/-
References to IRIs.

A reference with a scheme is an IRI already.  Any other is followed from a base, as a
path is followed from the directory a document is in.
-/
import OntoCode.Rdf.Iri

namespace OntoCode.Rdf

/-- Whether a reference starts with a scheme: its first colon comes before its first slash. -/
def isAbsolute (reference : List Char) : Bool :=
  ':' ∈ reference && '/' ∉ reference.takeWhile (· ≠ ':')

/-- The directory above one that ends with a slash; the topmost one is above itself. -/
def parentDirectory (directory : List Char) : List Char :=
  match splitAfterLast? '/' directory.dropLast with
  | some (above, _) => above
  | none => directory

/-- Follows a path from a directory. -/
def followPath (directory : List Char) : List Char → List Char
  | ['.'] => directory
  | ['.', '.'] => parentDirectory directory
  | '.' :: '.' :: '/' :: rest => followPath (parentDirectory directory) rest
  | '.' :: '/' :: rest => followFurther directory rest
  | path => directory ++ path
where
  /-- Follows what is left behind a step that stays in the directory. -/
  followFurther (directory : List Char) : List Char → List Char
    | ['.'] => directory
    | ['.', '.'] => parentDirectory directory
    | '.' :: '.' :: '/' :: rest => followPath (parentDirectory directory) rest
    | path => directory ++ path

/-- The base without its path, and its path from the slash on. -/
def splitPath (base : List Char) : List Char × List Char :=
  let scheme := base.takeWhile (· ≠ ':') ++ [':']
  let rest := base.drop scheme.length
  match rest with
  | '/' :: '/' :: place =>
    let authority := place.takeWhile (· ≠ '/')
    (scheme ++ '/' :: '/' :: authority,
      if authority.length = place.length then ['/'] else place.drop authority.length)
  | path => (scheme, path)

/-- The IRI that a reference means, from a base.  A base without a path cannot be followed. -/
def resolve? (base reference : List Char) : Option (List Char) :=
  if isAbsolute reference then some reference
  else if ':' ∉ base then none
  else
    let (path, fragment) :=
      match splitAfterLast? '#' reference with
      | some (before, fragment) => (before.dropLast, '#' :: fragment)
      | none => (reference, [])
    if path = [] then some (base ++ fragment)
    else
      let (root, directory) := splitPath base
      match directory with
      | '/' :: _ =>
        match path with
        | '/' :: '/' :: _ => some (base.takeWhile (· ≠ ':') ++ ':' :: reference)
        | '/' :: _ => some (root ++ reference)
        | _ =>
          let here := ((splitAfterLast? '/' directory).map (·.1)).getD ['/']
          some (root ++ followPath here path ++ fragment)
      | _ => none

end OntoCode.Rdf
