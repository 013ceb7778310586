/-
Short names for namespaces.

A namespace has one short name at a time.  A name that stands for another namespace
is never taken over: the next free numbered one is used instead.
-/
namespace OntoCode.Rdf

/-- Short names and the namespaces they stand for, oldest first. -/
abbrev Prefixes := List (String × String)

/-- The names that every graph starts with. -/
def Prefixes.standard : Prefixes := [
  ("brick", "https://brickschema.org/schema/Brick#"),
  ("csvw", "http://www.w3.org/ns/csvw#"),
  ("dc", "http://purl.org/dc/elements/1.1/"),
  ("dcat", "http://www.w3.org/ns/dcat#"),
  ("dcmitype", "http://purl.org/dc/dcmitype/"),
  ("dcterms", "http://purl.org/dc/terms/"),
  ("dcam", "http://purl.org/dc/dcam/"),
  ("doap", "http://usefulinc.com/ns/doap#"),
  ("foaf", "http://xmlns.com/foaf/0.1/"),
  ("geo", "http://www.opengis.net/ont/geosparql#"),
  ("odrl", "http://www.w3.org/ns/odrl/2/"),
  ("org", "http://www.w3.org/ns/org#"),
  ("prof", "http://www.w3.org/ns/dx/prof/"),
  ("prov", "http://www.w3.org/ns/prov#"),
  ("qb", "http://purl.org/linked-data/cube#"),
  ("schema", "https://schema.org/"),
  ("sh", "http://www.w3.org/ns/shacl#"),
  ("skos", "http://www.w3.org/2004/02/skos/core#"),
  ("sosa", "http://www.w3.org/ns/sosa/"),
  ("ssn", "http://www.w3.org/ns/ssn/"),
  ("time", "http://www.w3.org/2006/time#"),
  ("vann", "http://purl.org/vocab/vann/"),
  ("void", "http://rdfs.org/ns/void#"),
  ("wgs", "https://www.w3.org/2003/01/geo/wgs84_pos#"),
  ("owl", "http://www.w3.org/2002/07/owl#"),
  ("rdf", "http://www.w3.org/1999/02/22-rdf-syntax-ns#"),
  ("rdfs", "http://www.w3.org/2000/01/rdf-schema#"),
  ("xsd", "http://www.w3.org/2001/XMLSchema#"),
  ("xml", "http://www.w3.org/XML/1998/namespace")]

namespace Prefixes

/-- The namespace that a name stands for. -/
def namespace? (p : Prefixes) (name : String) : Option String :=
  (p.find? (·.1 = name)).map (·.2)

/-- The name of a namespace. -/
def name? (p : Prefixes) (target : String) : Option String :=
  (p.find? (·.2 = target)).map (·.1)

/-- The first numbered form of a name that is free, or none if one of those on the way stands for
the namespace already.  Of as many numbers as there are names and one more, one is free. -/
def freeName? (p : Prefixes) (name target : String) : Option String :=
  let base := if name = "" then "default" else name
  let numbered := (List.range (p.length + 1)).map fun n => base ++ toString (n + 1)
  match numbered.find? fun n => (p.namespace? n).all (· = target) with
  | some found => if p.namespace? found = none then some found else none
  | none => none

/-- Gives a namespace a free name.  A name that it has already stays unless it is overridden. -/
def bindFree (p : Prefixes) (name target : String) (override : Bool) : Prefixes :=
  match p.name? target with
  | none => p ++ [(name, target)]
  | some old =>
    if old = name || !override then p else p.filter (·.1 ≠ old) ++ [(name, target)]

/-- Gives a namespace a name, or a numbered form of it where the name stands for another one. -/
def bind (p : Prefixes) (name target : String) (override : Bool) : Prefixes :=
  match p.namespace? name with
  | none => p.bindFree name target override
  | some bound =>
    if bound = target then p
    else
      match p.freeName? name target with
      | some numbered => p.bindFree numbered target override
      | none => p

/-- The first name of a namespace that is not empty. -/
def label? (p : Prefixes) (target : String) : Option String :=
  (p.find? fun (name, bound) => bound = target && name ≠ "").map (·.1)

end Prefixes

end OntoCode.Rdf
