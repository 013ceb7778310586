/-
The names of the fields that a class inherits.

No two fields of a class share a name, but a class has the fields of the classes above
it as well, and the check looks at each class alone.  So a name that a class shares
with one above it is of two fields that neither of the two declares side by side.

The collections of a class are told apart by suffixes, again in each class alone.  Two
collections of one kind of entities, in a class and in one above it, have two names
only if exactly one of them needs a suffix, or both do for properties of different
names.
-/
import OntoCode.Proofs.Inverses

namespace OntoCode

open OntoCode.Generate OntoCode.Naming OntoCode.Ontology OntoCode.Rdf OntoCode.Text

/-! ### Fields and what they are for -/

/-- What a field of a class is for. -/
inductive FieldOwner
  /-- A property that the class declares. -/
  | property (iri : Iri)
  /-- The entities that refer to one of the class through a property. -/
  | inverse (iri : Iri)
  deriving DecidableEq, Repr

namespace ClassDescription

variable {c : ClassDescription}

/-- What the fields of a class are for, with their names. -/
def ownedNames (c : ClassDescription) : List (FieldOwner × FieldName) :=
  (c.fields.map fun f => (.property f.property.iri,
    ⟨f.property.name, f.property.pythonName, f.property.iri.text⟩)) ++
  c.inverses.map fun i => (.inverse i.property.iri,
    ⟨i.name, i.pythonName, "inverse of " ++ i.property.iri.text⟩)

theorem map_ownedNames : c.ownedNames.map (·.2) = c.fieldNames := by
  simp only [ownedNames, fieldNames, List.map_append, List.map_map, Function.comp_def]

/-- Two fields of a described class share no name. -/
theorem apart_of_ownedNames {target : Target} {o : Ontology} {class_ : Iri}
    (h : describe target o class_ = .ok c) {e f : FieldOwner × FieldName} (he : e ∈ c.ownedNames)
    (hf : f ∈ c.ownedNames) (hne : e ≠ f) : e.2.Apart f.2 := by
  have hapart : c.ownedNames.Pairwise fun e f => e.2.Apart f.2 :=
    List.pairwise_map.mp (map_ownedNames ▸ apart_of_describe h)
  have : Std.Symm fun e f : FieldOwner × FieldName => e.2.Apart f.2 :=
    ⟨fun _ _ h => ⟨h.1.symm, h.2.2.1.symm, h.2.1.symm, h.2.2.2.symm⟩⟩
  exact hapart.forall he hf hne

end ClassDescription

/-- The field for a property is the same in all classes that declare it. -/
theorem Ontology.field_congr {target : Target} {o : Ontology} {class_ other : Iri}
    {c d : ClassDescription} (hc : describe target o class_ = .ok c)
    (hd : describe target o other = .ok d) {e f : Field} (he : e ∈ c.fields) (hf : f ∈ d.fields)
    (hiri : e.property.iri = f.property.iri) : e = f := by
  obtain ⟨-, -, -, heach⟩ := fields_of_describe hc
  obtain ⟨-, -, -, hother⟩ := fields_of_describe hd
  have hfield := heach e he
  rw [hiri, hother f hf] at hfield
  exact (Except.ok.inj hfield).symm

/-- **The names of a class and of one that it inherits from.**

Take a session in which all classes are described well, whatever was done before, and two of the
classes, such as a class and one above it.

  * Fields of the two classes that are for different things share no name, in whatever spelling, if
    one of the classes has both of them.
  * A property that both classes declare has one field, so its names are apart from those of all
    others in both classes.
  * Two collections for which the entities are of classes with one name have one name themselves
    exactly if either both of them share their name with another one of their own class, for
    properties that are named alike, or neither of them does. -/
theorem names_of_inherited {g : Generator} (earlier : List Step) (files : FileTree)
    {classes : List ClassDescription}
    (hclasses : Step.describeClasses.outcome g (session g earlier files) = .ok classes) :
    ∀ c ∈ classes, ∀ above ∈ classes,
      (∀ e ∈ c.ownedNames, ∀ f ∈ above.ownedNames, e.1 ≠ f.1 →
        f ∈ c.ownedNames ∨ e ∈ above.ownedNames → e.2.Apart f.2) ∧
      (∀ e ∈ c.fields, ∀ f ∈ above.fields, e.property.iri = f.property.iri → e = f) ∧
      ∀ r ∈ c.inverses, ∀ s ∈ above.inverses, r.sourceType = s.sourceType →
        (r.name = s.name ↔ (r.SharesName c.inverses ↔ s.SharesName above.inverses) ∧
          (s.SharesName above.inverses → r.property.upperName = s.property.upperName)) := by
  have hdescribed : g.described = .ok classes :=
    Step.describeClasses.outcome_session.symm.trans hclasses
  have heach : ∀ c ∈ classes, describe g.target g.ontology c.iri = .ok c :=
    fun c hc => Generator.described_of_mem hdescribed hc
  have hkeeps : ∀ c ∈ classes, Keeps g.target g.ontology c.iri c.inverses :=
    fun c hc => keeps_of_inverseCollections (inverses_of_describe (heach c hc))
  intro c hc above habove
  refine ⟨?_, ?_, ?_⟩
  · intro e he f hf howner hboth
    have hne : e ≠ f := fun heq => howner (congrArg Prod.fst heq)
    rcases hboth with hboth | hboth
    · exact ClassDescription.apart_of_ownedNames (heach c hc) he hboth hne
    · exact ClassDescription.apart_of_ownedNames (heach above habove) hboth hf hne
  · intro e he f hf hiri
    exact field_congr (heach c hc) (heach above habove) he hf hiri
  · intro r hr s hs hsource
    refine (hkeeps above habove).name_eq_iff (hkeeps c hc) hs hr ?_
    rw [InverseCollection.plainName, InverseCollection.plainName, hsource]

/-! ### Cars and trucks

Persons own cars and drive trucks, which are cars.
-/

namespace Trucks

/-- What persons do with cars and trucks. -/
def statements : List Triple :=
  [⟨.iri ⟨"http://ex.org/a#Car"⟩, rdfType, .iri (owl "Class")⟩,
   ⟨.iri ⟨"http://ex.org/a#Person"⟩, rdfType, .iri (owl "Class")⟩,
   ⟨.iri ⟨"http://ex.org/a#Truck"⟩, rdfType, .iri (owl "Class")⟩,
   ⟨.iri ⟨"http://ex.org/a#Truck"⟩, rdfs "subClassOf", .iri ⟨"http://ex.org/a#Car"⟩⟩,
   ⟨.iri ⟨"http://ex.org/a#drives"⟩, rdfType, .iri (owl "ObjectProperty")⟩,
   ⟨.iri ⟨"http://ex.org/a#drives"⟩, rdfs "domain", .iri ⟨"http://ex.org/a#Person"⟩⟩,
   ⟨.iri ⟨"http://ex.org/a#drives"⟩, rdfs "range", .iri ⟨"http://ex.org/a#Truck"⟩⟩,
   ⟨.iri ⟨"http://ex.org/a#owns"⟩, rdfType, .iri (owl "ObjectProperty")⟩,
   ⟨.iri ⟨"http://ex.org/a#owns"⟩, rdfs "domain", .iri ⟨"http://ex.org/a#Person"⟩⟩,
   ⟨.iri ⟨"http://ex.org/a#owns"⟩, rdfs "range", .iri ⟨"http://ex.org/a#Car"⟩⟩]

/-- A generator of Python classes for trucks. -/
def generator : Generator :=
  .make .python { plainSettings with vocabularyName := some "Trucks" } (ontologyOf statements)

/-- That a person drives trucks. -/
def drives : Property :=
  { iri := ⟨"http://ex.org/a#drives"⟩, kind := .collection, fieldType := "Set[Truck]",
    elementType := "Truck", functional := false, range := some ⟨"http://ex.org/a#Truck"⟩ }

/-- That a person owns cars. -/
def owns : Property :=
  { iri := ⟨"http://ex.org/a#owns"⟩, kind := .collection, fieldType := "Set[Car]",
    elementType := "Car", functional := false, range := some ⟨"http://ex.org/a#Car"⟩ }

/-- Those who drive a truck. -/
def drivers : InverseCollection := { property := drives, source := ⟨"http://ex.org/a#Person"⟩ }

/-- Those who own a car. -/
def owners : InverseCollection := { property := owns, source := ⟨"http://ex.org/a#Person"⟩ }

/-- The class of cars. -/
def car : ClassDescription := { iri := ⟨"http://ex.org/a#Car"⟩, inverses := [owners] }

/-- The class of persons. -/
def person : ClassDescription :=
  { iri := ⟨"http://ex.org/a#Person"⟩, fields := [⟨drives, some drivers⟩, ⟨owns, some owners⟩] }

/-- The class of trucks. -/
def truck : ClassDescription :=
  { iri := ⟨"http://ex.org/a#Truck"⟩, superclass := some car.iri, inverses := [drivers] }

/-- The classes in the order they are generated in. -/
def classes : List ClassDescription := [car, person, truck]

theorem properties_eq :
    Ontology.properties generator.ontology.graph = [drives.iri, owns.iri] := by
  unfold Ontology.properties
  rw [sortByTexts_of_sorted (by decide)]
  decide

theorem classesToGenerate_eq :
    generator.classesToGenerate = [car.iri, person.iri, truck.iri] := by
  have hclasses : Ontology.classes generator.ontology.graph =
      [.iri car.iri, .iri person.iri, .iri truck.iri] := by
    show Ontology.classes (ontologyOf statements).graph = _
    unfold Ontology.classes
    rw [sortByTexts_of_sorted (by decide)]
    decide
  unfold Generator.classesToGenerate
  rw [hclasses]
  rfl

theorem car_described : describe .python generator.ontology car.iri = .ok car := by
  delta describe inverseCollections propertiesOf
  simp only [properties_eq]
  decide +kernel

theorem truck_described : describe .python generator.ontology truck.iri = .ok truck := by
  delta describe inverseCollections propertiesOf
  simp only [properties_eq]
  decide +kernel

theorem person_described : describe .python generator.ontology person.iri = .ok person := by
  have hdeclared : propertiesOf generator.ontology.graph person.iri .domain =
      .ok [drives.iri, owns.iri] := by
    delta propertiesOf
    simp only [properties_eq]
    decide +kernel
  have hfields : [drives.iri, owns.iri].mapM (fun iri =>
      fieldWith (inverseCollections .python generator.ontology)
        (propertyOf .python generator.ontology iri)) = .ok person.fields := by
    delta inverseCollections propertiesOf
    simp only [properties_eq]
    decide +kernel
  have hinverses : inverseCollections .python generator.ontology person.iri = .ok [] := by
    delta inverseCollections propertiesOf
    simp only [properties_eq]
    decide +kernel
  have hassembled : assemble generator.ontology person.iri person.fields [] = person := by
    unfold assemble
    rw [sortByTexts_of_sorted (by decide +kernel)]
    decide +kernel
  refine bind_eq_ok.mpr ⟨_, hdeclared, bind_eq_ok.mpr ⟨_, hfields, bind_eq_ok.mpr
    ⟨_, hinverses, ?_⟩⟩⟩
  rw [hassembled]
  decide +kernel

/-- The classes are described in order. -/
theorem ordered : generator.Ordered classes := by
  have hfound : generator.classesToGenerate.mapM
      (describe generator.target generator.ontology) = .ok classes := by
    rw [classesToGenerate_eq]
    change [car.iri, person.iri, truck.iri].mapM (describe .python generator.ontology) = _
    simp only [List.mapM_cons, car_described, person_described, truck_described]
    rfl
  exact Generator.ordered_of_found hfound (by decide)
    (Hierarchy.order_of_taken (sortByTexts_of_sorted (by decide)) (by decide +kernel))

theorem truck_below_car : Hierarchy.Below classes truck car :=
  ⟨by simp [classes], by simp [classes], rfl⟩

theorem classes_described (files : FileTree) :
    Step.describeClasses.outcome generator (session generator [] files) = .ok classes :=
  Step.describeClasses.outcome_session.trans ordered.described

end Trucks

/-- Neither cars nor trucks have a second collection of persons, so both collections have the plain
name. -/
theorem names_of_trucks :
    Step.describeClasses.outcome Trucks.generator
        (session Trucks.generator [] { root := "/" }) = .ok Trucks.classes ∧
      Trucks.drivers ∈ Trucks.truck.inverses ∧ Trucks.owners ∈ Trucks.car.inverses ∧
      Trucks.drivers.name = Trucks.owners.name := by
  have hdrivers : Trucks.drivers ∈ Trucks.truck.inverses := List.mem_cons_self
  have howners : Trucks.owners ∈ Trucks.car.inverses := List.mem_cons_self
  have hclasses := Trucks.classes_described { root := "/" }
  have halone : ∀ c : InverseCollection, ¬ c.SharesName [c] := by
    rintro c ⟨d, hd, hne, -⟩
    exact hne (by rw [List.mem_singleton.mp hd])
  obtain ⟨-, -, hnames⟩ := names_of_inherited [] { root := "/" } hclasses Trucks.truck
    Trucks.truck_below_car.1 Trucks.car Trucks.truck_below_car.2.1
  refine ⟨hclasses, hdrivers, howners, (hnames _ hdrivers _ howners rfl).mpr ⟨?_, ?_⟩⟩
  · exact ⟨fun h => absurd h (halone _), fun h => absurd h (halone _)⟩
  · exact fun h => absurd h (halone _)

/-- A truck keeps those who drive it under the name under which it keeps, as a car, those who own
it. -/
theorem truck_shares_name_with_car :
    Trucks.generator.Ordered Trucks.classes ∧
    Step.describeClasses.outcome Trucks.generator
        (session Trucks.generator [] { root := "/" }) = .ok Trucks.classes ∧
    ¬ Hierarchy.Cyclic Trucks.classes ∧
    Relation.TransGen (Hierarchy.Below Trucks.classes) Trucks.truck Trucks.car ∧
    (Trucks.drivers ∈ Trucks.truck.inverses ∧ Trucks.owners ∈ Trucks.car.inverses ∧
      Trucks.drivers.property.iri ≠ Trucks.owners.property.iri) ∧
    (Trucks.drivers.name = "persons" ∧ Trucks.owners.name = "persons") ∧
    "        self._persons: Set[Person] = set()" ∈ Python.initLines Trucks.truck ∧
    "        self._persons: Set[Person] = set()" ∈ Python.initLines Trucks.car :=
  ⟨Trucks.ordered, Trucks.classes_described _, Trucks.ordered.not_cyclic,
    .single Trucks.truck_below_car, ⟨List.mem_cons_self, List.mem_cons_self, by decide⟩,
    by decide +kernel, by decide +kernel, by decide +kernel⟩

end OntoCode
