/-
How properties are kept, by rules.

Four questions are asked about a property: how it is kept, what the type of its values is, what the
type of its field is, and which class it refers to.  Each answer looks at the range and at whether
the property is functional by itself.  `Ruled` says it once: a rule for each case, that gives all
four answers.  The rules are read off the statements and off the table of datatypes of the language,
and the table has a part in which rule applies only through the datatypes that it lists.  Those are
the same for all languages.

What the generated code relies on follows from the rules alone: a property that refers to a single
entity is functional, one with several values is not, and a field has the type of its values unless
there are several.
-/
import OntoCode.Proofs.Inverses
import OntoCode.Proofs.PythonNames

namespace OntoCode

open OntoCode.Generate OntoCode.Naming OntoCode.Ontology OntoCode.Rdf OntoCode.Text

/-! ### The tables of datatypes -/

theorem Datatype.ofIri?_eq_some {iri : Iri} {d : Datatype} :
    Datatype.ofIri? iri = some d ↔ iri = xsd d.name := by
  have hlisted : ∀ d : Datatype, Datatype.ofIri? (xsd d.name) = some d := by
    intro d
    cases d <;> decide
  constructor
  · intro h
    have hname : xsd d.name = iri := by simpa using List.find?_some h
    exact hname.symm
  · rintro rfl
    exact hlisted d

namespace Target

/-- The datatypes that a language has types for, with their types. -/
def table (target : Target) : List (Iri × String) :=
  Datatype.all.map fun d => (xsd d.name, target.scalarType d)

theorem mem_table {target : Target} {iri : Iri} {type : String} :
    (iri, type) ∈ target.table ↔
      ∃ d, Datatype.ofIri? iri = some d ∧ type = target.scalarType d := by
  have hall : ∀ d : Datatype, d ∈ Datatype.all := by
    intro d
    cases d <;> decide
  rw [table, List.mem_map]
  constructor
  · rintro ⟨d, -, heq⟩
    cases heq
    exact ⟨d, Datatype.ofIri?_eq_some.mpr rfl, rfl⟩
  · rintro ⟨d, hd, rfl⟩
    rw [Datatype.ofIri?_eq_some.mp hd]
    exact ⟨d, hall d, rfl⟩

/-- All languages have types for the same datatypes. -/
theorem ofIri?_eq_none {target : Target} {iri : Iri} :
    Datatype.ofIri? iri = none ↔ ∀ type, (iri, type) ∉ target.table := by
  constructor
  · intro h type hin
    obtain ⟨d, hd, -⟩ := mem_table.mp hin
    rw [h] at hd
    cases hd
  · intro h
    rw [Option.eq_none_iff_forall_not_mem]
    exact fun d hd => h _ (mem_table.mpr ⟨d, hd, rfl⟩)

/-- The type of a field, made of the type of its values. -/
def wrapped (target : Target) (kind : PropertyKind) (type : String) : String :=
  match kind with
  | .value | .object => type
  | .array => target.arrayType type
  | .collection => target.collectionType type

end Target

/-! ### The rules -/

namespace Ontology

/-- **The rules for a property:** how it is kept, the type of its values, that of its field, and the
class it refers to. -/
inductive Ruled (target : Target) (g : Graph) (iri : Iri) :
    PropertyKind → String → String → Option Iri → Prop
  | unstated (hrange : range? g (.iri iri) = none) :
      Ruled target g iri .value target.defaultType target.defaultType none
  | literal {datatype : Iri} {type : String} (hrange : range? g (.iri iri) = some datatype)
      (hlisted : (datatype, type) ∈ target.table) (hfunctional : isFunctional g (.iri iri) = true) :
      Ruled target g iri .value type type none
  | literals {datatype : Iri} {type : String} (hrange : range? g (.iri iri) = some datatype)
      (hlisted : (datatype, type) ∈ target.table)
      (hfunctional : isFunctional g (.iri iri) = false) :
      Ruled target g iri .array type (target.arrayType type) none
  | entity {class_ : Iri} (hrange : range? g (.iri iri) = some class_)
      (hunlisted : ∀ type, (class_, type) ∉ target.table)
      (hown : iri.namespaceText = class_.namespaceText)
      (hfunctional : isFunctional g (.iri iri) = true) :
      Ruled target g iri .object (target.referenceType class_) (target.referenceType class_)
        (some class_)
  | entities {class_ : Iri} (hrange : range? g (.iri iri) = some class_)
      (hunlisted : ∀ type, (class_, type) ∉ target.table)
      (hown : iri.namespaceText = class_.namespaceText)
      (hfunctional : isFunctional g (.iri iri) = false) :
      Ruled target g iri .collection (target.referenceType class_)
        (target.collectionType (target.referenceType class_)) (some class_)
  | foreign {class_ : Iri} (hrange : range? g (.iri iri) = some class_)
      (hunlisted : ∀ type, (class_, type) ∉ target.table)
      (hforeign : iri.namespaceText ≠ class_.namespaceText) :
      Ruled target g iri .value target.defaultType target.defaultType none

section Rules

variable {target : Target} {g : Graph} {iri : Iri}

/-- **The four answers about a property are those of one rule.** -/
theorem ruled (target : Target) (g : Graph) (iri : Iri) :
    Ruled target g iri (kindOf g iri) (target.elementType g iri) (target.fieldType g iri)
      (rangeClass? g iri) := by
  unfold rangeClass? Target.fieldType Target.elementType kindOf rangeType
  cases hrange : range? g (.iri iri) with
  | none => exact .unstated hrange
  | some range =>
      cases hdatatype : Datatype.ofIri? range with
      | some d =>
          have hlisted : (range, target.scalarType d) ∈ target.table :=
            Target.mem_table.mpr ⟨d, hdatatype, rfl⟩
          cases hfunctional : isFunctional g (.iri iri) with
          | true => simpa [hdatatype, PropertyKind.isReference] using
              Ruled.literal hrange hlisted hfunctional
          | false => simpa [hdatatype, PropertyKind.isReference] using
              Ruled.literals hrange hlisted hfunctional
      | none =>
          have hunlisted := (@Target.ofIri?_eq_none target range).mp hdatatype
          by_cases hown : iri.namespaceText = range.namespaceText
          · cases hfunctional : isFunctional g (.iri iri) with
            | true => simpa [hdatatype, hown, PropertyKind.isReference] using
                Ruled.entity hrange hunlisted hown hfunctional
            | false => simpa [hdatatype, hown, PropertyKind.isReference] using
                Ruled.entities hrange hunlisted hown hfunctional
          · simpa [hdatatype, hown, PropertyKind.isReference] using
              Ruled.foreign hrange hunlisted hown

/-- The answers about a property that refers to entities are made of the class at its range. -/
theorem Ruled.reference {kind : PropertyKind} {element field : String} {class? : Option Iri}
    (h : Ruled target g iri kind element field class?) (hkind : kind.isReference = true) :
    ∃ class_, range? g (.iri iri) = some class_ ∧ class? = some class_ ∧
      element = target.referenceType class_ := by
  cases h with
  | entity hrange => exact ⟨_, hrange, rfl, rfl⟩
  | entities hrange => exact ⟨_, hrange, rfl, rfl⟩
  | unstated | literal | literals | foreign => cases hkind

/-- The values of a property that refers to no entities have the type of a datatype or the default
type, and there are several values only of a datatype. -/
theorem Ruled.plain {kind : PropertyKind} {element field : String} {class? : Option Iri}
    (h : Ruled target g iri kind element field class?) (hkind : kind.isReference = false) :
    class? = none ∧ ((∃ datatype, range? g (.iri iri) = some datatype ∧
      (datatype, element) ∈ target.table) ∨ kind = .value ∧ element = target.defaultType) := by
  cases h with
  | unstated => exact ⟨rfl, .inr ⟨rfl, rfl⟩⟩
  | literal hrange hlisted => exact ⟨rfl, .inl ⟨_, hrange, hlisted⟩⟩
  | literals hrange hlisted => exact ⟨rfl, .inl ⟨_, hrange, hlisted⟩⟩
  | foreign => exact ⟨rfl, .inr ⟨rfl, rfl⟩⟩
  | entity | entities => cases hkind

/-- The type of a field is that of its values, wrapped where there are several. -/
theorem Ruled.field {kind : PropertyKind} {element field : String} {class? : Option Iri}
    (h : Ruled target g iri kind element field class?) :
    field = target.wrapped kind element := by
  cases h <;> rfl

/-- A property refers to a class exactly if it refers to entities, and to the one at its range. -/
theorem Ruled.class? {kind : PropertyKind} {element field : String} {class? : Option Iri}
    (h : Ruled target g iri kind element field class?) :
    (class?.isSome = true ↔ kind.isReference = true) ∧
      ∀ class_, class? = some class_ → range? g (.iri iri) = some class_ := by
  cases h with
  | entity hrange | entities hrange =>
      exact ⟨iff_of_true rfl rfl, fun class_ hclass => hclass ▸ hrange⟩
  | unstated | literal | literals | foreign => exact ⟨iff_of_false nofun nofun, nofun⟩

/-- A property with a reference to a single entity is functional, one with several values is not. -/
theorem Ruled.functional {kind : PropertyKind} {element field : String} {class? : Option Iri}
    (h : Ruled target g iri kind element field class?) :
    (kind = .object → isFunctional g (.iri iri) = true) ∧
      (kind.isMultiValued = true → isFunctional g (.iri iri) = false) := by
  cases h with
  | entity _ _ _ hfunctional => exact ⟨fun _ => hfunctional, nofun⟩
  | entities _ _ _ hfunctional => exact ⟨nofun, fun _ => hfunctional⟩
  | literals _ _ hfunctional => exact ⟨nofun, fun _ => hfunctional⟩
  | unstated | literal | foreign => exact ⟨nofun, nofun⟩

end Rules

end Ontology

/-! ### Types that are told apart -/

namespace Target

/-- A field has another type than its values exactly if there are several. -/
theorem wrapped_ne_iff {target : Target} {kind : PropertyKind} {type : String} :
    target.wrapped kind type ≠ type ↔ kind.isMultiValued = true := by
  have hlonger : ∀ start rest : String, 0 < start.length + rest.length →
      start ++ type ++ rest ≠ type := by
    intro start rest hpositive heq
    have hlength := congrArg String.length heq
    rw [String.length_append, String.length_append] at hlength
    omega
  have hbracketed := hlonger "" "[]" (by decide)
  rw [String.empty_append] at hbracketed
  have hwrapped : target.arrayType type ≠ type ∧ target.collectionType type ≠ type := by
    cases target with
    | java => exact ⟨hbracketed, hlonger "Set<" ">" (by decide)⟩
    | javaScript => exact ⟨hbracketed, hbracketed⟩
    | python => exact ⟨hlonger "List[" "]" (by decide), hlonger "Set[" "]" (by decide)⟩
  cases kind with
  | value | object => exact iff_of_false (fun hne => hne rfl) nofun
  | array => exact iff_of_true hwrapped.1 rfl
  | collection => exact iff_of_true hwrapped.2 rfl

/-- The type of a datatype, or of values of an unknown kind, is the type of a class only in Java,
where one word stands for strings and for a class of that name. -/
theorem eq_string_of_referenceType {target : Target} {class_ : Iri} {type : String}
    (h : type = target.defaultType ∨ ∃ d, type = target.scalarType d)
    (htype : type = target.referenceType class_) : target = .java ∧ type = "String" := by
  have hcapital : (className class_).toList.head?.any isAsciiLower = false := by
    obtain ⟨capital, rest, heq, hcapital, -⟩ := exists_className_eq_cons class_
    rw [heq]
    exact hcapital
  cases target with
  | java =>
      refine ⟨rfl, ?_⟩
      have hsmall : type = "String" ∨ type.toList.head?.any isAsciiLower = true := by
        rcases h with rfl | ⟨d, rfl⟩
        · decide
        · cases d <;> decide
      refine hsmall.resolve_right fun hsmall => ?_
      rw [htype, referenceType, hcapital] at hsmall
      · cases hsmall
      · nofun
  | javaScript =>
      have hplain : '<' ∉ type.toList := by
        rcases h with rfl | ⟨d, rfl⟩
        · decide
        · cases d <;> decide
      refine absurd ?_ hplain
      rw [htype, referenceType, String.toList_append, String.toList_append]
      exact List.mem_append_left _ (List.mem_append_left _ (by decide))
  | python =>
      have hsmall : type.toList.head?.any isAsciiLower = true := by
        rcases h with rfl | ⟨d, rfl⟩
        · decide
        · cases d <;> decide
      rw [htype, referenceType, hcapital] at hsmall
      · cases hsmall
      · nofun

/-- Only the datatype of strings has the name of the Java type of strings. -/
theorem scalarType_of_className {d : Datatype} (h : className (xsd d.name) = "String") :
    Target.java.scalarType d = "String" := by
  cases d with
  | string => rfl
  | _ => exact absurd h (by decide +kernel)

end Target

/-- **Values have the type of the class at the range exactly if the property refers to entities,**
or if they are of the Java type of strings and the range is named like it: the datatype of strings,
or a class of another namespace. -/
theorem Ontology.Ruled.reference_iff {target : Target} {g : Graph} {iri class_ : Iri}
    {kind : PropertyKind} {element field : String} {class? : Option Iri}
    (h : Ruled target g iri kind element field class?) (hrange : range? g (.iri iri) = some class_) :
    element = target.referenceType class_ ↔
      kind.isReference = true ∨ target = .java ∧ className class_ = "String" := by
  constructor
  · intro helement
    cases hkind : kind.isReference with
    | true => exact .inl rfl
    | false =>
        obtain ⟨-, htype⟩ := h.plain hkind
        have hplain : element = target.defaultType ∨ ∃ d, element = target.scalarType d := by
          rcases htype with ⟨datatype, -, hlisted⟩ | ⟨-, hdefault⟩
          · obtain ⟨d, -, htype⟩ := Target.mem_table.mp hlisted
            exact .inr ⟨d, htype⟩
          · exact .inl hdefault
        obtain ⟨rfl, hstring⟩ := Target.eq_string_of_referenceType hplain helement
        exact .inr ⟨rfl, helement.symm.trans hstring⟩
  · rintro (hkind | ⟨rfl, hname⟩)
    · obtain ⟨other, hother, -, helement⟩ := h.reference hkind
      obtain rfl := Option.some.inj (hrange.symm.trans hother)
      exact helement
    · show element = className class_
      rw [hname]
      cases h with
      | unstated => rfl
      | literal hother hlisted | literals hother hlisted =>
          obtain rfl := Option.some.inj (hrange.symm.trans hother)
          obtain ⟨d, hd, rfl⟩ := Target.mem_table.mp hlisted
          rw [Datatype.ofIri?_eq_some.mp hd] at hname
          exact Target.scalarType_of_className hname
      | entity hother | entities hother =>
          obtain rfl := Option.some.inj (hrange.symm.trans hother)
          exact hname
      | foreign => rfl

end OntoCode
