/-
Names that share a spelling.

The spelling of a name with underscores sets its words apart and makes its letters small.  Neither
takes a letter or a digit away or moves one, so `letters`, the letters and digits of a name in lower
case, are the same for a name and for its spelling.  An underscore behind a reserved word does not
count among them either.

So names that share a module or a field in Python have the same letters: they are equal up to case
and underscores.  A spelling has no capitals, and where there are none no words are set apart, so
that spelling it once more changes nothing.
-/
import OntoCode.Proofs.CollectionNames
import OntoCode.Proofs.InheritedNames

namespace OntoCode

open OntoCode.Generate OntoCode.Naming OntoCode.Ontology OntoCode.Rdf OntoCode.Text

namespace Naming

/-- The letters and digits of a name, in lower case. -/
def letters (name : List Char) : List Char := (lower name).filter (· ≠ '_')

/-- The names are equal up to case and underscores. -/
def SameLetters (a b : String) : Prop := letters a.toList = letters b.toList

/-! ### Names without capitals -/

section Small

variable {s : List Char} (hsmall : ∀ c ∈ s, isAsciiUpper c = false)

include hsmall

theorem splitWords_of_small : splitWords s = s := by
  fun_induction splitWords s with
  | case1 c upper small rest hword =>
      have hupper : isAsciiUpper upper = false := hsmall upper (by simp)
      simp [hupper] at hword
  | case2 c upper small rest hword ih =>
      rw [ih fun d hd => hsmall d (List.mem_cons_of_mem c hd)]
  | case3 s hshort => rfl

theorem splitHumps_of_small : splitHumps s = s := by
  fun_induction splitHumps s with
  | case1 c upper rest hhump =>
      have hupper : isAsciiUpper upper = false := hsmall upper (by simp)
      simp [hupper] at hhump
  | case2 c upper rest hhump ih => rw [ih fun d hd => hsmall d (List.mem_cons_of_mem c hd)]
  | case3 s hshort => rfl

theorem lower_of_small (h : IsNameText s) : lower s = s := by
  rw [lower_of_isNameText h, map_lowerAscii_of_not_upper hsmall]

/-- A name without capitals is its spelling. -/
theorem snakeCase_of_small (h : IsNameText s) : snakeCase s = s := by
  rw [snakeCase, splitWords_of_small hsmall, splitHumps_of_small hsmall, lower_of_small hsmall h]

end Small

/-- **Spelling a name once more changes nothing.** -/
theorem snakeCase_snakeCase {s : List Char} (h : IsNameText s) :
    snakeCase (snakeCase s) = snakeCase s :=
  snakeCase_of_small (not_upper_of_mem_snakeCase h) (isNameText_snakeCase h)

/-! ### The letters of a spelling -/

/-- Underscores can be taken out before letters are made small. -/
theorem letters_eq_map {s : List Char} (h : IsNameText s) :
    letters s = (s.filter (· ≠ '_')).map lowerAscii := by
  rw [letters, lower_of_isNameText h, List.filter_map]
  refine congrArg (List.map lowerAscii) (List.filter_congr fun c _ => ?_)
  rw [Function.comp_apply, decide_eq_decide, ne_eq, ne_eq, lowerAscii_eq_underscore]

/-- **The spelling of a name without its underscores are the letters of the name.** -/
theorem filter_snakeCase {s : List Char} (h : IsNameText s) :
    (snakeCase s).filter (· ≠ '_') = letters s := by
  have hspaced := spaced_spacedWords s
  calc (snakeCase s).filter (· ≠ '_')
      = letters (spacedWords s) := rfl
    _ = ((spacedWords s).filter (· ≠ '_')).map lowerAscii := letters_eq_map (hspaced.isNameText h)
    _ = letters s := by rw [hspaced.others, letters_eq_map h]

theorem letters_snakeCase {s : List Char} (h : IsNameText s) :
    letters (snakeCase s) = letters s := by
  rw [← filter_snakeCase h, letters,
    lower_of_small (not_upper_of_mem_snakeCase h) (isNameText_snakeCase h)]

theorem letters_append_underscore {s : List Char} (h : IsNameText s) :
    letters (s ++ ['_']) = letters s := by
  rw [letters_eq_map (h.append (by decide)), letters_eq_map h, List.filter_append]
  simp

/-- **A name and its spelling in Python have the same letters.** -/
theorem sameLetters_pythonName {name : String} (h : IsNameText name.toList) :
    SameLetters (pythonName name) name := by
  have hspelling : (onText snakeCase name).toList = snakeCase name.toList := String.toList_ofList
  unfold SameLetters pythonName
  rcases pythonIdentifier_cases (onText snakeCase name) with heq | heq
  · rw [heq, hspelling, letters_snakeCase h]
  · have hunderscore : "_".toList = ['_'] := by decide
    rw [heq, String.toList_append, hspelling, hunderscore,
      letters_append_underscore (isNameText_snakeCase h), letters_snakeCase h]

end Naming

/-! ### Modules and fields -/

/-- Names with one module have one spelling. -/
theorem Generate.Python.pythonName_eq_of_moduleOf {style : Style} {a b : String}
    (h : Python.moduleOf style a = Python.moduleOf style b) : pythonName a = pythonName b := by
  unfold Python.moduleOf Python.qualified at h
  split at h
  · exact h
  · exact String.append_right_inj _ |>.mp h

namespace ClassDescription

variable {c : ClassDescription} {f : FieldName}

/-- A field has the same letters in both of its spellings. -/
theorem sameLetters_of_mem (hf : f ∈ c.fieldNames) (hname : IsNameText f.camel.toList) :
    SameLetters f.python f.camel := by
  rcases List.mem_append.mp hf with hf | hf
  · obtain ⟨field, -, rfl⟩ := List.mem_map.mp hf
    exact sameLetters_pythonName hname
  · obtain ⟨i, -, rfl⟩ := List.mem_map.mp hf
    exact (congrArg letters String.toList_ofList).trans (letters_snakeCase hname)

/-- The fields of a class that is described have names made of letters, digits and underscores. -/
theorem isNameText_of_described {target : Target} {o : Ontology} {class_ : Iri}
    (h : describe target o class_ = .ok c) (hf : f ∈ c.fieldNames) : IsNameText f.camel.toList := by
  rcases List.mem_append.mp hf with hf | hf
  · obtain ⟨field, -, rfl⟩ := List.mem_map.mp hf
    exact (isIdentifier_propertyName field.property.iri).chars
  · obtain ⟨i, hi, rfl⟩ := List.mem_map.mp hf
    have hkeeps := keeps_of_inverseCollections (inverses_of_describe h)
    exact InverseCollection.isNameText_name (hkeeps.hasSuffix hi)

end ClassDescription

/-- **Spellings keep letters.**

The spelling of a name that is made of letters, digits and underscores is the lower case of the
name if underscores are left out on both sides.  It starts with the lower case of the first
character, and spelling it once more changes nothing.

So two names of classes share a module in Python only if they are equal up to case and underscores.
The same holds of the names of two fields that share a spelling, whether they belong to properties
or to collections: in a class that is described, all of them are made of letters, digits and
underscores. -/
theorem spellings_keep_letters :
    (∀ name : List Char, IsNameText name →
      (snakeCase name).filter (· ≠ '_') = (lower name).filter (· ≠ '_') ∧
      (snakeCase name).take 1 = lower (name.take 1) ∧
      snakeCase (snakeCase name) = snakeCase name) ∧
    (∀ a b : String, IsNameText a.toList → IsNameText b.toList →
      pythonName a = pythonName b → SameLetters a b) ∧
    (∀ (style : Style) (a b : Iri),
      Python.moduleOf style (className a) = Python.moduleOf style (className b) →
      SameLetters (className a) (className b)) ∧
    (∀ c d : ClassDescription, ∀ e ∈ c.fieldNames, ∀ f ∈ d.fieldNames,
      IsNameText e.camel.toList → IsNameText f.camel.toList →
      e.python = f.python → SameLetters e.camel f.camel) ∧
    ∀ (target : Target) (o : Ontology) (class_ : Iri) (c : ClassDescription),
      describe target o class_ = .ok c → ∀ f ∈ c.fieldNames, IsNameText f.camel.toList := by
  have hnames : ∀ a b : String, IsNameText a.toList → IsNameText b.toList →
      pythonName a = pythonName b → SameLetters a b := fun a b ha hb h =>
    (sameLetters_pythonName ha).symm.trans (h ▸ sameLetters_pythonName hb)
  refine ⟨fun name h => ⟨filter_snakeCase h, ?_, snakeCase_snakeCase h⟩, hnames, ?_, ?_,
    fun _ _ _ _ h _ => ClassDescription.isNameText_of_described h⟩
  · have hfirst : IsNameText (name.take 1) := fun c hc => h c (List.mem_of_mem_take hc)
    rw [lower_of_isNameText hfirst, List.take_one, List.take_one, head?_snakeCase h]
    cases name.head? <;> rfl
  · intro style a b hmodule
    exact hnames _ _ (isNameText_className a) (isNameText_className b)
      (Python.pythonName_eq_of_moduleOf hmodule)
  · intro c d e he f hf hcamel hother hspelling
    exact (ClassDescription.sameLetters_of_mem he hcamel).symm.trans
      (hspelling ▸ ClassDescription.sameLetters_of_mem hf hother)

/-! ### Servers in one module -/

namespace Servers

/-- A server as two ontologies spell it. -/
def server : Iri := ⟨"http://ex.org/a#HTTPServer"⟩

def other : Iri := ⟨"http://ex.org/b#Http_server"⟩

/-- The style of the classes. -/
def style : Style := ⟨plainSettings, "Servers", "    "⟩

/-- What a server runs, for a property with the given IRI. -/
def running (iri : Iri) : ClassDescription :=
  { iri := server
    fields := [{ property :=
      { iri, kind := .value, fieldType := "str", elementType := "str", functional := false } }] }

/-- How a field is spelled. -/
def field (iri : Iri) : FieldName := ⟨propertyName iri, "runs_os", iri.text⟩

end Servers

/-- The two servers share a module, and what they run is spelled in one way. -/
theorem servers_share_module :
    (IsNameText "HTTPServer".toList ∧
      Python.moduleOf Servers.style (className Servers.server) =
        Python.moduleOf Servers.style (className Servers.other) ∧
      Servers.field ⟨"a#runsOS"⟩ ∈ (Servers.running ⟨"a#runsOS"⟩).fieldNames ∧
      Servers.field ⟨"b#runs_os"⟩ ∈ (Servers.running ⟨"b#runs_os"⟩).fieldNames ∧
      describe .python Trucks.generator.ontology Trucks.car.iri = .ok Trucks.car) ∧
    (snakeCase "HTTPServer".toList).take 1 = lower ['H'] ∧
    SameLetters "HTTPServer" "Http_server" ∧
    SameLetters (className Servers.server) (className Servers.other) ∧
    className Servers.server ≠ className Servers.other ∧
    SameLetters (propertyName ⟨"a#runsOS"⟩) (propertyName ⟨"b#runs_os"⟩) ∧
    ∀ f ∈ Trucks.car.fieldNames, IsNameText f.camel.toList := by
  obtain ⟨hspelling, hnames, hmodules, hfields, hdescribed⟩ := spellings_keep_letters
  have hname : IsNameText "HTTPServer".toList := by decide
  have hmodule : Python.moduleOf Servers.style (className Servers.server) =
      Python.moduleOf Servers.style (className Servers.other) := by decide +kernel
  have hfield : Servers.field ⟨"a#runsOS"⟩ ∈ (Servers.running ⟨"a#runsOS"⟩).fieldNames := by
    decide +kernel
  have hother : Servers.field ⟨"b#runs_os"⟩ ∈ (Servers.running ⟨"b#runs_os"⟩).fieldNames := by
    decide +kernel
  exact ⟨⟨hname, hmodule, hfield, hother, Trucks.car_described⟩, (hspelling _ hname).2.1,
    hnames _ _ hname (by decide) (by decide +kernel), hmodules _ _ _ hmodule, by decide +kernel,
    hfields _ _ _ hfield _ hother (by decide +kernel) (by decide +kernel) rfl,
    hdescribed _ _ _ _ Trucks.car_described⟩

end OntoCode
