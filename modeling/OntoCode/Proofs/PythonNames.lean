/-
The names of properties in Python.

A property has a name for its field and constant, and a spelling with underscores for the
attributes of Python.  Both start from the sanitised local name, which is an identifier whatever
the text of the IRI is, and each of the steps that follow gives an identifier again: a small
letter in front, underscores between words, small letters throughout, and an underscore behind
a reserved word.  The last step cannot end at another reserved word, since none is one of the
others with an underscore behind it.
-/
import OntoCode.Proofs.ClassNames
import OntoCode.Proofs.SnakeCase
import OntoCode.Schema.Property

namespace OntoCode

open OntoCode.Naming OntoCode.Rdf OntoCode.Text

namespace Text

/-- The text is an identifier without capitals. -/
structure IsSmallIdentifier (s : List Char) : Prop extends IsIdentifier s where
  small : ∀ c ∈ s, isAsciiUpper c = false

theorem lowerFirst_cons {c : Char} (h : isNameChar c = true) (rest : List Char) :
    lowerFirst (c :: rest) = lowerAscii c :: rest := by
  rw [lowerFirst, lowerChar, if_pos (toNat_lt_of_isNameChar h)]
  rfl

theorem isIdentifier_lowerFirst {s : List Char} (h : IsIdentifier s) :
    IsIdentifier (lowerFirst s) := by
  obtain ⟨c, rest, rfl⟩ := List.exists_cons_of_ne_nil h.nonempty
  have hc := h.chars c List.mem_cons_self
  rw [lowerFirst_cons hc, isIdentifier_cons, isAsciiDigit_lowerAscii]
  refine ⟨List.forall_mem_cons.mpr ⟨isNameChar_lowerAscii hc, fun d hd => ?_⟩, h.start c rfl⟩
  exact h.chars d (List.mem_cons_of_mem c hd)

end Text

namespace Naming

/-! ### Reserved words -/

/-- **What gets an underscore for being a reserved word is none any more.** -/
theorem pythonIdentifier_not_reserved (name : String) : pythonIdentifier name ∉ pythonKeywords := by
  have hbehind : ∀ word ∈ pythonKeywords, word ++ "_" ∉ pythonKeywords := by decide
  unfold pythonIdentifier
  split
  · rename_i hreserved
    exact hbehind name hreserved
  · rename_i hfree
    exact hfree

theorem pythonIdentifier_cases (name : String) :
    pythonIdentifier name = name ∨ pythonIdentifier name = name ++ "_" := by
  unfold pythonIdentifier
  split
  · exact .inr rfl
  · exact .inl rfl

theorem isIdentifier_pythonIdentifier {name : String} (h : IsIdentifier name.toList) :
    IsIdentifier (pythonIdentifier name).toList := by
  rcases pythonIdentifier_cases name with heq | heq
  · rwa [heq]
  · rw [heq, String.toList_append]
    exact h.append (by decide)

theorem isSmallIdentifier_pythonIdentifier {name : String} (h : IsSmallIdentifier name.toList) :
    IsSmallIdentifier (pythonIdentifier name).toList := by
  refine ⟨isIdentifier_pythonIdentifier h.toIsIdentifier, ?_⟩
  rcases pythonIdentifier_cases name with heq | heq
  · rw [heq]
    exact h.small
  · rw [heq, String.toList_append]
    exact List.forall_mem_append.mpr ⟨h.small, List.forall_mem_singleton.mpr rfl⟩

theorem isSmallIdentifier_snakeCase {s : List Char} (h : IsIdentifier s) :
    IsSmallIdentifier (snakeCase s) :=
  ⟨isIdentifier_snakeCase h, not_upper_of_mem_snakeCase h.chars⟩

/-- **The spelling of an identifier for Python is one without capitals, and no reserved word.** -/
theorem isSmallIdentifier_pythonName {name : String} (h : IsIdentifier name.toList) :
    IsSmallIdentifier (pythonName name).toList := by
  refine isSmallIdentifier_pythonIdentifier ?_
  rw [onText, String.toList_ofList]
  exact isSmallIdentifier_snakeCase h

/-- **The name of a property is an identifier.** -/
theorem isIdentifier_propertyName (iri : Iri) : IsIdentifier (propertyName iri).toList := by
  rw [propertyName, onText, String.toList_ofList]
  exact isIdentifier_lowerFirst (isIdentifier_sanitize _)

end Naming

/-- **The names of a property can be used in Python.**

Whatever the text of its IRI is, the name of a property is an identifier.  Its spelling for the
attributes of Python is an identifier of small letters, digits and underscores, and the name of its
constant is an identifier; neither is a word that Python reserves anywhere. -/
theorem property_names_usable (p : Property) :
    IsIdentifier p.name.toList ∧
    (IsSmallIdentifier p.pythonName.toList ∧ p.pythonName ∉ pythonKeywords) ∧
    IsIdentifier (pythonIdentifier p.name).toList ∧ pythonIdentifier p.name ∉ pythonKeywords := by
  have hname : IsIdentifier p.name.toList := isIdentifier_propertyName p.iri
  exact ⟨hname, ⟨isSmallIdentifier_pythonName hname, pythonIdentifier_not_reserved _⟩,
    isIdentifier_pythonIdentifier hname, pythonIdentifier_not_reserved _⟩

end OntoCode
