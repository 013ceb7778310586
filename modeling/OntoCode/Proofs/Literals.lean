/-
Values survive being written and read.

A value is written as a literal whose text is its own: the text as it is, the digits of
an integer, or a truth value as a word.  Values of one type have different texts, so
reading the literal as this type gives the value again.  A datatype that is kept for
other values would change a text, so texts are asked to have none of these.

The notations for bytes are read back too: every list of bytes is what its text in
hexadecimal digits or in base 64 is read as.
-/
import Mathlib.Data.List.GetD
import Mathlib.Data.String.Basic
import OntoCode.Rdf.Conversion

namespace OntoCode.Rdf

open OntoCode.Number OntoCode.Text

/-! ### Texts -/

theorem isDigit_of_mem_digitsOf {n : Nat} {c : Char} (h : c ∈ digitsOf n) : c.isDigit = true :=
  Nat.isDigit_of_mem_toDigits (by decide) (by decide) h

/-- The digits of a number start with a digit, and with no other character. -/
theorem digitsOf_ne_cons {n : Nat} {c : Char} {rest : List Char} (hc : c.isDigit = false) :
    digitsOf n ≠ c :: rest := by
  intro h
  have hdigit := isDigit_of_mem_digitsOf (h ▸ List.mem_cons_self : c ∈ digitsOf n)
  rw [hc] at hdigit
  exact Bool.false_ne_true hdigit

theorem digitsOf_inj {n m : Nat} (h : digitsOf n = digitsOf m) : n = m := by
  rw [← @Nat.ofDigitChars_ten_toDigits n, ← @Nat.ofDigitChars_ten_toDigits m]
  exact congrArg _ h

theorem integerText_inj {n m : Int} (h : integerText n = integerText m) : n = m := by
  unfold integerText at h
  split at h
  · split at h
    · have := digitsOf_inj (List.cons.inj h).2
      omega
    · exact absurd h.symm (digitsOf_ne_cons (by decide))
  · split at h
    · exact absurd h (digitsOf_ne_cons (by decide))
    · have := digitsOf_inj h
      omega

/-- No integer is written as a truth value is. -/
theorem integerText_ne_word {n : Int} {b : Bool} :
    integerText n ≠ (if b then "true" else "false" : String).toList := by
  intro h
  unfold integerText at h
  split at h
  · cases b <;> simp at h
  · cases b
    · exact digitsOf_ne_cons (by decide) h
    · exact digitsOf_ne_cons (by decide) h

/-- The values of one of the types of fields are told apart by their texts. -/
theorem Value.lexical_inj {v w : Value} {type : ValueType}
    (htype : type ∈ [ValueType.text, .integer, .boolean]) (hv : v.isOf type = true)
    (hw : w.isOf type = true) (h : v.lexical = w.lexical) : v = w := by
  have hword : ∀ (n : Int) (b : Bool), (Value.integer n).lexical ≠ (Value.boolean b).lexical := by
    intro n b heq
    exact integerText_ne_word (b := b) (String.ofList_eq.mp heq)
  have hinteger : ∀ n m : Int, (Value.integer n).lexical = (Value.integer m).lexical → n = m :=
    fun n m heq => integerText_inj (String.ofList_injective heq)
  have hboolean : ∀ b c : Bool, (Value.boolean b).lexical = (Value.boolean c).lexical → b = c := by
    decide
  simp only [List.mem_cons, List.not_mem_nil, or_false] at htype
  rcases htype with rfl | rfl | rfl <;> cases v <;> simp [Value.isOf] at hv <;>
    cases w <;> simp [Value.isOf] at hw
  · exact congrArg _ h
  · exact congrArg _ (hinteger _ _ h)
  · exact absurd h (hword _ _)
  · exact absurd h.symm (hword _ _)
  · exact congrArg _ (hboolean _ _ h)
  · exact congrArg _ (hboolean _ _ h)

/-! ### Literals -/

section OfValue

variable {v : Value} {type : ValueType} {datatype : Option Iri}
  (htype : type ∈ [ValueType.text, .integer, .boolean]) (hv : v.isOf type = true)
  (htext : type = .text → ∀ kind, valueKind? datatype = some kind → kind = .text)

include htype hv htext

/-- A value of one of the types of fields is written as its own text, without a language. -/
theorem Literal.ofValue_text : (Literal.ofValue v datatype).text = v.lexical := by
  simp only [List.mem_cons, List.not_mem_nil, or_false] at htype
  rcases htype with rfl | rfl | rfl
  · cases v <;> simp [Value.isOf] at hv
    unfold Literal.ofValue Literal.ofText
    cases hread : valueKind? datatype with
    | none => rfl
    | some kind =>
        rw [htext rfl kind hread]
        rfl
  · cases v <;> simp [Value.isOf] at hv
    · cases hread : valueKind? datatype <;> simp [ofValue, hread]
    · cases hread : valueKind? datatype <;> simp [ofValue, hread]
  · cases v <;> simp [Value.isOf] at hv
    cases hread : valueKind? datatype <;> simp [ofValue, hread]

/-- **Reading a value that was written gives this value.** -/
theorem Literal.readAs_ofValue :
    (Literal.ofValue v datatype).readAs (some type) = .ok (.value v) := by
  simp only [List.mem_cons, List.not_mem_nil, or_false] at htype
  rcases htype with rfl | rfl | rfl
  · cases v <;> simp [Value.isOf] at hv
    rename_i s
    unfold Literal.ofValue Literal.ofText
    cases hread : valueKind? datatype with
    | none => rfl
    | some kind =>
        rw [htext rfl kind hread]
        rfl
  · cases v <;> simp [Value.isOf] at hv <;> rfl
  · cases v <;> simp [Value.isOf] at hv
    rfl

end OfValue

/-! ### Bytes -/

theorem toUInt8_eq_of_toNat {n : Nat} {b : UInt8} (h : n = b.toNat) : n.toUInt8 = b := by
  rw [h, Nat.toUInt8_eq, UInt8.ofNat_toNat]

/-- A byte is written with two digits, and they read back as it. -/
theorem exists_hexDigits (b : UInt8) :
    ∃ high low, hexDigits 2 b.toNat = [high, low] ∧ hexByte? high low = some b := by
  have hread : ∀ n < 256, (hexDigits 2 n).length = 2 ∧
      readHex? (hexDigits 2 n) = some [n.toUInt8] := by decide +kernel
  obtain ⟨hlength, hbyte⟩ := hread b.toNat b.toNat_lt
  obtain ⟨high, low, hdigits⟩ := List.length_eq_two.mp hlength
  refine ⟨high, low, hdigits, ?_⟩
  rw [hdigits, toUInt8_eq_of_toNat rfl] at hbyte
  simpa [readHex?, Option.bind_eq_some_iff] using hbyte

/-- **What is written in hexadecimal notation reads back.** -/
theorem readHex?_hexText (bytes : List UInt8) : readHex? (hexText bytes) = some bytes := by
  induction bytes with
  | nil => rfl
  | cons b rest ih =>
      obtain ⟨high, low, hdigits, hread⟩ := exists_hexDigits b
      have htext : hexText (b :: rest) = high :: low :: hexText rest := by
        simp [hexText, hdigits]
      rw [htext]
      simp [readHex?, hread, ih]

theorem sextet?_letter : ∀ n < 64,
    sextet? (base64Letter n) = some n ∧ base64Letter n ≠ '=' := by
  decide +kernel

theorem base64Letter_ascii (n : Nat) : (base64Letter n).toNat < 128 := by
  by_cases h : n < 64
  · have hletter : ∀ n < 64, (base64Letter n).toNat < 128 := by decide +kernel
    exact hletter n h
  · rw [base64Letter, List.getD_eq_default _ _ (Nat.le_of_not_lt h)]
    decide

/-- A letter adds its sextet. -/
theorem sextets?_letter {count pads n : Nat} (h : n < 64) (rest : List Char) :
    sextets? count pads (base64Letter n :: rest) =
      (sextets? (count + 1) 0 rest).map (n :: ·) := by
  obtain ⟨hsextet, hpad⟩ := sextet?_letter n h
  simp [sextets?, hsextet, hpad]

/-- A text of base 64 spells sextets that hold the bytes it was written from. -/
theorem exists_sextets (bytes : List UInt8) : ∀ count, count % 4 = 0 →
    ∃ sextets, sextets? count 0 (base64Text bytes) = some sextets ∧
      bytesOfSextets sextets = bytes := by
  fun_induction base64Text bytes with
  | case1 => exact fun count hcount => ⟨[], by simp [sextets?, hcount], rfl⟩
  | case2 a =>
      intro count hcount
      have ha := a.toNat_lt
      refine ⟨[a.toNat / 4, a.toNat % 4 * 16], ?_, ?_⟩
      · -- the second equal sign ends the text
        rw [sextets?_letter (by omega), sextets?_letter (by omega)]
        simp [sextets?, show (count + 1 + 1) % 4 = 2 by omega]
      · rw [bytesOfSextets, toUInt8_eq_of_toNat (b := a) (by omega)]
  | case3 a b =>
      intro count hcount
      have ha := a.toNat_lt
      have hb := b.toNat_lt
      refine ⟨[a.toNat / 4, a.toNat % 4 * 16 + b.toNat / 16, b.toNat % 16 * 4], ?_, ?_⟩
      · rw [sextets?_letter (by omega), sextets?_letter (by omega), sextets?_letter (by omega)]
        simp [sextets?, show (count + 1 + 1 + 1) % 4 = 3 by omega]
      · rw [bytesOfSextets, toUInt8_eq_of_toNat (b := a) (by omega),
          toUInt8_eq_of_toNat (b := b) (by omega)]
  | case4 a b c rest ih =>
      intro count hcount
      have ha := a.toNat_lt
      have hb := b.toNat_lt
      have hc := c.toNat_lt
      obtain ⟨sextets, hsextets, hrest⟩ := ih (count + 1 + 1 + 1 + 1) (by omega)
      refine ⟨a.toNat / 4 :: (a.toNat % 4 * 16 + b.toNat / 16) ::
        (b.toNat % 16 * 4 + c.toNat / 64) :: c.toNat % 64 :: sextets, ?_, ?_⟩
      · rw [sextets?_letter (by omega), sextets?_letter (by omega), sextets?_letter (by omega),
          sextets?_letter (by omega), hsextets]
        rfl
      · rw [bytesOfSextets, hrest, toUInt8_eq_of_toNat (b := a) (by omega),
          toUInt8_eq_of_toNat (b := b) (by omega), toUInt8_eq_of_toNat (b := c) (by omega)]

theorem base64Text_ascii (bytes : List UInt8) :
    (base64Text bytes).all (·.toNat < 128) = true := by
  fun_induction base64Text bytes with
  | case1 => rfl
  | case2 a => simp [base64Letter_ascii]
  | case3 a b => simp [base64Letter_ascii]
  | case4 a b c rest ih => simpa [base64Letter_ascii] using ih

/-- **What is written in base 64 reads back.** -/
theorem readBase64?_base64Text (bytes : List UInt8) :
    readBase64? (base64Text bytes) = some bytes := by
  obtain ⟨sextets, hsextets, hbytes⟩ := exists_sextets bytes 0 rfl
  rw [readBase64?, if_pos (base64Text_ascii bytes), hsextets, Option.map_some, hbytes]

/-- **Bytes are what the text of their datatype is read as.** -/
theorem ValueKind.read?_lexical_bytes {kind : ValueKind} (h : kind = .hex ∨ kind = .base64)
    (bytes : List UInt8) : kind.read? (kind.lexical (.bytes bytes)) = some (.bytes bytes) := by
  rcases h with rfl | rfl
  · simp [read?, lexical, readHex?_hexText]
  · simp [read?, lexical, readBase64?_base64Text]

end OntoCode.Rdf
