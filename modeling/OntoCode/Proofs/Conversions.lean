/-
Which literals cannot be read as a type, and what the others read as.

A literal that is not of the type asked for is converted, and where there is no
conversion it is given back as it is.  One thing stops this: a number that is too large
for the type.  An infinite number is no integer, an integer from the middle between the
greatest floating point number and the power of two behind it on rounds to no floating
point number, and an integer of more than 32 bits is refused where a part of a date is
expected, before anything is found to be missing.  Every other literal reads as a value
of the type or as what it stands for.
-/
import Mathlib.Data.Nat.Log
import Mathlib.Tactic.Ring
import Mathlib.Tactic.SplitIfs
import OntoCode.Proofs.Steps
import OntoCode.Rdf.Conversion

namespace OntoCode.Number

namespace Binary64

/-! ### The integers that round to no number -/

/-- Rounding reaches an even number from the middle below it on. -/
theorem roundHalfEven_eq_iff {num den e : Nat} (hlt : num < (2 * e + 2) * den) :
    roundHalfEven num den = 2 * e + 2 ↔ (4 * e + 3) * den ≤ 2 * num := by
  have hden : 0 < den := by
    rcases Nat.eq_zero_or_pos den with rfl | h
    · omega
    · exact h
  have hsplit : num / den * den + num % den = num := Nat.div_add_mod' num den
  have hrest : num % den < den := Nat.mod_lt num hden
  have hfloor : num / den < 2 * e + 2 := (Nat.div_lt_iff_lt_mul hden).mpr hlt
  unfold roundHalfEven
  by_cases hlast : num / den = 2 * e + 1
  · -- the whole part is the odd number below, and its half rounds up
    rw [hlast] at hsplit ⊢
    have hnum : 2 * num = (4 * e + 2) * den + 2 * (num % den) := by
      calc 2 * num = 2 * ((2 * e + 1) * den + num % den) := by rw [hsplit]
        _ = (4 * e + 2) * den + 2 * (num % den) := by ring
    have hmiddle : (4 * e + 3) * den = (4 * e + 2) * den + den := by ring
    dsimp only
    rw [hnum, hmiddle]
    split_ifs <;> omega
  · have hbelow : num < (2 * e + 1) * den := (Nat.div_lt_iff_lt_mul hden).mp (by omega)
    have htwice : 2 * num < (4 * e + 3) * den := by
      calc 2 * num < 2 * ((2 * e + 1) * den) := by omega
        _ = (4 * e + 2) * den := by ring
        _ ≤ (4 * e + 3) * den := Nat.mul_le_mul_right den (by omega)
    dsimp only
    split_ifs <;> omega

/-- The exponent that is guessed from the size of an integer already fills the mantissa. -/
theorem leastFull_le_inUnits {size : Nat} (hsize : size ≠ 0) :
    ¬ (inUnits size 1 ((Nat.log2 size : Int) - 52)).1
        < leastFull * (inUnits size 1 ((Nat.log2 size : Int) - 52)).2 := by
  have hpow : 2 ^ Nat.log2 size ≤ size := Nat.log2_self_le hsize
  have hfull : leastFull = 2 ^ 52 := by decide
  unfold inUnits twoTo
  rw [hfull]
  split
  · have hexponent : 52 + ((Nat.log2 size : Int) - 52).toNat = Nat.log2 size := by omega
    show ¬ size < 2 ^ 52 * (1 * 2 ^ ((Nat.log2 size : Int) - 52).toNat)
    rw [Nat.one_mul, ← Nat.pow_add, hexponent]
    omega
  · have hexponent : Nat.log2 size + (-((Nat.log2 size : Int) - 52)).toNat = 52 := by omega
    show ¬ size * 2 ^ (-((Nat.log2 size : Int) - 52)).toNat < 2 ^ 52 * 1
    have hfilled : 2 ^ 52 ≤ size * 2 ^ (-((Nat.log2 size : Int) - 52)).toNat := by
      calc 2 ^ 52 = 2 ^ Nat.log2 size * 2 ^ (-((Nat.log2 size : Int) - 52)).toNat := by
            rw [← Nat.pow_add, hexponent]
        _ ≤ size * 2 ^ (-((Nat.log2 size : Int) - 52)).toNat := Nat.mul_le_mul_right _ hpow
    omega

/-- In units of a power of two that is no fraction, only the denominator grows. -/
theorem inUnits_natCast (num den exponent : Nat) :
    inUnits num den (exponent : Int) = (num, den * twoTo exponent) := by
  unfold inUnits
  rw [if_pos (Int.natCast_nonneg exponent), Int.toNat_natCast]

/-- A rounded number is infinite if its exponent is too great. -/
theorem infinite_iff_exponent {negative : Bool} {mantissa : Nat} {exponent : Int} :
    (∃ sign, (if maxExponent < exponent then infinite negative
      else finite negative mantissa exponent) = infinite sign) ↔ maxExponent < exponent := by
  by_cases hgreat : maxExponent < exponent
  · simp [hgreat]
  · simp [hgreat]

/-- An integer rounds to an infinity when its exponent is too great, or gets there by rounding. -/
theorem ofRatio_one_infinite {negative : Bool} {size : Nat} (hsize : size ≠ 0) :
    (∃ sign, ofRatio negative size 1 = infinite sign) ↔
      1023 < Nat.log2 size ∨
        Nat.log2 size = 1023 ∧ roundHalfEven size (twoTo 971) = 2 * leastFull := by
  have hone : (Nat.log2 size : Int) - (Nat.log2 1 : Int) - 52 = (Nat.log2 size : Int) - 52 := by
    rw [show Nat.log2 1 = 0 from by decide]
    omega
  have hexponent : max minExponent ((Nat.log2 size : Int) - 52) = (Nat.log2 size : Int) - 52 := by
    unfold minExponent
    omega
  have hover : maxExponent < (Nat.log2 size : Int) - 52 ↔ 1023 < Nat.log2 size := by
    unfold maxExponent
    omega
  have hnext : maxExponent < (Nat.log2 size : Int) - 52 + 1 ↔ 1023 ≤ Nat.log2 size := by
    unfold maxExponent
    omega
  have hunits : Nat.log2 size = 1023 →
      inUnits size 1 ((Nat.log2 size : Int) - 52) = (size, twoTo 971) := by
    intro htop
    have hguess : (Nat.log2 size : Int) - 52 = (971 : Nat) := by omega
    rw [hguess, inUnits_natCast, Nat.one_mul]
  unfold ofRatio
  rw [if_neg hsize]
  simp only [hone, leastFull_le_inUnits hsize, if_false, hexponent]
  by_cases htop : Nat.log2 size = 1023
  · rw [hunits htop]
    by_cases hround : roundHalfEven size (twoTo 971) = 2 * leastFull
    · simp only [hround, if_true, infinite_iff_exponent, and_true]
      omega
    · simp only [hround, if_false, infinite_iff_exponent, and_false, or_false]
      exact hover
  · -- elsewhere one more in the exponent makes no difference
    generalize roundHalfEven _ _ = mantissa
    by_cases hround : mantissa = 2 * leastFull
    · simp only [hround, if_true, infinite_iff_exponent]
      omega
    · simp only [hround, if_false, infinite_iff_exponent]
      omega

theorem twoTo_pos (k : Nat) : 0 < twoTo k := Nat.two_pow_pos k

theorem twoTo_of_add {a b c : Nat} (h : a + b = c) : twoTo c = twoTo a * twoTo b := by
  rw [← h]
  exact Nat.pow_add 2 a b

theorem twoTo_le_iff {size k : Nat} (hsize : size ≠ 0) :
    twoTo k ≤ size ↔ k ≤ Nat.log2 size :=
  (Nat.le_log2 hsize).symm

/-- **An integer rounds to no number from the middle between the greatest one and the power of two
behind it on.** -/
theorem ofInt_infinite {n : Int} :
    (∃ sign, ofInt n = infinite sign) ↔ twoTo 1024 - twoTo 970 ≤ n.natAbs := by
  unfold ofInt
  generalize n.natAbs = size
  have hstep : twoTo 971 = twoTo 1 * twoTo 970 := twoTo_of_add (by omega)
  have hlast : twoTo 1023 = twoTo 53 * twoTo 970 := twoTo_of_add (by omega)
  have hbeyond : twoTo 1024 = twoTo 54 * twoTo 970 := twoTo_of_add (by omega)
  rw [show twoTo 1 = 2 from by decide] at hstep
  rw [show twoTo 53 = 9007199254740992 from by decide] at hlast
  rw [show twoTo 54 = 18014398509481984 from by decide] at hbeyond
  have hpositive : 0 < twoTo 970 := twoTo_pos 970
  by_cases hzero : size = 0
  · have hfinite : ofRatio (n < 0) 0 1 = finite (n < 0) 0 minExponent := by
      simp [ofRatio]
    subst hzero
    rw [hfinite, hbeyond]
    generalize twoTo 970 = unit at *
    simp
    omega
  · have hgreat := twoTo_le_iff (k := 1024) hzero
    have hfull := twoTo_le_iff (k := 1023) hzero
    rw [ofRatio_one_infinite hzero, hstep]
    rw [hbeyond] at hgreat ⊢
    rw [hlast] at hfull
    generalize twoTo 970 = unit at *
    by_cases htop : Nat.log2 size = 1023
    · have hlt : size < (2 * 4503599627370495 + 2) * (2 * unit) := by omega
      have hround := roundHalfEven_eq_iff hlt
      rw [show 2 * leastFull = 2 * 4503599627370495 + 2 from rfl, hround]
      omega
    · omega

end Binary64

end OntoCode.Number

namespace OntoCode.Rdf

open OntoCode.Number

/-! ### The conversions that fail -/

/-- **A value is too large for a type.** -/
def Value.TooLargeFor (v : Value) : ValueType → Prop
  | .integer => ∃ negative, v = .double (.infinite negative) ∨ v = .decimal (.infinite negative)
  | .double => ∃ n : Int, v = .integer n ∧
      Binary64.twoTo 1024 - Binary64.twoTo 970 ≤ n.natAbs
  | .date | .time | .dateTime => ∃ n : Int, v = .integer n ∧ (n < -2147483648 ∨ 2147483648 ≤ n)
  | .text | .boolean => False

/-- No value is too large for a type that it is of. -/
theorem Value.TooLargeFor.isOf_eq_false {v : Value} {type : ValueType} (h : v.TooLargeFor type) :
    v.isOf type = false := by
  cases type with
  | integer =>
      obtain ⟨negative, rfl | rfl⟩ := h
      · rfl
      · rfl
  | text => exact h.elim
  | boolean => exact h.elim
  | _ =>
      obtain ⟨n, rfl, -⟩ := h
      rfl

/-- Only the infinite numbers have no whole part. -/
theorem toInteger?_eq_error {content : Native} {e : ConversionError} :
    toInteger? content = .error e ↔
      ∃ negative, content = .value (.double (.infinite negative)) ∨
        content = .value (.decimal (.infinite negative)) := by
  cases content with
  | unread l => simp [toInteger?]
  | value v =>
      cases v with
      | double x => cases x <;> simp [toInteger?]
      | decimal d => cases d <;> simp [toInteger?]
      | _ => simp [toInteger?]

/-- Only the integers that round to an infinity have no nearest number. -/
theorem toDouble?_eq_error {content : Native} {e : ConversionError} :
    toDouble? content = .error e ↔
      ∃ n : Int, content = .value (.integer n) ∧
        Binary64.twoTo 1024 - Binary64.twoTo 970 ≤ n.natAbs := by
  cases content with
  | unread l => simp [toDouble?]
  | value v =>
      cases v with
      | integer n =>
          simp only [Native.value.injEq, Value.integer.injEq, exists_eq_left',
            ← Binary64.ofInt_infinite, toDouble?]
          cases Binary64.ofInt n <;> simp
      | _ => simp [toDouble?]

/-- Only the integers of more than 32 bits are refused. -/
theorem checkWidth_eq_error {content : Native} {e : ConversionError} :
    checkWidth content = .error e ↔
      ∃ n : Int, content = .value (.integer n) ∧ (n < -2147483648 ∨ 2147483648 ≤ n) := by
  cases content with
  | unread l => simp [checkWidth, Native.integer?]
  | value v =>
      cases v with
      | integer n =>
          simp only [checkWidth, Native.integer?, Native.value.injEq, Value.integer.injEq,
            exists_eq_left', Bool.and_eq_true, decide_eq_true_eq]
          by_cases hwidth : -2147483648 ≤ n ∧ n < 2147483648
          · rw [if_pos hwidth]
            simp
            omega
          · rw [if_neg hwidth]
            simp
            omega
      | boolean b => cases b <;> simp [checkWidth, Native.integer?, truthNumber]
      | _ => simp [checkWidth, Native.integer?]

/-- **A conversion fails on the values that are too large for the type, and on nothing else.** -/
theorem ValueType.convert?_eq_error {type : ValueType} {content : Native} {e : ConversionError} :
    type.convert? content = .error e ↔ ∃ v, content = .value v ∧ v.TooLargeFor type := by
  have hwidth : checkWidth content = .error e ↔ ∃ v, content = .value v ∧ v.TooLargeFor .date := by
    rw [checkWidth_eq_error]
    constructor
    · rintro ⟨n, rfl, hwide⟩
      exact ⟨_, rfl, n, rfl, hwide⟩
    · rintro ⟨_, rfl, n, rfl, hwide⟩
      exact ⟨n, rfl, hwide⟩
  cases type with
  | integer =>
      refine (bind_eq_error_of_ok fun _ => ⟨_, rfl⟩).trans (toInteger?_eq_error.trans ?_)
      constructor
      · rintro ⟨negative, rfl | rfl⟩
        · exact ⟨_, rfl, negative, .inl rfl⟩
        · exact ⟨_, rfl, negative, .inr rfl⟩
      · rintro ⟨_, rfl, negative, rfl | rfl⟩
        · exact ⟨negative, .inl rfl⟩
        · exact ⟨negative, .inr rfl⟩
  | double =>
      refine (bind_eq_error_of_ok fun _ => ⟨_, rfl⟩).trans (toDouble?_eq_error.trans ?_)
      constructor
      · rintro ⟨n, rfl, hlarge⟩
        exact ⟨_, rfl, n, rfl, hlarge⟩
      · rintro ⟨_, rfl, n, rfl, hlarge⟩
        exact ⟨n, rfl, hlarge⟩
  | text => exact ⟨nofun, fun ⟨_, _, hfalse⟩ => hfalse.elim⟩
  | boolean => exact ⟨nofun, fun ⟨_, _, hfalse⟩ => hfalse.elim⟩
  | date => exact (bind_eq_error_of_ok fun _ => ⟨_, rfl⟩).trans hwidth
  | dateTime => exact (bind_eq_error_of_ok fun _ => ⟨_, rfl⟩).trans hwidth
  | time =>
      -- an hour that is no hour of the day is given back, so only the width can fail
      refine (bind_eq_error_of_ok fun _ => ⟨_, rfl⟩).trans (Iff.trans ?_ hwidth)
      refine bind_eq_error_of_ok fun _ => ?_
      split
      · split
        · exact ⟨_, rfl⟩
        · exact ⟨_, rfl⟩
      · exact ⟨_, rfl⟩

/-- What a conversion gives is of the type. -/
theorem ValueType.isOf_of_convert? {type : ValueType} {content : Native} {v : Value}
    (h : type.convert? content = .ok (some v)) : v.isOf type = true := by
  have hmap : ∀ {α : Type} {read : Except ConversionError (Option α)} {make : α → Value},
      (read >>= fun found => pure (found.map make)) = .ok (some v) → ∃ a, v = make a := by
    intro α read make h
    obtain ⟨found, _, hfound⟩ := bind_eq_ok.mp h
    cases found with
    | none => cases hfound
    | some a =>
        cases hfound
        exact ⟨a, rfl⟩
  cases type with
  | integer =>
      obtain ⟨n, rfl⟩ := hmap h
      rfl
  | double =>
      obtain ⟨x, rfl⟩ := hmap h
      rfl
  | time =>
      obtain ⟨t, rfl⟩ := hmap h
      rfl
  | text =>
      cases h
      rfl
  | boolean =>
      cases h
      rfl
  | date =>
      obtain ⟨_, _, hnone⟩ := bind_eq_ok.mp h
      cases hnone
  | dateTime =>
      obtain ⟨_, _, hnone⟩ := bind_eq_ok.mp h
      cases hnone

/-! ### Literals -/

theorem Literal.native_eq_value {l : Literal} {v : Value} :
    l.native = .value v ↔ l.value = some v := by
  unfold Literal.native
  cases l.value <;> simp

/-- A literal that is of the type already is read as its value. -/
theorem Literal.readAs_of_isOf {l : Literal} {type : ValueType} {v : Value} (hv : l.value = some v)
    (hof : v.isOf type = true) : l.readAs (some type) = .ok (.value v) := by
  unfold Literal.readAs
  rw [native_eq_value.mpr hv]
  simp only [hof, if_true]
  rfl

/-- Any other literal is converted, and stays as it is where there is no conversion. -/
theorem Literal.readAs_of_not_isOf {l : Literal} {type : ValueType}
    (hof : ∀ v, l.value = some v → v.isOf type = false) :
    l.readAs (some type) =
      type.convert? l.native >>= fun found => pure ((found.map .value).getD l.native) := by
  unfold Literal.readAs
  cases hnative : l.native with
  | unread l => rfl
  | value v =>
      have hfalse : v.isOf type = false := hof v (native_eq_value.mp hnative)
      simp [hfalse]

/-- A literal is either of the type already, or it is converted. -/
theorem Literal.isOf_cases (l : Literal) (type : ValueType) :
    (∃ v, l.value = some v ∧ v.isOf type = true) ∨
      ∀ v, l.value = some v → v.isOf type = false := by
  cases hvalue : l.value with
  | none => exact .inr nofun
  | some v =>
      cases hof : v.isOf type with
      | true => exact .inl ⟨v, rfl, hof⟩
      | false =>
          refine .inr fun w hw => ?_
          cases hw
          exact hof

/-- **Reading fails exactly for the values that are too large for the type.** -/
theorem Literal.readAs_eq_error {l : Literal} {type : ValueType} {e : ConversionError} :
    l.readAs (some type) = .error e ↔ ∃ v, l.value = some v ∧ v.TooLargeFor type := by
  rcases l.isOf_cases type with ⟨v, hv, hof⟩ | hnot
  · rw [readAs_of_isOf hv hof]
    refine ⟨nofun, ?_⟩
    rintro ⟨w, hw, hlarge⟩
    obtain rfl := Option.some.inj (hv.symm.trans hw)
    rw [hlarge.isOf_eq_false] at hof
    cases hof
  · rw [readAs_of_not_isOf hnot]
    refine (bind_eq_error_of_ok fun _ => ⟨_, rfl⟩).trans (ValueType.convert?_eq_error.trans ?_)
    simp only [native_eq_value]

/-- **What is read is of the type, or there is no conversion and it is what the literal stands
for.** -/
theorem Literal.readAs_eq_ok {l : Literal} {type : ValueType} {content : Native}
    (h : l.readAs (some type) = .ok content) :
    (∃ v, content = .value v ∧ v.isOf type = true ∧
        (l.value = some v ∨ type.convert? l.native = .ok (some v))) ∨
      content = l.native ∧ type.convert? l.native = .ok none := by
  rcases l.isOf_cases type with ⟨v, hv, hof⟩ | hnot
  · rw [readAs_of_isOf hv hof] at h
    cases h
    exact .inl ⟨v, rfl, hof, .inl hv⟩
  · rw [readAs_of_not_isOf hnot] at h
    obtain ⟨found, hfound, h⟩ := bind_eq_ok.mp h
    cases h
    cases found with
    | none => exact .inr ⟨rfl, hfound⟩
    | some v => exact .inl ⟨v, rfl, ValueType.isOf_of_convert? hfound, .inr hfound⟩

/-- **A literal reads as a type, unless it is a number too large for the type.**

Take any literal and any type, or none.  Reading the literal fails just when its value is too large
for the type.  Otherwise it is read as

  * what it stands for, if no type is asked for,
  * a value of the type, which is its own or what it is converted to,
  * or what it stands for, if there is no conversion. -/
theorem Literal.readAs_unless_tooLarge (l : Literal) (type : Option ValueType) :
    ((∃ e, l.readAs type = .error e) ↔
        ∃ v asked, l.value = some v ∧ type = some asked ∧ v.TooLargeFor asked) ∧
      ∀ content, l.readAs type = .ok content →
        (type = none → content = l.native) ∧
        ∀ asked, type = some asked →
          (∃ v, content = .value v ∧ v.isOf asked = true ∧
            (l.value = some v ∨ asked.convert? l.native = .ok (some v))) ∨
          content = l.native ∧ asked.convert? l.native = .ok none := by
  cases type with
  | none =>
      have hread : l.readAs none = .ok l.native := by
        unfold Literal.readAs
        cases l.native <;> rfl
      rw [hread]
      refine ⟨⟨nofun, fun ⟨_, _, _, hnone, _⟩ => nomatch hnone⟩, fun content h => ?_⟩
      cases h
      exact ⟨fun _ => rfl, nofun⟩
  | some asked =>
      refine ⟨?_, fun content h => ⟨nofun, fun _ heq => ?_⟩⟩
      · constructor
        · rintro ⟨e, h⟩
          obtain ⟨v, hv, hlarge⟩ := readAs_eq_error.mp h
          exact ⟨v, asked, hv, rfl, hlarge⟩
        · rintro ⟨v, _, hv, heq, hlarge⟩
          cases heq
          exact ⟨.overflow, readAs_eq_error.mpr ⟨v, hv, hlarge⟩⟩
      · cases heq
        exact readAs_eq_ok h

/-- An infinite number is no integer, and it is not given back as it is either. -/
theorem Literal.readAs_infinite_integer :
    (Literal.ofText "INF" (some (xsd "double")) none).native = .value (.double (.infinite false)) ∧
      (Literal.ofText "INF" (some (xsd "double")) none).readAs (some .integer) =
        .error .overflow := by
  decide +kernel

end OntoCode.Rdf
