import Mathlib.Algebra.Order.Field.Rat
import Mathlib.Tactic.FieldSimp
import QueryFilter.Proofs.NumberReaders
import QueryFilter.Proofs.Numerals

/-!
# Spellings of an integer

A decimal numeral stands for an exact rational number, which may be an integer that is written with
a point or a power of ten. Such a numeral is rounded to the nearest binary64 number before it
becomes a scalar, so all spellings of an integer give the same scalar if the integer is a binary64
number itself (`Scalar.ofText_spelling`).
-/

namespace QueryFilter

/-! ## The value of a numeral -/

/-- The exact value. -/
def Decimal.value (d : Decimal) : ℚ := signed d.negative d.digits * 10 ^ d.exponent

/-- The exact value that is written: the digits after the point are a fraction, and all are scaled
by the power of ten. -/
def Numeral.value (n : Numeral) : ℚ :=
  let fraction := n.fraction.getD []
  (if n.sign.negative then -1 else 1) *
    (Nat.ofDigitChars 10 n.whole 0 + Nat.ofDigitChars 10 fraction 0 / 10 ^ fraction.length) *
      10 ^ n.power.elim 0 Power.exponent

theorem cast_signed (negative : Bool) (m : Nat) :
    ((signed negative m : Int) : ℚ) = (if negative then -1 else 1) * m := by
  cases negative <;> simp [signed]

theorem Numeral.value_eq (n : Numeral) : n.value = n.decimal.value := by
  unfold value Decimal.value decimal Decimal.ofParts
  generalize n.fraction.getD [] = fraction
  generalize n.power.elim 0 Power.exponent = e
  have hdigits : Nat.ofDigitChars 10 (n.whole ++ fraction) 0 =
      10 ^ fraction.length * Nat.ofDigitChars 10 n.whole 0 + Nat.ofDigitChars 10 fraction 0 := by
    rw [Nat.ofDigitChars_append, Nat.ofDigitChars_eq_ofDigitChars_zero]
  simp only [hdigits, cast_signed, zpow_sub₀ (show (10 : ℚ) ≠ 0 by decide), zpow_natCast]
  push_cast
  field_simp

namespace Decimal

variable {d : Decimal} {k : Int}

/-- An integral value in whole numbers. -/
theorem signed_mul_of_value (h : d.value = k) :
    signed d.negative d.digits * 10 ^ d.exponent.toNat = k * 10 ^ (-d.exponent).toNat := by
  have hexponent : d.exponent = (d.exponent.toNat : Int) - (-d.exponent).toNat := by omega
  have hpow : (10 : ℚ) ^ d.exponent = 10 ^ d.exponent.toNat / 10 ^ (-d.exponent).toNat := by
    conv_lhs => rw [hexponent]
    rw [zpow_sub₀ (by decide), zpow_natCast, zpow_natCast]
  rw [value, hpow, mul_div_assoc', div_eq_iff (by positivity)] at h
  exact_mod_cast h

theorem digits_mul_of_value (h : d.value = k) :
    d.digits * Nat.pow 10 d.exponent.toNat = k.natAbs * Nat.pow 10 (-d.exponent).toNat := by
  have hnat := congrArg Int.natAbs (signed_mul_of_value h)
  rwa [Int.natAbs_mul, Int.natAbs_mul, natAbs_signed, Int.natAbs_pow, Int.natAbs_pow] at hnat

theorem eq_signed_of_value (h : d.value = k) : k = signed d.negative k.natAbs := by
  have hscaled := signed_mul_of_value h
  have hpow : (0 : Int) < 10 ^ d.exponent.toNat := by positivity
  have hpow' : (0 : Int) < 10 ^ (-d.exponent).toNat := by positivity
  by_cases hnegative : d.negative
  · rw [signed, if_pos hnegative] at hscaled ⊢
    have hle : k ≤ 0 := by
      by_contra hlt
      have hleft : -(d.digits : Int) * 10 ^ d.exponent.toNat ≤ 0 :=
        Int.mul_nonpos_of_nonpos_of_nonneg (by omega) hpow.le
      have hright : 0 < k * 10 ^ (-d.exponent).toNat := Int.mul_pos (by omega) hpow'
      omega
    omega
  · rw [signed, if_neg hnegative] at hscaled ⊢
    have hge : 0 ≤ k := by
      by_contra hlt
      have hleft : 0 ≤ (d.digits : Int) * 10 ^ d.exponent.toNat :=
        Int.mul_nonneg (by omega) hpow.le
      have hright : k * 10 ^ (-d.exponent).toNat < 0 := Int.mul_neg_of_neg_of_pos (by omega) hpow'
      omega
    omega

/-! ## The nearest number to an integral value -/

variable {x y : Binary64}

theorem roundsTo_iff_of_value (h : d.value = k) :
    d.RoundsTo x ↔
      x.negative = d.negative ∧ Binary64.Near x.place (k.natAbs * Binary64.one) 1 := by
  have hpow : 0 < Nat.pow 10 (-d.exponent).toNat := Nat.pow_pos (by decide)
  have heq : d.digits * Nat.pow 10 d.exponent.toNat * Binary64.one * 1 =
      k.natAbs * Binary64.one * Nat.pow 10 (-d.exponent).toNat := by
    rw [digits_mul_of_value h, Nat.mul_one, Nat.mul_right_comm]
  exact and_congr_right fun _ =>
    ⟨fun hnear => hnear.congr hpow Nat.one_pos heq,
      fun hnear => hnear.congr Nat.one_pos hpow heq.symm⟩

theorem exists_roundsTo_of_value (h : d.value = k) (hk : k.natAbs < 0x10000000000000000) :
    ∃ x, d.RoundsTo x := by
  obtain ⟨x, hx⟩ := Binary64.exists_ofNat? hk
  obtain ⟨-, hnear⟩ := (Binary64.ofRatio?_eq_some_iff Nat.one_pos).mp hx
  exact ⟨{ x with negative := d.negative }, (roundsTo_iff_of_value h).mpr ⟨rfl, hnear⟩⟩

end Decimal

namespace Binary64

variable {x y : Binary64}

theorem toInt?_of_units_eq {m : Nat} (h : x.units = m * one) :
    x.toInt? = some (signed x.negative m) := by
  rw [toInt?, h, Nat.mul_mod_left, if_pos rfl, Nat.mul_div_cancel m one_pos]

/-- A number is the nearest one to its own value. -/
theorem toInt?_of_roundsTo {d : Decimal} {k : Int} (h : d.value = k) (hx : d.RoundsTo x)
    (hy : y.toInt? = some k) : x.toInt? = some k := by
  obtain ⟨hnegative, hnear⟩ := (Decimal.roundsTo_iff_of_value h).mp hx
  have hunits := units_eq_of_toInt? hy
  have hself : Near y.place (k.natAbs * one) 1 := by
    rw [← hunits, ← Nat.mul_one y.units]
    exact near_self Nat.one_pos
  have hplace : x.place = y.place :=
    (nearestPlace_eq_of_near Nat.one_pos hnear).symm.trans (nearestPlace_eq_of_near Nat.one_pos hself)
  have hx : x.units = k.natAbs * one := by
    rw [← hunits, units, units, hplace]
  rw [toInt?_of_units_eq hx, hnegative, ← Decimal.eq_signed_of_value h]

/-- Integers of 53 bits are binary64 numbers. -/
theorem exists_toInt?_eq_some {k : Int} (h : k.natAbs ≤ 0x20000000000000) :
    ∃ x : Binary64, x.toInt? = some k := by
  obtain ⟨m, shift, hm, hshift, hk⟩ : ∃ m shift, m < 2 * binade ∧ shift ≤ 22 ∧
      m * 2 ^ shift = k.natAbs := by
    by_cases hlt : k.natAbs < 2 * binade
    · exact ⟨k.natAbs, 0, hlt, Nat.zero_le 22, Nat.mul_one _⟩
    · exact ⟨binade, 1, by decide, by decide, by simp only [binade] at *; omega⟩
  obtain ⟨⟨_, place, hplace⟩, -, hunits⟩ := exists_ofNat?_units hm hshift
  rw [hk] at hunits
  refine ⟨⟨decide (k < 0), place, hplace⟩, ?_⟩
  rw [toInt?_of_units_eq (show units ⟨decide (k < 0), place, hplace⟩ = _ from hunits)]
  unfold signed
  split <;> grind

end Binary64

/-! ## Scalars -/

theorem int64?_eq_some_iff {k : Int} {n : Int64} : int64? k = some n ↔ k = n.toInt := by
  constructor
  · exact toInt_of_int64?
  · rintro rfl
    exact int64?_toInt n

namespace Numeral

def text (n : Numeral) : String := String.ofList n.chars

theorem value_of_isPlain {n : Numeral} (h : n.IsPlain) : n.value = n.integer := by
  simp [value, integer, h.1, h.2, cast_signed]

end Numeral

namespace Scalar

theorem ofBinary64_eq_int_iff {x : Binary64} {n : Int64} :
    ofBinary64 x = int n ↔ x.toInt? = some n.toInt := by
  unfold ofBinary64
  cases x.toInt? with
  | none => simp
  | some k =>
    rw [Option.bind_some, Option.some_inj, ← int64?_eq_some_iff]
    cases int64? k <;> simp

theorem ofText_text (n : Numeral) : ofText n.text = (number? n.chars).getD (text n.text) := by
  have htrim : Chars.trim n.text.toList = n.chars := by
    rw [Numeral.text, String.toList_ofList]
    exact Chars.trim_eq_self fun c hc =>
      Chars.isBlank_of_isNumberChar (n.isNumberChar_of_mem_chars c hc)
  have hread := ofText_of_trim (htrim ▸ n.isNumberChar_of_mem_chars)
  rwa [htrim] at hread

section
variable {n : Numeral} {k : Int64} (h : n.value = k.toInt)
include h

theorem ofText_of_isPlain (hplain : n.IsPlain) : ofText n.text = int k := by
  have hk : n.integer = k.toInt := by
    rw [Numeral.value_of_isPlain hplain] at h
    exact_mod_cast h
  rw [ofText_text, number?, Integer.ofMarked?_eq_none n.isNumberChar_of_mem_chars,
    n.ofDecimal?_chars_of_isPlain hplain, hk, int64?_toInt]
  rfl

/-- With a point or a power of ten the nearest number is read. -/
theorem exists_ofText_eq_ofBinary64 (hplain : ¬ n.IsPlain) :
    ∃ x, n.decimal.RoundsTo x ∧ ofText n.text = ofBinary64 x := by
  rw [n.value_eq] at h
  have hk : k.toInt.natAbs < 0x10000000000000000 := by
    have := k.le_toInt
    have := k.toInt_lt
    omega
  obtain ⟨x, hx⟩ := Decimal.exists_roundsTo_of_value h hk
  refine ⟨x, hx, ?_⟩
  rw [ofText_text, number?_eq_or, Integer.ofMarked?_eq_none n.isNumberChar_of_mem_chars,
    n.ofDecimal?_chars_of_not_isPlain hplain, n.ofChars?_chars, Option.bind_some,
    Decimal.toBinary64?_eq_some_iff.mpr hx, Option.map_none, Option.none_or,
    Option.none_or, Option.map_some, Option.getD_some]

/-- A spelling of an integer of 64 bits is read as the integer exactly if it is the plain one or the
integer is a binary64 number, as each of 53 bits is. All other spellings are read as the nearest
binary64 number. -/
theorem ofText_spelling :
    (ofText n.text = int k ↔ n.IsPlain ∨ ∃ x : Binary64, x.toInt? = some k.toInt) ∧
      (¬ n.IsPlain → ∃ x, n.decimal.RoundsTo x ∧ ofText n.text = ofBinary64 x) ∧
      (k.toInt.natAbs ≤ 0x20000000000000 → ∃ x : Binary64, x.toInt? = some k.toInt) := by
  refine ⟨?_, exists_ofText_eq_ofBinary64 h, Binary64.exists_toInt?_eq_some⟩
  by_cases hplain : n.IsPlain
  · exact iff_of_true (ofText_of_isPlain h hplain) (Or.inl hplain)
  · obtain ⟨x, hx, hread⟩ := exists_ofText_eq_ofBinary64 h hplain
    rw [hread, ofBinary64_eq_int_iff, or_iff_right hplain]
    constructor
    · exact fun hvalue => ⟨x, hvalue⟩
    · rintro ⟨y, hy⟩
      exact Binary64.toInt?_of_roundsTo (n.value_eq ▸ h) hx hy

end

/-- 2^53 with a fraction and a power of ten. -/
def spellingOfBinary64 : Numeral where
  sign := .plus
  whole := "9007199254740".toList
  fraction := some "9920".toList
  power := some ⟨'e', .absent, ['3'], Or.inl rfl, by decide, List.all_eq_true.mp (by decide)⟩
  digits_ne_nil := by decide
  isDigit_whole := List.all_eq_true.mp (by decide)
  isDigit_fraction := List.all_eq_true.mp (by decide)

theorem ofText_spelling_two_pow :
    let n := spellingOfBinary64
    n.text = "+9007199254740.9920e3" ∧ n.value = (9007199254740992 : Int64).toInt ∧
      ¬ n.IsPlain ∧ ofText n.text = int 9007199254740992 := by
  intro n
  have hdecimal : n.decimal = ⟨false, 90071992547409920, -1⟩ := by decide
  have hk : (9007199254740992 : Int64).toInt = 9007199254740992 := by decide
  have hvalue : n.value = (9007199254740992 : Int64).toInt := by
    rw [n.value_eq, hdecimal, hk]
    norm_num [Decimal.value, signed]
  have hplain : ¬ n.IsPlain := fun h => Option.some_ne_none _ h.1
  obtain ⟨hread, -, hexact⟩ := ofText_spelling hvalue
  exact ⟨by decide, hvalue, hplain, hread.mpr (Or.inr (hexact (by decide)))⟩

/-- The integer after 2^53 with a point. -/
def spellingBetween : Numeral where
  sign := .absent
  whole := "9007199254740993".toList
  fraction := some ['0']
  power := none
  digits_ne_nil := by decide
  isDigit_whole := List.all_eq_true.mp (by decide)
  isDigit_fraction := List.all_eq_true.mp (by decide)

/-- It is no binary64 number, and is read as the integer before it. -/
theorem not_ofText_spelling :
    ¬ ∀ (n : Numeral) (k : Int64), n.value = k.toInt → ofText n.text = int k := by
  intro h
  have hdecimal : spellingBetween.decimal = ⟨false, 90071992547409930, -1⟩ := by decide
  have hk : (9007199254740993 : Int64).toInt = 9007199254740993 := by decide
  have hvalue : spellingBetween.value = (9007199254740993 : Int64).toInt := by
    rw [spellingBetween.value_eq, hdecimal, hk]
    norm_num [Decimal.value, signed]
  have hread : ofText spellingBetween.text = int 9007199254740992 := by decide +kernel
  exact absurd (hread.symm.trans (h _ _ hvalue)) (by decide)

end Scalar

end QueryFilter
