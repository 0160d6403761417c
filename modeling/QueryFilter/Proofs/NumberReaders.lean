import QueryFilter.Proofs.NumberTokens

/-!
# Numbers in JSON and in text

A number is read from JSON by one reader and from text by another. The reader of text rounds to the
nearest binary64 number (`Decimal.toBinary64?_eq_some_iff`), so both find the same scalar exactly for
the numbers that the reader of JSON rounds to the nearest as well (`Scalar.exists_number?_iff`). That
reader rounds the digits, the power of ten and their product; only the last makes a difference if
the digits and the power are binary64 numbers themselves (`Json.Number.roundsFrom_of_lt`).
-/

namespace QueryFilter

theorem natAbs_signed (negative : Bool) (magnitude : Nat) :
    (signed negative magnitude).natAbs = magnitude := by
  unfold signed
  split <;> simp

theorem signed_nonneg_iff {negative : Bool} {magnitude : Nat} :
    0 ≤ signed negative magnitude ↔ negative = false ∨ magnitude = 0 := by
  cases negative <;> simp [signed]

theorem toInt_of_int64? {n : Int} {m : Int64} (h : int64? n = some m) : n = m.toInt := by
  unfold int64? at h
  split at h
  · next hr => rw [← Option.some.inj h, Int64.toInt_ofInt_of_le hr.1 hr.2]
  · cases h

/-! ## Binary64 numbers -/

namespace Binary64

theorem ofNat?_eq (n : Nat) : ofNat? n = (⟨false, n, 0⟩ : Decimal).toBinary64? := by
  refine Option.ext fun x => ?_
  rw [ofNat?, ofRatio?_eq_some_iff Nat.one_pos, Decimal.toBinary64?_eq_some_iff, Decimal.RoundsTo]
  simp

theorem two_pow_mul_one_lt : 2 ^ 100 * one < unitsAt 0x7FF0000000000000 := by
  unfold one
  decide +kernel

theorem exists_ofNat? {n : Nat} (h : n < 0x10000000000000000) : ∃ x, ofNat? n = some x := by
  have hbound : 2 * (n * one) < unitsAt 0x7FF0000000000000 :=
    calc 2 * (n * one) = 2 * n * one := (Nat.mul_assoc ..).symm
      _ < 2 ^ 100 * one := Nat.mul_lt_mul_of_pos_right (by omega) one_pos
      _ < unitsAt 0x7FF0000000000000 := two_pow_mul_one_lt
  have hplace : nearestPlace (n * one) 1 < 0x7FF0000000000000 := by
    by_contra hge
    have hunits := unitsAt_strictMono.monotone (Nat.le_of_not_lt hge)
    have habove := (near_nearestPlace (n * one) Nat.one_pos).above
    rw [middleBelow, Nat.mul_one] at habove
    omega
  exact ⟨⟨false, _, hplace⟩, dif_pos hplace⟩

theorem eq_of_units_eq {x y : Binary64} (hunits : x.units = y.units)
    (hnegative : x.negative = y.negative) : x = y := by
  have hplace : x.place = y.place := unitsAt_strictMono.injective hunits
  obtain ⟨_, _, _⟩ := x
  obtain ⟨_, _, _⟩ := y
  simp_all

theorem units_eq_of_toInt? {x : Binary64} {n : Int} (h : x.toInt? = some n) :
    x.units = n.natAbs * one := by
  unfold toInt? at h
  split at h
  · next hdvd =>
    rw [← Option.some.inj h, natAbs_signed, Nat.div_mul_cancel (Nat.dvd_of_mod_eq_zero hdvd)]
  · cases h

/-! ## Numbers that are their own rounding -/

theorem exists_unitsAt_eq {m : Nat} (hm : m < 2 * binade) (shift : Nat) :
    ∃ place, unitsAt place = m * 2 ^ shift := by
  induction shift generalizing m with
  | zero => exact ⟨0 * binade + m, unitsAt_mul_add hm (Or.inl rfl)⟩
  | succ shift ih =>
    rcases Nat.lt_or_ge m binade with hlt | hge
    · obtain ⟨place, hplace⟩ := ih (Nat.mul_lt_mul_of_pos_left hlt (show 0 < 2 by decide))
      exact ⟨place, hplace.trans (by ring)⟩
    · exact ⟨(shift + 1) * binade + m, unitsAt_mul_add hm (Or.inr hge)⟩

theorem exists_ofNat?_units {m shift : Nat} (hm : m < 2 * binade) (hshift : shift ≤ 22) :
    ∃ x, ofNat? (m * 2 ^ shift) = some x ∧ x.units = m * 2 ^ shift * one := by
  obtain ⟨e, he⟩ : ∃ e, e = 1074 := ⟨_, rfl⟩
  obtain ⟨place, hplace⟩ := exists_unitsAt_eq hm (shift + e)
  have hunits : unitsAt place = m * 2 ^ shift * one := by
    rw [hplace, one_eq he, pow_add, Nat.mul_assoc]
  have hlt : place < 0x7FF0000000000000 := by
    rw [← unitsAt_strictMono.lt_iff_lt, hunits]
    refine Nat.lt_trans (Nat.mul_lt_mul_of_pos_right ?_ one_pos) two_pow_mul_one_lt
    calc m * 2 ^ shift ≤ m * 2 ^ 22 := Nat.mul_le_mul_left _ (Nat.pow_le_pow_right (by decide) hshift)
      _ < 2 ^ 100 := by simp only [binade] at hm; omega
  refine ⟨⟨false, place, hlt⟩, ?_, hunits⟩
  rw [ofNat?, ofRatio?_eq_some_iff Nat.one_pos, ← hunits]
  exact ⟨rfl, by simpa using near_self Nat.one_pos⟩

theorem exists_tenTo?_units {k : Nat} (hk : k ≤ 22) :
    ∃ t, tenTo? k = some t ∧ t.units = Nat.pow 10 k * one := by
  have hpow : Nat.pow 10 k = 5 ^ k * 2 ^ k := Nat.mul_pow 5 2 k
  have hfive : 5 ^ k < 2 * binade :=
    Nat.lt_of_le_of_lt (Nat.pow_le_pow_right (by decide) hk) (by decide)
  rw [tenTo?, hpow]
  exact exists_ofNat?_units hfive hk

theorem near_of_scale? {x y : Binary64} {digits : Nat} {e : Int} (hlow : -22 ≤ e) (hhigh : e ≤ 22)
    (hx : x.units = digits * one) (h : x.scale? e = some y) :
    Near y.place (digits * Nat.pow 10 e.toNat * one) (Nat.pow 10 (-e).toNat) := by
  have hone := one_pos
  cases e with
  | ofNat k =>
    have hk : k ≤ 22 := Int.ofNat_le.mp hhigh
    obtain ⟨t, ht, hunits⟩ := exists_tenTo?_units hk
    have hmax : k ≤ maxPower := by unfold maxPower; omega
    rw [scale?, if_pos hmax, ht, Option.bind_some, mul?, ofRatio?_eq_some_iff hone, hx, hunits] at h
    have hden : (-Int.ofNat k).toNat = 0 := Int.toNat_neg_natCast k
    rw [hden]
    refine h.2.congr hone (show 0 < Nat.pow 10 0 by decide) ?_
    rw [show Nat.pow 10 0 = 1 from rfl, show (Int.ofNat k).toNat = k from rfl]
    ring
  | negSucc k =>
    obtain ⟨t, ht, hunits⟩ := exists_tenTo?_units (show k + 1 ≤ 22 by omega)
    have hshrink : k / maxPower = 0 := Nat.div_eq_of_lt (by unfold maxPower; omega)
    have hmod : k % maxPower = k := Nat.mod_eq_of_lt (by unfold maxPower; omega)
    have hpow : 0 < Nat.pow 10 (k + 1) := Nat.pow_pos (by decide)
    rw [scale?, hshrink, shrink?, Option.bind_some, hmod, ht, Option.bind_some, div?, hx, hunits,
      ofRatio?_eq_some_iff (Nat.mul_pos hpow hone)] at h
    refine h.2.congr (Nat.mul_pos hpow hone) hpow ?_
    rw [show (Int.negSucc k).toNat = 0 from rfl, show Nat.pow 10 0 = 1 from rfl,
      show (-Int.negSucc k).toNat = k + 1 from rfl]
    ring

end Binary64

/-! ## Numbers in JSON -/

namespace Json

theorem negative_of_scaled? {negative : Bool} {whole fraction : List Char} {e : Int}
    {x : Binary64} (h : scaled? negative whole fraction e = some x) : x.negative = negative := by
  unfold scaled? at h
  obtain ⟨_, _, rfl⟩ := Option.map_eq_some_iff.mp h
  rfl

theorem le_ofDigitChars (n : Nat) (cs : List Char) : n ≤ Nat.ofDigitChars 10 cs n := by
  induction cs generalizing n with
  | nil => exact Nat.le_refl n
  | cons c cs ih =>
    rw [Nat.ofDigitChars_cons]
    exact Nat.le_trans (by omega) (ih _)

theorem appendDigits_eq {n : Nat} {cs : List Char}
    (h : Nat.ofDigitChars 10 cs n < 0x10000000000000000) :
    appendDigits n cs = (Nat.ofDigitChars 10 cs n, []) := by
  induction cs generalizing n with
  | nil => rfl
  | cons c cs ih =>
    rw [Nat.ofDigitChars_cons] at h ⊢
    rw [appendDigits, if_pos (Nat.lt_of_le_of_lt (le_ofDigitChars _ cs) h), ih h]

theorem scaled?_eq {whole fraction : List Char} (negative : Bool) (e : Int)
    (h : Nat.ofDigitChars 10 (whole ++ fraction) 0 < 0x10000000000000000) :
    scaled? negative whole fraction e =
      ((Binary64.ofNat? (Nat.ofDigitChars 10 (whole ++ fraction) 0)).bind fun x =>
        x.scale? (e - fraction.length)).map fun x => { x with negative := negative } := by
  rw [Nat.ofDigitChars_append] at h
  have hwhole := appendDigits_eq (Nat.lt_of_le_of_lt (le_ofDigitChars _ fraction) h)
  simp only [scaled?, hwhole, appendDigits_eq h, Nat.ofDigitChars_append, List.length_nil,
    Int.natCast_zero, Int.add_zero]

/-- Whether a number is the one that the characters write: an integer is, and a binary64 number if
it is the nearest one. -/
def Number.RoundsFrom (cs : List Char) : Number → Prop
  | int .. => True
  | float x => ∃ d, Decimal.ofChars? cs = some d ∧ d.RoundsTo x

/-- Digits of 53 bits with a power of ten of at most 22 are rounded once, to the nearest number. -/
theorem Number.roundsFrom_of_lt {cs : List Char} {n : Number} {d : Decimal}
    (h : ofChars? cs = some n) (hd : Decimal.ofChars? cs = some d)
    (hdigits : d.digits < 2 * Binary64.binade) (hlow : -22 ≤ d.exponent) (hhigh : d.exponent ≤ 22) :
    n.RoundsFrom cs := by
  obtain ⟨t, ⟨-, hr, rfl⟩ | ⟨e, x, he, hx, rfl, -⟩⟩ := exists_token h
  · trivial
  · rw [t.ofChars?_eq, he, Option.map_some, Option.some_inj] at hd
    refine ⟨t.decimal e, by rw [t.ofChars?_eq, he, Option.map_some], ?_⟩
    subst hd
    have hsmall : Nat.ofDigitChars 10 (t.whole ++ t.fraction.getD []) 0 < 2 * Binary64.binade := hdigits
    rw [scaled?_eq t.negative e (Nat.lt_trans hsmall (by decide))] at hx
    obtain ⟨z, hz, rfl⟩ := Option.map_eq_some_iff.mp hx
    obtain ⟨y, hy, hyz⟩ := Option.bind_eq_some_iff.mp hz
    obtain ⟨y', hy', hunits⟩ := Binary64.exists_ofNat?_units hsmall (Nat.zero_le 22)
    rw [pow_zero, Nat.mul_one] at hy' hunits
    obtain rfl : y = y' := Option.some.inj (hy.symm.trans hy')
    have hnear := Binary64.near_of_scale? hlow hhigh hunits hyz
    exact ⟨rfl, hnear⟩

end Json

/-! ## Scalars -/

namespace Scalar

/-- Numbers of one sign with one scalar are one number. -/
theorem ofBinary64_inj {x y : Binary64} (hnegative : x.negative = y.negative)
    (h : ofBinary64 x = ofBinary64 y) : x = y := by
  have hunits : ∀ {x : Binary64} {n : Int64}, x.toInt?.bind int64? = some n →
      x.units = n.toInt.natAbs * Binary64.one := by
    intro x n hn
    obtain ⟨m, hm, hmn⟩ := Option.bind_eq_some_iff.mp hn
    rw [Binary64.units_eq_of_toInt? hm, toInt_of_int64? hmn]
  unfold ofBinary64 at h
  cases hx : x.toInt?.bind int64? with
  | none =>
    cases hy : y.toInt?.bind int64? with
    | none => simpa [hx, hy] using h
    | some m => simp [hx, hy] at h
  | some n =>
    cases hy : y.toInt?.bind int64? with
    | none => simp [hx, hy] at h
    | some m =>
      obtain rfl : n = m := by simpa [hx, hy] using h
      exact Binary64.eq_of_units_eq ((hunits hx).trans (hunits hy).symm) hnegative

theorem ofNumber?_int_of_lt {n : Int} {hr} (h : n < 0x8000000000000000) :
    ofNumber? (.int n hr) = some (int (Int64.ofInt n)) := by
  simp only [ofNumber?, Json.Number.toInt64?, if_pos h]

theorem ofNumber?_int_of_le {n : Int} {hr} (h : 0x8000000000000000 ≤ n) :
    ofNumber? (.int n hr) = (Binary64.ofNat? n.toNat).map ofBinary64 := by
  simp only [ofNumber?, Json.Number.toInt64?, if_neg (Int.not_lt.mpr h)]

section
variable {cs : List Char} (hmarked : Integer.ofMarked? cs = none)
include hmarked

/-- An integer of 64 bits, signed or unsigned, is the same scalar in both. -/
theorem exists_number?_of_isInteger {t : Json.Token cs} (ht : t.IsInteger)
    (hr : -0x8000000000000000 ≤ t.value ∧ t.value < 0x10000000000000000) :
    ∃ v, ofNumber? (.int t.value hr) = some v ∧ number? cs = some v := by
  have hread := t.ofDecimal?_eq ht
  rcases Int.lt_or_le t.value 0x8000000000000000 with hlt | hge
  · rw [int64?, if_pos ⟨hr.1, hlt⟩] at hread
    exact ⟨_, ofNumber?_int_of_lt hlt, by rw [number?, hmarked, hread]⟩
  · -- too large for the reader of integers, but not for that of binary64 numbers
    rw [int64?, if_neg fun h => Int.not_lt.mpr hge h.2] at hread
    obtain ⟨x, hx⟩ : ∃ x, Binary64.ofNat? t.value.toNat = some x :=
      Binary64.exists_ofNat? (by omega)
    have hdecimal : Decimal.ofChars? cs = some ⟨false, t.value.toNat, 0⟩ := by
      have hsign : t.negative = false := by
        rcases signed_nonneg_iff.mp (Int.le_trans (by decide) hge) with hsign | hzero
        · exact hsign
        · have hvalue := hge
          simp [Json.Token.value, hzero, signed] at hvalue
      rw [t.ofChars?_eq, ht.2]
      simp [Decimal.exponent?, Json.Token.decimal, Decimal.ofParts, ht.1, Json.Token.value, hsign,
        signed]
    refine ⟨ofBinary64 x, ?_, ?_⟩
    · rw [ofNumber?_int_of_le hge, hx, Option.map_some]
    · rw [number?, hmarked, hread, hdecimal, Option.bind_some, ← Binary64.ofNat?_eq, hx,
        Option.map_some]

/-- What is read from JSON as a binary64 number is a decimal number in text. -/
theorem number?_of_not_int {t : Json.Token cs}
    (ht : t.IsInteger → (t.negative ∧ t.value = 0) ∨ int64? t.value = none) :
    number? cs = ((Decimal.ofChars? cs).bind Decimal.toBinary64?).map ofBinary64 := by
  by_cases hinteger : t.IsInteger
  · rcases ht hinteger with ⟨hminus, hzero⟩ | hnone
    · -- minus zero is the integer zero in both
      have hread := t.ofDecimal?_eq hinteger
      rw [hzero] at hread
      have hdecimal : Decimal.ofChars? cs = some ⟨true, 0, 0⟩ := by
        rw [t.ofChars?_eq, hinteger.2]
        simpa [Decimal.exponent?, Json.Token.decimal, Decimal.ofParts, hinteger.1,
          Json.Token.value, hminus, signed] using hzero
      rw [number?, hmarked, hread, hdecimal]
      decide +kernel
    · rw [number?, hmarked, t.ofDecimal?_eq hinteger, hnone]
  · rw [number?, hmarked, t.ofDecimal?_eq_none hinteger]

end

section
variable {n : Json.Number}

/-- The same scalar is found in text exactly if JSON rounds to the nearest number. -/
theorem exists_number?_iff {cs : List Char} (hchars : ∀ c ∈ cs, Json.isNumberChar c)
    (h : Json.Number.ofChars? cs = some n) :
    (∃ v, ofNumber? n = some v ∧ number? cs = some v) ↔ n.RoundsFrom cs := by
  have hmarked := Integer.ofMarked?_eq_none hchars
  obtain ⟨t, ⟨ht, hr, rfl⟩ | ⟨e, x, he, hx, rfl, ht⟩⟩ := Json.Number.exists_token h
  · exact iff_of_true (exists_number?_of_isInteger hmarked ht hr) trivial
  · have hdecimal : Decimal.ofChars? cs = some (t.decimal e) := by
      rw [t.ofChars?_eq, he, Option.map_some]
    have hnumber := number?_of_not_int hmarked ht
    rw [hdecimal, Option.bind_some] at hnumber
    constructor
    · rintro ⟨v, hv, hread⟩
      rw [hnumber] at hread
      obtain ⟨y, hy, hyv⟩ := Option.map_eq_some_iff.mp hread
      rw [Decimal.toBinary64?_eq_some_iff] at hy
      have hsign : y.negative = x.negative := hy.1.trans (Json.negative_of_scaled? hx).symm
      have hyx : y = x := ofBinary64_inj hsign (hyv.trans (Option.some.inj hv).symm)
      exact ⟨_, hdecimal, hyx ▸ hy⟩
    · rintro ⟨d, hd, hround⟩
      obtain rfl : t.decimal e = d := Option.some.inj (hdecimal.symm.trans hd)
      refine ⟨ofBinary64 x, rfl, ?_⟩
      rw [hnumber, Decimal.toBinary64?_eq_some_iff.mpr hround, Option.map_some]

/-- A number in JSON is the scalar that its text stands for, if JSON rounds it to the nearest
number. -/
theorem ofJson_number (path s : String) (hread : Json.ofText? s = some (.number n))
    (hround : n.RoundsFrom (Chars.trim s.toList)) :
    ofJson path (.number n) = .ok (ofText s) := by
  obtain ⟨hchars, htoken⟩ := Json.ofText?_eq_number hread
  obtain ⟨v, hnumber, htext⟩ := (exists_number?_iff hchars htoken).mpr hround
  rw [ofJson, hnumber, ofText_of_trim hchars, htext, Option.getD_some]

/-- A fraction with a power of ten, between blanks. -/
theorem ofJson_number_fraction :
    let s := " -25e-1\n"
    let x : Binary64 := ⟨true, 0x4004000000000000, by decide⟩
    Json.ofText? s = some (.number (.float x)) ∧
      (Json.Number.float x).RoundsFrom (Chars.trim s.toList) ∧
      ofJson "amount.gt" (.number (.float x)) = .ok (ofText s) ∧ ofText s = .float x := by
  intro s x
  have hread : Json.ofText? s = some (.number (.float x)) :=
    Json.ofText?_eq_number_iff.mpr ⟨[' '], "-25e-1".toList, ['\n'], by decide,
      List.all_eq_true.mp rfl, List.all_eq_true.mp rfl, List.all_eq_true.mp rfl, by decide +kernel⟩
  have hdecimal : Decimal.ofChars? (Chars.trim s.toList) = some ⟨true, 25, -1⟩ := by decide
  have hround : (Json.Number.float x).RoundsFrom (Chars.trim s.toList) :=
    Json.Number.roundsFrom_of_lt (Json.ofText?_eq_number hread).2 hdecimal (by decide) (by decide)
      (by decide)
  have hvalue : ofText s = .float x := by decide +kernel
  exact ⟨hread, hround, ofJson_number "amount.gt" s hread hround, hvalue⟩

end

end Scalar

end QueryFilter
