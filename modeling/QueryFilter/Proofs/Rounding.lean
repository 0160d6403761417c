import Mathlib.Tactic.Ring
import QueryFilter.Number.Shortest

/-!
# Rounding to binary64

The magnitudes grow with their places, by powers of two that double from one binade to the next. A
quotient between the middles to the neighbours of a place rounds to that place
(`nearestPlace_eq_of_near`), so a decimal near a number is read as that number. A fraction is near
no whole number.
-/

namespace QueryFilter

namespace Binary64

/-! ## The magnitudes in order -/

/-- The power of two of the step from a place to the next. -/
def shiftAt (place : Nat) : Nat := place / binade - 1

theorem unitsAt_eq (place : Nat) :
    unitsAt place = (place - shiftAt place * binade) * 2 ^ shiftAt place :=
  Nat.shiftLeft_eq ..

theorem shiftAt_mul_add {shift m : Nat} (hm : m < 2 * binade) (h : shift = 0 ∨ binade ≤ m) :
    shiftAt (shift * binade + m) = shift := by
  unfold shiftAt
  rw [Nat.add_comm, Nat.add_mul_div_right _ _ (by decide)]
  simp only [binade] at *
  omega

theorem unitsAt_mul_add {shift m : Nat} (hm : m < 2 * binade) (h : shift = 0 ∨ binade ≤ m) :
    unitsAt (shift * binade + m) = m * 2 ^ shift := by
  rw [unitsAt_eq, shiftAt_mul_add hm h, Nat.add_sub_cancel_left]

/-- A place is a shift and a significand, which is full except in the lowest binade. -/
theorem exists_shift_significand (place : Nat) :
    ∃ m, place = shiftAt place * binade + m ∧ m < 2 * binade ∧
      (shiftAt place = 0 ∨ binade ≤ m) := by
  refine ⟨place - shiftAt place * binade, ?_⟩
  have hdiv := Nat.div_add_mod place binade
  have hmod := Nat.mod_lt place (show 0 < binade by decide)
  simp only [shiftAt, binade] at *
  omega

theorem unitsAt_succ (place : Nat) :
    unitsAt (place + 1) = unitsAt place + 2 ^ shiftAt place := by
  obtain ⟨m, hplace, hm, h⟩ := exists_shift_significand place
  generalize shiftAt place = shift at *
  subst hplace
  rw [unitsAt_mul_add hm h]
  by_cases hnext : m + 1 < 2 * binade
  · rw [Nat.add_assoc, unitsAt_mul_add hnext (by omega), Nat.add_mul, Nat.one_mul]
  · -- the next place is the first one of the next binade
    have hlast : shift * binade + m + 1 = (shift + 1) * binade + binade := by
      simp only [binade] at *
      omega
    have hfull : m + 1 = 2 * binade := by omega
    rw [hlast, unitsAt_mul_add (by decide) (Or.inr (Nat.le_refl _)), pow_succ]
    calc binade * (2 ^ shift * 2) = (m + 1) * 2 ^ shift := by rw [hfull]; ring
      _ = m * 2 ^ shift + 2 ^ shift := by ring

theorem unitsAt_lt_succ (place : Nat) : unitsAt place < unitsAt (place + 1) := by
  rw [unitsAt_succ]
  exact Nat.lt_add_of_pos_right (Nat.two_pow_pos _)

theorem unitsAt_strictMono : StrictMono unitsAt := strictMono_nat_of_lt_succ unitsAt_lt_succ

@[simp] theorem unitsAt_zero : unitsAt 0 = 0 := by decide

theorem unitsAt_pos {place : Nat} (h : place ≠ 0) : 0 < unitsAt place := by
  have := unitsAt_strictMono (Nat.pos_of_ne_zero h)
  rwa [unitsAt_zero] at this

theorem shiftAt_mono {place place' : Nat} (h : place ≤ place') : shiftAt place ≤ shiftAt place' :=
  Nat.sub_le_sub_right (Nat.div_le_div_right h) 1

theorem unitsAt_le_pred_add {place : Nat} (hplace : place ≠ 0) :
    unitsAt place ≤ unitsAt (place - 1) + 2 ^ shiftAt place := by
  obtain ⟨prev, rfl⟩ := Nat.exists_eq_succ_of_ne_zero hplace
  rw [Nat.succ_eq_add_one, Nat.add_sub_cancel, unitsAt_succ]
  exact Nat.add_le_add_left
    (Nat.pow_le_pow_right (by decide) (shiftAt_mono (Nat.le_succ prev))) _

theorem two_pow_shiftAt_dvd (place : Nat) : 2 ^ shiftAt place ∣ unitsAt place :=
  unitsAt_eq place ▸ Nat.dvd_mul_left ..

/-! ## The place below -/

theorem significand_of_units (units : Nat) :
    units >>> (units.log2 - 52) < 2 * binade ∧
      (units.log2 - 52 = 0 ∨ binade ≤ units >>> (units.log2 - 52)) := by
  rw [Nat.shiftRight_eq_div_pow]
  generalize hs : units.log2 - 52 = shift
  have hpow := Nat.two_pow_pos shift
  have hlt : units < 2 ^ (units.log2 + 1) := Nat.lt_log2_self
  constructor
  · rw [Nat.div_lt_iff_lt_mul hpow]
    calc units < 2 ^ (units.log2 + 1) := hlt
      _ ≤ 2 ^ (53 + shift) := Nat.pow_le_pow_right (by decide) (by omega)
      _ = 2 * binade * 2 ^ shift := by rw [pow_add]; rfl
  · by_cases hzero : shift = 0
    · exact Or.inl hzero
    · right
      have hne : units ≠ 0 := by
        rintro rfl
        simp at hs
        omega
      rw [Nat.le_div_iff_mul_le hpow]
      calc binade * 2 ^ shift = 2 ^ (52 + shift) := by rw [pow_add]; rfl
        _ = 2 ^ units.log2 := by congr 1; omega
        _ ≤ units := Nat.log2_self_le hne

theorem unitsAt_placeBelow_le (units : Nat) : unitsAt (placeBelow units) ≤ units := by
  obtain ⟨hm, h⟩ := significand_of_units units
  unfold placeBelow
  rw [unitsAt_mul_add hm h, Nat.shiftRight_eq_div_pow]
  exact Nat.div_mul_le_self ..

theorem lt_unitsAt_placeBelow_succ (units : Nat) : units < unitsAt (placeBelow units + 1) := by
  obtain ⟨hm, h⟩ := significand_of_units units
  unfold placeBelow
  rw [unitsAt_succ, shiftAt_mul_add hm h, unitsAt_mul_add hm h, Nat.shiftRight_eq_div_pow,
    ← Nat.succ_mul, ← Nat.div_lt_iff_lt_mul (Nat.two_pow_pos _)]
  exact Nat.lt_succ_self _

/-! ## The nearest place -/

theorem tinyPerUnit_pos : 0 < tinyPerUnit := by
  unfold tinyPerUnit
  decide +kernel

/-- The sum of a place's units and those of the place below, twice the middle between them. -/
def middleBelow (place : Nat) : Nat := unitsAt (place - 1) + unitsAt place

theorem middleBelow_succ (place : Nat) :
    middleBelow (place + 1) = unitsAt place + unitsAt (place + 1) := by
  rw [middleBelow, Nat.add_sub_cancel]

theorem middleBelow_pos {place : Nat} (h : place ≠ 0) : 0 < middleBelow place :=
  Nat.add_pos_right _ (unitsAt_pos h)

/-- Whether `num / den` units lie between the middles to the neighbours of a place, or on one of
them if the place is even. -/
structure Near (place num den : Nat) : Prop where
  above : middleBelow place * den ≤ 2 * num
  below : 2 * num ≤ middleBelow (place + 1) * den
  inside : place % 2 = 1 →
    middleBelow place * den < 2 * num ∧ 2 * num < middleBelow (place + 1) * den

theorem near_of_roundsTo {place t : Nat} (h : roundsTo place t) : Near place t tinyPerUnit := by
  simp only [roundsTo, tinyAt, ← Nat.add_mul, ← middleBelow_succ] at h
  rw [← middleBelow] at h
  split at h
  · next heven =>
    simp only [Bool.and_eq_true, decide_eq_true_eq] at h
    exact ⟨h.1, h.2, fun hodd => by omega⟩
  · simp only [Bool.and_eq_true, decide_eq_true_eq] at h
    exact ⟨Nat.le_of_lt h.1, Nat.le_of_lt h.2, fun _ => h⟩

theorem Near.congr {place num den num' den' : Nat} (h : Near place num den) (hden : 0 < den)
    (hden' : 0 < den') (heq : num * den' = num' * den) : Near place num' den' := by
  have hle : ∀ m, m * den ≤ 2 * num ↔ m * den' ≤ 2 * num' := fun m => by
    rw [← Nat.mul_le_mul_right_iff hden', Nat.mul_right_comm, Nat.mul_assoc 2, heq,
      ← Nat.mul_assoc 2, Nat.mul_le_mul_right_iff hden]
  have hge : ∀ m, 2 * num ≤ m * den ↔ 2 * num' ≤ m * den' := fun m => by
    rw [← Nat.mul_le_mul_right_iff hden', Nat.mul_right_comm m, Nat.mul_assoc 2, heq,
      ← Nat.mul_assoc 2, Nat.mul_le_mul_right_iff hden]
  refine ⟨(hle _).mp h.above, (hge _).mp h.below, fun hodd => ?_⟩
  obtain ⟨habove, hbelow⟩ := h.inside hodd
  rw [← Nat.not_le] at habove hbelow ⊢
  rw [← Nat.not_le]
  exact ⟨fun hc => habove ((hge _).mpr hc), fun hc => hbelow ((hle _).mpr hc)⟩

section
variable {place num den : Nat} (hden : 0 < den)
include hden

theorem middleBelow_le (h : unitsAt place * den ≤ num) :
    middleBelow place * den ≤ 2 * num ∧ (place % 2 = 1 → middleBelow place * den < 2 * num) := by
  have hprev : unitsAt (place - 1) ≤ unitsAt place := unitsAt_strictMono.monotone (Nat.sub_le ..)
  have hsum : middleBelow place * den ≤ 2 * unitsAt place * den :=
    Nat.mul_le_mul_right _ (by unfold middleBelow; omega)
  rw [Nat.mul_assoc] at hsum
  refine ⟨by omega, fun hodd => ?_⟩
  have hprev : unitsAt (place - 1) < unitsAt place :=
    unitsAt_strictMono (Nat.sub_one_lt (by omega))
  have hsum : middleBelow place * den < 2 * unitsAt place * den :=
    Nat.mul_lt_mul_of_pos_right (by unfold middleBelow; omega) hden
  rw [Nat.mul_assoc] at hsum
  omega

theorem lt_middleBelow_succ (h : num ≤ unitsAt place * den) :
    2 * num < middleBelow (place + 1) * den := by
  have hnext := unitsAt_lt_succ place
  have hsum : 2 * unitsAt place * den < middleBelow (place + 1) * den :=
    Nat.mul_lt_mul_of_pos_right (by rw [middleBelow_succ]; omega) hden
  rw [Nat.mul_assoc] at hsum
  omega

theorem near_self : Near place (unitsAt place * den) den := by
  obtain ⟨hle, hlt⟩ := middleBelow_le hden (Nat.le_refl (unitsAt place * den))
  have hbelow := lt_middleBelow_succ hden (Nat.le_refl (unitsAt place * den))
  exact ⟨hle, Nat.le_of_lt hbelow, fun hodd => ⟨hlt hodd, hbelow⟩⟩

end

theorem eq_or_succ_eq_of_near {place below num den : Nat} (hden : 0 < den)
    (h : Near place num den) (hlow : unitsAt below * den ≤ num)
    (hhigh : num < unitsAt (below + 1) * den) : below = place ∨ below + 1 = place := by
  rcases Nat.lt_trichotomy below place with hlt | heq | hgt
  · right
    by_contra hne
    have hnext : unitsAt (below + 1) ≤ unitsAt (place - 1) :=
      unitsAt_strictMono.monotone (by omega)
    have hself : unitsAt (below + 1) ≤ unitsAt place := unitsAt_strictMono.monotone hlt
    have hsum : 2 * unitsAt (below + 1) * den ≤ middleBelow place * den :=
      Nat.mul_le_mul_right _ (by unfold middleBelow; omega)
    have := h.above
    rw [Nat.mul_assoc] at hsum
    omega
  · exact Or.inl heq
  · have hnext : unitsAt (place + 1) ≤ unitsAt below := unitsAt_strictMono.monotone hgt
    have hself := unitsAt_lt_succ place
    have hsum : middleBelow (place + 1) * den < 2 * unitsAt below * den :=
      Nat.mul_lt_mul_of_pos_right (by rw [middleBelow_succ]; omega) hden
    have := h.below
    rw [Nat.mul_assoc] at hsum
    omega

theorem nearestPlace_eq_of_near {place num den : Nat} (hden : 0 < den)
    (h : Near place num den) : nearestPlace num den = place := by
  have hlow := unitsAt_placeBelow_le (num / den)
  have hhigh := lt_unitsAt_placeBelow_succ (num / den)
  rw [Nat.le_div_iff_mul_le hden] at hlow
  rw [Nat.div_lt_iff_lt_mul hden] at hhigh
  simp only [nearestPlace]
  generalize placeBelow (num / den) = below at *
  rw [← middleBelow_succ]
  rcases eq_or_succ_eq_of_near hden h hlow hhigh with rfl | rfl
  · have hle := h.below
    split
    · rfl
    · split
      · omega
      · -- a tie goes to the even place, and an odd place is near no middle
        split
        · rfl
        · have := h.inside (by omega)
          omega
  · have hle := h.above
    split
    · omega
    · split
      · rfl
      · split
        · have := h.inside (by omega)
          omega
        · rfl

theorem near_nearestPlace (num : Nat) {den : Nat} (hden : 0 < den) :
    Near (nearestPlace num den) num den := by
  have hlow := unitsAt_placeBelow_le (num / den)
  have hhigh := lt_unitsAt_placeBelow_succ (num / den)
  rw [Nat.le_div_iff_mul_le hden] at hlow
  rw [Nat.div_lt_iff_lt_mul hden] at hhigh
  simp only [nearestPlace]
  generalize placeBelow (num / den) = below at *
  rw [← middleBelow_succ]
  obtain ⟨hbelow, hodd⟩ := middleBelow_le hden hlow
  have habove := lt_middleBelow_succ hden (Nat.le_of_lt hhigh)
  split
  · next hlt => exact ⟨hbelow, Nat.le_of_lt hlt, fun h => ⟨hodd h, hlt⟩⟩
  · split
    · next hgt => exact ⟨Nat.le_of_lt hgt, Nat.le_of_lt habove, fun _ => ⟨hgt, habove⟩⟩
    · split
      · exact ⟨hbelow, by omega, fun h => by omega⟩
      · exact ⟨by omega, Nat.le_of_lt habove, fun h => by omega⟩

theorem ofRatio?_eq_some_iff {negative : Bool} {x : Binary64} {num den : Nat} (hden : 0 < den) :
    ofRatio? negative num den = some x ↔ x.negative = negative ∧ Near x.place num den := by
  simp only [ofRatio?]
  constructor
  · intro h
    split at h
    · cases h
      exact ⟨rfl, near_nearestPlace num hden⟩
    · cases h
  · rintro ⟨rfl, h⟩
    have hp := nearestPlace_eq_of_near hden h
    simp only [hp, x.place_lt, dite_true]

/-! ## Decimal numbers near a place -/

theorem one_eq {e : Nat} (he : e = 1074) : one = 2 ^ e := by
  subst he
  unfold one
  decide +kernel

theorem one_pos : 0 < one := by
  unfold one
  decide +kernel

theorem one_mul_tinyPerUnit : one * tinyPerUnit = Nat.pow 10 1074 := by
  unfold one tinyPerUnit
  decide +kernel

/-- A number with few places after the point keeps its units whole. -/
theorem ten_pow_mul_ten_pow {power places : Nat} (h : power + places = 1074) :
    Nat.pow 10 power * Nat.pow 10 places = one * tinyPerUnit := by
  rw [one_mul_tinyPerUnit, ← h]
  exact (Nat.pow_add 10 power places).symm

/-- Less than half a unit is near zero alone. -/
theorem near_iff_of_lt {place num den : Nat} (h : 2 * num < den) :
    Near place num den ↔ place = 0 := by
  constructor
  · intro hnear
    by_contra hplace
    have hone := Nat.le_mul_of_pos_left den (middleBelow_pos hplace)
    exact absurd hnear.above (by omega)
  · rintro rfl
    have hlow : middleBelow 0 = 0 := by decide
    have hhigh : middleBelow (0 + 1) = 1 := by decide
    refine ⟨by rw [hlow]; omega, by rw [hhigh]; omega, fun hodd => absurd hodd (by decide)⟩

/-- Digits vanish behind 400 places more than they have binary digits. -/
theorem two_mul_lt_ten_pow {digits places : Nat} (h : 400 + digits.log2 < places) :
    2 * (digits * one) < Nat.pow 10 places := by
  -- 10^places has more than 3 * places binary digits, the digits and 2^1075 not as many
  obtain ⟨e, he⟩ : ∃ e, e = 1074 := ⟨_, rfl⟩
  calc 2 * (digits * one) < 2 * (2 ^ (digits.log2 + 1) * one) :=
        Nat.mul_lt_mul_of_pos_left
          (Nat.mul_lt_mul_of_pos_right Nat.lt_log2_self one_pos) (by decide)
    _ = 2 ^ (digits.log2 + 1 + e + 1) := by rw [one_eq he]; ring
    _ ≤ 2 ^ (3 * places) := Nat.pow_le_pow_right (by decide) (by omega)
    _ = 8 ^ places := Nat.pow_mul 2 3 places
    _ ≤ Nat.pow 10 places := Nat.pow_le_pow_left (by decide) places

theorem unitsAt_lt_ten_pow {e : Nat} (he : e = 310) :
    unitsAt 0x7FF0000000000000 < Nat.pow 10 e * one := by
  subst he
  unfold one
  decide +kernel

/-- No place below 2^1024 is near 10^310. -/
theorem not_near_of_le {x : Binary64} {digits power : Nat} (hdigits : digits ≠ 0)
    (hpower : 310 ≤ power) : ¬ Near x.place (digits * Nat.pow 10 power * one) 1 := by
  intro hnear
  obtain ⟨e, he⟩ : ∃ e, e = 310 := ⟨_, rfl⟩
  have hbound := unitsAt_lt_ten_pow he
  have hnext : unitsAt (x.place + 1) ≤ unitsAt 0x7FF0000000000000 :=
    unitsAt_strictMono.monotone x.place_lt
  have hself := unitsAt_lt_succ x.place
  have hpow : Nat.pow 10 e * one ≤ digits * Nat.pow 10 power * one :=
    Nat.mul_le_mul_right _ (Nat.le_trans (Nat.pow_le_pow_right (by decide) (by omega))
      (Nat.le_mul_of_pos_left _ (Nat.pos_of_ne_zero hdigits)))
  have hbelow := hnear.below
  rw [middleBelow_succ] at hbelow
  omega

theorem zero_eq_iff {negative : Bool} {x : Binary64} :
    zero negative = x ↔ x.negative = negative ∧ x.place = 0 := by
  obtain ⟨negative', place, hlt⟩ := x
  simp only [zero, mk.injEq, eq_comm]

end Binary64

/-- Whether a number is the nearest to a decimal number: it has its sign, and no other magnitude is
nearer, nor as near in an even place. -/
def Decimal.RoundsTo (d : Decimal) (x : Binary64) : Prop :=
  x.negative = d.negative ∧
    Binary64.Near x.place (d.digits * Nat.pow 10 d.exponent.toNat * Binary64.one)
      (Nat.pow 10 (-d.exponent).toNat)

/-- Reading a decimal number finds the nearest number; the bounds on the power of ten decide no
other way than rounding does. -/
theorem Decimal.toBinary64?_eq_some_iff {d : Decimal} {x : Binary64} :
    d.toBinary64? = some x ↔ d.RoundsTo x := by
  have hpos : 0 < Nat.pow 10 (-d.exponent).toNat := Nat.pow_pos (by decide)
  unfold toBinary64? RoundsTo
  split
  · next hzero =>
    rw [Option.some_inj, Binary64.zero_eq_iff, Binary64.near_iff_of_lt]
    rw [hzero, Nat.zero_mul, Nat.zero_mul]
    exact hpos
  · next hdigits =>
    split
    · next hhuge =>
      have hnone := Binary64.not_near_of_le (x := x) hdigits
        (show 310 ≤ d.exponent.toNat by omega)
      rw [show (-d.exponent).toNat = 0 by omega, show Nat.pow 10 0 = 1 from rfl]
      exact iff_of_false nofun fun h => hnone h.2
    · split
      · next htiny =>
        rw [Option.some_inj, Binary64.zero_eq_iff, Binary64.near_iff_of_lt]
        rw [show d.exponent.toNat = 0 by omega, show Nat.pow 10 0 = 1 from rfl, Nat.mul_one]
        exact Binary64.two_mul_lt_ten_pow (by omega)
      · exact Binary64.ofRatio?_eq_some_iff hpos

namespace Binary64

theorem toBinary64?_of_near {x : Binary64} {digits power places : Nat}
    (hsum : power + places = 1074)
    (h : Near x.place (digits * Nat.pow 10 power) tinyPerUnit) :
    (⟨x.negative, digits, -(places : Int)⟩ : Decimal).toBinary64? = some x := by
  rw [Decimal.toBinary64?_eq_some_iff]
  refine ⟨rfl, ?_⟩
  rw [Int.toNat_neg_natCast, Int.neg_neg, Int.toNat_natCast]
  refine h.congr tinyPerUnit_pos (Nat.pow_pos (show 0 < 10 by decide)) ?_
  calc digits * Nat.pow 10 power * Nat.pow 10 places
      = digits * (Nat.pow 10 power * Nat.pow 10 places) := Nat.mul_assoc ..
    _ = digits * Nat.pow 10 0 * one * tinyPerUnit := by
      rw [ten_pow_mul_ten_pow hsum, show Nat.pow 10 0 = 1 from rfl, Nat.mul_one, Nat.mul_assoc]

/-! ## Whole numbers near a place -/

/-- Two multiples of a step that are at most half a step apart are equal. -/
theorem eq_of_double_le {p k l : Nat} (hp : 0 < p) (hkl : 2 * (p * k) ≤ 2 * (p * l) + p)
    (hlk : 2 * (p * l) ≤ 2 * (p * k) + p) : k = l := by
  rcases Nat.lt_trichotomy k l with h | h | h
  · have := Nat.mul_le_mul_left p h
    rw [Nat.mul_succ] at this
    omega
  · exact h
  · have := Nat.mul_le_mul_left p h
    rw [Nat.mul_succ] at this
    omega

/-- Only whole numbers are near to whole numbers. -/
theorem one_dvd_unitsAt_of_near {place n : Nat} (hplace : place ≠ 0) (h : Near place (n * one) 1) :
    one ∣ unitsAt place := by
  obtain ⟨e, he⟩ : ∃ e, e = 1074 := ⟨_, rfl⟩
  have hstep := Nat.two_pow_pos (shiftAt place)
  rcases Nat.lt_or_ge (shiftAt place) e with hlt | hge
  · -- the step to the neighbours divides the unit, so no whole number but itself is as near
    obtain ⟨k, hk⟩ := two_pow_shiftAt_dvd place
    obtain ⟨l, hl⟩ : 2 ^ shiftAt place ∣ n * one :=
      (one_eq he ▸ Nat.pow_dvd_pow 2 (Nat.le_of_lt hlt)).mul_left n
    have hprev := unitsAt_le_pred_add hplace
    have habove := h.above
    have hbelow := h.below
    rw [middleBelow, Nat.mul_one, hl] at habove
    rw [middleBelow_succ, Nat.mul_one, unitsAt_succ, hl] at hbelow
    have heq : k = l := eq_of_double_le hstep (by omega) (by omega)
    rw [hk, heq, ← hl]
    exact Nat.dvd_mul_left ..
  · rw [one_eq he]
    exact (Nat.pow_dvd_pow 2 hge).trans (two_pow_shiftAt_dvd place)

/-- The place of 2^63, the first integer that is none of 64 bits. -/
def beyondInt64 : Nat := 1086 * binade

theorem unitsAt_beyondInt64 : unitsAt beyondInt64 = 0x8000000000000000 * one := by
  unfold one
  decide +kernel

theorem lt_of_near_of_lt {place n : Nat} (hplace : beyondInt64 < place)
    (h : Near place (n * one) 1) : 0x8000000000000000 < n := by
  have hself : unitsAt beyondInt64 < unitsAt place := unitsAt_strictMono hplace
  have hprev : unitsAt beyondInt64 ≤ unitsAt (place - 1) :=
    unitsAt_strictMono.monotone (Nat.le_pred_of_lt hplace)
  have habove := h.above
  rw [middleBelow, Nat.mul_one] at habove
  rw [unitsAt_beyondInt64] at hself hprev
  refine Nat.lt_of_mul_lt_mul_right (a := one) ?_
  omega
end Binary64

end QueryFilter
