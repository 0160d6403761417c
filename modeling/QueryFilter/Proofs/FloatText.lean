import Mathlib.Data.List.TakeWhile
import QueryFilter.Proofs.Canonical
import QueryFilter.Proofs.Rounding

/-!
# Binary64 numbers read back from text

The shortest decimal of a number is near it, and the plain form of a decimal is read as that
decimal, so the plain form of a number is read as the number. A number that is no integer of 64
bits has no form that is read as one (`Scalar.number?_chars_display`).
-/

namespace QueryFilter

/-! ## Reading plain digits -/

namespace Chars

/-- Whether a character can stand in a number without a power of ten. -/
def IsNumeral (c : Char) : Prop := c.isDigit ∨ c = '.' ∨ c = '-'

instance : DecidablePred IsNumeral := fun _ => inferInstanceAs (Decidable (_ ∨ _))

theorem IsNumeral.isNumberChar {c : Char} (h : IsNumeral c) : Json.isNumberChar c := by
  rcases h with h | rfl | rfl
  · simp [Json.isNumberChar, h]
  · decide
  · decide

/-- A minus sign before the characters if asked. -/
def withSign (negative : Bool) (cs : List Char) : List Char := if negative then '-' :: cs else cs

theorem sign_withSign (negative : Bool) {cs : List Char} (h : ∀ c ∈ cs.head?, c.isDigit) :
    sign (withSign negative cs) = (negative, cs) := by
  cases negative with
  | true => rfl
  | false =>
    change sign cs = (false, cs)
    unfold sign
    split
    · exact absurd (h '-' rfl) (by decide)
    · exact absurd (h '+' rfl) (by decide)
    · rfl

theorem head?_append_isDigit {whole : List Char} (cs : List Char) (hne : whole ≠ [])
    (hwhole : ∀ c ∈ whole, c.isDigit) : ∀ c ∈ (whole ++ cs).head?, c.isDigit := by
  obtain ⟨c, rest, rfl⟩ := List.exists_cons_of_ne_nil hne
  intro c' hc'
  rw [List.cons_append, List.head?_cons, Option.mem_some_iff] at hc'
  exact hc' ▸ hwhole c (List.mem_cons_self ..)

theorem natural?_eq_none {radix : Nat} {cs : List Char} {c : Char} (hc : c ∈ cs)
    (hdigit : digit? radix c = none) : natural? radix cs = none := by
  have hfold : ∀ (cs : List Char) (n : Nat), c ∈ cs →
      cs.foldlM (fun n c => (digit? radix c).map (radix * n + ·)) n = none := by
    intro cs
    induction cs with
    | nil => intro n h; cases h
    | cons c' cs ih =>
      intro n h
      rw [List.foldlM_cons]
      rcases List.mem_cons.mp h with rfl | h
      · rw [hdigit]; rfl
      · cases digit? radix c' with
        | none => rfl
        | some m => exact ih _ h
  unfold natural?
  split
  · rfl
  · exact hfold cs 0 hc

/-- A run of characters ends where one follows that is not of its kind. -/
theorem span_append {kind : Char → Bool} {run rest : List Char} (hrun : ∀ c ∈ run, kind c)
    (hrest : ∀ c ∈ rest.head?, ¬ kind c) :
    (run ++ rest).takeWhile kind = run ∧ (run ++ rest).dropWhile kind = rest := by
  rw [List.takeWhile_append_of_pos hrun, List.dropWhile_append_of_pos hrun]
  cases rest with
  | nil => exact ⟨List.append_nil _, rfl⟩
  | cons c rest =>
    rw [List.takeWhile_cons_of_neg (hrest c rfl), List.dropWhile_cons_of_neg (hrest c rfl)]
    exact ⟨List.append_nil _, rfl⟩

/-- What is left after a run begins with no character of its kind. -/
theorem not_of_mem_head?_dropWhile {kind : Char → Bool} {cs : List Char} {c : Char}
    (hc : c ∈ (cs.dropWhile kind).head?) : ¬ kind c := by
  have hnot := List.head?_dropWhile_not kind cs
  rw [Option.mem_def.mp hc] at hnot
  exact ne_true_of_eq_false hnot

end Chars

namespace Decimal

section
variable {cs whole power : List Char} {fraction : Option (List Char)}

/-- Digits, perhaps a point with digits, and what follows are found as they were written. -/
theorem mantissa_append (fraction : Option (List Char)) (power : List Char)
    (hwhole : ∀ c ∈ whole, c.isDigit) (hfraction : ∀ c ∈ fraction.getD [], c.isDigit)
    (hpower : ∀ c ∈ power.head?, ¬ c.isDigit ∧ c ≠ '.') :
    mantissa (whole ++ (fraction.elim [] ('.' :: ·) ++ power)) = (whole, fraction, power) := by
  cases fraction with
  | none =>
    obtain ⟨htake, hdrop⟩ := Chars.span_append hwhole fun c hc => (hpower c hc).1
    rw [Option.elim_none, List.nil_append, mantissa, htake, hdrop]
    split
    · exact absurd rfl (hpower '.' rfl).2
    · rfl
  | some fraction =>
    have hpoint : ∀ c ∈ ('.' :: fraction ++ power).head?, ¬ c.isDigit := by
      rintro c ⟨⟩
      decide
    obtain ⟨htake, hdrop⟩ := Chars.span_append hwhole hpoint
    rw [Option.getD_some] at hfraction
    obtain ⟨htake', hdrop'⟩ := Chars.span_append hfraction fun c hc => (hpower c hc).1
    rw [Option.elim_some, mantissa, htake, hdrop]
    simp only [List.cons_append, htake', hdrop']

theorem eq_of_mantissa (h : mantissa cs = (whole, fraction, power)) :
    whole ++ (fraction.elim [] ('.' :: ·) ++ power) = cs ∧ (∀ c ∈ whole, c.isDigit) ∧
      ∀ c ∈ fraction.getD [], c.isDigit := by
  have hsplit := List.takeWhile_append_dropWhile (p := Char.isDigit) (l := cs)
  have hwhole : ∀ c ∈ cs.takeWhile Char.isDigit, c.isDigit := fun _ => List.mem_takeWhile_imp
  unfold mantissa at h
  split at h
  · next rest hrest =>
    cases h
    refine ⟨?_, hwhole, fun _ => List.mem_takeWhile_imp⟩
    rw [Option.elim_some, List.cons_append, List.takeWhile_append_dropWhile, ← hrest, hsplit]
  · cases h
    exact ⟨hsplit, hwhole, List.forall_mem_nil _⟩

end

theorem mantissa_of_isDigit {cs : List Char} (h : ∀ c ∈ cs, c.isDigit) :
    mantissa cs = (cs, none, []) := by
  have hmantissa := mantissa_append none [] h (List.forall_mem_nil _) nofun
  rwa [Option.elim_none, List.append_nil, List.append_nil] at hmantissa

section
variable {whole fraction : List Char} (negative : Bool) (hne : whole ≠ [])
  (hwhole : ∀ c ∈ whole, c.isDigit) (hfraction : ∀ c ∈ fraction, c.isDigit)
include hne hwhole

theorem ofChars?_digits :
    ofChars? (Chars.withSign negative whole) =
      some ⟨negative, Nat.ofDigitChars 10 whole 0, 0⟩ := by
  have hhead := Chars.head?_append_isDigit [] hne hwhole
  rw [List.append_nil] at hhead
  unfold ofChars?
  rw [Chars.sign_withSign negative hhead]
  simp [mantissa_of_isDigit hwhole, hne, exponent?, ofParts]

include hfraction

theorem ofChars?_point :
    ofChars? (Chars.withSign negative (whole ++ '.' :: fraction)) =
      some ⟨negative, Nat.ofDigitChars 10 (whole ++ fraction) 0, -(fraction.length : Int)⟩ := by
  have hhead := Chars.head?_append_isDigit ('.' :: fraction) hne hwhole
  have hmantissa := mantissa_append (some fraction) [] hwhole hfraction nofun
  rw [Option.elim_some, List.append_nil] at hmantissa
  unfold ofChars?
  rw [Chars.sign_withSign negative hhead]
  simp [hmantissa, hne, exponent?, ofParts]

end
end Decimal

namespace Integer

theorem ofDecimal?_digits (negative : Bool) {whole : List Char} (hne : whole ≠ [])
    (hwhole : ∀ c ∈ whole, c.isDigit) :
    ofDecimal? (Chars.withSign negative whole) =
      int64? (signed negative (Nat.ofDigitChars 10 whole 0)) := by
  have hhead := Chars.head?_append_isDigit [] hne hwhole
  rw [List.append_nil] at hhead
  rw [ofDecimal?, Chars.sign_withSign negative hhead]
  simp only [Chars.natural?_of_isDigit hne hwhole, Option.bind_some]

theorem ofDecimal?_point (negative : Bool) {whole : List Char} (fraction : List Char)
    (hne : whole ≠ []) (hwhole : ∀ c ∈ whole, c.isDigit) :
    ofDecimal? (Chars.withSign negative (whole ++ '.' :: fraction)) = none := by
  have hhead := Chars.head?_append_isDigit ('.' :: fraction) hne hwhole
  have hpoint : '.' ∈ whole ++ '.' :: fraction := List.mem_append_cons_self
  rw [ofDecimal?, Chars.sign_withSign negative hhead]
  simp only [Chars.natural?_eq_none hpoint (show Chars.digit? 10 '.' = none by decide),
    Option.bind_none]

theorem ofMarked?_eq_none {cs : List Char} (h : ∀ c ∈ cs, Json.isNumberChar c) :
    ofMarked? cs = none := by
  have hmark : ∀ mark, Json.isNumberChar mark → radix? mark = none := by
    intro mark hmark
    unfold radix?
    split <;> first | rfl | exact absurd hmark (by decide)
  unfold ofMarked?
  split
  · next mark digits =>
    rw [hmark mark (h mark (by simp)), Option.bind_none]
  · rfl

end Integer

/-! ## The plain form -/

namespace Decimal

theorem isDigit_toDigits (n : Nat) : ∀ c ∈ Nat.toDigits 10 n, c.isDigit := fun _ hc =>
  Nat.isDigit_of_mem_toDigits (by decide) (by decide) hc

/-- A whole number is written by digits alone. -/
theorem digits_of_plainChars {d : Decimal} (h : 0 ≤ d.exponent) :
    d.plainChars false ≠ [] ∧ (∀ c ∈ d.plainChars false, c.isDigit) ∧
      Nat.ofDigitChars 10 (d.plainChars false) 0 = d.digits * Nat.pow 10 d.exponent.toNat := by
  have hplain : d.plainChars false =
      Nat.toDigits 10 d.digits ++ List.replicate d.exponent.toNat '0' := by
    simp [plainChars, h]
  rw [hplain]
  refine ⟨by simp [Nat.toDigits_ne_nil], ?_, ?_⟩
  · intro c hc
    rcases List.mem_append.mp hc with hc | hc
    · exact isDigit_toDigits _ c hc
    · rw [List.eq_of_mem_replicate hc]
      decide
  · rw [Nat.ofDigitChars_append, Nat.ofDigitChars_ten_toDigits, Nat.ofDigitChars_replicate_zero,
      Nat.mul_comm]
    rfl

/-- Any other number is written with a point before as many digits as it has places. -/
theorem exists_point_of_plainChars {d : Decimal} (h : d.exponent < 0) :
    ∃ whole fraction, d.plainChars false = whole ++ '.' :: fraction ∧ whole ≠ [] ∧
      (∀ c ∈ whole, c.isDigit) ∧ (∀ c ∈ fraction, c.isDigit) ∧
      Nat.ofDigitChars 10 (whole ++ fraction) 0 = d.digits ∧
      fraction.length = (-d.exponent).toNat := by
  generalize hplaces : (-d.exponent).toNat = places
  -- zeros before the digits leave one digit at least before the point
  generalize hpadded : List.replicate (places + 1 - (Nat.toDigits 10 d.digits).length) '0' ++
    Nat.toDigits 10 d.digits = padded
  have hlength : places + 1 ≤ padded.length := by
    rw [← hpadded, List.length_append, List.length_replicate]
    omega
  have hdigits : ∀ c ∈ padded, c.isDigit := by
    intro c hc
    rw [← hpadded] at hc
    rcases List.mem_append.mp hc with hc | hc
    · rw [List.eq_of_mem_replicate hc]
      decide
    · exact isDigit_toDigits _ c hc
  refine ⟨padded.take (padded.length - places), padded.drop (padded.length - places),
    ?_, ?_, fun c hc => hdigits c (List.mem_of_mem_take hc),
    fun c hc => hdigits c (List.mem_of_mem_drop hc), ?_, ?_⟩
  · simp [plainChars, Int.not_le.mpr h, hplaces, hpadded]
  · intro hnil
    have := congrArg List.length hnil
    rw [List.length_take, List.length_nil] at this
    omega
  · rw [List.take_append_drop, ← hpadded, Nat.ofDigitChars_append,
      Nat.ofDigitChars_replicate_zero, Nat.mul_zero, Nat.ofDigitChars_ten_toDigits]
  · rw [List.length_drop]
    omega

end Decimal

/-! ## The shortest decimal -/

namespace Binary64

theorem near_tinyAt (place : Nat) : Near place (tinyAt place) tinyPerUnit :=
  near_self tinyPerUnit_pos

theorem near_of_onGrid? {tie : Tie} {place j digits : Nat}
    (h : onGrid? tie place j = some digits) :
    Near place (digits * Nat.pow 10 j) tinyPerUnit := by
  simp only [onGrid?] at h
  split at h
  · next hlow =>
    rw [Bool.and_eq_true, Bool.or_eq_true, decide_eq_true_eq] at hlow
    rw [← Option.some.inj h]
    rcases hlow.1 with hrest | hrounds
    · rw [Nat.div_mul_cancel (Nat.dvd_of_mod_eq_zero hrest)]
      exact near_tinyAt place
    · exact near_of_roundsTo hrounds
  · split at h
    · next hhigh =>
      rw [← Option.some.inj h]
      exact near_of_roundsTo hhigh
    · cases h

theorem near_coarsest (tie : Tie) (place j : Nat) :
    Near place ((coarsest tie place j).1 * Nat.pow 10 (coarsest tie place j).2) tinyPerUnit := by
  induction j with
  | zero =>
    rw [coarsest, show Nat.pow 10 0 = 1 from rfl, Nat.mul_one]
    exact near_tinyAt place
  | succ j ih =>
    rw [coarsest]
    cases h : onGrid? tie place (j + 1) with
    | some digits => exact near_of_onGrid? h
    | none => exact ih

theorem near_shortest (tie : Tie) {x : Binary64} (hplace : x.place ≠ 0) :
    ∃ power : Nat, (x.shortest tie).exponent = (power : Int) - 1074 ∧
      Near x.place ((x.shortest tie).digits * Nat.pow 10 power) tinyPerUnit := by
  have hnear := near_coarsest tie x.place (topPower (tinyAt x.place))
  -- the point gets a name, so that no check runs the search for it
  obtain ⟨point, hpoint⟩ : ∃ point, coarsest tie x.place (topPower (tinyAt x.place)) = point :=
    ⟨_, rfl⟩
  unfold shortest
  rw [hpoint] at hnear
  rw [if_neg hplace, hpoint]
  exact ⟨point.2, rfl, hnear⟩

theorem chars_display (x : Binary64) :
    x.chars .display = Chars.withSign x.negative ((x.shortest .up).plainChars false) := rfl

/-! ## Numbers that are no integers of 64 bits -/

theorem int64?_eq_none_of_near {x : Binary64} {n : Nat} (hplace : x.place ≠ 0)
    (hint : ¬ x.IsInt64) (hx : x.place = beyondInt64 → x.negative)
    (h : Near x.place (n * one) 1) : int64? (signed x.negative n) = none := by
  obtain ⟨m, hm⟩ := one_dvd_unitsAt_of_near hplace h
  have hvalue : x.toInt? = some (signed x.negative m) := by
    rw [toInt?, units, hm, Nat.mul_mod_right, if_pos rfl, Nat.mul_div_cancel_left m one_pos]
  have hrange : ¬ (-0x8000000000000000 ≤ signed x.negative m ∧
      signed x.negative m < 0x8000000000000000) := fun hr => hint ⟨_, hvalue, hr⟩
  have hle : beyondInt64 ≤ x.place ↔ 0x8000000000000000 ≤ m := by
    rw [← unitsAt_strictMono.le_iff_le, hm, unitsAt_beyondInt64, Nat.mul_comm one m,
      Nat.mul_le_mul_right_iff one_pos]
  have hlt : x.place ≤ beyondInt64 ↔ m ≤ 0x8000000000000000 := by
    rw [← unitsAt_strictMono.le_iff_le, hm, unitsAt_beyondInt64, Nat.mul_comm one m,
      Nat.mul_le_mul_right_iff one_pos]
  -- the value is beyond the range; the number that it is written as is only near the value
  have hbeyond : beyondInt64 < x.place := by
    unfold signed at hrange
    split at hrange
    · omega
    · next hpos =>
      have : x.place ≠ beyondInt64 := fun he => hpos (hx he)
      omega
  have hn := lt_of_near_of_lt hbeyond h
  rw [int64?_eq_none_iff]
  unfold signed
  split <;> omega

theorem isInt64_of_place_eq_zero {x : Binary64} (h : x.place = 0) : x.IsInt64 := by
  have hvalue : x.toInt? = some (signed x.negative 0) := by
    rw [toInt?, units, h, unitsAt_zero, Nat.zero_mod, if_pos rfl, Nat.zero_div]
  refine ⟨_, hvalue, ?_⟩
  cases x.negative <;> decide

theorem isNumeral_of_mem_display {x : Binary64} {c : Char} (hc : c ∈ x.chars .display) :
    Chars.IsNumeral c := by
  have hplain : ∀ c ∈ (x.shortest .up).plainChars false, c.isDigit ∨ c = '.' := by
    intro c hc
    rcases Int.lt_or_le (x.shortest .up).exponent 0 with h | h
    · obtain ⟨whole, fraction, heq, _, hwhole, hfraction, _⟩ := Decimal.exists_point_of_plainChars h
      rw [heq] at hc
      rcases List.mem_append.mp hc with hc | hc
      · exact Or.inl (hwhole c hc)
      · rcases List.mem_cons.mp hc with hc | hc
        · exact Or.inr hc
        · exact Or.inl (hfraction c hc)
    · exact Or.inl ((Decimal.digits_of_plainChars h).2.1 c hc)
  rw [chars_display, Chars.withSign] at hc
  split at hc
  · rcases List.mem_cons.mp hc with hc | hc
    · exact Or.inr (Or.inr hc)
    · exact (hplain c hc).imp_right Or.inl
  · exact (hplain c hc).imp_right Or.inl

section
variable {x : Binary64} {power : Nat} (hexponent : (x.shortest .up).exponent = (power : Int) - 1074)
  (hnear : Near x.place ((x.shortest .up).digits * Nat.pow 10 power) tinyPerUnit)
include hexponent hnear

theorem read_display_point (h : (x.shortest .up).exponent < 0) :
    Integer.ofDecimal? (x.chars .display) = none ∧
      (Decimal.ofChars? (x.chars .display)).bind Decimal.toBinary64? = some x := by
  obtain ⟨whole, fraction, heq, hne, hwhole, hfraction, hdigits, hlength⟩ :=
    Decimal.exists_point_of_plainChars h
  have hsum : power + fraction.length = 1074 := by omega
  rw [chars_display, heq, Decimal.ofChars?_point x.negative hne hwhole hfraction, hdigits]
  exact ⟨Integer.ofDecimal?_point x.negative fraction hne hwhole,
    toBinary64?_of_near hsum hnear⟩

theorem read_display_whole (hplace : x.place ≠ 0) (hint : ¬ x.IsInt64)
    (hx : x.place = beyondInt64 → x.negative) (h : 0 ≤ (x.shortest .up).exponent) :
    Integer.ofDecimal? (x.chars .display) = none ∧
      (Decimal.ofChars? (x.chars .display)).bind Decimal.toBinary64? = some x := by
  obtain ⟨hne, hdigits, hvalue⟩ := Decimal.digits_of_plainChars h
  -- the power is named, lest 10^1074 be written out
  obtain ⟨unit, hunit⟩ : ∃ unit, unit + 0 = 1074 := ⟨_, rfl⟩
  have hsum : (x.shortest .up).exponent.toNat + unit = power := by omega
  generalize hn : (x.shortest .up).digits * Nat.pow 10 (x.shortest .up).exponent.toNat = n at *
  have htiny : Near x.place (n * Nat.pow 10 unit) tinyPerUnit := by
    have hpow : Nat.pow 10 power = Nat.pow 10 (x.shortest .up).exponent.toNat * Nat.pow 10 unit :=
      hsum ▸ Nat.pow_add ..
    rw [hpow, ← Nat.mul_assoc, hn] at hnear
    exact hnear
  have hwhole : Near x.place (n * one) 1 := by
    refine htiny.congr tinyPerUnit_pos Nat.one_pos ?_
    rw [Nat.mul_one, Nat.mul_assoc, ← ten_pow_mul_ten_pow hunit, show Nat.pow 10 0 = 1 from rfl,
      Nat.mul_one]
  rw [chars_display, Decimal.ofChars?_digits x.negative hne hdigits,
    Integer.ofDecimal?_digits x.negative hne hdigits, hvalue]
  exact ⟨int64?_eq_none_of_near hplace hint hx hwhole, toBinary64?_of_near hunit htiny⟩

end

end Binary64

/-- A number that is no integer of 64 bits is read back from its plain form. -/
theorem Scalar.number?_chars_display {x : Binary64} (hint : ¬ x.IsInt64) :
    Scalar.number? (x.chars .display) = some (.float x) := by
  have hplace : x.place ≠ 0 := fun h => hint (Binary64.isInt64_of_place_eq_zero h)
  by_cases hx : x.place = Binary64.beyondInt64 → x.negative
  · obtain ⟨power, hexponent, hnear⟩ := Binary64.near_shortest .up hplace
    have hread : Integer.ofDecimal? (x.chars .display) = none ∧
        (Decimal.ofChars? (x.chars .display)).bind Decimal.toBinary64? = some x := by
      rcases Int.lt_or_le (x.shortest .up).exponent 0 with h | h
      · exact Binary64.read_display_point hexponent hnear h
      · exact Binary64.read_display_whole hexponent hnear hplace hint hx h
    have hmarked : Integer.ofMarked? (x.chars .display) = none :=
      Integer.ofMarked?_eq_none fun _ hc => (Binary64.isNumeral_of_mem_display hc).isNumberChar
    rw [Scalar.number?, hmarked, hread.1, hread.2, Option.map_some,
      Scalar.ofBinary64_eq_float hint]
  · -- the shortest form of 2^63 alone could be that of a smaller integer; it is a larger one
    obtain ⟨negative, place, hlt⟩ := x
    simp only [Classical.not_imp, Bool.not_eq_true] at hx
    obtain ⟨rfl, rfl⟩ := hx
    clear hint hplace
    revert hlt
    decide +kernel

end QueryFilter
