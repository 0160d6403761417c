import Mathlib.Data.Nat.Digits.Defs
import QueryFilter.Proofs.NumberTokens

/-!
# The texts that are numbers

A number is written as a decimal numeral or with a radix mark. Both are described by their parts,
and each reader accepts exactly what the parts write: the reader of decimal numbers every numeral
(`Decimal.ofChars?_eq_some_iff`), the reader of integers those without a point and a power
(`Integer.isSome_ofDecimal?_iff`), and the reader of radix marks the marked ones
(`Integer.isSome_ofMarked?_iff`). The scalars of a text follow (`Scalar.ofText_kinds`).
-/

namespace QueryFilter

/-! ## Signs -/

/-- A sign as it is written. -/
inductive Sign where
  | absent
  | plus
  | minus

namespace Sign

def chars : Sign → List Char
  | absent => []
  | plus => ['+']
  | minus => ['-']

def negative : Sign → Bool
  | minus => true
  | _ => false

/-- A sign is taken off; where none is written, the text must not look like one. -/
theorem sign_append (s : Sign) {cs : List Char}
    (h : s = absent → ∀ c ∈ cs.head?, c ≠ '+' ∧ c ≠ '-') :
    Chars.sign (s.chars ++ cs) = (s.negative, cs) := by
  cases s with
  | plus => rfl
  | minus => rfl
  | absent =>
    change Chars.sign cs = (false, cs)
    unfold Chars.sign
    split
    · exact absurd rfl (h rfl '-' rfl).2
    · exact absurd rfl (h rfl '+' rfl).1
    · rfl

/-- At most one sign is taken off, and one if there is one. -/
theorem exists_sign (cs : List Char) :
    ∃ s : Sign, s.chars ++ (Chars.sign cs).2 = cs ∧ s.negative = (Chars.sign cs).1 ∧
      (s = absent → ∀ c ∈ (Chars.sign cs).2.head?, c ≠ '+' ∧ c ≠ '-') := by
  unfold Chars.sign
  split
  · exact ⟨minus, rfl, rfl, nofun⟩
  · exact ⟨plus, rfl, rfl, nofun⟩
  · next hminus hplus =>
    refine ⟨absent, rfl, rfl, fun _ c hc => ?_⟩
    obtain ⟨rest, hrest⟩ := List.head?_eq_some_iff.mp hc
    constructor
    · rintro rfl
      exact hplus rest hrest
    · rintro rfl
      exact hminus rest hrest

theorem isNumberChar_of_mem {s : Sign} {c : Char} (h : c ∈ s.chars) : Json.isNumberChar c := by
  cases s with
  | absent => cases h
  | plus => exact List.mem_singleton.mp h ▸ rfl
  | minus => exact List.mem_singleton.mp h ▸ rfl

end Sign

/-! ## Digits -/

namespace Chars

theorem isNumberChar_of_isDigit {c : Char} (h : c.isDigit) : Json.isNumberChar c :=
  IsNumeral.isNumberChar (Or.inl h)

theorem not_sign_of_isDigit {c : Char} (h : c.isDigit) : c ≠ '+' ∧ c ≠ '-' := by
  constructor
  · rintro rfl
    exact absurd h (by decide)
  · rintro rfl
    exact absurd h (by decide)

theorem natural?_ten_eq_some_iff {cs : List Char} {n : Nat} :
    natural? 10 cs = some n ↔
      cs ≠ [] ∧ (∀ c ∈ cs, c.isDigit) ∧ Nat.ofDigitChars 10 cs 0 = n := by
  constructor
  · intro h
    have hne : cs ≠ [] := by
      rintro rfl
      cases h
    have hdigits : ∀ c ∈ cs, c.isDigit := by
      by_contra hdigits
      rw [natural?_ten_eq_none hdigits] at h
      cases h
    rw [natural?_of_isDigit hne hdigits] at h
    exact ⟨hne, hdigits, Option.some.inj h⟩
  · rintro ⟨hne, hdigits, rfl⟩
    exact natural?_of_isDigit hne hdigits

/-- Whether a character is the digit of this value in a radix; letters may be of either case. -/
def IsDigitOf (radix : Nat) (c : Char) (value : Nat) : Prop :=
  value < radix ∧ (c = value.digitChar ∨ c = value.digitChar.toUpper)

theorem toNat_digitChar :
    ∀ value < 16, value.digitChar.toNat = if value < 10 then value + 48 else value + 87 := by
  decide

theorem toNat_toUpper_digitChar :
    ∀ value < 16, value.digitChar.toUpper.toNat = if value < 10 then value + 48 else value + 55 := by
  decide

theorem digit?_eq_some_iff {radix value : Nat} {c : Char} (hradix : radix ≤ 16) :
    digit? radix c = some value ↔ IsDigitOf radix c value := by
  simp only [digit?, Option.filter_eq_some_iff, decide_eq_true_iff, IsDigitOf, ← Char.toNat_inj]
  rw [and_comm]
  refine and_congr_right fun hvalue => ?_
  rw [toNat_digitChar value (by omega), toNat_toUpper_digitChar value (by omega)]
  by_cases hten : value < 10
  · grind
  · grind

theorem foldlM_digit?_eq_some_iff {radix : Nat} (hradix : radix ≤ 16) {cs : List Char} {m n : Nat} :
    cs.foldlM (fun n c => (digit? radix c).map (radix * n + ·)) m = some n ↔
      ∃ ds : List (Char × Nat), ds.map Prod.fst = cs ∧ (∀ d ∈ ds, IsDigitOf radix d.1 d.2) ∧
        (ds.map Prod.snd).foldl (fun n value => value + radix * n) m = n := by
  induction cs generalizing m with
  | nil => simp
  | cons c cs ih =>
    rw [List.foldlM_cons, Option.bind_eq_bind, Option.bind_eq_some_iff]
    constructor
    · rintro ⟨_, hfirst, hrest⟩
      obtain ⟨value, hvalue, rfl⟩ := Option.map_eq_some_iff.mp hfirst
      obtain ⟨ds, rfl, hds, hn⟩ := ih.mp hrest
      rw [digit?_eq_some_iff hradix] at hvalue
      rw [Nat.add_comm] at hn
      exact ⟨(c, value) :: ds, rfl, List.forall_mem_cons.mpr ⟨hvalue, hds⟩, hn⟩
    · rintro ⟨ds, hcs, hds, hn⟩
      obtain ⟨⟨_, value⟩, ds, rfl, rfl, rfl⟩ := List.map_eq_cons_iff.mp hcs
      rw [List.forall_mem_cons] at hds
      refine ⟨radix * m + value, ?_, ih.mpr ⟨ds, rfl, hds.2, ?_⟩⟩
      · rw [(digit?_eq_some_iff hradix).mpr hds.1, Option.map_some]
      · rw [Nat.add_comm]
        exact hn

/-- Digits of a radix are read as the number that they write. -/
theorem natural?_eq_some_iff {radix n : Nat} (hradix : radix ≤ 16) {cs : List Char} :
    natural? radix cs = some n ↔
      ∃ ds : List (Char × Nat), ds.map Prod.fst = cs ∧ ds ≠ [] ∧
        (∀ d ∈ ds, IsDigitOf radix d.1 d.2) ∧ Nat.ofDigits radix (ds.map Prod.snd).reverse = n := by
  have hvalue : ∀ vs : List Nat,
      Nat.ofDigits radix vs.reverse = vs.foldl (fun n value => value + radix * n) 0 := fun vs => by
    rw [Nat.ofDigits_eq_foldr, List.foldr_reverse]
    rfl
  unfold natural?
  split
  · next hnil =>
    refine iff_of_false nofun ?_
    rintro ⟨ds, hcs, hne, -⟩
    exact hne (List.map_eq_nil_iff.mp (hcs.trans hnil))
  · next hne =>
    rw [foldlM_digit?_eq_some_iff hradix]
    simp only [hvalue]
    refine exists_congr fun ds => and_congr_right fun hcs => ?_
    have hds : ds ≠ [] := by
      rintro rfl
      exact hne hcs.symm
    exact (and_iff_right hds).symm

end Chars

/-! ## Numbers with a radix mark -/

namespace Integer

/-- The letters after a zero with the radices that they announce. -/
def marks : List (Char × Nat) := [('x', 16), ('X', 16), ('o', 8), ('O', 8), ('b', 2), ('B', 2)]

/-- A number as it is written with a radix mark: a zero, the mark, and digits with their values. -/
structure Marked where
  mark : Char
  radix : Nat
  digits : List (Char × Nat)
  mark_mem : (mark, radix) ∈ marks
  digits_ne_nil : digits ≠ []
  isDigitOf : ∀ d ∈ digits, Chars.IsDigitOf radix d.1 d.2

namespace Marked

def chars (m : Marked) : List Char := '0' :: m.mark :: m.digits.map Prod.fst

def value (m : Marked) : Nat := Nat.ofDigits m.radix (m.digits.map Prod.snd).reverse

end Marked

theorem radix?_eq_some_iff {c : Char} {radix : Nat} : radix? c = some radix ↔ (c, radix) ∈ marks := by
  constructor
  · intro h
    unfold radix? at h
    split at h
    all_goals cases h
    all_goals decide
  · intro h
    have hmarks : ∀ p ∈ marks, radix? p.1 = some p.2 := by decide
    exact hmarks _ h

theorem radix_le_of_mem_marks {c : Char} {radix : Nat} (h : (c, radix) ∈ marks) : radix ≤ 16 := by
  have hmarks : ∀ p ∈ marks, p.2 ≤ 16 := by decide
  exact hmarks _ h

theorem ofMarked?_eq_some_iff {cs : List Char} {n : Int64} :
    ofMarked? cs = some n ↔ ∃ m : Marked, m.chars = cs ∧ int64? m.value = some n := by
  constructor
  · intro h
    unfold ofMarked? at h
    split at h
    · next mark digits =>
      obtain ⟨radix, hradix, h⟩ := Option.bind_eq_some_iff.mp h
      obtain ⟨value, hvalue, h⟩ := Option.bind_eq_some_iff.mp h
      rw [radix?_eq_some_iff] at hradix
      obtain ⟨ds, rfl, hne, hds, rfl⟩ :=
        (Chars.natural?_eq_some_iff (radix_le_of_mem_marks hradix)).mp hvalue
      exact ⟨⟨mark, radix, ds, hradix, hne, hds⟩, rfl, h⟩
    · cases h
  · rintro ⟨m, rfl, h⟩
    have hvalue : Chars.natural? m.radix (m.digits.map Prod.fst) = some m.value :=
      (Chars.natural?_eq_some_iff (radix_le_of_mem_marks m.mark_mem)).mpr
        ⟨m.digits, rfl, m.digits_ne_nil, m.isDigitOf, rfl⟩
    rw [Marked.chars, ofMarked?, radix?_eq_some_iff.mpr m.mark_mem, Option.bind_some, hvalue,
      Option.bind_some, h]

end Integer

/-! ## Decimal numerals -/

/-- A power of ten as it is written: `[eE][+-]?digits`. -/
structure Power where
  mark : Char
  sign : Sign
  digits : List Char
  mark_eq : mark = 'e' ∨ mark = 'E'
  digits_ne_nil : digits ≠ []
  isDigit : ∀ c ∈ digits, c.isDigit

namespace Power

def chars (p : Power) : List Char := p.mark :: (p.sign.chars ++ p.digits)

def exponent (p : Power) : Int := signed p.sign.negative (Nat.ofDigitChars 10 p.digits 0)

end Power

/-- A decimal number as it is written: `[+-]?(digits[.digits*] | .digits)([eE][+-]?digits)?`. -/
structure Numeral where
  sign : Sign
  whole : List Char
  /-- The digits after the point, if there is a point. -/
  fraction : Option (List Char)
  power : Option Power
  digits_ne_nil : whole ≠ [] ∨ fraction.getD [] ≠ []
  isDigit_whole : ∀ c ∈ whole, c.isDigit
  isDigit_fraction : ∀ c ∈ fraction.getD [], c.isDigit

namespace Numeral

/-- What follows the digits before the point. -/
def tailChars (fraction : Option (List Char)) (power : Option Power) : List Char :=
  fraction.elim [] ('.' :: ·) ++ power.elim [] Power.chars

def unsigned (n : Numeral) : List Char := n.whole ++ tailChars n.fraction n.power

def chars (n : Numeral) : List Char := n.sign.chars ++ n.unsigned

/-- The number that is written. -/
def decimal (n : Numeral) : Decimal :=
  .ofParts n.sign.negative n.whole (n.fraction.getD []) (n.power.elim 0 Power.exponent)

/-- Whether nothing but digits follow the sign. -/
def IsPlain (n : Numeral) : Prop := n.fraction = none ∧ n.power = none

/-- The digits before the point with the sign. -/
def integer (n : Numeral) : Int := signed n.sign.negative (Nat.ofDigitChars 10 n.whole 0)

end Numeral

/-! ## The reader of decimal numbers -/

theorem Power.head?_chars {p : Option Power} :
    ∀ c ∈ (p.elim [] Power.chars).head?, ¬ c.isDigit ∧ c ≠ '.' := by
  cases p with
  | none => nofun
  | some p =>
    rintro c ⟨⟩
    rcases p.mark_eq with h | h <;> exact h ▸ by decide

namespace Decimal

theorem exponent?_eq_some_iff {cs : List Char} {e : Int} :
    exponent? cs = some e ↔
      ∃ p : Option Power, p.elim [] Power.chars = cs ∧ p.elim 0 Power.exponent = e := by
  constructor
  · intro h
    unfold exponent? at h
    split at h
    · exact ⟨none, rfl, Option.some.inj h⟩
    · next mark cs =>
      split at h
      · next hmark =>
        obtain ⟨n, hn, rfl⟩ := Option.map_eq_some_iff.mp h
        obtain ⟨hne, hdigits, rfl⟩ := Chars.natural?_ten_eq_some_iff.mp hn
        obtain ⟨s, hcs, hs, -⟩ := Sign.exists_sign cs
        refine ⟨some ⟨mark, s, _, hmark, hne, hdigits⟩, ?_, ?_⟩
        · exact congrArg (mark :: ·) hcs
        · exact congrArg (signed · _) hs
      · cases h
  · rintro ⟨p, rfl, rfl⟩
    cases p with
    | none => rfl
    | some p =>
      have hhead : ∀ c ∈ p.digits.head?, c ≠ '+' ∧ c ≠ '-' := fun c hc =>
        Chars.not_sign_of_isDigit (p.isDigit c (List.mem_of_mem_head? hc))
      have hdigits := Chars.natural?_ten_eq_some_iff.mpr ⟨p.digits_ne_nil, p.isDigit, rfl⟩
      rw [Option.elim_some, Power.chars, exponent?, if_pos p.mark_eq, p.sign.sign_append fun _ => hhead]
      simp only [hdigits, Option.map_some]
      rfl

end Decimal

namespace Numeral

variable (n : Numeral)

theorem mantissa_unsigned :
    Decimal.mantissa n.unsigned = (n.whole, n.fraction, n.power.elim [] Power.chars) :=
  Decimal.mantissa_append _ _ n.isDigit_whole n.isDigit_fraction Power.head?_chars

theorem not_sign_of_mem_head? : ∀ c ∈ n.unsigned.head?, c ≠ '+' ∧ c ≠ '-' := by
  intro c hc
  unfold unsigned at hc
  cases hwhole : n.whole with
  | cons digit whole =>
    rw [hwhole, List.cons_append, List.head?_cons, Option.mem_some_iff] at hc
    exact hc ▸ Chars.not_sign_of_isDigit (n.isDigit_whole digit (by simp [hwhole]))
  | nil =>
    -- without a digit before it a point comes first
    cases hfraction : n.fraction with
    | none =>
      have := n.digits_ne_nil
      simp [hwhole, hfraction] at this
    | some fraction =>
      rw [hwhole, hfraction] at hc
      obtain rfl : '.' = c := Option.some.inj hc
      decide

theorem sign_chars : Chars.sign n.chars = (n.sign.negative, n.unsigned) :=
  n.sign.sign_append fun _ => n.not_sign_of_mem_head?

theorem ofChars?_chars : Decimal.ofChars? n.chars = some n.decimal := by
  have hpower : Decimal.exponent? (n.power.elim [] Power.chars) =
      some (n.power.elim 0 Power.exponent) := Decimal.exponent?_eq_some_iff.mpr ⟨n.power, rfl, rfl⟩
  have hdigits : ¬ (n.whole = [] ∧ n.fraction.getD [] = []) := not_and_or.mpr n.digits_ne_nil
  rw [Decimal.ofChars?, n.sign_chars]
  simp only [n.mantissa_unsigned, if_neg hdigits, hpower, Option.map_some]
  rfl

end Numeral

/-- The reader of decimal numbers accepts exactly the numerals, as the numbers that they write. -/
theorem Decimal.ofChars?_eq_some_iff {cs : List Char} {d : Decimal} :
    ofChars? cs = some d ↔ ∃ n : Numeral, n.chars = cs ∧ n.decimal = d := by
  constructor
  · intro h
    obtain ⟨s, hcs, hs, -⟩ := Sign.exists_sign cs
    rcases hsign : Chars.sign cs with ⟨negative, unsigned⟩
    rcases hmantissa : mantissa unsigned with ⟨whole, fraction, power⟩
    obtain ⟨hunsigned, hwhole, hfraction⟩ := eq_of_mantissa hmantissa
    simp only [ofChars?, hsign, hmantissa] at h hcs hs
    split at h
    · cases h
    · next hdigits =>
      obtain ⟨e, he, rfl⟩ := Option.map_eq_some_iff.mp h
      obtain ⟨p, rfl, rfl⟩ := exponent?_eq_some_iff.mp he
      refine ⟨⟨s, whole, fraction, p, not_and_or.mp hdigits, hwhole, hfraction⟩, ?_, ?_⟩
      · exact (congrArg (s.chars ++ ·) hunsigned).trans hcs
      · exact congrArg (ofParts · whole (fraction.getD []) (p.elim 0 Power.exponent)) hs
  · rintro ⟨n, rfl, rfl⟩
    exact n.ofChars?_chars

/-! ## The reader of integers -/

namespace Numeral

variable (n : Numeral)

theorem isPlain_iff : n.IsPlain ↔ ∀ c ∈ n.unsigned, c.isDigit := by
  constructor
  · rintro ⟨hfraction, hpower⟩
    simpa [unsigned, tailChars, hfraction, hpower] using n.isDigit_whole
  · intro h
    have hmantissa := n.mantissa_unsigned
    rw [Decimal.mantissa_of_isDigit h, Prod.mk.injEq, Prod.mk.injEq] at hmantissa
    obtain ⟨-, hfraction, hpower⟩ := hmantissa
    refine ⟨hfraction.symm, ?_⟩
    cases hp : n.power with
    | none => rfl
    | some p =>
      rw [hp] at hpower
      cases hpower

theorem ofDecimal?_chars_of_isPlain (h : n.IsPlain) :
    Integer.ofDecimal? n.chars = int64? n.integer := by
  have hunsigned : n.unsigned = n.whole := by
    simp [unsigned, tailChars, h.1, h.2]
  have hne : n.whole ≠ [] := by
    simpa [h.1] using n.digits_ne_nil
  rw [Integer.ofDecimal?, n.sign_chars, hunsigned]
  simp only [Chars.natural?_of_isDigit hne n.isDigit_whole, Option.bind_some]
  rfl

theorem ofDecimal?_chars_of_not_isPlain (h : ¬ n.IsPlain) : Integer.ofDecimal? n.chars = none := by
  rw [isPlain_iff] at h
  rw [Integer.ofDecimal?, n.sign_chars]
  simp only [Chars.natural?_ten_eq_none h, Option.bind_none]

theorem isNumberChar_of_mem_chars : ∀ c ∈ n.chars, Json.isNumberChar c := by
  have hdigits : ∀ ds : List Char, (∀ c ∈ ds, c.isDigit) → ∀ c ∈ ds, Json.isNumberChar c :=
    fun ds hds c hc => Chars.isNumberChar_of_isDigit (hds c hc)
  have hfraction : ∀ c ∈ n.fraction.elim [] ('.' :: ·), Json.isNumberChar c := by
    have hdigits := hdigits _ n.isDigit_fraction
    cases hf : n.fraction with
    | none => nofun
    | some fraction =>
      rw [hf] at hdigits
      exact List.forall_mem_cons.mpr ⟨rfl, hdigits⟩
  have hpower : ∀ c ∈ n.power.elim [] Power.chars, Json.isNumberChar c := by
    cases n.power with
    | none => nofun
    | some p =>
      refine List.forall_mem_cons.mpr ⟨?_, List.forall_mem_append.mpr
        ⟨fun _ => Sign.isNumberChar_of_mem, hdigits _ p.isDigit⟩⟩
      rcases p.mark_eq with h | h <;> exact h ▸ rfl
  unfold chars unsigned tailChars
  simp only [List.forall_mem_append]
  exact ⟨fun _ => Sign.isNumberChar_of_mem, hdigits _ n.isDigit_whole, hfraction, hpower⟩

/-- Whether the number is an integer of 64 bits, written as one. -/
def IsInt64 : Prop :=
  n.IsPlain ∧ -0x8000000000000000 ≤ n.integer ∧ n.integer < 0x8000000000000000

end Numeral

theorem isSome_int64?_iff {n : Int} :
    (int64? n).isSome ↔ -0x8000000000000000 ≤ n ∧ n < 0x8000000000000000 := by
  rw [Option.isSome_iff_ne_none, ne_eq, int64?_eq_none_iff, Classical.not_not]

namespace Integer

theorem isSome_ofDecimal?_iff {cs : List Char} :
    (ofDecimal? cs).isSome ↔ ∃ n : Numeral, n.chars = cs ∧ n.IsInt64 := by
  constructor
  · intro h
    obtain ⟨s, hcs, hs, -⟩ := Sign.exists_sign cs
    rcases hsign : Chars.sign cs with ⟨negative, digits⟩
    simp only [ofDecimal?, hsign] at h hcs hs
    obtain ⟨i, hi⟩ := Option.isSome_iff_exists.mp h
    obtain ⟨m, hm, hi⟩ := Option.bind_eq_some_iff.mp hi
    obtain ⟨hne, hdigits, rfl⟩ := Chars.natural?_ten_eq_some_iff.mp hm
    refine ⟨⟨s, digits, none, none, Or.inl hne, hdigits, List.forall_mem_nil _⟩, ?_, ⟨rfl, rfl⟩, ?_⟩
    · simpa [Numeral.chars, Numeral.unsigned, Numeral.tailChars] using hcs
    · rw [← hs] at hi
      exact isSome_int64?_iff.mp (Option.isSome_of_eq_some hi)
  · rintro ⟨n, rfl, hplain, hrange⟩
    rw [n.ofDecimal?_chars_of_isPlain hplain]
    exact isSome_int64?_iff.mpr hrange

theorem isSome_ofMarked?_iff {cs : List Char} :
    (ofMarked? cs).isSome ↔ ∃ m : Marked, m.chars = cs ∧ m.value ≤ 0x7FFFFFFFFFFFFFFF := by
  have hrange : ∀ m : Marked, (int64? m.value).isSome ↔ m.value ≤ 0x7FFFFFFFFFFFFFFF := by
    intro m
    rw [isSome_int64?_iff]
    omega
  simp only [← hrange, Option.isSome_iff_exists, ofMarked?_eq_some_iff]
  constructor
  · rintro ⟨i, m, hcs, hi⟩
    exact ⟨m, hcs, i, hi⟩
  · rintro ⟨m, hcs, i, hi⟩
    exact ⟨i, m, hcs, hi⟩

end Integer

/-! ## Scalars -/

namespace Scalar

/-- Whether a text is a number: one with a radix mark that has 63 bits, an integer of 64 bits, or a
decimal number that rounds to a finite one. -/
def IsNumber (cs : List Char) : Prop :=
  (∃ m : Integer.Marked, m.chars = cs ∧ m.value ≤ 0x7FFFFFFFFFFFFFFF) ∨
    ∃ n : Numeral, n.chars = cs ∧ (n.IsInt64 ∨ ∃ x, n.decimal.RoundsTo x)

/-- The three readers are tried one after the other. -/
theorem number?_eq_or (cs : List Char) :
    number? cs = ((Integer.ofMarked? cs).map int).or (((Integer.ofDecimal? cs).map int).or
      (((Decimal.ofChars? cs).bind Decimal.toBinary64?).map ofBinary64)) := by
  unfold number?
  cases Integer.ofMarked? cs with
  | some i => rfl
  | none => cases Integer.ofDecimal? cs <;> rfl

theorem isSome_number?_iff {cs : List Char} : (number? cs).isSome ↔ IsNumber cs := by
  have hdecimal : ((Decimal.ofChars? cs).bind Decimal.toBinary64?).isSome ↔
      ∃ n : Numeral, n.chars = cs ∧ ∃ x, n.decimal.RoundsTo x := by
    simp only [Option.isSome_iff_exists, Option.bind_eq_some_iff, Decimal.ofChars?_eq_some_iff,
      Decimal.toBinary64?_eq_some_iff]
    constructor
    · rintro ⟨x, _, ⟨n, hcs, rfl⟩, hx⟩
      exact ⟨n, hcs, x, hx⟩
    · rintro ⟨n, hcs, x, hx⟩
      exact ⟨x, _, ⟨n, hcs, rfl⟩, hx⟩
  rw [number?_eq_or, Option.isSome_or, Option.isSome_or, Bool.or_eq_true, Bool.or_eq_true,
    Option.isSome_map, Option.isSome_map, Option.isSome_map, hdecimal, Integer.isSome_ofMarked?_iff,
    Integer.isSome_ofDecimal?_iff]
  unfold IsNumber
  simp only [and_or_left, exists_or]

theorem ofBinary64_kinds (x : Binary64) :
    (∃ n, ofBinary64 x = int n) ∨ ∃ y, ofBinary64 x = float y := by
  unfold ofBinary64
  cases x.toInt?.bind int64? with
  | some n => exact Or.inl ⟨n, rfl⟩
  | none => exact Or.inr ⟨x, rfl⟩

theorem kinds_of_number? {cs : List Char} {v : Scalar} (h : number? cs = some v) :
    (∃ n, v = int n) ∨ ∃ x, v = float x := by
  simp only [number?_eq_or, Option.or_eq_some_iff, Option.map_eq_some_iff] at h
  rcases h with ⟨n, -, rfl⟩ | ⟨-, ⟨n, -, rfl⟩ | ⟨-, x, -, rfl⟩⟩
  · exact Or.inl ⟨n, rfl⟩
  · exact Or.inl ⟨n, rfl⟩
  · exact ofBinary64_kinds x

/-- A text is a truth value, a number or itself: a truth value if it is one of the two words, a
number if it is written as one between blanks, and itself otherwise. -/
theorem ofText_kinds (s : String) :
    (ofText s = bool true ↔ s = "true") ∧ (ofText s = bool false ↔ s = "false") ∧
      ((∃ n, ofText s = int n) ∨ (∃ x, ofText s = float x) ↔ IsNumber (Chars.trim s.toList)) ∧
      (ofText s = text s ↔ s ≠ "true" ∧ s ≠ "false" ∧ ¬ IsNumber (Chars.trim s.toList)) := by
  have hwords : s = "true" ∨ s = "false" → number? (Chars.trim s.toList) = none := by
    rintro (rfl | rfl) <;> decide
  have hkinds : ∀ v, number? (Chars.trim s.toList) = some v → (∃ n, v = int n) ∨ ∃ x, v = float x :=
    fun _ => kinds_of_number?
  rw [← isSome_number?_iff, ofText]
  generalize number? (Chars.trim s.toList) = found at *
  by_cases hword : s = "true" ∨ s = "false"
  · rw [hwords hword]
    rcases hword with rfl | rfl <;> simp
  · rw [not_or] at hword
    cases found with
    | none => simp [hword]
    | some v =>
      rcases hkinds v rfl with ⟨n, rfl⟩ | ⟨x, rfl⟩
      · simp [hword]
      · simp [hword]

end Scalar

end QueryFilter
