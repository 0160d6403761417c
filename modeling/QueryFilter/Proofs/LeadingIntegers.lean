import QueryFilter.Proofs.Numerals

/-!
# Integers at the start of a text

A digit at a time, the reader saturates at each product and each sum, and what comes out is the
number of all the digits, saturated once (`Integer.foldl_appendDigit_zero`). The sign applies after
that. So the least 64-bit integer, whose magnitude is one more than the largest integer, is the one
value in range that is read as another (`Integer.ofLeading?_eq_saturate_iff`).
-/

namespace QueryFilter

namespace Integer

/-! ## The digits -/

/-- A product and a sum of magnitudes saturate as one. -/
theorem appendDigit_saturate (n : Nat) (digit : Char) :
    appendDigit (saturate n) digit = saturate (10 * n + (digit.toNat - 48) : Nat) := by
  have hproduct : (saturate n).toInt * 10 = (min n 0x7FFFFFFFFFFFFFFF * 10 : Nat) := by
    rw [toInt_saturate_natCast]
    omega
  apply Int64.toInt_inj.mp
  rw [appendDigit, hproduct, toInt_saturate_natCast, ← Int.natCast_add, toInt_saturate_natCast,
    toInt_saturate_natCast]
  omega

theorem foldl_appendDigit (digits : List Char) (n : Nat) :
    digits.foldl appendDigit (saturate n) = saturate (Nat.ofDigitChars 10 digits n) := by
  induction digits generalizing n with
  | nil => rw [List.foldl_nil, Nat.ofDigitChars_nil]
  | cons digit digits ih =>
    rw [List.foldl_cons, Nat.ofDigitChars_cons, appendDigit_saturate]
    exact ih _

theorem foldl_appendDigit_zero (digits : List Char) :
    digits.foldl appendDigit 0 = saturate (Nat.ofDigitChars 10 digits 0) :=
  foldl_appendDigit digits 0

/-- A saturated magnitude has a negative, so a sign never wraps. -/
theorem sign_saturate (negative : Bool) (n : Nat) :
    (if negative then -saturate n else saturate n) =
      Int64.ofInt (max (-0x7FFFFFFFFFFFFFFF) (min (signed negative n) 0x7FFFFFFFFFFFFFFF)) := by
  cases negative with
  | false =>
    simp only [signed, Bool.false_eq_true, ↓reduceIte]
    rw [saturate]
    congr 1
    omega
  | true =>
    simp only [signed, ↓reduceIte]
    rw [saturate, ← Int64.ofInt_neg]
    congr 1
    omega

/-! ## The parts of a text -/

/-- A text as the reader takes it: blanks, at most one sign, digits and the rest. Each part is as
long as can be. -/
structure Leading (cs : List Char) where
  blanks : List Char
  sign : Sign
  digits : List Char
  rest : List Char
  chars_eq : blanks ++ (sign.chars ++ (digits ++ rest)) = cs
  isBlank_of_mem : ∀ c ∈ blanks, isBlank c
  not_isBlank : ∀ c ∈ (sign.chars ++ (digits ++ rest)).head?, ¬ isBlank c
  not_sign : sign = .absent → ∀ c ∈ (digits ++ rest).head?, c ≠ '+' ∧ c ≠ '-'
  isDigit_of_mem : ∀ c ∈ digits, c.isDigit
  not_isDigit : ∀ c ∈ rest.head?, ¬ c.isDigit

namespace Leading

theorem exists_parts (cs : List Char) : Nonempty (Leading cs) := by
  obtain ⟨sign, hsign, -, hnone⟩ := Sign.exists_sign (Chars.trimStart cs)
  generalize (Chars.sign (Chars.trimStart cs)).2 = unsigned at hsign hnone
  have hdigits := List.takeWhile_append_dropWhile (p := Char.isDigit) (l := unsigned)
  refine ⟨⟨cs.takeWhile isBlank, sign, unsigned.takeWhile Char.isDigit,
    unsigned.dropWhile Char.isDigit, ?_, fun _ => List.mem_takeWhile_imp, ?_, ?_,
    fun _ => List.mem_takeWhile_imp, fun _ => Chars.not_of_mem_head?_dropWhile⟩⟩
  · rw [hdigits, hsign]
    exact List.takeWhile_append_dropWhile
  · rw [hdigits, hsign]
    exact fun _ => Chars.not_of_mem_head?_dropWhile
  · rw [hdigits]
    exact hnone

variable {cs : List Char}

/-- The integer that the sign and the digits write. -/
def value (l : Leading cs) : Int :=
  signed l.sign.negative (Nat.ofDigitChars 10 l.digits 0)

theorem sign_trimStart (l : Leading cs) :
    Chars.sign (Chars.trimStart cs) = (l.sign.negative, l.digits ++ l.rest) := by
  have htrim : Chars.trimStart cs = l.sign.chars ++ (l.digits ++ l.rest) :=
    (congrArg Chars.trimStart l.chars_eq).symm.trans
      (Chars.span_append l.isBlank_of_mem l.not_isBlank).2
  rw [htrim, l.sign.sign_append l.not_sign]

end Leading

/-! ## The reader -/

section
variable {s : String} (l : Leading s.toList)

theorem ofLeading?_eq : ofLeading? s = if l.digits = [] then none
    else some (Int64.ofInt (max (-0x7FFFFFFFFFFFFFFF) (min l.value 0x7FFFFFFFFFFFFFFF))) := by
  simp only [ofLeading?, l.sign_trimStart, (Chars.span_append l.isDigit_of_mem l.not_isDigit).1,
    foldl_appendDigit_zero, sign_saturate, Leading.value]

theorem ofLeading?_eq_none_iff : ofLeading? s = none ↔ l.digits = [] := by
  rw [ofLeading?_eq l]
  split
  · next h => exact iff_of_true rfl h
  · next h => exact iff_of_false nofun h

end

/-- Without digits there is no integer. Otherwise the reader gives the written one, cut to the
magnitude of the largest 64-bit integer on both sides; so it gives the nearest 64-bit integer
exactly if the written one is above the least. -/
theorem ofLeading?_eq_saturate_iff (s : String) :
    Nonempty (Leading s.toList) ∧ ∀ l : Leading s.toList,
      (ofLeading? s = none ↔ l.digits = []) ∧
      (l.digits ≠ [] →
        ofLeading? s =
          some (Int64.ofInt (max (-0x7FFFFFFFFFFFFFFF) (min l.value 0x7FFFFFFFFFFFFFFF))) ∧
        (ofLeading? s = some (saturate l.value) ↔ -0x8000000000000000 < l.value)) := by
  refine ⟨Leading.exists_parts s.toList, fun l => ⟨ofLeading?_eq_none_iff l, fun hne => ?_⟩⟩
  have hread := ofLeading?_eq l
  rw [if_neg hne] at hread
  refine ⟨hread, ?_⟩
  rw [hread, Option.some_inj, ← Int64.toInt_inj, toInt_saturate, toInt_ofInt (by omega) (by omega)]
  omega

/-- Blanks, zeros in front and what follows the digits do not count. -/
theorem ofLeading?_eq_saturate_iff_padded : ofLeading? " -0042px" = some (-42) := by
  obtain ⟨-, hread⟩ := (ofLeading?_eq_saturate_iff " -0042px").2
    ⟨[' '], .minus, ['0', '0', '4', '2'], ['p', 'x'], rfl, List.all_eq_true.mp rfl,
      by rintro _ ⟨⟩; decide, nofun, List.all_eq_true.mp rfl, by rintro _ ⟨⟩; decide⟩
  exact (hread (by decide)).2.mpr (by decide)

/-- The least 64-bit integer is read as the one above it. -/
theorem not_ofLeading?_saturate :
    ¬ ∀ (s : String) (l : Leading s.toList), l.digits ≠ [] →
      ofLeading? s = some (saturate l.value) := by
  intro h
  have hleast := h "-9223372036854775808"
    ⟨[], .minus, "9223372036854775808".toList, [], by decide, List.forall_mem_nil _,
      by rintro _ ⟨⟩; decide, nofun, List.all_eq_true.mp (by decide), nofun⟩ (by decide)
  have hread : ofLeading? "-9223372036854775808" = some (-9223372036854775807) := by
    decide +kernel
  rw [hread] at hleast
  exact absurd hleast (by decide)

end Integer

end QueryFilter
