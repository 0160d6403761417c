import QueryFilter.Number.Digits
import QueryFilter.Text.Blank

/-!
# Integers in text

Three readers of 64-bit integers: a whole decimal text, a literal with a radix mark, and the
lenient reader of request numbers, which takes the digits at the start and saturates.
-/

namespace QueryFilter

/-- The 64-bit integer of this value, if there is one. -/
def int64? (n : Int) : Option Int64 :=
  if -0x8000000000000000 ≤ n ∧ n < 0x8000000000000000 then some (Int64.ofInt n) else none

/-- The nearest 64-bit integer. -/
def saturate (n : Int) : Int64 :=
  Int64.ofInt (max (-0x8000000000000000) (min n 0x7FFFFFFFFFFFFFFF))

namespace Integer

/-- A whole text of an optional sign and decimal digits. -/
def ofDecimal? (cs : List Char) : Option Int64 :=
  let (negative, digits) := Chars.sign cs
  (Chars.natural? 10 digits).bind fun n => int64? (signed negative n)

/-- The radix that the letter after a leading zero announces. -/
def radix? : Char → Option Nat
  | 'x' | 'X' => some 16
  | 'o' | 'O' => some 8
  | 'b' | 'B' => some 2
  | _ => none

/-- A zero, a radix letter and unsigned digits of that radix. -/
def ofMarked? : List Char → Option Int64
  | '0' :: mark :: digits =>
    (radix? mark).bind fun radix => (Chars.natural? radix digits).bind fun n => int64? n
  | _ => none

/-- A magnitude with one more digit; the product and the sum saturate. -/
def appendDigit (magnitude : Int64) (digit : Char) : Int64 :=
  saturate ((saturate (magnitude.toInt * 10)).toInt + (digit.toNat - 48 : Nat))

/-- The integer at the start of a text: blanks and one sign may stand before the digits, anything
after them. The magnitude saturates at the largest 64-bit integer before the sign applies. -/
def ofLeading? (s : String) : Option Int64 :=
  let (negative, rest) := Chars.sign (Chars.trimStart s.toList)
  let digits := rest.takeWhile Char.isDigit
  if digits = [] then none
  else
    let magnitude := digits.foldl appendDigit 0
    some (if negative then -magnitude else magnitude)

def text (n : Int) : String := String.ofList (Chars.ofInt n)

end Integer

theorem toInt_ofInt {n : Int} (hlow : -0x8000000000000000 ≤ n) (hhigh : n ≤ 0x7FFFFFFFFFFFFFFF) :
    (Int64.ofInt n).toInt = n :=
  Int64.toInt_ofInt_of_le hlow (Int.lt_of_le_of_lt hhigh (by decide))

theorem toInt_saturate (n : Int) :
    (saturate n).toInt = max (-0x8000000000000000) (min n 0x7FFFFFFFFFFFFFFF) :=
  toInt_ofInt (by omega) (by omega)

theorem toInt_saturate_natCast (n : Nat) :
    (saturate n).toInt = (min n 0x7FFFFFFFFFFFFFFF : Nat) := by
  rw [toInt_saturate]
  omega

theorem int64?_toInt (n : Int64) : int64? n.toInt = some n := by
  rw [int64?, if_pos ⟨n.le_toInt, n.toInt_lt⟩, Int64.ofInt_toInt]

/-- An integer reads back from its decimal form. -/
theorem Integer.ofDecimal?_ofInt (n : Int64) : ofDecimal? (Chars.ofInt n.toInt) = some n := by
  simp [ofDecimal?, Chars.sign_ofInt, Chars.natural?_toDigits, signed_natAbs, int64?_toInt]

end QueryFilter
