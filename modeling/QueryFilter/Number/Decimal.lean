import QueryFilter.Number.Binary64

/-!
# Decimal numbers

A decimal number is a sign, a natural number of digits and a power of ten. This module reads one
from text and rounds it to the nearest binary64 number.
-/

namespace QueryFilter

/-- The number ±digits · 10^exponent. -/
structure Decimal where
  negative : Bool
  digits : Nat
  exponent : Int
deriving DecidableEq

namespace Decimal

/-- The power of ten after an `e`; no text at all is the power zero. -/
def exponent? : List Char → Option Int
  | [] => some 0
  | c :: cs =>
    if c = 'e' ∨ c = 'E' then
      let (negative, digits) := Chars.sign cs
      (Chars.natural? 10 digits).map (signed negative)
    else none

/-- The digits at the start, the digits after a point if there is one, and what follows. -/
def mantissa (cs : List Char) : List Char × Option (List Char) × List Char :=
  let whole := cs.takeWhile Char.isDigit
  match cs.dropWhile Char.isDigit with
  | '.' :: rest => (whole, some (rest.takeWhile Char.isDigit), rest.dropWhile Char.isDigit)
  | rest => (whole, none, rest)

/-- The decimal number of these digits before and after a point, times a power of ten. -/
def ofParts (negative : Bool) (whole fraction : List Char) (e : Int) : Decimal :=
  ⟨negative, Nat.ofDigitChars 10 (whole ++ fraction) 0, e - fraction.length⟩

/-- The decimal number written by an optional sign, digits with an optional point among, before or
after them, and an optional power of ten. -/
def ofChars? (cs : List Char) : Option Decimal :=
  let (negative, unsigned) := Chars.sign cs
  let (whole, fraction, rest) := mantissa unsigned
  let fraction := fraction.getD []
  if whole = [] ∧ fraction = [] then none
  else (exponent? rest).map (ofParts negative whole fraction)

/-- The nearest binary64 number; `none` if rounding leaves the finite ones. A power of ten beyond
the bounds alone decides: at least 10^310 is too large, and below 10^-400 all digits vanish. -/
def toBinary64? (d : Decimal) : Option Binary64 :=
  if d.digits = 0 then some (Binary64.zero d.negative)
  else if 310 ≤ d.exponent then none
  else if d.exponent + d.digits.log2 < -400 then some (Binary64.zero d.negative)
  else Binary64.ofRatio? d.negative (d.digits * Nat.pow 10 d.exponent.toNat * Binary64.one)
    (Nat.pow 10 (-d.exponent).toNat)

end Decimal

end QueryFilter
