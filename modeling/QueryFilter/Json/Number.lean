import QueryFilter.Json.Basic
import QueryFilter.Number.Decimal
import QueryFilter.Number.Scale

/-!
# Numbers in JSON text

An integer of 64 bits is read exactly. For any other number the digits that fit into 64 bits are
rounded to binary64, and the result is scaled by the power of ten, which rounds again; the number
that is read lies near the one that is written, but need not be the nearest.
-/

namespace QueryFilter

namespace Json

/-- The characters of which numbers consist. -/
def isNumberChar (c : Char) : Bool := c.isDigit || ['+', '-', '.', 'e', 'E'].contains c

/-- Appends digits to a number while it stays within 64 bits, and returns the digits left over. -/
def appendDigits (n : Nat) : List Char → Nat × List Char
  | [] => (n, [])
  | c :: cs =>
    let more := 10 * n + (c.toNat - '0'.toNat)
    if more < 0x10000000000000000 then appendDigits more cs else (n, c :: cs)

/-- The binary64 number of digits before and after a point, times a power of ten. Of the digits, as
many count as fit into 64 bits; those left over before the point are powers of ten. The number of
these digits is rounded, and then scaled. -/
def scaled? (negative : Bool) (whole fraction : List Char) (e : Int) : Option Binary64 :=
  let (n, wholeLeft) := appendDigits 0 whole
  let (digits, fractionLeft) := appendDigits n fraction
  ((Binary64.ofNat? digits).bind fun x =>
    x.scale? (e + wholeLeft.length + fractionLeft.length - fraction.length)).map fun x =>
      { x with negative := negative }

/-- The number of a whole token. Digits must stand before a point and after it, and a zero may not
stand before other digits. An integer of 64 bits is read exactly, but for minus zero; any other
number becomes a binary64 number. -/
def Number.ofChars? (cs : List Char) : Option Number :=
  let (negative, unsigned) := match cs with
    | '-' :: rest => (true, rest)
    | _ => (false, cs)
  let (whole, fraction, rest) := Decimal.mantissa unsigned
  if whole = [] ∨ fraction = some [] ∨ (whole.head? = some '0' ∧ whole ≠ ['0']) then none
  else
    let rounded := (Decimal.exponent? rest).bind fun e =>
      (scaled? negative whole (fraction.getD []) e).map float
    let n := signed negative (Nat.ofDigitChars 10 whole 0)
    if fraction = none ∧ rest = [] ∧ ¬(negative ∧ n = 0) then
      if h : -0x8000000000000000 ≤ n ∧ n < 0x10000000000000000 then some (int n h) else rounded
    else rounded

end Json

end QueryFilter
