import QueryFilter.Number.Digits

/-!
# Binary64 numbers

A finite binary64 number is a sign and its place among the magnitudes in increasing order. Every
magnitude is a whole number of units of 2^-1074, so all comparisons are between natural numbers.
`ofRatio?` rounds a quotient of naturals to the nearest number, of two to the one in an even place.
-/

namespace QueryFilter

/-- A finite number; `place` counts the magnitudes below it. -/
structure Binary64 where
  negative : Bool
  place : Nat
  place_lt : place < 0x7FF0000000000000
deriving DecidableEq

namespace Binary64

/-- How many places lie between one power of two and the next. -/
abbrev binade : Nat := 0x10000000000000

/-- How many units make up the number one. -/
@[irreducible] def one : Nat := 1 <<< 1074

/-- The magnitude at a place, in units of 2^-1074. The first place past the finite ones stands for
2^1024, the bound that rounding up crosses. -/
def unitsAt (place : Nat) : Nat :=
  let shift := place / binade - 1
  (place - shift * binade) <<< shift

/-- The last place whose magnitude is at most `units`. -/
def placeBelow (units : Nat) : Nat :=
  let shift := units.log2 - 52
  shift * binade + units >>> shift

/-- The magnitude in units of 2^-1074. -/
def units (x : Binary64) : Nat := unitsAt x.place

def zero (negative : Bool) : Binary64 := ⟨negative, 0, by decide⟩

/-- The place nearest to `num / den` units, of two places the even one. -/
def nearestPlace (num den : Nat) : Nat :=
  let below := placeBelow (num / den)
  let middle := (unitsAt below + unitsAt (below + 1)) * den
  if 2 * num < middle then below
  else if middle < 2 * num then below + 1
  else if below % 2 = 0 then below else below + 1

/-- The number nearest to `num / den` units of 2^-1074; `none` past the finite ones. -/
def ofRatio? (negative : Bool) (num den : Nat) : Option Binary64 :=
  let place := nearestPlace num den
  if h : place < 0x7FF0000000000000 then some ⟨negative, place, h⟩ else none

/-- The number nearest to a natural number; `none` past the finite ones. -/
def ofNat? (n : Nat) : Option Binary64 := ofRatio? false (n * one) 1

/-- The value, if it is an integer. -/
def toInt? (x : Binary64) : Option Int :=
  if x.units % one = 0 then some (signed x.negative (x.units / one)) else none

/-- Equality of values: the two zeros are equal. -/
def same (x y : Binary64) : Bool :=
  x.place == y.place && (x.place == 0 || x.negative == y.negative)

end Binary64

end QueryFilter
