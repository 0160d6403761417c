import QueryFilter.Number.Binary64

/-!
# Scaling by powers of ten

A binary64 number is scaled by a power of ten that is itself a binary64 number. The power and the
product or quotient are rounded one after the other, so the result lies near the exact one but need
not be the nearest number.
-/

namespace QueryFilter

namespace Binary64

/-- The nearest number to a product. -/
def mul? (x y : Binary64) : Option Binary64 :=
  ofRatio? (x.negative != y.negative) (x.units * y.units) one

/-- The nearest number to a quotient by a number that is not zero. -/
def div? (x y : Binary64) : Option Binary64 :=
  ofRatio? (x.negative != y.negative) (x.units * one) y.units

/-- The largest power of ten with a finite nearest number. -/
def maxPower : Nat := 308

/-- The number nearest to a power of ten. -/
def tenTo? (k : Nat) : Option Binary64 := ofNat? (Nat.pow 10 k)

/-- Divides by the largest power of ten a number of times, or until zero is reached. -/
def shrink? : Nat → Binary64 → Option Binary64
  | 0, x => some x
  | n + 1, x =>
    if x.place = 0 then some x else ((tenTo? maxPower).bind x.div?).bind (shrink? n)

/-- The number scaled by a power of ten; `none` past the finite numbers. Only zero is scaled up by
more than the largest power; a number is scaled down by more in several divisions, of which the last
is by what remains. -/
def scale? (x : Binary64) : Int → Option Binary64
  | .ofNat k =>
    if k ≤ maxPower then (tenTo? k).bind x.mul? else if x.place = 0 then some x else none
  | .negSucc k =>
    (shrink? (k / maxPower) x).bind fun y => (tenTo? (k % maxPower + 1)).bind y.div?

end Binary64

end QueryFilter
