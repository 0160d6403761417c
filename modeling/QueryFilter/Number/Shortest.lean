import QueryFilter.Number.Decimal

/-!
# The shortest decimal form of a binary64 number

Of all decimal numbers that round to a given number, the form with the fewest digits lies on the
coarsest power-of-ten grid that meets the rounding interval; on that grid the nearest point is
taken. All magnitudes here are whole numbers of 10^-1074, a grid on which every binary64 number
lies, so the search ends.
-/

namespace QueryFilter

/-- Which of two equally near grid points is written. -/
inductive Tie where
  | up
  | toEven
deriving DecidableEq

/-- Whether the point above is written for a magnitude `rest` above `below` steps. -/
def Tie.upper (tie : Tie) (step below rest : Nat) : Bool :=
  step < 2 * rest || (step == 2 * rest && (tie == .up || below % 2 == 1))

namespace Binary64

/-- How many units of 10^-1074 make up one of 2^-1074. -/
@[irreducible] def tinyPerUnit : Nat := Nat.pow 5 1074

/-- The magnitude at a place in units of 10^-1074. -/
def tinyAt (place : Nat) : Nat := unitsAt place * tinyPerUnit

/-- Whether `t` units of 10^-1074 round to `place`: the interval between the middles to the
neighbours, with its ends if the place is even. -/
def roundsTo (place t : Nat) : Bool :=
  let low := tinyAt (place - 1) + tinyAt place
  let high := tinyAt place + tinyAt (place + 1)
  if place % 2 = 0 then low ≤ 2 * t && 2 * t ≤ high else low < 2 * t && 2 * t < high

/-- The multiple of 10^j that stands for `place`, divided by 10^j: of the two next to the magnitude
the one that rounds to it, the nearer if both do. -/
def onGrid? (tie : Tie) (place j : Nat) : Option Nat :=
  let step := Nat.pow 10 j
  let exact := tinyAt place
  let below := exact / step
  let rest := exact % step
  let lower := rest = 0 || roundsTo place (below * step)
  let upper := roundsTo place ((below + 1) * step)
  if lower && !(upper && tie.upper step below rest) then some below
  else if upper then some (below + 1)
  else none

/-- The first grid from 10^j downwards that has a point for `place`, as the point and the power. The
grid of 10^0 always has one. -/
def coarsest (tie : Tie) (place : Nat) : Nat → Nat × Nat
  | 0 => (tinyAt place, 0)
  | j + 1 =>
    ((onGrid? tie place (j + 1)).map (·, j + 1)).getD (coarsest tie place j)

/-- A power of ten above the magnitude: its binary length times 30103 / 100000, the logarithm of
two rounded up. -/
def topPower (t : Nat) : Nat := (t.log2 + 1) * 30103 / 100000 + 1

/-- The decimal with the fewest digits that rounds to `x`. -/
def shortest (tie : Tie) (x : Binary64) : Decimal :=
  if x.place = 0 then ⟨x.negative, 0, 0⟩
  else
    let point := coarsest tie x.place (topPower (tinyAt x.place))
    ⟨x.negative, point.1, (point.2 : Int) - 1074⟩

end Binary64

end QueryFilter
