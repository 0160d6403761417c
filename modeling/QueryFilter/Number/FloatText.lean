import QueryFilter.Number.Shortest

/-!
# Binary64 numbers in text

Two written forms of the shortest decimal: the plain form, which never uses a power of ten, and the
form of JSON numbers, which is plain only for numbers of moderate size.
-/

namespace QueryFilter

structure FloatStyle where
  tie : Tie
  /-- Whether a number whose first digit stands for this power of ten is written plainly. -/
  plain : Int → Bool
  /-- Whether a plain integral number ends in `.0`. -/
  pointZero : Bool

namespace FloatStyle

/-- Always plain, integral numbers without a point; the upper of two equally short forms. -/
def display : FloatStyle := ⟨.up, fun _ => true, false⟩

/-- Plain from 10^-5 up to 10^16, with a point; the even of two equally short forms. -/
def json : FloatStyle := ⟨.toEven, fun e => -5 ≤ e && e ≤ 15, true⟩

end FloatStyle

namespace Decimal

/-- The magnitude without a power of ten. -/
def plainChars (d : Decimal) (pointZero : Bool) : List Char :=
  let digits := Nat.toDigits 10 d.digits
  if 0 ≤ d.exponent then
    digits ++ List.replicate d.exponent.toNat '0' ++ (if pointZero then ['.', '0'] else [])
  else
    let places := (-d.exponent).toNat
    let padded := List.replicate (places + 1 - digits.length) '0' ++ digits
    padded.take (padded.length - places) ++ '.' :: padded.drop (padded.length - places)

/-- The power of ten that the first digit stands for. -/
def magnitude (d : Decimal) : Int := d.exponent + (Nat.toDigits 10 d.digits).length - 1

/-- The magnitude as one digit, a fraction and a power of ten with its sign. -/
def scientificChars (d : Decimal) : List Char :=
  let e := d.magnitude
  let power := 'e' :: (if e < 0 then '-' else '+') :: Nat.toDigits 10 e.natAbs
  match Nat.toDigits 10 d.digits with
  | [] => power
  | [c] => c :: power
  | c :: cs => c :: '.' :: cs ++ power

end Decimal

namespace Binary64

def chars (style : FloatStyle) (x : Binary64) : List Char :=
  let d := x.shortest style.tie
  let body :=
    if style.plain d.magnitude then d.plainChars style.pointZero else d.scientificChars
  if x.negative then '-' :: body else body

end Binary64

end QueryFilter
