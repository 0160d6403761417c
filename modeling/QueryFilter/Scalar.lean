import QueryFilter.Number.FloatText
import QueryFilter.Number.Integer
import QueryFilter.Text.Cut

/-!
# Scalars

The values a filter compares with, and how a text becomes one: the words `true` and `false`, a
number if the text without blanks at its ends writes one, and the text itself otherwise.
-/

namespace QueryFilter

/-- A value to compare with. -/
inductive Scalar where
  | bool (b : Bool)
  | int (n : Int64)
  | float (x : Binary64)
  | text (s : String)
deriving DecidableEq

namespace Scalar

/-- The scalar of a number: an integer if the value is one of 64 bits, so that `2`, `2.0` and `2e0`
give the same scalar. -/
def ofBinary64 (x : Binary64) : Scalar := (x.toInt?.bind int64?).elim (float x) int

/-- The number that the characters write: with a radix mark, as a decimal integer, or as a decimal
number in range. -/
def number? (cs : List Char) : Option Scalar :=
  match Integer.ofMarked? cs with
  | some n => some (int n)
  | none =>
    match Integer.ofDecimal? cs with
    | some n => some (int n)
    | none => ((Decimal.ofChars? cs).bind Decimal.toBinary64?).map ofBinary64

/-- The scalar that a text stands for. -/
def ofText (s : String) : Scalar :=
  if s = "true" then bool true
  else if s = "false" then bool false
  else (number? (Chars.trim s.toList)).getD (text s)

/-- The scalars between commas; there is always at least one. -/
def listOfText (s : String) : List Scalar := (Text.pieces ',' s).map ofText

/-- The scalar before the first comma. -/
def firstOfText (s : String) : Scalar :=
  match Text.cutFirst? ',' s with
  | some (piece, _) => ofText piece
  | none => ofText s

/-- The scalar as text, without quotes. -/
def display : Scalar → String
  | bool true => "true"
  | bool false => "false"
  | int n => Integer.text n.toInt
  | float x => String.ofList (x.chars .display)
  | text s => s

/-- Equality of values: numbers of the same kind by value. -/
def same : Scalar → Scalar → Bool
  | float x, float y => x.same y
  | a, b => a == b

end Scalar

/-- What an operator compares with: one scalar or a list. -/
inductive Operand where
  | one (value : Scalar)
  | many (values : List Scalar)
deriving DecidableEq

namespace Operand

def values : Operand → List Scalar
  | one value => [value]
  | many values => values

/-- The scalars as text, with commas between them. -/
def display (operand : Operand) : String := Text.join ',' (operand.values.map Scalar.display)

/-- Equality of values; one scalar differs from a list of one. -/
def same : Operand → Operand → Bool
  | one a, one b => a.same b
  | many as, many bs => as.length == bs.length && (as.zip bs).all fun p => p.1.same p.2
  | _, _ => false

end Operand

end QueryFilter
