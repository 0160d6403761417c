import QueryFilter.Number.Binary64

/-!
# JSON values

Objects keep their members in order. A number is an integer of 64 bits, signed or unsigned, or a
binary64 number.
-/

namespace QueryFilter

namespace Json

/-- A JSON number. -/
inductive Number where
  | int (n : Int) (inRange : -0x8000000000000000 ≤ n ∧ n < 0x10000000000000000)
  | float (x : Binary64)
deriving DecidableEq

/-- The type of a JSON value. -/
inductive Kind where
  | null
  | boolean
  | number
  | string
  | array
  | object
deriving DecidableEq

def Kind.name : Kind → String
  | null => "null"
  | boolean => "boolean"
  | number => "number"
  | string => "string"
  | array => "array"
  | object => "object"

end Json

/-- A JSON value. -/
inductive Json where
  | null
  | bool (b : Bool)
  | number (n : Json.Number)
  | string (s : String)
  | array (items : List Json)
  | object (members : List (String × Json))

namespace Json

def kind : Json → Kind
  | null => .null
  | bool _ => .boolean
  | number _ => .number
  | string _ => .string
  | array _ => .array
  | object _ => .object

def Number.ofInt64 (n : Int64) : Number :=
  .int n.toInt ⟨n.le_toInt, Int.lt_trans n.toInt_lt (by decide)⟩

def Number.ofUInt64 (n : UInt64) : Number :=
  .int n.toNat ⟨by omega, by have := n.toNat_lt; omega⟩

/-- The signed 64-bit integer, if the number is one. -/
def Number.toInt64? : Number → Option Int64
  | int n _ => if n < 0x8000000000000000 then some (Int64.ofInt n) else none
  | float _ => none

/-- The unsigned 64-bit integer, if the number is one. -/
def Number.toUInt64? : Number → Option UInt64
  | int n _ => if 0 ≤ n then some (UInt64.ofNat n.toNat) else none
  | float _ => none

end Json

end QueryFilter
