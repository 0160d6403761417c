import QueryFilter.Number.Digits
import QueryFilter.Params.Basic
import QueryFilter.Text.Cut
import QueryFilter.Text.Utf8

/-!
# Parameters as a URL query

The form `key=value&key=value`. Writing keeps letters, digits and `*-._`, turns a blank into a plus
sign and every other byte into a percent escape. Reading accepts any text: a bad escape stands for
itself and ill-formed bytes are replaced.
-/

namespace QueryFilter

namespace Form

/-! ## Writing -/

/-- Whether a character is written as itself. -/
def isPlain (c : Char) : Bool := c.isAlphanum || ['*', '-', '.', '_'].contains c

/-- A hexadecimal digit, in upper case. -/
def hexDigit (n : Nat) : Char := if n < 10 then Char.ofNat (48 + n) else Char.ofNat (55 + n)

def escapeByte (b : UInt8) : List Char := ['%', hexDigit (b.toNat / 16), hexDigit (b.toNat % 16)]

def encodeChar (c : Char) : List Char :=
  if c = ' ' then ['+']
  else if isPlain c then [c]
  else (String.utf8EncodeChar c).flatMap escapeByte

def encode (s : String) : List Char := s.toList.flatMap encodeChar

def encodePair (pair : String × String) : List Char := encode pair.1 ++ '=' :: encode pair.2

/-! ## Reading -/

/-- The bytes that a component writes. -/
def bytes : List Char → List UInt8
  | [] => []
  | '%' :: high :: low :: cs =>
    match Chars.digit? 16 high, Chars.digit? 16 low with
    | some h, some l => UInt8.ofNat (16 * h + l) :: bytes cs
    | _, _ => 0x25 :: bytes (high :: low :: cs)
  | c :: cs => (if c = '+' then [0x20] else String.utf8EncodeChar c) ++ bytes cs

def decode (cs : List Char) : String := String.ofList (Utf8.decode (bytes cs))

/-- A key and its value; without an equals sign the value is empty. -/
def decodePair (cs : List Char) : String × String :=
  match Chars.cutFirst? '=' cs with
  | some (key, value) => (decode key, decode value)
  | none => (decode cs, "")

end Form

namespace Params

/-- The parameters of a query, which may start with a question mark. Empty pieces are skipped. -/
def ofQuery (query : String) : Params :=
  let cs := match query.toList with
    | '?' :: cs => cs
    | cs => cs
  ⟨((cs.splitOn '&').filter (· ≠ [])).map Form.decodePair⟩

/-- The query of parameters, without a question mark. -/
def toQuery (p : Params) : String :=
  String.ofList (['&'].intercalate (p.pairs.map Form.encodePair))

end Params

end QueryFilter
