/-!
# UTF-8

Bytes are decoded one at a time. Bytes that start no character, or start one that is not completed,
become one replacement character each time the decoder has to give up, and the byte that made it
give up is read afresh.
-/

namespace QueryFilter

namespace Utf8

def encode (cs : List Char) : List UInt8 := cs.flatMap String.utf8EncodeChar

/-- The character that stands for ill-formed bytes. -/
def replacement : Char := '\uFFFD'

/-- A character of which some bytes are owed: the bits read so far, how many bytes are owed, and
the bounds of the next one. -/
structure Unfinished where
  bits : Nat
  owed : Nat
  low : Nat
  high : Nat

/-- The first byte of a character. The bounds of the second exclude overlong forms, surrogates and
code points past U+10FFFF. -/
def first (b : UInt8) : List Char × Option Unfinished :=
  let n := b.toNat
  if n < 0x80 then ([Char.ofNat n], none)
  else if n < 0xC2 then ([replacement], none)
  else if n < 0xE0 then ([], some ⟨n - 0xC0, 1, 0x80, 0xBF⟩)
  else if n < 0xF0 then
    ([], some ⟨n - 0xE0, 2, if n = 0xE0 then 0xA0 else 0x80, if n = 0xED then 0x9F else 0xBF⟩)
  else if n < 0xF5 then
    ([], some ⟨n - 0xF0, 3, if n = 0xF0 then 0x90 else 0x80, if n = 0xF4 then 0x8F else 0xBF⟩)
  else ([replacement], none)

/-- A further byte of an unfinished character. -/
def next (u : Unfinished) (b : UInt8) : List Char × Option Unfinished :=
  let n := b.toNat
  if u.low ≤ n ∧ n ≤ u.high then
    let bits := u.bits * 64 + n % 64
    if u.owed = 1 then ([Char.ofNat bits], none) else ([], some ⟨bits, u.owed - 1, 0x80, 0xBF⟩)
  else
    let (cs, state) := first b
    (replacement :: cs, state)

/-- The characters of bytes, from between characters or within one. -/
def decodeFrom : Option Unfinished → List UInt8 → List Char
  | none, [] => []
  | some _, [] => [replacement]
  | none, b :: bs => (first b).1 ++ decodeFrom (first b).2 bs
  | some u, b :: bs => (next u b).1 ++ decodeFrom (next u b).2 bs

/-- The characters of bytes, with replacements for ill-formed ones. -/
def decode (bs : List UInt8) : List Char := decodeFrom none bs

end Utf8

end QueryFilter
