import QueryFilter.Number.Integer
import QueryFilter.Params.Basic

/-!
# Page windows

How many rows to skip and to take, from `skip` and `take` or from `page` and `pageSize`. No value
is an error: what cannot be read gives way to a default.
-/

namespace QueryFilter

structure Window where
  skip : Option Int64
  take : Option UInt64
deriving DecidableEq

namespace Window

def skipKey : String := "skip"
def takeKey : String := "take"
def pageKey : String := "page"
def pageSizeKey : String := "pageSize"

def keys : List String := [skipKey, takeKey, pageKey, pageSizeKey]

/-- All rows. -/
def none : Window := ⟨.none, .none⟩

/-- The integer at the start of a text, if it is positive. -/
def positive? (s : String) : Option UInt64 :=
  (Integer.ofLeading? s).bind fun n =>
    if 0 < n.toInt then some (UInt64.ofNat n.toInt.toNat) else Option.none

/-- The rows before a page, at most the largest 64-bit integer; pages count from one. -/
def offset (page size : UInt64) : Int64 :=
  Int64.ofInt (min ((page.toNat - 1) * size.toNat) 0x7FFFFFFFFFFFFFFF : Nat)

/-- The window that parameters ask for. A `skip` wins over a `page`, and a window that skips also
takes: a page size if no `take` is given. -/
def ofParams (p : Params) (pageSize : UInt64) : Window :=
  let take := (p.last? takeKey).map fun s => (positive? s).getD pageSize
  match p.last? skipKey with
  | some s => ⟨some ((Integer.ofLeading? s).getD 0), some (take.getD pageSize)⟩
  | .none =>
    match p.last? pageKey with
    | some s =>
      let size := ((p.last? pageSizeKey).bind positive?).getD pageSize
      ⟨some (offset ((positive? s).getD 1) size), some (take.getD size)⟩
    | .none => ⟨.none, take⟩

/-- The page that holds the first row, if a page can be said: both bounds are given and at least
one row is taken, but no more than a signed 64-bit integer counts. -/
def page? : Window → Option Int64
  | ⟨some skip, some take⟩ =>
    if 0 < take.toNat ∧ take.toNat < 0x8000000000000000 then
      some (Int64.ofInt (min (skip.toInt / take.toNat + 1) 0x7FFFFFFFFFFFFFFF))
    else Option.none
  | _ => Option.none

end Window

end QueryFilter
