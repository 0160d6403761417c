/-!
# Parameters

An ordered list of keys with values, in which a key may repeat.
-/

namespace QueryFilter

structure Params where
  pairs : List (String × String)
deriving DecidableEq

namespace Params

def empty : Params := ⟨[]⟩

def push (p : Params) (key value : String) : Params := ⟨p.pairs ++ [(key, value)]⟩

def append (p q : Params) : Params := ⟨p.pairs ++ q.pairs⟩

instance : Append Params := ⟨append⟩

def size (p : Params) : Nat := p.pairs.length

def isEmpty (p : Params) : Bool := p.pairs.isEmpty

/-- The value of the last pair with this key. -/
def last? (p : Params) (key : String) : Option String :=
  (p.pairs.reverse.find? (·.1 == key)).map Prod.snd

theorem last?_push (p : Params) (key value key' : String) :
    (p.push key value).last? key' = if key = key' then some value else p.last? key' := by
  by_cases h : key = key' <;> simp [push, last?, h]

end Params

end QueryFilter
