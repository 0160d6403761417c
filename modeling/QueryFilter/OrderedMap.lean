/-!
# Maps in order of insertion

`Entries` works on a list of keys with values: a key that is written again keeps its place and
takes the new value. `OrderedMap` is such a list in which no key repeats.
-/

namespace QueryFilter

namespace Entries

variable {κ α : Type} [DecidableEq κ]

def keys (es : List (κ × α)) : List κ := es.map Prod.fst

/-- The value of the first entry of `k`. -/
def get? (k : κ) : List (κ × α) → Option α
  | [] => none
  | (k', a) :: es => if k' = k then some a else get? k es

/-- Replaces the value at `k` in its place, or appends an entry. -/
def update (k : κ) (f : Option α → α) : List (κ × α) → List (κ × α)
  | [] => [(k, f none)]
  | (k', a) :: es => if k' = k then (k', f (some a)) :: es else (k', a) :: update k f es

def put (k : κ) (a : α) (es : List (κ × α)) : List (κ × α) := update k (fun _ => a) es

def putAll (es more : List (κ × α)) : List (κ × α) := more.foldl (fun es e => put e.1 e.2 es) es

/-- The entries in order; a repeated key keeps its first place and its last value. -/
def collect (es : List (κ × α)) : List (κ × α) := putAll [] es

theorem get?_update (k k' : κ) (f : Option α → α) (es : List (κ × α)) :
    get? k' (update k f es) = if k' = k then some (f (get? k es)) else get? k' es := by
  induction es with
  | nil => grind [update, get?]
  | cons e es ih => grind [update, get?]

theorem keys_update (k : κ) (f : Option α → α) (es : List (κ × α)) :
    keys (update k f es) = if k ∈ keys es then keys es else keys es ++ [k] := by
  induction es with
  | nil => simp [update, keys]
  | cons e es ih =>
    obtain ⟨k₀, a⟩ := e
    simp only [keys] at ih
    by_cases h : k₀ = k
    · simp [update, keys, h]
    · by_cases hk : k ∈ es.map Prod.fst <;> simp [update, keys, h, ih, hk, Ne.symm h]

theorem nodup_keys_update (k : κ) (f : Option α → α) {es : List (κ × α)}
    (h : (keys es).Nodup) : (keys (update k f es)).Nodup := by
  rw [keys_update]
  split
  · exact h
  · next hk => exact List.nodup_append.2 ⟨h, by simp, by simp; exact fun a ha e => hk (e ▸ ha)⟩

theorem nodup_keys_putAll {es more : List (κ × α)} (h : (keys es).Nodup) :
    (keys (putAll es more)).Nodup := by
  induction more generalizing es with
  | nil => exact h
  | cons e more ih => exact ih (nodup_keys_update e.1 _ h)

theorem nodup_keys_collect (es : List (κ × α)) : (keys (collect es)).Nodup :=
  nodup_keys_putAll (by simp [keys])

end Entries

/-- A map that keeps the order in which its keys were first written. -/
structure OrderedMap (κ α : Type) where
  entries : List (κ × α)
  nodup : (Entries.keys entries).Nodup

namespace OrderedMap

variable {κ α : Type}

@[ext] theorem ext {m n : OrderedMap κ α} (h : m.entries = n.entries) : m = n := by
  cases m
  cases n
  simp_all

instance [DecidableEq κ] [DecidableEq α] : DecidableEq (OrderedMap κ α) := fun m n =>
  decidable_of_iff (m.entries = n.entries) ⟨ext, fun h => h ▸ rfl⟩

def empty : OrderedMap κ α := ⟨[], List.nodup_nil⟩

def keys (m : OrderedMap κ α) : List κ := Entries.keys m.entries

def size (m : OrderedMap κ α) : Nat := m.entries.length

def isEmpty (m : OrderedMap κ α) : Bool := m.entries.isEmpty

variable [DecidableEq κ]

def get? (m : OrderedMap κ α) (k : κ) : Option α := Entries.get? k m.entries

def update (m : OrderedMap κ α) (k : κ) (f : Option α → α) : OrderedMap κ α :=
  ⟨Entries.update k f m.entries, Entries.nodup_keys_update k f m.nodup⟩

def put (m : OrderedMap κ α) (k : κ) (a : α) : OrderedMap κ α := m.update k fun _ => a

def singleton (k : κ) (a : α) : OrderedMap κ α := empty.put k a

/-- The entries in order; a repeated key keeps its first place and its last value. -/
def ofList (es : List (κ × α)) : OrderedMap κ α :=
  ⟨Entries.collect es, Entries.nodup_keys_collect es⟩

@[simp] theorem get?_update (m : OrderedMap κ α) (k k' : κ) (f : Option α → α) :
    (m.update k f).get? k' = if k' = k then some (f (m.get? k)) else m.get? k' :=
  Entries.get?_update k k' f m.entries

@[simp] theorem get?_put (m : OrderedMap κ α) (k k' : κ) (a : α) :
    (m.put k a).get? k' = if k' = k then some a else m.get? k' :=
  get?_update m k k' fun _ => a

theorem keys_update (m : OrderedMap κ α) (k : κ) (f : Option α → α) :
    (m.update k f).keys = if k ∈ m.keys then m.keys else m.keys ++ [k] :=
  Entries.keys_update k f m.entries

end OrderedMap

end QueryFilter
