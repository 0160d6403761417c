import QueryFilter.Constraint

/-!
# Filter trees

A filter is an ordered tree: under each key a value, a constraint, the filter of a related record,
or the entries of a logical group. The operations here keep the order of the keys, and
`Tree.within` changes one level that is named by its path.
-/

namespace QueryFilter

mutual

/-- What stands under one key of a filter. -/
inductive Node where
  | value (value : Scalar)
  | tests (tests : Constraint)
  | relation (tree : Tree)
  | group (entries : List Tree)

/-- A filter: its keys in order, each with a node. -/
structure Tree where
  entries : List (String × Node)

end

namespace Tree

def empty : Tree := ⟨[]⟩

def single (key : String) (node : Node) : Tree := ⟨[(key, node)]⟩

/-- A filter that is nothing but one logical group. -/
def group (connective : Connective) (entries : List Tree) : Tree :=
  single connective.key (.group entries)

def isEmpty (t : Tree) : Bool := t.entries.isEmpty

def size (t : Tree) : Nat := t.entries.length

def keys (t : Tree) : List String := Entries.keys t.entries

def get? (t : Tree) (key : String) : Option Node := Entries.get? key t.entries

/-- Replaces the node at a key in its place, or appends one. -/
def update (t : Tree) (key : String) (f : Option Node → Node) : Tree :=
  ⟨Entries.update key f t.entries⟩

def put (t : Tree) (key : String) (node : Node) : Tree := t.update key fun _ => node

/-- Writes entries one after the other. -/
def putAll (t : Tree) (more : List (String × Node)) : Tree := ⟨Entries.putAll t.entries more⟩

/-- The entries in order; a repeated key keeps its first place and its last node. -/
def collect (entries : List (String × Node)) : Tree := ⟨Entries.collect entries⟩

/-- The filter of a related record; anything else that stands in its place counts for nothing. -/
def ofRelation : Option Node → Tree
  | some (.relation t) => t
  | _ => empty

/-- Changes the level that a path of relations names. A level that is missing is appended, and a
node that is no relation gives way to an empty level in its place. -/
def within : List String → (Tree → Tree) → Tree → Tree
  | [], f, t => f t
  | relation :: path, f, t =>
    t.update relation fun old => .relation (within path f (ofRelation old))

/-- The level that a path of relations names. -/
def level? : List String → Tree → Option Tree
  | [], t => some t
  | relation :: path, t =>
    match t.get? relation with
    | some (.relation inner) => level? path inner
    | _ => none

/-- Whether a key is the name of a connective, whatever stands under it. -/
def hasConnectiveKey (t : Tree) : Bool := t.keys.any fun key => (Connective.ofKey? key).isSome

/-- The entries of a filter that is nothing but one group of this connective. -/
def soleGroup? (connective : Connective) : Tree → Option (List Tree)
  | ⟨[(key, .group entries)]⟩ => if key = connective.key then some entries else none
  | _ => none

/-! ## Reading after writing -/

@[simp] theorem get?_update (t : Tree) (key key' : String) (f : Option Node → Node) :
    (t.update key f).get? key' = if key' = key then some (f (t.get? key)) else t.get? key' :=
  Entries.get?_update key key' f t.entries

@[simp] theorem get?_put (t : Tree) (key key' : String) (node : Node) :
    (t.put key node).get? key' = if key' = key then some node else t.get? key' :=
  t.get?_update key key' fun _ => node

theorem keys_update (t : Tree) (key : String) (f : Option Node → Node) :
    (t.update key f).keys = if key ∈ t.keys then t.keys else t.keys ++ [key] :=
  Entries.keys_update key f t.entries

/-- The level of a path after a change is the changed level; a missing one counts as empty. -/
theorem level?_within (path : List String) (f : Tree → Tree) (t : Tree) :
    (within path f t).level? path = some (f ((t.level? path).getD empty)) := by
  induction path generalizing t with
  | nil => rfl
  | cons relation path ih =>
    have none_level : (level? path empty).getD empty = empty := by cases path <;> rfl
    simp only [within, level?, get?_update, ite_true, ih]
    cases t.get? relation with
    | none => simp [ofRelation, none_level]
    | some node => cases node <;> simp [ofRelation, none_level]

end Tree

/-! ## Equality of values -/

mutual

/-- Equality of values in nodes. -/
def Node.same : Node → Node → Bool
  | .value a, .value b => a.same b
  | .tests c, .tests d => c.same d
  | .relation s, .relation t => s.same t
  | .group ss, .group ts => sameGroups ss ts
  | _, _ => false

/-- Equality of values in filters; the order of the keys does not matter. -/
def Tree.same : Tree → Tree → Bool
  | ⟨es⟩, t => es.length == t.size && sameEntries es t

/-- Whether each entry stands in a filter. -/
def sameEntries : List (String × Node) → Tree → Bool
  | [], _ => true
  | (key, node) :: es, t =>
    (match t.get? key with
      | some other => node.same other
      | none => false) && sameEntries es t

/-- Equality of values in groups, entry by entry. -/
def sameGroups : List Tree → List Tree → Bool
  | [], [] => true
  | s :: ss, t :: ts => s.same t && sameGroups ss ts
  | _, _ => false

end

end QueryFilter
