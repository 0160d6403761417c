import QueryFilter.Error
import QueryFilter.Json.Reader
import QueryFilter.Tree.Basic

/-!
# Filters as JSON

A filter is written as an object: a value as itself, a constraint as an object of its operators, a
related filter as an object, a group as an array. The kinds are not marked, so reading tells them
apart by their keys, and reports the first offence in the order of the text.
-/

namespace QueryFilter

open Json (Number)

/-! ## Writing -/

def Scalar.toJson : Scalar → Json
  | bool b => .bool b
  | int n => .number (.ofInt64 n)
  | float x => .number (.float x)
  | text s => .string s

def Operand.toJson : Operand → Json
  | one value => value.toJson
  | many values => .array (values.map Scalar.toJson)

/-- The key of the match mode among the operators. -/
def modeKey : String := "mode"

def Constraint.toJson (c : Constraint) : Json :=
  .object (c.tests.entries.map (fun e => (e.1.token, e.2.toJson)) ++
    if c.ignoreCase then [(modeKey, .string MatchMode.ignoreCase.word)] else [])

mutual

def Node.toJson : Node → Json
  | .value value => value.toJson
  | .tests c => c.toJson
  | .relation tree => tree.toJson
  | .group entries => .array (groupJson entries)

def Tree.toJson : Tree → Json
  | ⟨es⟩ => .object (membersJson es)

def membersJson : List (String × Node) → List (String × Json)
  | [] => []
  | (key, node) :: es => (key, node.toJson) :: membersJson es

def groupJson : List Tree → List Json
  | [] => []
  | tree :: trees => tree.toJson :: groupJson trees

end

/-! ## Reading -/

/-- The scalar of a JSON number: a signed 64-bit integer as it is, any other as binary64. -/
def Scalar.ofNumber? (n : Number) : Option Scalar :=
  match n.toInt64? with
  | some i => some (int i)
  | none =>
    match n with
    | .float x => some (ofBinary64 x)
    | .int n _ => (Binary64.ofNat? n.toNat).map ofBinary64

def Scalar.ofJson (path : String) : Json → Except FilterError Scalar
  | .bool b => .ok (bool b)
  | .string s => .ok (text s)
  | .number n =>
    match ofNumber? n with
    | some value => .ok value
    | none => .error (.unsupported path .number)
  | j => .error (.unsupported path j.kind)

/-- The scalars of an array, all reported at the place of the array. -/
def Scalar.listOfJson (path : String) (items : List Json) : Except FilterError (List Scalar) :=
  items.mapM (Scalar.ofJson path)

/-- The operand of an operator: a list for membership, where one scalar counts as a list, and one
scalar for any other. -/
def Operand.ofJson (op : Operator) (path : String) : Json → Except FilterError Operand
  | .array items =>
    if op.isMembership then (Scalar.listOfJson path items).map .many
    else .error (.unsupported path .array)
  | j => (Scalar.ofJson path j).map fun value =>
    if op.isMembership then .many [value] else .one value

/-- Whether an object is a constraint: it names an operator, and nothing but operators and the
match mode. -/
def Constraint.isObject (members : List (String × Json)) : Bool :=
  members.any (fun m => (Operator.ofToken? m.1).isSome) &&
    members.all fun m => m.1 == modeKey || (Operator.ofToken? m.1).isSome

/-- Adds what a member of an operator object asks for. -/
def Constraint.addMember (path : String) (c : Constraint) (member : String × Json) :
    Except FilterError Constraint :=
  let (key, value) := member
  let path := Path.below path key
  if key = modeKey then
    match value with
    | .string word =>
      match MatchMode.ofWord? word with
      | some .ignoreCase => .ok { c with ignoreCase := true }
      | some .exact => .ok c
      | none => .error (.unsupported path .string)
    | _ => .error (.unsupported path value.kind)
  else
    match Operator.ofToken? key with
    | some op => (Operand.ofJson op path value).map (c.put op)
    | none => .ok c

def Constraint.ofMembers (path : String) (members : List (String × Json)) :
    Except FilterError Constraint :=
  members.foldlM (Constraint.addMember path) .empty

mutual

/-- The entries of a filter, from the members of an object. -/
def entriesOfJson (path : String) : List (String × Json) → Except FilterError (List (String × Node))
  | [] => .ok []
  | (key, value) :: members => do
    let node ←
      if (Connective.ofKey? key).isSome then groupOfJson (Path.below path key) value
      else nodeOfJson (Path.below path key) value
    let entries ← entriesOfJson path members
    return (key, node) :: entries

/-- The group under a connective; an object is a group of one. -/
def groupOfJson (path : String) : Json → Except FilterError Node
  | .object members => do
    let entries ← entriesOfJson path members
    return .group [.collect entries]
  | .array items => do
    let trees ← treesOfJson path 0 items
    return .group trees
  | _ => .error (.invalidGroup path)

/-- The filters of a group, the first of which has this index. -/
def treesOfJson (path : String) : Nat → List Json → Except FilterError (List Tree)
  | _, [] => .ok []
  | index, .object members :: items => do
    let entries ← entriesOfJson (path ++ "." ++ Integer.text index) members
    let trees ← treesOfJson path (index + 1) items
    return .collect entries :: trees
  | _, _ :: _ => .error (.invalidGroup path)

/-- The node under any other key. -/
def nodeOfJson (path : String) : Json → Except FilterError Node
  | .array items => do
    let values ← Scalar.listOfJson path items
    return .tests (.members values)
  | .object members =>
    if Constraint.isObject members then do
      let c ← Constraint.ofMembers path members
      return .tests c
    else do
      let entries ← entriesOfJson path members
      return .relation (.collect entries)
  | j => do
    let value ← Scalar.ofJson path j
    return .value value

end

/-- The filter that a JSON object stands for. -/
def Tree.ofJson : Json → Except FilterError Tree
  | .object members => do
    let entries ← entriesOfJson "" members
    return .collect entries
  | j => .error (.unsupported "" j.kind)

/-- The filter that a JSON text stands for. -/
def Tree.ofText (s : String) : Except FilterError Tree :=
  match Json.ofText? s with
  | some j => ofJson j
  | none => .error .invalidJson

end QueryFilter
