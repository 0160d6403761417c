import QueryFilter.Options
import QueryFilter.Tree.Basic

/-!
# Filters as parameters

Reading turns each parameter into a clause about one field and folds the clauses into a tree.
Writing lists values and operators again, in order; logical groups have no parameters.
-/

namespace QueryFilter

/-! ## Reading -/

namespace Path

/-- The relations of a dotted key, and its last segment. -/
def split (key : String) : List String × String :=
  match Text.cutLast? '.' key with
  | some (above, last) => (Text.pieces '.' above, last)
  | none => ([], key)

end Path

/-- What one parameter says about one field: an operator, or none, and a value. -/
structure Clause where
  relations : List String
  field : String
  operator : Option Operator
  value : String
deriving DecidableEq

/-- The clause of a parameter. Only the last segment of a key may end in an operator. -/
def Clause.ofPair (key value : String) : Clause :=
  let (relations, last) := Path.split key
  match Operator.splitKey? last with
  | some (field, op) => ⟨relations, field, some op, value⟩
  | none => ⟨relations, last, none, value⟩

namespace Node

/-- What a node asks of its own field: a value is a list of one allowed value. -/
def constraint : Option Node → Constraint
  | some (.value v) => .members [v]
  | some (.tests c) => c
  | _ => .empty

/-- A plain value for a field. The first one stands as it is; later ones, and values between
commas, are allowed values. -/
def addValue (old : Option Node) (value : String) : Node :=
  match old, Scalar.listOfText value with
  | some (.value v), values => .tests ((Constraint.members [v]).addMembers values)
  | some (.tests c), values => .tests (c.addMembers values)
  | _, [v] => .value v
  | _, values => .tests (.members values)

/-- An operator for a field, merged into what is asked already. -/
def addTest (mode : MatchMode) (old : Option Node) (op : Operator) (value : String) : Node :=
  let operand :=
    if op.isMembership then Operand.many (Scalar.listOfText value)
    else .one (Scalar.firstOfText value)
  let c := (constraint old).put op operand
  .tests { c with ignoreCase := c.ignoreCase || (op.matchesText && mode == .ignoreCase) }

end Node

namespace Tree

def addClause (mode : MatchMode) (t : Tree) (c : Clause) : Tree :=
  t.within c.relations fun level =>
    level.update c.field fun old =>
      match c.operator with
      | some op => Node.addTest mode old op c.value
      | none => Node.addValue old c.value

/-- The filter of all parameters that are not reserved. -/
def ofParams (o : Options) (p : Params) : Tree :=
  p.pairs.foldl (fun t pair =>
    if o.isReserved pair.1 then t else t.addClause o.matchMode (.ofPair pair.1 pair.2)) empty

/-- What each clause preserves holds of the whole filter. -/
theorem ofParams_induction {motive : Tree → Prop} (o : Options) (p : Params)
    (hempty : motive empty)
    (hstep : ∀ t, motive t → ∀ pair ∈ p.pairs, ¬ o.isReserved pair.1 →
      motive (t.addClause o.matchMode (.ofPair pair.1 pair.2))) : motive (ofParams o p) := by
  refine List.foldlRecOn _ _ hempty fun t ht pair hpair => ?_
  split
  · exact ht
  · next hreserved => exact hstep t ht pair hpair hreserved

end Tree

/-! ## Writing -/

mutual

def Node.toPairs (key : String) : Node → List (String × String)
  | .value v => [(key, v.display)]
  | .tests c => c.tests.entries.map fun e => (Operator.suffixed key e.1, e.2.display)
  | .relation t => t.toPairs (key ++ ".")
  | .group _ => []

/-- The parameters of a filter; all keys start with the stem. -/
def Tree.toPairs (stem : String) : Tree → List (String × String)
  | ⟨es⟩ => entryPairs stem es

def entryPairs (stem : String) : List (String × Node) → List (String × String)
  | [] => []
  | (key, node) :: es => node.toPairs (stem ++ key) ++ entryPairs stem es

end

end QueryFilter
