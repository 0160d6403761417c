import QueryFilter.Operator
import QueryFilter.OrderedMap
import QueryFilter.Scalar

/-!
# Constraints

All that is asked of one field: an operand for each of some operators, in the order in which they
were asked, and whether the operators on text ignore case.
-/

namespace QueryFilter

/-- The operators applied to one field. -/
structure Constraint where
  tests : OrderedMap Operator Operand
  ignoreCase : Bool
deriving DecidableEq

namespace Constraint

def empty : Constraint := ⟨.empty, false⟩

/-- A list of allowed values. -/
def members (values : List Scalar) : Constraint := ⟨.singleton .isIn (.many values), false⟩

def isEmpty (c : Constraint) : Bool := c.tests.isEmpty

def get? (c : Constraint) (op : Operator) : Option Operand := c.tests.get? op

/-- Sets the operand of an operator; an operator asked before keeps its place. -/
def put (c : Constraint) (op : Operator) (operand : Operand) : Constraint :=
  { c with tests := c.tests.put op operand }

/-- Appends allowed values; a single allowed value becomes the first of the list. -/
def addMembers (c : Constraint) (values : List Scalar) : Constraint :=
  { c with tests := c.tests.update .isIn fun old =>
      .many ((old.elim [] Operand.values) ++ values) }

/-- Equality of values; the order of the operators does not matter. -/
def same (c d : Constraint) : Bool :=
  c.ignoreCase == d.ignoreCase && c.tests.size == d.tests.size &&
    c.tests.entries.all fun e => (d.get? e.1).any e.2.same

@[simp] theorem get?_put (c : Constraint) (op op' : Operator) (operand : Operand) :
    (c.put op operand).get? op' = if op' = op then some operand else c.get? op' :=
  c.tests.get?_put op op' operand

@[simp] theorem get?_addMembers (c : Constraint) (values : List Scalar) (op : Operator) :
    (c.addMembers values).get? op =
      if op = .isIn then some (.many ((c.get? .isIn).elim [] Operand.values ++ values))
      else c.get? op :=
  c.tests.get?_update .isIn op _

end Constraint

end QueryFilter
