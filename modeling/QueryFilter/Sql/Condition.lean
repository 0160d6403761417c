import QueryFilter.Sql.Like
import QueryFilter.Tree.Basic

/-!
# Conditions

What a filter asks of the rows of a table: comparisons of columns, combined by conjunction,
disjunction and negation. Parts of a filter that ask nothing are left out, so an empty condition
stands for every row.
-/

namespace QueryFilter

/-- A column, of a related table if one is given. -/
structure Column where
  table : Option String
  name : String
deriving DecidableEq

/-- How one column is compared. -/
inductive Test where
  | equal (value : Scalar)
  | notEqual (value : Option Scalar)
  | greater (value : Option Scalar)
  | atLeast (value : Option Scalar)
  | less (value : Option Scalar)
  | atMost (value : Option Scalar)
  | isIn (values : List Scalar)
  | notIn (values : List Scalar)
  | like (ignoreCase : Bool) (pattern : String)
deriving DecidableEq

structure Atom where
  column : Column
  test : Test
deriving DecidableEq

/-- How the parts of a condition combine. -/
inductive Junction where
  | all
  | any
deriving DecidableEq

mutual

inductive Part where
  | atom (atom : Atom)
  | condition (condition : Condition)

/-- Parts under one junction, negated if asked. -/
structure Condition where
  negated : Bool
  junction : Junction
  parts : List Part

end

namespace Condition

def isEmpty (c : Condition) : Bool := c.parts.isEmpty

/-- A condition as a part of another: one part that is not negated stands for itself. -/
def asPart : Condition → Part
  | ⟨false, _, [part]⟩ => part
  | c => .condition c

/-- All of some conditions. -/
def allOf (cs : List Condition) : Condition := ⟨false, .all, cs.map asPart⟩

/-- One of some conditions. -/
def anyOf (cs : List Condition) : Condition := ⟨false, .any, cs.map asPart⟩

def ofAtoms (atoms : List Atom) : Condition := ⟨false, .all, atoms.map .atom⟩

def negate (c : Condition) : Condition := { c with negated := !c.negated }

def nonEmpty? (c : Condition) : Option Condition := if c.isEmpty then none else some c

/-- The condition of a group, from those of its entries; none if it asks nothing. An entry that
asks nothing makes a disjunction ask nothing, and counts for nothing in the other groups. A
disjunction of no entries stays. -/
def combine (connective : Connective) (entries : List Condition) : Option Condition :=
  match connective with
  | .and => (allOf (entries.filter (!·.isEmpty))).nonEmpty?
  | .or => if entries.any isEmpty then none else some (anyOf entries)
  | .not => (allOf ((entries.filter (!·.isEmpty)).map negate)).nonEmpty?

end Condition

/-- The test that an operator asks for. An operator that takes one scalar takes the first. -/
def Test.ofOperator (ignoreCase : Bool) (op : Operator) (operand : Operand) : Test :=
  let first := operand.values.head?
  match op with
  | .isIn => isIn operand.values
  | .notIn => notIn operand.values
  | .notEqual => notEqual first
  | .greater => greater first
  | .atLeast => atLeast first
  | .less => less first
  | .atMost => atMost first
  | .contains | .startsWith | .endsWith =>
    let pattern := Like.pattern op operand.display.toList
    like ignoreCase (String.ofList (if ignoreCase then upper pattern else pattern))

def Constraint.atoms (column : Column) (c : Constraint) : List Atom :=
  c.tests.entries.map fun e => ⟨column, .ofOperator c.ignoreCase e.1 e.2⟩

mutual

/-- The condition of a node in a table; none if it asks nothing. A relation is the table of what
stands below it. -/
def Node.condition? (table : Option String) (key : String) : Node → Option Condition
  | .value v => some (.ofAtoms [⟨⟨table, key⟩, .equal v⟩])
  | .tests c => (Condition.ofAtoms (c.atoms ⟨table, key⟩)).nonEmpty?
  | .relation t => (t.condition (some key)).nonEmpty?
  | .group ts => Condition.combine ((Connective.ofKey? key).getD .and) (conditions table ts)

/-- The condition of a filter in a table. -/
def Tree.condition (table : Option String) : Tree → Condition
  | ⟨es⟩ => .allOf (entryConditions table es)

def entryConditions (table : Option String) : List (String × Node) → List Condition
  | [] => []
  | (key, node) :: es => (node.condition? table key).toList ++ entryConditions table es

def conditions (table : Option String) : List Tree → List Condition
  | [] => []
  | t :: ts => t.condition table :: conditions table ts

end

/-- The condition of a whole filter. -/
def Tree.toCondition (t : Tree) : Condition := t.condition none

end QueryFilter
