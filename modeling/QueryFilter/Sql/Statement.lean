import QueryFilter.SortOrder
import QueryFilter.Sql.Condition

/-!
# SQL text

A condition becomes a logical expression of two-sided conjunctions and disjunctions, and that
becomes text with only those parentheses that the sides of different connectives need.
-/

namespace QueryFilter

namespace Sql

/-! ## Expressions -/

inductive Expr where
  | const (value : Bool)
  | atom (atom : Atom)
  | not (e : Expr)
  | and (left right : Expr)
  | or (left right : Expr)

/-- The parts of a junction from left to right; no part at all is its neutral element. -/
def Expr.chain : Junction → List Expr → Expr
  | .all, [] => const true
  | .any, [] => const false
  | .all, e :: es => es.foldl and e
  | .any, e :: es => es.foldl or e

mutual

def ofPart : Part → Expr
  | .atom a => .atom a
  | .condition c => ofCondition c

def ofCondition : Condition → Expr
  | ⟨negated, junction, parts⟩ =>
    let e := Expr.chain junction (ofParts parts)
    if negated then .not e else e

def ofParts : List Part → List Expr
  | [] => []
  | part :: parts => ofPart part :: ofParts parts

end

/-! ## Text -/

/-- Text between two marks; a mark inside it is doubled. -/
def enclosed (mark : Char) (s : String) : String :=
  String.ofList (mark :: s.toList.flatMap (fun c => if c = mark then [c, c] else [c]) ++ [mark])

def identifier (name : String) : String := enclosed '"' name

def column (c : Column) : String :=
  match c.table with
  | some table => identifier table ++ "." ++ identifier c.name
  | none => identifier c.name

def literal : Scalar → String
  | .bool true => "TRUE"
  | .bool false => "FALSE"
  | .text s => enclosed '\'' s
  | number => number.display

/-- The scalar, or the null value if there is none. -/
def operand (value : Option Scalar) : String := value.elim "NULL" literal

def list (values : List Scalar) : String := "(" ++ ", ".intercalate (values.map literal) ++ ")"

/-- A comparison. Membership in no values is written as a comparison of constants. -/
def atom (a : Atom) : String :=
  let c := column a.column
  match a.test with
  | .equal v => c ++ " = " ++ literal v
  | .notEqual v => c ++ " <> " ++ operand v
  | .greater v => c ++ " > " ++ operand v
  | .atLeast v => c ++ " >= " ++ operand v
  | .less v => c ++ " < " ++ operand v
  | .atMost v => c ++ " <= " ++ operand v
  | .isIn [] => "1 = 2"
  | .isIn values => c ++ " IN " ++ list values
  | .notIn [] => "1 = 1"
  | .notIn values => c ++ " NOT IN " ++ list values
  | .like ignoreCase pattern =>
    (if ignoreCase then "UPPER(" ++ c ++ ")" else c) ++ " LIKE " ++ enclosed '\'' pattern ++
      " ESCAPE '\\'"

def wrap (parens : Bool) (s : String) : String := if parens then "(" ++ s ++ ")" else s

/-- Whether an expression has a connective. -/
def Expr.isCompound : Expr → Bool
  | .const _ | .atom _ => false
  | _ => true

/-- Whether an expression needs parentheses as the left side of a junction; a chain of the same
junction does not. -/
def Expr.wrapsLeft (junction : Junction) : Expr → Bool
  | .not _ => true
  | .and _ _ => junction == .any
  | .or _ _ => junction == .all
  | _ => false

def Expr.text : Expr → String
  | .const true => "TRUE"
  | .const false => "FALSE"
  | .atom a => Sql.atom a
  | .not e => "NOT " ++ wrap e.isCompound e.text
  | .and l r => wrap (l.wrapsLeft .all) l.text ++ " AND " ++ wrap r.isCompound r.text
  | .or l r => wrap (l.wrapsLeft .any) l.text ++ " OR " ++ wrap r.isCompound r.text

def direction : Direction → String
  | .asc => "ASC"
  | .desc => "DESC"

def orders (order : SortOrder) : List (String × String) :=
  order.entries.map fun e => (e.1, direction e.2)

/-- The statement that selects the rows of a table; an empty condition has no clause. -/
def select (table : String) (condition : Condition) (order : SortOrder) : String :=
  let whereClause :=
    if condition.isEmpty then "" else " WHERE " ++ (ofCondition condition).text
  let orderClause :=
    if order.isEmpty then ""
    else " ORDER BY " ++
      ", ".intercalate ((orders order).map fun o => identifier o.1 ++ " " ++ o.2)
  "SELECT * FROM " ++ identifier table ++ whereClause ++ orderClause

end Sql

end QueryFilter
