import QueryFilter.Proofs.Matching
import QueryFilter.Proofs.ScalarText

/-!
# What operators ask

The table of the operators, apart from the conditions that are made of them. An operator compares a
column with a list of scalars, with one scalar, or with a text that is looked for as it is. The
tests in conditions follow the table (`Test.ofOperator_eq_asked`).
-/

namespace QueryFilter

/-- What a column is compared with: a list of scalars, one scalar if there is one, or a text. -/
inductive Comparison where
  | list (test : List Scalar → Test)
  | scalar (test : Option Scalar → Test)
  | text

def Operator.comparison : Operator → Comparison
  | isIn => .list .isIn
  | notIn => .list .notIn
  | notEqual => .scalar .notEqual
  | greater => .scalar .greater
  | atLeast => .scalar .atLeast
  | less => .scalar .less
  | atMost => .scalar .atMost
  | contains => .text
  | startsWith => .text
  | endsWith => .text

theorem Operand.display_many (vs : List Scalar) :
    (many vs).display = ",".intercalate (vs.map Scalar.display) := by
  apply String.toList_inj.mp
  simp [display, values, Text.join]

namespace Test

/-- The test that looks for a text as it is. Backslashes are escaped first, then what is a wildcard,
and any text may stand on the sides that the operator leaves open. -/
def literal (ignoreCase : Bool) (op : Operator) (text : String) : Test :=
  let escaped := Like.escapeEach '_' (Like.escapeEach '%' (Like.escapeEach '\\' text.toList))
  let pattern :=
    match op with
    | .startsWith => escaped ++ ['%']
    | .endsWith => '%' :: escaped
    | _ => '%' :: escaped ++ ['%']
  .like ignoreCase (String.ofList (if ignoreCase then upper pattern else pattern))

/-- The test that an operator asks for. A list counts as its first scalar where one is compared, and
as its items with commas between them where a text is. -/
def asked (ignoreCase : Bool) (op : Operator) (operand : Operand) : Test :=
  match op.comparison, operand with
  | .list test, .one v => test [v]
  | .list test, .many vs => test vs
  | .scalar test, .one v => test (some v)
  | .scalar test, .many vs => test vs.head?
  | .text, .one v => literal ignoreCase op v.display
  | .text, .many vs => literal ignoreCase op (",".intercalate (vs.map Scalar.display))

theorem literal_eq_like (ignoreCase : Bool) (op : Operator) (text : String) :
    literal ignoreCase op text =
      .like ignoreCase (String.ofList (if ignoreCase then upper (Like.pattern op text.toList)
        else Like.pattern op text.toList)) := by
  cases op <;> simp only [literal, Like.pattern, Like.literal_eq_escapeEach]

theorem ofOperator_eq_literal {op : Operator} (hop : op.matchesText) (ignoreCase : Bool)
    (operand : Operand) :
    ofOperator ignoreCase op operand = literal ignoreCase op operand.display := by
  rw [ofOperator_eq_like hop, literal_eq_like]

/-- Conditions test what the table says. -/
theorem ofOperator_eq_asked (ignoreCase : Bool) (op : Operator) (operand : Operand) :
    ofOperator ignoreCase op operand = asked ignoreCase op operand := by
  cases op with
  | contains | startsWith | endsWith =>
    rw [ofOperator_eq_literal rfl]
    cases operand with
    | one v => rw [Scalar.display_one]; rfl
    | many vs => rw [Operand.display_many]; rfl
  | isIn | notIn | notEqual | atLeast | atMost | greater | less =>
    cases operand with
    | one v => rfl
    | many vs => rfl

/-- Only the tests of text depend on the case. -/
theorem asked_congr {ignoreCase ignoreCase' : Bool} {op : Operator}
    (h : op.matchesText → ignoreCase = ignoreCase') (operand : Operand) :
    asked ignoreCase op operand = asked ignoreCase' op operand := by
  cases op with
  | contains | startsWith | endsWith => rw [h rfl]
  | isIn | notIn | notEqual | atLeast | atMost | greater | less => cases operand <;> rfl

end Test

end QueryFilter
