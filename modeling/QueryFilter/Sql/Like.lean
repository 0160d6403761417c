import QueryFilter.Operator
import QueryFilter.Text.Upper

/-!
# Patterns of text

The patterns that match a literal text anywhere, at the start or at the end. A percent sign stands
for any text and an underscore for any character, unless a backslash stands before them.
-/

namespace QueryFilter

namespace Like

def escapeChar (c : Char) : List Char :=
  if c = '\\' ∨ c = '%' ∨ c = '_' then ['\\', c] else [c]

/-- The pattern that matches exactly the text. -/
def literal (cs : List Char) : List Char := cs.flatMap escapeChar

/-- The pattern of an operator on text. -/
def pattern (op : Operator) (cs : List Char) : List Char :=
  match op with
  | .startsWith => literal cs ++ ['%']
  | .endsWith => '%' :: literal cs
  | _ => '%' :: literal cs ++ ['%']

end Like

end QueryFilter
