import QueryFilter.Text.Cut

/-!
# Operators, connectives and match modes

The comparisons a key can ask for, the connectives of logical groups and the ways to match text,
each with the word that names it. `Operator.splitKey?` reads a field with an operator suffix; it
takes back what `Operator.suffixed` writes.
-/

namespace QueryFilter

/-- A comparison of a field with an operand. -/
inductive Operator where
  | isIn
  | notIn
  | notEqual
  | atLeast
  | atMost
  | greater
  | less
  | contains
  | startsWith
  | endsWith
deriving DecidableEq

namespace Operator

/-- The word that names the operator in a key and in JSON. -/
def token : Operator → String
  | isIn => "in"
  | notIn => "notIn"
  | notEqual => "not"
  | atLeast => "gte"
  | atMost => "lte"
  | greater => "gt"
  | less => "lt"
  | contains => "contains"
  | startsWith => "startsWith"
  | endsWith => "endsWith"

def all : List Operator :=
  [isIn, notIn, notEqual, atLeast, atMost, greater, less, contains, startsWith, endsWith]

def ofToken? (token : String) : Option Operator := all.find? (·.token == token)

/-- The operators whose operand is always a list. -/
def isMembership : Operator → Bool
  | isIn | notIn => true
  | _ => false

/-- The operators that match text and may ignore case. -/
def matchesText : Operator → Bool
  | contains | startsWith | endsWith => true
  | _ => false

/-- The key that asks for an operator on a field. -/
def suffixed (field : String) (op : Operator) : String := field ++ "_" ++ op.token

/-- The field and the operator of a key, cut at its last underscore. The field is not empty. -/
def splitKey? (key : String) : Option (String × Operator) :=
  match Text.cutLast? '_' key with
  | some (field, token) => if field = "" then none else (ofToken? token).map (field, ·)
  | none => none

@[simp] theorem ofToken?_token (op : Operator) : ofToken? op.token = some op := by
  cases op <;> decide

theorem token_of_ofToken? {s : String} {op : Operator} (h : ofToken? s = some op) :
    op.token = s := by
  simpa using List.find?_some h

end Operator

/-- How the entries of a logical group combine. -/
inductive Connective where
  | and
  | or
  | not
deriving DecidableEq

namespace Connective

/-- The key under which the group stands. -/
def key : Connective → String
  | and => "AND"
  | or => "OR"
  | not => "NOT"

def all : List Connective := [and, or, not]

def ofKey? (key : String) : Option Connective := all.find? (·.key == key)

@[simp] theorem ofKey?_key (c : Connective) : ofKey? c.key = some c := by
  cases c <;> decide

theorem key_of_ofKey? {s : String} {c : Connective} (h : ofKey? s = some c) : c.key = s := by
  simpa using List.find?_some h

end Connective

/-- How the operators on text compare characters. -/
inductive MatchMode where
  | exact
  | ignoreCase
deriving DecidableEq

namespace MatchMode

def word : MatchMode → String
  | exact => "default"
  | ignoreCase => "insensitive"

def all : List MatchMode := [exact, ignoreCase]

def ofWord? (word : String) : Option MatchMode := all.find? (·.word == word)

end MatchMode

end QueryFilter
