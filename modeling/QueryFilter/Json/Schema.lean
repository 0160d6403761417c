import QueryFilter.Error
import QueryFilter.Json.Writer
import QueryFilter.Number.Integer
import QueryFilter.Text.Quoted

/-!
# Typed readings of JSON

Reading a JSON value as a text, an integer, a word of a fixed list or a record, with an error that
says what was found and what was expected. A record is an object whose known members are read in
their order, or an array of its fields; what is missing keeps its value.
-/

namespace QueryFilter

/-- What a JSON value was expected to be. -/
inductive Expected where
  | text
  | int64
  | uint64
  | sequence
  | map
  | wordOrMap
  | nothing
  | record (name : String)
deriving DecidableEq

def Expected.words : Expected → String
  | text => "a string"
  | int64 => "i64"
  | uint64 => "u64"
  | sequence => "a sequence"
  | map => "a map"
  | wordOrMap => "string or map"
  | nothing => "unit"
  | record name => "struct " ++ name

/-- Why a JSON value does not fit. -/
inductive SchemaError where
  | wrongType (found : Json) (expected : Expected)
  | outOfRange (found : Int) (expected : Expected)
  | notOneKey
  | unknownWord (found : String) (known : List String)
  | tooLong (length : Nat)
  | filter (error : FilterError)

namespace SchemaError

/-- A word between backquotes. -/
def ticked (s : String) : String := "`" ++ s ++ "`"

def describe : Json → String
  | .null => "null"
  | .bool true => "boolean " ++ ticked "true"
  | .bool false => "boolean " ++ ticked "false"
  | .number (.int n _) => "integer " ++ ticked (Integer.text n)
  | .number (.float x) => "floating point " ++ ticked (String.ofList (x.chars .json))
  | .string s => "string " ++ Quoted.text s
  | .array _ => "sequence"
  | .object _ => "map"

/-- The words of a list in a message: two are joined by `or`, more are enumerated. -/
def oneOf (known : List String) : String :=
  match known.map ticked with
  | [a, b] => a ++ " or " ++ b
  | words => "one of " ++ ", ".intercalate words

def message : SchemaError → String
  | wrongType found expected =>
    "invalid type: " ++ describe found ++ ", expected " ++ expected.words
  | outOfRange found expected =>
    "invalid value: integer " ++ ticked (Integer.text found) ++ ", expected " ++ expected.words
  | notOneKey => "invalid value: map, expected map with a single key"
  | unknownWord found known =>
    "unknown variant " ++ ticked found ++ ", expected " ++ oneOf known
  | tooLong length =>
    "invalid length " ++ Integer.text length ++ ", expected fewer elements in array"
  | filter error => error.message

end SchemaError

namespace Schema

def text : Json → Except SchemaError String
  | .string s => .ok s
  | j => .error (.wrongType j .text)

/-- A list of texts; the first that is none is the error. -/
def texts : Json → Except SchemaError (List String)
  | .array items => items.mapM text
  | j => .error (.wrongType j .sequence)

def uint64 : Json → Except SchemaError UInt64
  | .number (.int n h) =>
    match (Json.Number.int n h).toUInt64? with
    | some value => .ok value
    | none => .error (.outOfRange n .uint64)
  | j => .error (.wrongType j .uint64)

def int64 : Json → Except SchemaError Int64
  | .number (.int n h) =>
    match (Json.Number.int n h).toInt64? with
    | some value => .ok value
    | none => .error (.outOfRange n .int64)
  | j => .error (.wrongType j .int64)

/-- Nothing for null, and else what the reader gives. -/
def optional {α : Type} (read : Json → Except SchemaError α) : Json → Except SchemaError (Option α)
  | .null => .ok none
  | j => (read j).map some

/-- One of some values by its word; the word may also be the single key of an object that holds
null. -/
def word {α : Type} (all : List α) (word : α → String) (j : Json) : Except SchemaError α :=
  let known (s : String) : Except SchemaError α :=
    match all.find? (word · == s) with
    | some a => .ok a
    | none => .error (.unknownWord s (all.map word))
  match j with
  | .string s => known s
  | .object [(s, content)] => do
    let a ← known s
    match content with
    | .null => .ok a
    | j => .error (.wrongType j .nothing)
  | .object _ => .error .notOneKey
  | j => .error (.wrongType j .wordOrMap)

/-- A record: `set` reads one field into the record so far, and leaves it if it is unknown. -/
def record {α : Type} (name : String) (fields : List String)
    (set : α → String → Json → Except SchemaError α) (start : α) : Json → Except SchemaError α
  | .object members => members.foldlM (fun a member => set a member.1 member.2) start
  | .array items => do
    let a ← (fields.zip items).foldlM (fun a member => set a member.1 member.2) start
    if fields.length < items.length then .error (.tooLong items.length) else .ok a
  | j => .error (.wrongType j (.record name))

end Schema

end QueryFilter
