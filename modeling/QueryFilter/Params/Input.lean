import QueryFilter.OrderedMap
import QueryFilter.Params.Form

/-!
# Shapes of input

Parameters come as a query, as pairs, or as a record whose fields are absent, one text, or several.
-/

namespace QueryFilter

/-- A field of a record: one text or several. -/
inductive FieldValue where
  | one (value : String)
  | many (values : List String)
deriving DecidableEq

/-- The text of a field; several are joined by commas. -/
def FieldValue.joined : FieldValue → String
  | one value => value
  | many values => Text.join ',' values

/-- What parameters are taken from. -/
inductive Input where
  | query (query : String)
  | params (params : Params)
  | record (fields : List (String × Option FieldValue))

namespace Input

/-- A record without repeated fields. -/
def ofMap (fields : OrderedMap String (Option FieldValue)) : Input := .record fields.entries

/-- A record whose fields are ordered by the code points of their keys; of repeated fields the last
counts. -/
def sorted (fields : List (String × String)) : Input :=
  .record (((Entries.collect fields).mergeSort fun a b => decide (a.1 ≤ b.1)).map fun e =>
    (e.1, some (.one e.2)))

/-- The parameters of an input; absent fields are left out. -/
def toParams : Input → Params
  | query q => .ofQuery q
  | params p => p
  | record fields => ⟨fields.filterMap fun e => e.2.map fun value => (e.1, value.joined)⟩

end Input

end QueryFilter
