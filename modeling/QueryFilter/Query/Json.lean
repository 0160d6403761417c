import QueryFilter.Json.Schema
import QueryFilter.Query.Basic
import QueryFilter.Tree.Json

/-!
# Options, sort orders and queries as JSON

Each is an object of named fields. Absent parts of a query are not written, and reading gives
missing fields their standard values.
-/

namespace QueryFilter

namespace Options

def fields : List String :=
  ["search_key", "order_key", "search_fields", "search_mode", "search_connective",
    "default_page_size"]

def toJson (o : Options) : Json :=
  .object [
    ("search_key", .string o.searchKey),
    ("order_key", .string o.orderKey),
    ("search_fields", .array (o.searchFields.map .string)),
    ("search_mode", .string o.matchMode.word),
    ("search_connective", .string o.connective.key),
    ("default_page_size", .number (.ofUInt64 o.defaultPageSize))]

def setField (o : Options) (field : String) (j : Json) : Except SchemaError Options :=
  match field with
  | "search_key" => (Schema.text j).map fun s => { o with searchKey := s }
  | "order_key" => (Schema.text j).map fun s => { o with orderKey := s }
  | "search_fields" => (Schema.texts j).map fun ss => { o with searchFields := ss }
  | "search_mode" =>
    (Schema.word MatchMode.all MatchMode.word j).map fun m => { o with matchMode := m }
  | "search_connective" =>
    (Schema.word Connective.all Connective.key j).map fun c => { o with connective := c }
  | "default_page_size" => (Schema.uint64 j).map fun n => { o with defaultPageSize := n }
  | _ => .ok o

def ofJson : Json → Except SchemaError Options :=
  Schema.record "ParseOptions" fields setField standard

end Options

namespace SortOrder

def toJson (order : SortOrder) : Json :=
  .object (order.entries.map fun e => (e.1, .string e.2.word))

def ofJson : Json → Except SchemaError SortOrder
  | .object members =>
    (members.mapM fun m => (Schema.word Direction.all Direction.word m.2).map (m.1, ·)).map
      OrderedMap.ofList
  | j => .error (.wrongType j .map)

end SortOrder

namespace Query

def fields : List String := ["where", "orderBy", "skip", "take"]

def toJson (q : Query) : Json :=
  .object ([("where", q.filter.toJson)] ++
    (q.order.elim [] fun order => [("orderBy", SortOrder.toJson order)]) ++
    (q.window.skip.elim [] fun n => [("skip", .number (.ofInt64 n))]) ++
    q.window.take.elim [] fun n => [("take", .number (.ofUInt64 n))])

def setField (q : Query) (field : String) (j : Json) : Except SchemaError Query :=
  match field with
  | "where" =>
    match Tree.ofJson j with
    | .ok filter => .ok { q with filter := filter }
    | .error e => .error (.filter e)
  | "orderBy" => (Schema.optional SortOrder.ofJson j).map fun order => { q with order := order }
  | "skip" =>
    (Schema.optional Schema.int64 j).map fun n => { q with window := { q.window with skip := n } }
  | "take" =>
    (Schema.optional Schema.uint64 j).map fun n => { q with window := { q.window with take := n } }
  | _ => .ok q

def ofJson : Json → Except SchemaError Query :=
  Schema.record "ParsedQuery" fields setField empty

end Query

end QueryFilter
