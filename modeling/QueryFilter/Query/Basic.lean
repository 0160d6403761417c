import QueryFilter.Params.Input
import QueryFilter.SortOrder
import QueryFilter.Tree.Merge
import QueryFilter.Tree.Search

/-!
# Queries

A query is a filter, perhaps a sort order, and a window. It is read from parameters, written as
parameters, and merged with a trusted query.
-/

namespace QueryFilter

structure Query where
  filter : Tree
  order : Option SortOrder
  window : Window

namespace Query

def empty : Query := ⟨.empty, none, .none⟩

/-- The query that parameters ask for. -/
def ofParams (o : Options) (p : Params) : Query :=
  ⟨p.toFilter o, SortOrder.ofParams? p o.orderKey, .ofParams p o.pageSize⟩

def ofInput (o : Options) (input : Input) : Query := ofParams o input.toParams

def orderPairs (o : Options) (order : SortOrder) : List (String × String) :=
  order.entries.map fun e => (o.orderKey, e.1 ++ "_" ++ e.2.word)

/-- The parameters of a query: the filter, the order, and the page if there is one. -/
def toParams (o : Options) (q : Query) : Params :=
  ⟨q.filter.toPairs "" ++ q.order.elim [] (orderPairs o) ++
    q.window.page?.elim [] fun page => [(Window.pageKey, Integer.text page.toInt)]⟩

/-- Both queries: the filters are merged, a requested order wins, and the window is the requested
one. -/
def merge (trusted requested : Query) : Query :=
  ⟨.merge trusted.filter requested.filter, requested.order.or trusted.order, requested.window⟩

/-- Equality of values; the order of keys in filters does not matter, nor that of sorted fields. -/
def same (q r : Query) : Bool :=
  q.filter.same r.filter && q.window == r.window &&
    match q.order, r.order with
    | none, none => true
    | some a, some b => a.size == b.size && a.entries.all fun e => b.get? e.1 == some e.2
    | _, _ => false

end Query

end QueryFilter
