import QueryFilter.Operator
import QueryFilter.Window

/-!
# Options

Which parameters are no filters, and how a text search is done.
-/

namespace QueryFilter

structure Options where
  searchKey : String
  orderKey : String
  searchFields : List String
  matchMode : MatchMode
  connective : Connective
  defaultPageSize : UInt64
deriving DecidableEq

namespace Options

def defaultSearchKey : String := "search"

/-- A second search key, while the first is the default one. -/
def shortSearchKey : String := "q"

def standardPageSize : UInt64 := 10

def standard : Options where
  searchKey := defaultSearchKey
  orderKey := "order"
  searchFields := []
  matchMode := .ignoreCase
  connective := .and
  defaultPageSize := standardPageSize

def isSearchKey (o : Options) (key : String) : Bool :=
  key == o.searchKey || (o.searchKey == defaultSearchKey && key == shortSearchKey)

/-- Whether a key asks for a window, an order or a search. -/
def isReserved (o : Options) (key : String) : Bool :=
  Window.keys.contains key || key == o.orderKey || o.isSearchKey key

/-- The page size; zero stands for the standard one. -/
def pageSize (o : Options) : UInt64 :=
  if o.defaultPageSize = 0 then standardPageSize else o.defaultPageSize

end Options

end QueryFilter
