import QueryFilter.OrderedMap
import QueryFilter.Params.Basic
import QueryFilter.Text.Cut

/-!
# Sort orders

The fields to sort by, in order, each with a direction. A sort directive names one field: it is cut
at its first colon, or at its first underscore if there is no colon.
-/

namespace QueryFilter

inductive Direction where
  | asc
  | desc
deriving DecidableEq

namespace Direction

def word : Direction → String
  | asc => "asc"
  | desc => "desc"

def all : List Direction := [asc, desc]

/-- The direction a word asks for; any word but `desc` asks for ascending order. -/
def ofWord (word : String) : Direction := if word = "desc" then desc else asc

end Direction

abbrev SortOrder := OrderedMap String Direction

namespace SortOrder

/-- The order of one directive; without a field there is none. -/
def ofDirective? (directive : String) : Option SortOrder :=
  let (field, word) :=
    ((Text.cutFirst? ':' directive).or (Text.cutFirst? '_' directive)).getD (directive, "")
  if field = "" then none else some (.singleton field (.ofWord word))

/-- The order of the last parameter with this key. -/
def ofParams? (p : Params) (key : String) : Option SortOrder := (p.last? key).bind ofDirective?

end SortOrder

end QueryFilter
