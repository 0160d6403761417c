import QueryFilter.Json.Basic

/-!
# Errors of filters

Parameters never fail; a filter given as JSON does when the text is no JSON, when a value has no
meaning in a filter, or when a connective holds something other than filters. The error names the
place by the keys above it, joined by points.
-/

namespace QueryFilter

/-- Why a JSON text is no filter. -/
inductive FilterError where
  | invalidJson
  | unsupported (path : String) (found : Json.Kind)
  | invalidGroup (path : String)
deriving DecidableEq

namespace FilterError

def message : FilterError → String
  | invalidJson => "invalid filter JSON"
  | unsupported path found =>
    if path = "" then "filter must be an object, found " ++ found.name
    else "unsupported " ++ found.name ++ " value at '" ++ path ++ "'"
  | invalidGroup path =>
    "logical group '" ++ path ++ "' must hold an object or an array of objects"

end FilterError

namespace Path

/-- The place of a key below a place; the outermost place is the empty text. -/
def below (path key : String) : String := if path = "" then key else path ++ "." ++ key

end Path

end QueryFilter
