import QueryFilter.Error
import QueryFilter.Json.Writer
import QueryFilter.Query.Basic

/-!
# Requests and responses

The query that the URI of a request asks for, and the answer to a request whose filter is bad: the
client learns what kind of mistake it made, and no more.
-/

namespace QueryFilter

structure Response where
  status : Nat
  contentType : String
  body : String
deriving DecidableEq

namespace FilterError

/-- What the client is told. -/
def publicMessage : FilterError → String
  | invalidJson => "Filter is not valid JSON"
  | unsupported _ _ | invalidGroup _ => "Filter has an unsupported shape"

def toResponse (e : FilterError) : Response :=
  ⟨400, "application/json", (Json.object [("error", .string e.publicMessage)]).text⟩

end FilterError

namespace Uri

/-- The query of a URI: what stands after the first question mark, without the fragment. -/
def query? (uri : String) : Option String :=
  let cs := uri.toList.takeWhile (· ≠ '#')
  (Chars.cutFirst? '?' cs).map fun p => String.ofList p.2

end Uri

/-- The query that a request with this URI asks for. -/
def Query.ofUri (o : Options) (uri : String) : Query :=
  .ofInput o (.query ((Uri.query? uri).getD ""))

end QueryFilter
