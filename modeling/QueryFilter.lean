import QueryFilter.Proofs.Commuting
import QueryFilter.Proofs.Decoded
import QueryFilter.Proofs.Directives
import QueryFilter.Proofs.EmptyConditions
import QueryFilter.Proofs.LeadingIntegers
import QueryFilter.Proofs.Leaves
import QueryFilter.Proofs.Matching
import QueryFilter.Proofs.Merge
import QueryFilter.Proofs.Narrowing
import QueryFilter.Proofs.NumberReaders
import QueryFilter.Proofs.Numerals
import QueryFilter.Proofs.Offences
import QueryFilter.Proofs.Pages
import QueryFilter.Proofs.ParamsForm
import QueryFilter.Proofs.Paths
import QueryFilter.Proofs.PlainKeys
import QueryFilter.Proofs.QueryText
import QueryFilter.Proofs.Reading
import QueryFilter.Proofs.Repeating
import QueryFilter.Proofs.Restricting
import QueryFilter.Proofs.Spellings
import QueryFilter.Proofs.Tidy
import QueryFilter.Proofs.TypedText
import QueryFilter.Proofs.Untouched
import QueryFilter.Query.Json
import QueryFilter.Response
import QueryFilter.Sql.Statement
