import QueryFilter.Tree.Basic

/-!
# Merging a trusted filter

A trusted filter holds whatever was requested. Fields of both sides stand side by side and the
trusted one wins; as soon as a side has a logical key, both become entries of one group.
-/

namespace QueryFilter

namespace Tree

/-- The entries of a filter that is one group of all; any other filter is one entry. -/
def conjuncts (t : Tree) : List Tree := (t.soleGroup? .and).getD [t]

/-- Both filters, the trusted one with precedence. -/
def merge (trusted requested : Tree) : Tree :=
  if trusted.isEmpty then requested
  else if requested.isEmpty then trusted
  else if trusted.hasConnectiveKey || requested.hasConnectiveKey then
    .group .and (requested.conjuncts ++ trusted.conjuncts)
  else requested.putAll trusted.entries

end Tree

end QueryFilter
