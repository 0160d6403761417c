import QueryFilter.Tree.Params

/-!
# Text search

A search asks that one of some fields contains a term. It joins the rest of the filter by a
connective; a filter without keys gives way to it.
-/

namespace QueryFilter

/-- The filter that asks a field to contain a term; a dotted field is that of a related record. -/
def searchField (term : String) (mode : MatchMode) (field : String) : Tree :=
  let (relations, last) := Path.split field
  let c : Constraint := ⟨.singleton .contains (.one (.text term)), mode == .ignoreCase⟩
  relations.foldr (fun relation t => Tree.single relation (.relation t))
    (Tree.single last (.tests c))

/-- What holds of one field and is kept by a relation around it holds of a searched field. -/
theorem searchField_induction {motive : Tree → Prop} (term : String) (mode : MatchMode)
    (field : String)
    (hfield : ∀ key c, c.tests.entries ≠ [] → motive (.single key (.tests c)))
    (hrelation : ∀ key t, motive t → motive (.single key (.relation t))) :
    motive (searchField term mode field) := by
  unfold searchField
  generalize Path.split field = path
  obtain ⟨relations, last⟩ := path
  induction relations with
  | nil => exact hfield _ _ (List.cons_ne_nil _ _)
  | cons relation relations ih => exact hrelation relation _ ih

/-- The group of the fields that may contain the term; none without a term or without fields. -/
def searchGroup? (term : String) (fields : List String) (mode : MatchMode) : Option Tree :=
  if term = "" ∨ fields = [] then none
  else some (.group .or (fields.map (searchField term mode)))

namespace Tree

def search (o : Options) (term : Option String) (t : Tree) : Tree :=
  match term.bind fun term => searchGroup? term o.searchFields o.matchMode with
  | none => t
  | some found => if t.isEmpty then found else .group o.connective [t, found]

end Tree

/-- The term of the last parameter with a search key. -/
def Params.searchTerm? (o : Options) (p : Params) : Option String :=
  (p.pairs.reverse.find? fun pair => o.isSearchKey pair.1).map Prod.snd

/-- The filter that parameters ask for, search included. -/
def Params.toFilter (o : Options) (p : Params) : Tree :=
  (Tree.ofParams o p).search o (p.searchTerm? o)

end QueryFilter
