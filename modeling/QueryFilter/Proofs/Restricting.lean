import QueryFilter.Proofs.EmptyConditions
import QueryFilter.Proofs.Paths

/-!
# Filters that restrict

Parameters ask for all rows only if they are options and search for no text
(`Params.isEmpty_toCondition_iff`). Each node that clauses build has a condition, each searched
field has one too, and a group of both keeps one whatever its connective.
-/

namespace QueryFilter

/-! ## Filters read from parameters -/

section
variable {mode : MatchMode}

mutual

theorem Node.Compiled.condition?_ne_none (table : Option String) {key : String} :
    ∀ {node : Node}, node.Compiled mode key → node.condition? table key ≠ none
  | .value _, _ => by simp [Node.condition?]
  | .tests c, h => by
    rw [ne_eq, Node.condition?_tests_eq_none_iff]
    exact Constraint.Compiled.nonempty h
  | .relation t, h => by
    rw [Node.condition?, ne_eq, Condition.nonEmpty?_eq_none_iff]
    exact h.2.not_isEmpty_condition (some key) h.1

theorem Tree.Compiled.not_isEmpty_condition (table : Option String) : ∀ {t : Tree},
    t.Compiled mode → t.entries ≠ [] → ¬ (t.condition table).isEmpty
  | ⟨es⟩, h, hne => by
    rw [Tree.isEmpty_condition_iff]
    intro hnone
    obtain ⟨e, he⟩ := List.exists_mem_of_ne_nil es hne
    exact entriesCompiled_condition?_ne_none table es h.2 e he (hnone e he)

theorem entriesCompiled_condition?_ne_none (table : Option String) :
    ∀ es : List (String × Node), entriesCompiled mode es → ∀ e ∈ es, e.2.condition? table e.1 ≠ none
  | [], _ => by simp
  | (key, node) :: es, h => by
    obtain ⟨-, hnode, hes⟩ := h
    rw [List.forall_mem_cons]
    exact ⟨hnode.condition?_ne_none table, entriesCompiled_condition?_ne_none table es hes⟩

end

end

theorem Tree.entries_ofParams_eq_nil_iff {o : Options} {p : Params} :
    (ofParams o p).entries = [] ↔ ∀ pair ∈ p.pairs, o.isReserved pair.1 := by
  have hkeys : (ofParams o p).keys = [] ↔ p.clauses o = [] := by
    rw [ofParams_eq_addClauses, keys_addClauses]
    cases p.clauses o with
    | nil => simp
    | cons c cs => simp [List.eraseDups_cons]
  rw [keys, Entries.keys, List.map_eq_nil_iff] at hkeys
  rw [hkeys]
  simp [Params.clauses]

/-! ## Searches -/

namespace Params

/-- Whether no text is searched for: no parameter has a search key, the last one that has says
nothing, or no fields are searched. -/
def NoSearch (o : Options) (p : Params) : Prop :=
  (∀ pair ∈ p.pairs, ¬ o.isSearchKey pair.1) ∨
    (∃ before key after, p.pairs = before ++ (key, "") :: after ∧ o.isSearchKey key ∧
      ∀ pair ∈ after, ¬ o.isSearchKey pair.1) ∨
    o.searchFields = []

theorem searchTerm?_eq_none_iff {o : Options} {p : Params} :
    p.searchTerm? o = none ↔ ∀ pair ∈ p.pairs, ¬ o.isSearchKey pair.1 := by
  simp [searchTerm?]

theorem searchTerm?_eq_some_iff {o : Options} {p : Params} {term : String} :
    p.searchTerm? o = some term ↔ ∃ before key after, p.pairs = before ++ (key, term) :: after ∧
      o.isSearchKey key ∧ ∀ pair ∈ after, ¬ o.isSearchKey pair.1 := by
  rw [searchTerm?, Option.map_eq_some_iff]
  -- the search runs from the end, so what it has passed comes after
  constructor
  · rintro ⟨⟨key, value⟩, hfind, rfl⟩
    obtain ⟨hkey, after, before, heq, hafter⟩ := List.find?_eq_some_iff_append.mp hfind
    refine ⟨before.reverse, key, after.reverse, ?_, hkey, by simpa using hafter⟩
    rw [← List.reverse_reverse p.pairs, heq]
    simp
  · rintro ⟨before, key, after, heq, hkey, hafter⟩
    refine ⟨(key, term), List.find?_eq_some_iff_append.mpr ⟨hkey, after.reverse, before.reverse, ?_⟩,
      rfl⟩
    constructor
    · simp [heq]
    · simpa using hafter

theorem noSearch_iff {o : Options} {p : Params} : p.NoSearch o ↔
    ∀ term, p.searchTerm? o = some term → searchGroup? term o.searchFields o.matchMode = none := by
  rw [NoSearch, ← searchTerm?_eq_none_iff, ← searchTerm?_eq_some_iff]
  cases p.searchTerm? o with
  | none => simp
  | some term => simp [searchGroup?, or_iff_not_imp_left]

end Params

namespace Tree

variable {table : Option String}

theorem isEmpty_condition_single {key : String} {node : Node} :
    ((single key node).condition table).isEmpty ↔ node.condition? table key = none := by
  simp [isEmpty_condition_iff, single]

theorem isEmpty_condition_group {connective : Connective} {ts : List Tree} :
    ((group connective ts).condition table).isEmpty ↔
      Condition.combine connective (ts.map (·.condition table)) = none := by
  rw [group, isEmpty_condition_single, Node.condition?_group]

theorem not_isEmpty_condition_searchField (term : String) (mode : MatchMode) (field : String)
    (table : Option String) : ¬ ((searchField term mode field).condition table).isEmpty := by
  apply searchField_induction
    (motive := fun t => ∀ table, ¬ (t.condition table).isEmpty)
  · intro key c hc table
    rwa [isEmpty_condition_single, Node.condition?_tests_eq_none_iff]
  · intro key t ht table
    rw [isEmpty_condition_single, Node.condition?, Condition.nonEmpty?_eq_none_iff]
    exact ht (some key)

theorem not_isEmpty_condition_searchGroup? {term : String} {fields : List String}
    {mode : MatchMode} {t : Tree} (h : searchGroup? term fields mode = some t)
    (table : Option String) : ¬ (t.condition table).isEmpty := by
  unfold searchGroup? at h
  split at h
  · cases h
  · cases h
    rw [isEmpty_condition_group, Condition.combine_or_eq_none_iff]
    simpa using fun field _ => not_isEmpty_condition_searchField term mode field table

/-- A search that is made asks something, whatever it is joined to. -/
theorem isEmpty_condition_search_iff {o : Options} {mode : MatchMode} {t : Tree}
    (h : t.Compiled mode) (term? : Option String) :
    ((t.search o term?).condition table).isEmpty ↔ t.entries = [] ∧
      ∀ term, term? = some term → searchGroup? term o.searchFields o.matchMode = none := by
  have hempty : (t.condition table).isEmpty ↔ t.entries = [] := by
    constructor
    · intro hcondition
      by_contra hne
      exact h.not_isEmpty_condition table hne hcondition
    · intro heq
      simp [isEmpty_condition_iff, heq]
  unfold search
  split
  · next hnone => simpa [hempty] using fun _ => hnone
  · next found hfound =>
    obtain ⟨term, rfl, hgroup⟩ := Option.bind_eq_some_iff.mp hfound
    have hfoundAsks := not_isEmpty_condition_searchGroup? hgroup table
    simp only [Option.some.injEq, forall_eq', hgroup, reduceCtorEq, and_false, iff_false]
    split
    · exact hfoundAsks
    · next hne =>
      have hentries : ¬ (t.condition table).isEmpty := by
        rw [hempty]
        simpa [isEmpty] using hne
      rw [isEmpty_condition_group]
      -- the search alone keeps a conjunction or a negation, a disjunction needs both sides
      cases o.connective with
      | and => simp [Condition.combine_and_eq_none_iff, hfoundAsks]
      | or => simp [Condition.combine_or_eq_none_iff, hfoundAsks, hentries]
      | not => simp [Condition.combine_not_eq_none_iff, hfoundAsks]

end Tree

/-- Parameters ask for all rows exactly if they are options only and search for no text. -/
theorem Params.isEmpty_toCondition_iff (o : Options) (p : Params) :
    (p.toFilter o).toCondition.isEmpty ↔
      (∀ pair ∈ p.pairs, o.isReserved pair.1) ∧ p.NoSearch o := by
  rw [Params.toFilter, Tree.toCondition,
    Tree.isEmpty_condition_search_iff (Tree.compiled_ofParams o p), Tree.entries_ofParams_eq_nil_iff,
    Params.noSearch_iff]

end QueryFilter
