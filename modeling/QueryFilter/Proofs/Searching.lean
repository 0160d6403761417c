import QueryFilter.Proofs.Merge
import QueryFilter.Proofs.Restricting

/-!
# What a search asks

A searched field asks one thing: that the column it names contains the term as it is. Its relations
are written from the field outwards, and the innermost of them is the table of the column
(`Tree.condition_nested`). The group of all fields asks that one of them does, and a connective
joins it to the rest of the filter (`Tree.holds_search`).
-/

namespace QueryFilter

/-! ## The column of a field -/

/-- The column that a dotted field names: its last segment, in the table of the segment before. -/
def Column.ofField (field : String) : Column :=
  let segments := Text.pieces '.' field
  ⟨segments.dropLast.getLast?, segments.getLast (Text.pieces_ne_nil '.' field)⟩

namespace Path

theorem stem_append (relations : List String) (last : String) :
    stem relations ++ last = Text.join '.' (relations ++ [last]) := by
  apply String.toList_inj.mp
  induction relations with
  | nil => simp [stem, Text.join]
  | cons relation relations ih =>
    rw [List.cons_append, Text.toList_join_cons (by simp), ← ih, stem_cons]
    simp

theorem pieces_eq (field : String) :
    Text.pieces '.' field = (split field).1 ++ [(split field).2] := by
  obtain ⟨hfield, hrelations, hlast⟩ := stem_split field
  rw [stem_append] at hfield
  have hdots : ∀ s ∈ (split field).1 ++ [(split field).2], '.' ∉ s.toList := by
    intro s hs
    rcases List.mem_append.mp hs with hs | hs
    · exact hrelations s hs
    · rwa [List.mem_singleton.mp hs]
  calc Text.pieces '.' field
      = Text.pieces '.' (Text.join '.' ((split field).1 ++ [(split field).2])) := by rw [hfield]
    _ = (split field).1 ++ [(split field).2] := Text.pieces_join (by simp) hdots

end Path

theorem Column.ofField_eq (field : String) :
    ofField field = ⟨(Path.split field).1.getLast?, (Path.split field).2⟩ := by
  simp [ofField, Path.pieces_eq]

/-! ## Nodes below relations -/

namespace Tree

/-- A filter with one node, at the end of a path of relations. -/
def nested (relations : List String) (key : String) (node : Node) : Tree :=
  relations.foldr (fun relation t => single relation (.relation t)) (single key node)

theorem condition_single {table : Option String} {key : String} {node : Node} {c : Condition}
    (h : node.condition? table key = some c) :
    (single key node).condition table = .allOf [c] := by
  rw [single, condition, entryConditions, h]
  rfl

/-- One test at the end of a path is a condition on the column of the innermost relation. -/
theorem condition_nested {c : Constraint} {op : Operator} {operand : Operand}
    (hc : c.tests.entries = [(op, operand)]) (relations : List String) (key : String)
    (table : Option String) :
    (nested relations key (.tests c)).condition table =
      .ofAtoms [⟨⟨relations.getLast?.or table, key⟩, .ofOperator c.ignoreCase op operand⟩] := by
  induction relations generalizing table with
  | nil =>
    have hnode : (Node.tests c).condition? table key =
        some (.ofAtoms [⟨⟨table, key⟩, .ofOperator c.ignoreCase op operand⟩]) := by
      rw [Node.condition?, Constraint.atoms, hc]
      rfl
    exact condition_single hnode
  | cons relation relations ih =>
    have hnode : (Node.relation (nested relations key (.tests c))).condition? table relation =
        some (.ofAtoms [⟨⟨relations.getLast?.or (some relation), key⟩,
          .ofOperator c.ignoreCase op operand⟩]) := by
      rw [Node.condition?, ih]
      rfl
    rw [nested, List.foldr_cons, ← nested, condition_single hnode, List.getLast?_cons]
    cases relations.getLast? <;> rfl

end Tree

theorem condition_searchField (term : String) (mode : MatchMode) (field : String) :
    (searchField term mode field).toCondition =
      .ofAtoms [⟨.ofField field, .literal (mode == .ignoreCase) .contains term⟩] := by
  have htest : Test.literal (mode == .ignoreCase) .contains term =
      .ofOperator (mode == .ignoreCase) .contains (.one (.text term)) := by
    rw [Test.ofOperator_eq_literal rfl, Scalar.display_one]
    rfl
  rw [htest, Column.ofField_eq, ← Option.or_none (o := (Path.split field).1.getLast?)]
  exact Tree.condition_nested rfl ..

/-! ## The truth of a search -/

/-- Whether one of the searched fields contains the term, given the truth of the atoms. -/
def Options.finds (v : Atom → Bool) (o : Options) (term : String) : Bool :=
  o.searchFields.any fun field =>
    v ⟨.ofField field, .literal (o.matchMode == .ignoreCase) .contains term⟩

namespace Tree

variable (v : Atom → Bool)

theorem holds_searchGroup (o : Options) (term : String) :
    (group .or (o.searchFields.map (searchField term o.matchMode))).toCondition.holds v =
      o.finds v term := by
  rw [holds_group v (by simp), Connective.combine, List.map_map, List.any_map, Options.finds]
  refine congrArg (List.any _) (funext fun field => ?_)
  simp [condition_searchField, Condition.holds_ofAtoms]

theorem search_eq_self {o : Options} {term : Option String}
    (h : term = none ∨ term = some "" ∨ o.searchFields = []) (t : Tree) : t.search o term = t := by
  have hnone : (term.bind fun term => searchGroup? term o.searchFields o.matchMode) = none := by
    rcases h with rfl | rfl | hfields
    · rfl
    · rfl
    · cases term <;> simp [searchGroup?, hfields]
  rw [search, hnone]

section
variable {o : Options} {term : String} (hterm : term ≠ "") (hfields : o.searchFields ≠ [])
include hterm hfields

theorem searchGroup?_eq_some : searchGroup? term o.searchFields o.matchMode =
    some (group .or (o.searchFields.map (searchField term o.matchMode))) :=
  if_neg (not_or.mpr ⟨hterm, hfields⟩)

theorem search_eq (t : Tree) :
    let found := group .or (o.searchFields.map (searchField term o.matchMode))
    t.search o (some term) = if t.isEmpty then found else group o.connective [t, found] := by
  rw [search, Option.bind_some, searchGroup?_eq_some hterm hfields]

theorem holds_search_of_isEmpty {t : Tree} (ht : t.isEmpty) :
    (t.search o (some term)).toCondition.holds v = o.finds v term := by
  rw [search_eq hterm hfields, if_pos ht, holds_searchGroup]

theorem holds_search_of_not_isEmpty {t : Tree} (ht : ¬ t.isEmpty)
    (hnot : o.connective = .not → ¬ t.toCondition.isEmpty) :
    (t.search o (some term)).toCondition.holds v =
      o.connective.combine [t.toCondition.holds v, o.finds v term] := by
  rw [search_eq hterm hfields, if_neg ht, holds_group, List.map_cons, List.map_singleton,
    holds_searchGroup]
  -- both entries of a negation ask something
  intro hconnective
  rw [List.forall_mem_cons, List.forall_mem_singleton]
  exact ⟨hnot hconnective,
    not_isEmpty_condition_searchGroup? (searchGroup?_eq_some hterm hfields) none⟩

end

/-- A search adds that one of its fields contains the term, by the connective of the options; a
filter without keys gives way to it, and a search for nothing leaves the filter as it is. -/
theorem holds_search (o : Options) (t : Tree) (term : Option String) :
    (∀ text, term = some text → text ≠ "" → o.searchFields ≠ [] →
      (o.connective = .and → (t.search o term).toCondition.holds v =
        (t.toCondition.holds v && o.finds v text)) ∧
      (o.connective = .or → ¬ t.isEmpty → (t.search o term).toCondition.holds v =
        (t.toCondition.holds v || o.finds v text)) ∧
      (o.connective = .not → ¬ t.toCondition.isEmpty → (t.search o term).toCondition.holds v =
        (!t.toCondition.holds v && !o.finds v text)) ∧
      (t.isEmpty → (t.search o term).toCondition.holds v = o.finds v text)) ∧
    (term = none ∨ term = some "" ∨ o.searchFields = [] → t.search o term = t) := by
  refine ⟨?_, fun h => search_eq_self h t⟩
  rintro text rfl htext hfields
  have hsole := holds_search_of_isEmpty v htext hfields (t := t)
  have hjoined := holds_search_of_not_isEmpty v htext hfields (t := t)
  refine ⟨fun hand => ?_, fun hor ht => ?_, fun hnot ht => ?_, hsole⟩
  · by_cases ht : t.isEmpty
    · rw [hsole ht, holds_of_isEmpty_entries v ht, Bool.true_and]
    · rw [hjoined ht (by simp [hand]), hand]
      simp [Connective.combine]
  · rw [hjoined ht (by simp [hor]), hor]
    simp [Connective.combine]
  · have hkeys : ¬ t.isEmpty := by
      intro he
      rw [toCondition, isEmpty_condition_iff, List.isEmpty_iff.mp he] at ht
      exact ht (by simp)
    rw [hjoined hkeys fun _ => ht, hnot]
    simp [Connective.combine]

/-- A negation joined to a search of a related record. -/
theorem holds_search_banned :
    let o : Options :=
      { Options.standard with searchFields := ["site.owner.name", "code"], connective := .not }
    let t := single "banned" (.value (.bool true))
    let v : Atom → Bool := fun a => a.column = ⟨some "owner", "name"⟩
    ("ann" ≠ "" ∧ o.searchFields ≠ [] ∧ o.connective = .not ∧ ¬ t.toCondition.isEmpty) ∧
      (t.search o (some "ann")).toCondition.holds v =
        (!t.toCondition.holds v && !o.finds v "ann") ∧
      o.finds v "ann" := by
  intro o t v
  have hterm : "ann" ≠ "" := by decide
  have hfields : o.searchFields ≠ [] := by decide
  have ht : ¬ t.toCondition.isEmpty := by decide
  exact ⟨⟨hterm, hfields, rfl, ht⟩,
    ((holds_search v o t (some "ann")).1 "ann" rfl hterm hfields).2.2.1 rfl ht, by decide⟩

end Tree

end QueryFilter
