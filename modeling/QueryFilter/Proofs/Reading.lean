import QueryFilter.Proofs.Comparisons
import QueryFilter.Proofs.Truth

/-!
# The logical reading of filters

What a filter says of a row, without conditions: keys side by side all hold, an operator compares
its column as the table of the operators says, a relation names the table of what stands below it,
and a group is read by its key. The condition of a filter has the truth of this reading, as long as
no negation has an entry that asks nothing (`Tree.holds_toCondition`).
-/

namespace QueryFilter

/-- How the truths of the entries of a group combine; a negation holds if no entry does. -/
def Connective.combine : Connective → List Bool → Bool
  | and, truths => truths.all id
  | or, truths => truths.any id
  | not, truths => truths.all (!·)

/-- How the truths of the entries of a group combine under its key: one of them for OR, none of them
for NOT, and all of them for AND and any other key. -/
def groupReads (key : String) (truths : List Bool) : Bool :=
  if key = "OR" then truths.any id
  else if key = "NOT" then truths.all (!·)
  else truths.all id

theorem Connective.eq_key_not {key : String} (h : (ofKey? key).getD .and = .not) :
    key = Connective.not.key := by
  cases hk : ofKey? key with
  | none =>
    rw [hk] at h
    cases h
  | some connective =>
    rw [hk, Option.getD_some] at h
    rw [← h, key_of_ofKey? hk]

theorem groupReads_key (connective : Connective) (truths : List Bool) :
    groupReads connective.key truths = connective.combine truths := by
  cases connective <;> rfl

/-- A key that names no connective is read as a conjunction. -/
theorem groupReads_eq_combine (key : String) (truths : List Bool) :
    groupReads key truths = ((Connective.ofKey? key).getD .and).combine truths := by
  cases hk : Connective.ofKey? key with
  | some connective =>
    rw [← Connective.key_of_ofKey? hk, groupReads_key, Option.getD_some]
  | none =>
    have hkey (connective : Connective) : key ≠ connective.key := by
      rintro rfl
      rw [Connective.ofKey?_key] at hk
      cases hk
    have hor : key ≠ "OR" := hkey .or
    have hnot : key ≠ "NOT" := hkey .not
    rw [groupReads, if_neg hor, if_neg hnot]
    rfl

mutual

/-- The reading of a node in a table. -/
def Node.reads (v : Atom → Bool) (table : Option String) (key : String) : Node → Bool
  | .value a => v ⟨⟨table, key⟩, .equal a⟩
  | .tests c => c.tests.entries.all fun e => v ⟨⟨table, key⟩, .asked c.ignoreCase e.1 e.2⟩
  | .relation t => t.reads v (some key)
  | .group ts => groupReads key (readings v table ts)

/-- The logical reading of a filter in a table. -/
def Tree.reads (v : Atom → Bool) (table : Option String) : Tree → Bool
  | ⟨es⟩ => entriesRead v table es

def entriesRead (v : Atom → Bool) (table : Option String) : List (String × Node) → Bool
  | [] => true
  | (key, node) :: es => node.reads v table key && entriesRead v table es

def readings (v : Atom → Bool) (table : Option String) : List Tree → List Bool
  | [] => []
  | t :: ts => t.reads v table :: readings v table ts

end

mutual

/-- No entry of a negation has an empty condition, at any depth. -/
def Node.NegatesNoEmpty (table : Option String) (key : String) : Node → Prop
  | .value _ => True
  | .tests _ => True
  | .relation t => t.NegatesNoEmpty (some key)
  | .group ts =>
    (key = "NOT" → ∀ t ∈ ts, ¬ (t.condition table).isEmpty) ∧
      treesNegateNoEmpty table ts

def Tree.NegatesNoEmpty (table : Option String) : Tree → Prop
  | ⟨es⟩ => entriesNegateNoEmpty table es

def entriesNegateNoEmpty (table : Option String) : List (String × Node) → Prop
  | [] => True
  | (key, node) :: es => node.NegatesNoEmpty table key ∧ entriesNegateNoEmpty table es

def treesNegateNoEmpty (table : Option String) : List Tree → Prop
  | [] => True
  | t :: ts => t.NegatesNoEmpty table ∧ treesNegateNoEmpty table ts

end

section
variable (v : Atom → Bool)

theorem conditions_hold_of_isEmpty (table : Option String) (ts : List Tree) :
    ∀ c ∈ conditions table ts, c.isEmpty → c.holds v := by
  intro c hc he
  rw [conditions_eq_map] at hc
  obtain ⟨t, _, rfl⟩ := List.mem_map.mp hc
  exact t.holds_of_isEmpty v he

/-- A group has the truth of its connective, over the truths of its entries. -/
theorem holds?_combine {table : Option String} {ts : List Tree} (connective : Connective)
    (h : connective = .not → ∀ t ∈ ts, ¬ (t.condition table).isEmpty) :
    Condition.holds? v (Condition.combine connective (conditions table ts)) =
      connective.combine ((conditions table ts).map (·.holds v)) := by
  have hempty := conditions_hold_of_isEmpty v table ts
  cases connective with
  | and => rw [Condition.holds?_combine_and v hempty, Connective.combine, List.all_map]; rfl
  | or => rw [Condition.holds?_combine_or v hempty, Connective.combine, List.any_map]; rfl
  | not =>
    have hall : (conditions table ts).filter (!·.isEmpty) = conditions table ts := by
      rw [List.filter_eq_self, conditions_eq_map]
      intro c hc
      obtain ⟨t, ht, rfl⟩ := List.mem_map.mp hc
      simpa using h rfl t ht
    rw [Condition.holds?_combine_not, hall, Connective.combine, List.all_map]
    rfl

theorem Tree.holds_group {connective : Connective} {ts : List Tree}
    (h : connective = .not → ∀ t ∈ ts, ¬ t.toCondition.isEmpty) :
    (group connective ts).toCondition.holds v =
      connective.combine (ts.map (·.toCondition.holds v)) := by
  have hgroup := holds?_combine v connective h
  rw [conditions_eq_map, List.map_map] at hgroup
  rw [toCondition, holds_condition, group, single, List.all_cons, List.all_nil, Bool.and_true,
    Node.condition?, Connective.ofKey?_key, Option.getD_some, conditions_eq_map]
  exact hgroup

mutual

theorem Node.holds?_condition? (table : Option String) (key : String) :
    ∀ node : Node, node.NegatesNoEmpty table key →
      Condition.holds? v (node.condition? table key) = node.reads v table key
  | .value a, _ => by
    simp [Node.condition?, Condition.holds?, Condition.holds_ofAtoms, Node.reads]
  | .tests c, _ => by
    rw [Node.condition?, Condition.holds?_nonEmpty?, Condition.holds_ofAtoms, Constraint.atoms,
      List.all_map]
    · exact congrArg (List.all _) (funext fun e => congrArg (fun test => v ⟨⟨table, key⟩, test⟩)
        (Test.ofOperator_eq_asked c.ignoreCase e.1 e.2))
    · intro he
      simp only [Condition.isEmpty, Condition.ofAtoms, List.isEmpty_iff, List.map_eq_nil_iff] at he
      rw [Condition.holds_ofAtoms, he]
      rfl
  | .relation t, h => by
    rw [Node.NegatesNoEmpty] at h
    rw [Node.condition?, Condition.holds?_nonEmpty? v (t.holds_of_isEmpty v), Node.reads]
    exact Tree.holds_condition_eq_reads (some key) t h
  | .group ts, h => by
    obtain ⟨hnot, hts⟩ := h
    have hgroup : (Connective.ofKey? key).getD .and = .not →
        ∀ t ∈ ts, ¬ (t.condition table).isEmpty := fun hc => hnot (Connective.eq_key_not hc)
    rw [Node.condition?, holds?_combine v _ hgroup, holds_conditions_eq_readings table ts hts,
      Node.reads, groupReads_eq_combine]

theorem Tree.holds_condition_eq_reads (table : Option String) :
    ∀ t : Tree, t.NegatesNoEmpty table → (t.condition table).holds v = t.reads v table
  | ⟨es⟩, h => by
    rw [Tree.NegatesNoEmpty] at h
    rw [Tree.holds_condition, Tree.reads]
    exact holds?_entries_eq_entriesRead table es h

theorem holds?_entries_eq_entriesRead (table : Option String) :
    ∀ es : List (String × Node), entriesNegateNoEmpty table es →
      (es.all fun e => Condition.holds? v (e.2.condition? table e.1)) = entriesRead v table es
  | [], _ => rfl
  | (key, node) :: es, h => by
    obtain ⟨hnode, hes⟩ := h
    rw [List.all_cons, entriesRead, holds?_entries_eq_entriesRead table es hes]
    rw [Node.holds?_condition? table key node hnode]

theorem holds_conditions_eq_readings (table : Option String) :
    ∀ ts : List Tree, treesNegateNoEmpty table ts →
      (conditions table ts).map (·.holds v) = readings v table ts
  | [], _ => rfl
  | t :: ts, h => by
    obtain ⟨ht, hts⟩ := h
    rw [conditions, List.map_cons, readings, holds_conditions_eq_readings table ts hts]
    rw [Tree.holds_condition_eq_reads table t ht]

end

end

/-- Whatever is true of the atoms, the condition of a filter has the truth of its logical reading. -/
theorem Tree.holds_toCondition (v : Atom → Bool) (t : Tree) (h : t.NegatesNoEmpty none) :
    t.toCondition.holds v = t.reads v none :=
  t.holds_condition_eq_reads v none h

/-- A filter with values, operators, relations and all groups holds with these truths. It no longer
does if one more atom is true, that of a negated membership, or if that of a value is not. -/
theorem Tree.holds_toCondition_nested :
    let t : Tree := ⟨[("status", .value (.text "active")),
      ("owner", .relation ⟨[
        ("age", .tests
          ((Constraint.empty.put .atLeast (.one (.int 18))).put .less (.one (.int 65)))),
        ("OR", .group [single "name" (.tests ⟨.singleton .contains (.one (.text "50%")), true⟩),
          single "vip" (.value (.bool true))])]⟩),
      ("NOT", .group [single "site" (.relation (single "code" (.tests (.members [.int 1, .int 2])))),
        single "banned" (.value (.bool true))]),
      ("AND", .group [single "score" (.tests (Constraint.empty.put .notEqual (.one (.int 0))))])]⟩
    let truths : List Atom := [⟨⟨none, "status"⟩, .equal (.text "active")⟩,
      ⟨⟨some "owner", "age"⟩, .atLeast (some (.int 18))⟩,
      ⟨⟨some "owner", "age"⟩, .less (some (.int 65))⟩,
      ⟨⟨some "owner", "name"⟩, .like true "%50\\%%"⟩,
      ⟨⟨none, "score"⟩, .notEqual (some (.int 0))⟩]
    let onSite : Atom := ⟨⟨some "site", "code"⟩, .isIn [.int 1, .int 2]⟩
    t.NegatesNoEmpty none ∧ t.toCondition.holds (· ∈ truths) ∧
      ¬ t.toCondition.holds (· ∈ onSite :: truths) ∧ ¬ t.toCondition.holds (· ∈ truths.tail) := by
  intro t truths onSite
  have hasks :
      ¬ ((single "site" (.relation (single "code" (.tests (.members [.int 1, .int 2]))))).condition
          none).isEmpty ∧
        ¬ ((single "banned" (.value (.bool true))).condition none).isEmpty := by
    decide
  have h : t.NegatesNoEmpty none := by
    simpa [t, single, NegatesNoEmpty, entriesNegateNoEmpty, Node.NegatesNoEmpty,
      treesNegateNoEmpty] using hasks
  rw [holds_toCondition _ t h, holds_toCondition _ t h, holds_toCondition _ t h]
  exact ⟨h, by decide +kernel, by decide +kernel, by decide +kernel⟩

end QueryFilter
