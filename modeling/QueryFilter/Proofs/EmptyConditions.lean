import QueryFilter.Proofs.Reading
import QueryFilter.Proofs.Tidy

/-!
# Filters without a condition

A part of a filter has no condition if it asks nothing, in whatever table it stands. What has no
condition is true of every row, but for one kind of group: a negation of entries that all ask
nothing is true of no row, and it is left out all the same (`Tree.reads_of_isEmpty_iff`).
-/

namespace QueryFilter

/-! ## Empty conditions -/

namespace Condition

variable {cs : List Condition}

theorem nonEmpty?_eq_none_iff {c : Condition} : c.nonEmpty? = none ↔ c.isEmpty := by
  unfold nonEmpty?
  split <;> simp_all

theorem combine_and_eq_none_iff : combine .and cs = none ↔ ∀ c ∈ cs, c.isEmpty := by
  simp [combine, nonEmpty?_eq_none_iff, isEmpty_allOf]

theorem combine_or_eq_none_iff : combine .or cs = none ↔ ∃ c ∈ cs, c.isEmpty := by
  simp [combine]

theorem combine_not_eq_none_iff : combine .not cs = none ↔ ∀ c ∈ cs, c.isEmpty := by
  simp [combine, nonEmpty?_eq_none_iff, isEmpty_allOf]

/-- Whether a group asks nothing depends only on which of its entries do. -/
theorem combine_eq_none_congr {ds : List Condition} (connective : Connective)
    (h : cs.map isEmpty = ds.map isEmpty) :
    combine connective cs = none ↔ combine connective ds = none := by
  have hall : (∀ c ∈ cs, c.isEmpty) ↔ ∀ d ∈ ds, d.isEmpty := by
    simpa using congrArg (fun bs => ∀ b ∈ bs, b = true) h
  have hany : (∃ c ∈ cs, c.isEmpty) ↔ ∃ d ∈ ds, d.isEmpty := by
    simpa using congrArg (fun bs => ∃ b ∈ bs, b = true) h
  cases connective with
  | and => rw [combine_and_eq_none_iff, combine_and_eq_none_iff, hall]
  | or => rw [combine_or_eq_none_iff, combine_or_eq_none_iff, hany]
  | not => rw [combine_not_eq_none_iff, combine_not_eq_none_iff, hall]

end Condition

theorem Tree.isEmpty_condition_iff {table : Option String} {t : Tree} :
    (t.condition table).isEmpty ↔ ∀ e ∈ t.entries, e.2.condition? table e.1 = none := by
  obtain ⟨es⟩ := t
  rw [Tree.condition, Condition.isEmpty_allOf, List.isEmpty_iff]
  induction es with
  | nil => simp [entryConditions]
  | cons e es ih => simp_all [entryConditions]

theorem Node.condition?_tests_eq_none_iff {table : Option String} {key : String}
    {c : Constraint} : (Node.tests c).condition? table key = none ↔ c.tests.entries = [] := by
  simp [Node.condition?, Condition.nonEmpty?_eq_none_iff, Condition.isEmpty, Condition.ofAtoms,
    Constraint.atoms]

theorem Node.condition?_group {table : Option String} {connective : Connective}
    {ts : List Tree} : (Node.group ts).condition? table connective.key =
      Condition.combine connective (ts.map (·.condition table)) := by
  rw [Node.condition?, Connective.ofKey?_key, Option.getD_some, conditions_eq_map]

/-! ## The table does not matter -/

mutual

theorem Node.condition?_eq_none_iff_in (table table' : Option String) (key : String) :
    ∀ node : Node, node.condition? table key = none ↔ node.condition? table' key = none
  | .value _ => by simp [Node.condition?]
  | .tests _ => by rw [Node.condition?_tests_eq_none_iff, Node.condition?_tests_eq_none_iff]
  | .relation _ => Iff.rfl
  | .group ts => by
    rw [Node.condition?, Node.condition?]
    exact Condition.combine_eq_none_congr _ (isEmpty_conditions_in table table' ts)

theorem Tree.isEmpty_condition_in (table table' : Option String) :
    ∀ t : Tree, (t.condition table).isEmpty = (t.condition table').isEmpty
  | ⟨es⟩ => by
    rw [Bool.eq_iff_iff, Tree.isEmpty_condition_iff, Tree.isEmpty_condition_iff]
    exact condition?_entries_in table table' es

theorem condition?_entries_in (table table' : Option String) : ∀ es : List (String × Node),
    (∀ e ∈ es, e.2.condition? table e.1 = none) ↔ ∀ e ∈ es, e.2.condition? table' e.1 = none
  | [] => by simp
  | (key, node) :: es => by
    rw [List.forall_mem_cons, List.forall_mem_cons, node.condition?_eq_none_iff_in table table' key,
      condition?_entries_in table table' es]

theorem isEmpty_conditions_in (table table' : Option String) : ∀ ts : List Tree,
    (conditions table ts).map Condition.isEmpty = (conditions table' ts).map Condition.isEmpty
  | [] => rfl
  | t :: ts => by
    rw [conditions, conditions, List.map_cons, List.map_cons, t.isEmpty_condition_in table table',
      isEmpty_conditions_in table table' ts]

end

/-! ## The entries of all levels -/

theorem allEntriesOf_eq_flatMap (es : List (String × Node)) :
    allEntriesOf es = es.flatMap fun e => e :: e.2.entriesBelow := by
  induction es with
  | nil => rfl
  | cons e es ih => simp [allEntriesOf, ih]

theorem allEntriesOfGroup_eq_flatMap (ts : List Tree) :
    allEntriesOfGroup ts = ts.flatMap Tree.allEntries := by
  induction ts with
  | nil => rfl
  | cons t ts ih => simp [allEntriesOfGroup, ih]

theorem Tree.mem_allEntries_iff {e : String × Node} {t : Tree} :
    e ∈ t.allEntries ↔ ∃ e' ∈ t.entries, e = e' ∨ e ∈ e'.2.entriesBelow := by
  obtain ⟨es⟩ := t
  simp [Tree.allEntries, allEntriesOf_eq_flatMap]

mutual

theorem Node.entriesBelow_subset {e : String × Node} : ∀ {node : Node}, e ∈ node.entriesBelow →
    e.2.entriesBelow ⊆ node.entriesBelow
  | .relation _, h => Tree.entriesBelow_subset h
  | .group ts, h => entriesBelow_subset_group ts h

/-- What lies below an entry of a filter is among its entries too. -/
theorem Tree.entriesBelow_subset {e : String × Node} : ∀ {t : Tree}, e ∈ t.allEntries →
    e.2.entriesBelow ⊆ t.allEntries
  | ⟨es⟩, h => entriesBelow_subset_entries es h

theorem entriesBelow_subset_entries {e : String × Node} : ∀ es : List (String × Node),
    e ∈ allEntriesOf es → e.2.entriesBelow ⊆ allEntriesOf es
  | (key, node) :: es, h => by
    intro e' he'
    rw [allEntriesOf, List.mem_cons, List.mem_append]
    rcases List.mem_cons.mp h with rfl | h
    · exact Or.inr (Or.inl he')
    · rcases List.mem_append.mp h with h | h
      · exact Or.inr (Or.inl (Node.entriesBelow_subset h he'))
      · exact Or.inr (Or.inr (entriesBelow_subset_entries es h he'))

theorem entriesBelow_subset_group {e : String × Node} : ∀ ts : List Tree,
    e ∈ allEntriesOfGroup ts → e.2.entriesBelow ⊆ allEntriesOfGroup ts
  | t :: ts, h => by
    intro e' he'
    rw [allEntriesOfGroup, List.mem_append]
    rcases List.mem_append.mp h with h | h
    · exact Or.inl (Tree.entriesBelow_subset h he')
    · exact Or.inr (entriesBelow_subset_group ts h he')

end

/-! ## What has no condition -/

/-- Each negation with entries has one that asks something. -/
def NegationsAsk (es : List (String × Node)) : Prop :=
  ∀ ts, (Connective.not.key, Node.group ts) ∈ es → ts ≠ [] → ∃ t ∈ ts, ¬ t.toCondition.isEmpty

theorem NegationsAsk.mono {es fs : List (String × Node)} (h : NegationsAsk fs) (hsub : es ⊆ fs) :
    NegationsAsk es := fun ts hts => h ts (hsub hts)

section
variable (v : Atom → Bool)

theorem entriesRead_eq_all (table : Option String) (es : List (String × Node)) :
    entriesRead v table es = es.all fun e => e.2.reads v table e.1 := by
  induction es with
  | nil => rfl
  | cons e es ih => simp [entriesRead, ih]

theorem readings_eq_map (table : Option String) (ts : List Tree) :
    readings v table ts = ts.map (·.reads v table) := by
  induction ts with
  | nil => rfl
  | cons t ts ih => simp [readings, ih]

theorem Tree.reads_eq_all (table : Option String) (t : Tree) :
    t.reads v table = t.entries.all fun e => e.2.reads v table e.1 := by
  obtain ⟨es⟩ := t
  exact entriesRead_eq_all v table es

mutual

theorem Node.reads_of_condition?_eq_none (table : Option String) (key : String) : ∀ node : Node,
    NegationsAsk ((key, node) :: node.entriesBelow) → node.condition? table key = none →
      node.reads v table key
  | .value _, _, hnone => by simp [Node.condition?] at hnone
  | .tests c, _, hnone => by
    rw [Node.reads, Node.condition?_tests_eq_none_iff.mp hnone, List.all_nil]
  | .relation t, hask, hnone => by
    rw [Node.condition?, Condition.nonEmpty?_eq_none_iff] at hnone
    exact t.reads_of_isEmpty (some key) (hask.mono (List.subset_cons_self _ _)) hnone
  | .group ts, hask, hnone => by
    have hread := reads_of_isEmpty_group table ts (hask.mono (List.subset_cons_self _ _))
    rw [Node.condition?, conditions_eq_map] at hnone
    rw [Node.reads, groupReads_eq_combine, readings_eq_map]
    cases hc : (Connective.ofKey? key).getD .and with
    | and =>
      rw [hc, Condition.combine_and_eq_none_iff] at hnone
      simpa [Connective.combine] using fun t ht => hread t ht (hnone _ (List.mem_map_of_mem ht))
    | or =>
      rw [hc, Condition.combine_or_eq_none_iff] at hnone
      obtain ⟨c, hcmem, hempty⟩ := hnone
      obtain ⟨t, ht, rfl⟩ := List.mem_map.mp hcmem
      simpa [Connective.combine] using ⟨t, ht, hread t ht hempty⟩
    | not =>
      rw [hc, Condition.combine_not_eq_none_iff] at hnone
      have hkey := Connective.eq_key_not hc
      by_cases hts : ts = []
      · subst hts
        rfl
      · obtain ⟨t, ht, hnonempty⟩ := hask ts (by rw [hkey]; exact List.mem_cons_self ..) hts
        rw [Tree.toCondition, t.isEmpty_condition_in none table] at hnonempty
        exact absurd (hnone _ (List.mem_map_of_mem ht)) hnonempty

theorem Tree.reads_of_isEmpty (table : Option String) : ∀ t : Tree, NegationsAsk t.allEntries →
    (t.condition table).isEmpty → t.reads v table
  | ⟨es⟩, hask, hempty => by
    rw [Tree.reads_eq_all, List.all_eq_true]
    exact reads_of_isEmpty_entries table es hask (Tree.isEmpty_condition_iff.mp hempty)

theorem reads_of_isEmpty_entries (table : Option String) : ∀ es : List (String × Node),
    NegationsAsk (allEntriesOf es) → (∀ e ∈ es, e.2.condition? table e.1 = none) →
      ∀ e ∈ es, e.2.reads v table e.1
  | [], _, _ => by simp
  | (key, node) :: es, hask, hnone => by
    rw [List.forall_mem_cons] at hnone ⊢
    rw [allEntriesOf, ← List.cons_append] at hask
    refine ⟨node.reads_of_condition?_eq_none table key ?_ hnone.1, ?_⟩
    · exact hask.mono (List.subset_append_left _ _)
    · exact reads_of_isEmpty_entries table es (hask.mono (List.subset_append_right _ _)) hnone.2

theorem reads_of_isEmpty_group (table : Option String) : ∀ ts : List Tree,
    NegationsAsk (allEntriesOfGroup ts) →
      ∀ t ∈ ts, (t.condition table).isEmpty → t.reads v table
  | [], _ => by simp
  | t :: ts, hask => by
    rw [List.forall_mem_cons]
    rw [allEntriesOfGroup] at hask
    refine ⟨t.reads_of_isEmpty table (hask.mono (List.subset_append_left _ _)), ?_⟩
    exact reads_of_isEmpty_group table ts (hask.mono (List.subset_append_right _ _))

end

end

namespace Tree

/-- A filter and its parts have no condition only if they are true of every row, exactly if each
negation with entries has one that asks something. -/
theorem reads_of_isEmpty_iff (t : Tree) :
    ((∀ e ∈ t.allEntries, ∀ table, e.2.condition? table e.1 = none →
        ∀ v, e.2.reads v table e.1) ∧
      (t.toCondition.isEmpty → ∀ v, t.reads v none)) ↔
    NegationsAsk t.allEntries := by
  constructor
  · rintro ⟨hclosed, -⟩ ts hts hne
    by_contra hall
    have hempty : ∀ s ∈ ts, s.toCondition.isEmpty := by simpa using hall
    -- the negation has no condition, so that its entries and the negation itself would be true
    have hnone : (Node.group ts).condition? none Connective.not.key = none := by
      rw [Node.condition?_group, Condition.combine_not_eq_none_iff]
      intro c hc
      obtain ⟨s, hs, rfl⟩ := List.mem_map.mp hc
      exact hempty s hs
    have hread : ∀ s ∈ ts, s.reads (fun _ => true) none := by
      intro s hs
      rw [reads_eq_all, List.all_eq_true]
      intro e he
      have hbelow : e ∈ (Node.group ts).entriesBelow := by
        rw [Node.entriesBelow, allEntriesOfGroup_eq_flatMap, List.mem_flatMap]
        exact ⟨s, hs, mem_allEntries_iff.mpr ⟨e, he, Or.inl rfl⟩⟩
      exact hclosed e (entriesBelow_subset hts hbelow) none
        (isEmpty_condition_iff.mp (hempty s hs) e he) _
    have hgroup := hclosed _ hts none hnone fun _ => true
    rw [Node.reads, groupReads_key, readings_eq_map] at hgroup
    obtain ⟨s, hs⟩ := List.exists_mem_of_ne_nil ts hne
    simp only [Connective.combine, List.all_map, List.all_eq_true] at hgroup
    simpa [hread s hs] using hgroup s hs
  · intro hask
    constructor
    · intro e he table hnone v
      refine e.2.reads_of_condition?_eq_none v table e.1 (hask.mono ?_) hnone
      exact List.cons_subset.mpr ⟨he, entriesBelow_subset he⟩
    · intro hempty v
      exact t.reads_of_isEmpty v none hask hempty

/-- A negation of a filter without keys. -/
theorem isEmpty_toCondition_not_empty :
    (group .not [empty]).toCondition.isEmpty ∧
      ∀ v, (group .not [empty]).reads v none = false := by
  constructor
  · decide
  · intro v
    rfl

end Tree

end QueryFilter
