import QueryFilter.Proofs.Merge

/-!
# The leaves of a merge

The leaves of a filter are its values and constraints, each at the dotted path of its field; groups
leave no trace in a path. A merge under a group holds the leaves of both sides, the requested ones
first, and any other merge loses only the requested entries whose keys are trusted too.
-/

namespace QueryFilter

mutual

/-- The leaves of the node under a key, whose paths all start with the stem. -/
def Node.leaves (stem key : String) : Node → List (String × Node)
  | .value v => [(stem ++ key, .value v)]
  | .tests c => [(stem ++ key, .tests c)]
  | .relation t => t.leavesUnder (stem ++ key ++ ".")
  | .group ts => groupLeaves stem ts

def Tree.leavesUnder (stem : String) : Tree → List (String × Node)
  | ⟨es⟩ => entryLeaves stem es

def entryLeaves (stem : String) : List (String × Node) → List (String × Node)
  | [] => []
  | (key, node) :: es => node.leaves stem key ++ entryLeaves stem es

def groupLeaves (stem : String) : List Tree → List (String × Node)
  | [] => []
  | t :: ts => t.leavesUnder stem ++ groupLeaves stem ts

end

theorem entryLeaves_eq_flatMap (stem : String) (es : List (String × Node)) :
    entryLeaves stem es = es.flatMap fun e => e.2.leaves stem e.1 := by
  induction es with
  | nil => rfl
  | cons e es ih => rw [entryLeaves, ih, List.flatMap_cons]

theorem groupLeaves_append (stem : String) (ss ts : List Tree) :
    groupLeaves stem (ss ++ ts) = groupLeaves stem ss ++ groupLeaves stem ts := by
  induction ss with
  | nil => rfl
  | cons s ss ih => rw [List.cons_append, groupLeaves, groupLeaves, ih, List.append_assoc]

namespace Tree

/-- The leaves of a filter in the order of the text, each with its dotted path. -/
def leaves (t : Tree) : List (String × Node) := t.leavesUnder ""

theorem leaves_eq_flatMap (t : Tree) :
    t.leaves = t.entries.flatMap fun e => e.2.leaves "" e.1 := by
  obtain ⟨es⟩ := t
  exact entryLeaves_eq_flatMap "" es

theorem leaves_of_isEmpty {t : Tree} (h : t.isEmpty) : t.leaves = [] := by
  rw [leaves_eq_flatMap, List.isEmpty_iff.mp h, List.flatMap_nil]

theorem leaves_group (connective : Connective) (ts : List Tree) :
    (group connective ts).leaves = groupLeaves "" ts :=
  List.append_nil _

theorem groupLeaves_conjuncts (t : Tree) : groupLeaves "" t.conjuncts = t.leaves := by
  unfold conjuncts
  -- a filter that is no sole group stays whole, as the one part of its own list
  cases h : t.soleGroup? .and with
  | none => exact List.append_nil _
  | some ts => rw [Option.getD_some, eq_group_of_soleGroup? h, leaves_group]

theorem leaves_putAll_perm {trusted requested : Tree} (ht : trusted.keys.Nodup)
    (hr : requested.keys.Nodup) :
    (requested.putAll trusted.entries).leaves.Perm
      (trusted.leaves ++ (requested.without trusted.keys).leaves) := by
  have hperm := (Entries.putAll_perm hr ht).flatMap_right fun e => e.2.leaves "" e.1
  rw [List.flatMap_append] at hperm
  simp only [leaves_eq_flatMap]
  exact hperm.trans List.perm_append_comm

/-- A merge neither loses nor repeats a leaf, but for requested entries whose keys are trusted too
where the entries stand side by side. -/
theorem leaves_merge (trusted requested : Tree) (ht : trusted.keys.Nodup)
    (hr : requested.keys.Nodup) :
    if trusted.isEmpty ∨ requested.isEmpty ∨
        trusted.NamesConnective ∨ requested.NamesConnective then
      (merge trusted requested).leaves = requested.leaves ++ trusted.leaves
    else
      (merge trusted requested).leaves.Perm
        (trusted.leaves ++ (requested.without trusted.keys).leaves) := by
  obtain ⟨het, hmerge⟩ | ⟨her, hmerge⟩ | ⟨hnames, hmerge⟩ | ⟨hapart, hmerge⟩ :=
    merge_cases trusted requested
  · rw [if_pos (.inl het), hmerge, leaves_of_isEmpty het, List.append_nil]
  · rw [if_pos (.inr (.inl her)), hmerge, leaves_of_isEmpty her, List.nil_append]
  · rw [if_pos (.inr (.inr hnames)), hmerge, leaves_group, groupLeaves_append,
      groupLeaves_conjuncts, groupLeaves_conjuncts]
  · rw [if_neg hapart, hmerge]
    exact leaves_putAll_perm ht hr

/-- A conjunction that is taken apart, and a requested group below a relation. -/
theorem leaves_merge_owner :
    let trusted := group .and
      [single "tenant" (.value (.int 7)), single "owner" (.relation (single "id" (.value (.int 1))))]
    let requested := single "owner" (.relation (group .or
      [single "id" (.value (.int 2)), single "name" (.value (.text "x"))]))
    trusted.keys.Nodup ∧ requested.keys.Nodup ∧
      (merge trusted requested).leaves =
        [("owner.id", .value (.int 2)), ("owner.name", .value (.text "x")),
          ("tenant", .value (.int 7)), ("owner.id", .value (.int 1))] := by
  intro trusted requested
  have ht : trusted.keys.Nodup := by decide
  have hr : requested.keys.Nodup := by decide
  have h := leaves_merge trusted requested ht hr
  rw [if_pos (by decide)] at h
  exact ⟨ht, hr, h⟩

end Tree

end QueryFilter
