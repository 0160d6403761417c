import QueryFilter.Proofs.Entries
import QueryFilter.Proofs.Keys
import QueryFilter.Proofs.ScalarText

/-!
# The clauses of a filter

A filter is written as a list of clauses: one for each value and each operator, under the relations
above it. Of a filter that is read from parameters every clause comes from one of them
(`Tree.exists_comesFrom_ofParams`): it asks for the same, or for the membership that a plain
parameter has become.
-/

namespace QueryFilter

/-- The clause about a field of a related record. -/
def Clause.under (relation : String) (c : Clause) : Clause :=
  { c with relations := relation :: c.relations }

theorem Clause.key_under (relation : String) (c : Clause) :
    (c.under relation).key = relation ++ "." ++ c.key :=
  String.append_assoc ..

theorem Clause.value_under (relation : String) (c : Clause) :
    (c.under relation).value = c.value := rfl

mutual

/-- The clauses of the node under a key. -/
def Node.clauses (key : String) : Node → List Clause
  | .value v => [⟨[], key, none, v.display⟩]
  | .tests c => c.tests.entries.map fun e => ⟨[], key, some e.1, e.2.display⟩
  | .relation t => t.clauses.map (.under key)
  | .group _ => []

def Tree.clauses : Tree → List Clause
  | ⟨es⟩ => entryClauses es

def entryClauses : List (String × Node) → List Clause
  | [] => []
  | (key, node) :: es => node.clauses key ++ entryClauses es

end

theorem mem_entryClauses {c : Clause} {es : List (String × Node)} :
    c ∈ entryClauses es ↔ ∃ e ∈ es, c ∈ e.2.clauses e.1 := by
  induction es with
  | nil => simp [entryClauses]
  | cons e es ih => simp [entryClauses, ih]

theorem Tree.mem_clauses {c : Clause} {t : Tree} :
    c ∈ t.clauses ↔ ∃ e ∈ t.entries, c ∈ e.2.clauses e.1 := by
  obtain ⟨es⟩ := t
  exact mem_entryClauses

/-! ## Clauses as parameters -/

mutual

theorem Node.toPairs_eq (stem key : String) : (node : Node) →
    node.toPairs (stem ++ key) = (node.clauses key).map fun c => (stem ++ c.key, c.value)
  | .value v => by
    simp [Node.toPairs, Node.clauses, Clause.key, Path.stem, Clause.lastSegment]
  | .tests c => by
    simp [Node.toPairs, Node.clauses, Clause.key, Path.stem, Clause.lastSegment,
      Operator.suffixed, Function.comp_def, String.append_assoc]
  | .relation t => by
    rw [Node.toPairs, Node.clauses, t.toPairs_eq, List.map_map]
    simp [Function.comp_def, Clause.key_under, Clause.value_under, String.append_assoc]
  | .group _ => rfl

theorem Tree.toPairs_eq (stem : String) : (t : Tree) →
    t.toPairs stem = t.clauses.map fun c => (stem ++ c.key, c.value)
  | ⟨es⟩ => entryPairs_eq stem es

theorem entryPairs_eq (stem : String) : (es : List (String × Node)) →
    entryPairs stem es = (entryClauses es).map fun c => (stem ++ c.key, c.value)
  | [] => rfl
  | (key, node) :: es => by
    rw [entryPairs, entryClauses, List.map_append, node.toPairs_eq, entryPairs_eq stem es]

end

/-! ## Where clauses come from -/

/-- Whether a clause asks for what another one asks, or for the membership that it has become. -/
structure Clause.ComesFrom (c d : Clause) : Prop where
  relations : c.relations = d.relations
  field : c.field = d.field
  operator : c.operator = d.operator ∨ d.operator = none ∧ c.operator = some .isIn

namespace Clause.ComesFrom

theorem refl (c : Clause) : c.ComesFrom c := ⟨rfl, rfl, Or.inl rfl⟩

theorem trans {c d e : Clause} (h : c.ComesFrom d) (h' : d.ComesFrom e) : c.ComesFrom e := by
  refine ⟨h.relations.trans h'.relations, h.field.trans h'.field, ?_⟩
  rcases h.operator with ho | ⟨hd, hc⟩
  · rw [ho]
    exact h'.operator
  · rcases h'.operator with he | ⟨_, hd'⟩
    · exact Or.inr ⟨he ▸ hd, hc⟩
    · rw [hd] at hd'
      cases hd'

theorem under {c d : Clause} (relation : String) (h : c.ComesFrom d) :
    (c.under relation).ComesFrom (d.under relation) :=
  ⟨congrArg (relation :: ·) h.relations, h.field, h.operator⟩

end Clause.ComesFrom

/-- Whether a clause comes from one of those given. -/
def Clause.ComesFromOne (c : Clause) (ds : List Clause) : Prop := ∃ d ∈ ds, c.ComesFrom d

theorem Clause.ComesFromOne.of_mem {c : Clause} {ds : List Clause} (h : c ∈ ds) :
    c.ComesFromOne ds :=
  ⟨c, h, .refl c⟩

theorem Clause.ComesFromOne.mono {c : Clause} {ds ds' : List Clause} (h : c.ComesFromOne ds)
    (hsub : ds ⊆ ds') : c.ComesFromOne ds' :=
  have ⟨d, hd, hfrom⟩ := h
  ⟨d, hsub hd, hfrom⟩

theorem Clause.ComesFromOne.under {c : Clause} {ds : List Clause} (relation : String)
    (h : c.ComesFromOne ds) : (c.under relation).ComesFromOne (ds.map (.under relation)) :=
  have ⟨d, hd, hfrom⟩ := h
  ⟨d.under relation, List.mem_map_of_mem hd, hfrom.under relation⟩

namespace Node

/-- The clauses of what stands under a key, if anything does. -/
def oldClauses (key : String) (old : Option Node) : List Clause := old.elim [] (clauses key)

theorem mem_clauses_tests {key : String} {c : Clause} {d : Constraint}
    (h : c ∈ (Node.tests d).clauses key) :
    c.relations = [] ∧ c.field = key ∧ ∃ op ∈ d.tests.keys, c.operator = some op := by
  rw [clauses] at h
  obtain ⟨e, he, rfl⟩ := List.mem_map.mp h
  exact ⟨rfl, rfl, e.1, Entries.mem_keys_of_mem he, rfl⟩

theorem relation_clauses_subset (key : String) (old : Option Node) :
    (Tree.ofRelation old).clauses.map (.under key) ⊆ oldClauses key old := by
  match old with
  | some (.relation t) => exact List.Subset.refl _
  | some (.value _) | some (.tests _) | some (.group _) | none => exact List.nil_subset _

/-- An operator that is asked of a field has a clause, or the membership of a plain one. -/
theorem comesFromOne_of_mem_keys {key : String} {old : Option Node} {op : Operator} {c : Clause}
    (hop : op ∈ (constraint old).tests.keys) (hrelations : c.relations = [])
    (hfield : c.field = key) (hoperator : c.operator = some op) :
    c.ComesFromOne (oldClauses key old) := by
  match old with
  | some (.value v) =>
    have hkeys : op ∈ [Operator.isIn] := hop
    rw [List.mem_singleton.mp hkeys] at hoperator
    exact ⟨⟨[], key, none, v.display⟩, List.mem_singleton.mpr rfl, hrelations, hfield,
      Or.inr ⟨rfl, hoperator⟩⟩
  | some (.tests d) =>
    obtain ⟨e, he, rfl⟩ := List.mem_map.mp hop
    exact ⟨⟨[], key, some e.1, e.2.display⟩, List.mem_map.mpr ⟨e, he, rfl⟩, hrelations, hfield,
      Or.inl hoperator⟩
  | some (.relation _) => cases hop
  | some (.group _) => cases hop
  | none => cases hop

theorem comesFromOne_addTest {mode : MatchMode} {key value : String} {old : Option Node}
    {op : Operator} {c : Clause} (h : c ∈ (addTest mode old op value).clauses key) :
    c.ComesFromOne (⟨[], key, some op, value⟩ :: oldClauses key old) := by
  obtain ⟨hrelations, hfield, op', hop', hoperator⟩ := mem_clauses_tests h
  rcases Entries.mem_keys_update.mp hop' with rfl | hold
  · exact ⟨_, List.mem_cons_self .., hrelations, hfield, Or.inl hoperator⟩
  · obtain ⟨d, hd, hfrom⟩ := comesFromOne_of_mem_keys hold hrelations hfield hoperator
    exact ⟨d, List.mem_cons_of_mem _ hd, hfrom⟩

/-- A plain value stands as it is, or is one of the allowed values. -/
theorem addValue_eq (old : Option Node) (value : String) :
    (∃ v, Scalar.listOfText value = [v] ∧ addValue old value = .value v) ∨
      addValue old value = .tests ((constraint old).addMembers (Scalar.listOfText value)) := by
  cases hvalues : Scalar.listOfText value with
  | nil => exact absurd hvalues (Scalar.listOfText_ne_nil value)
  | cons v vs =>
    unfold addValue
    rw [hvalues]
    match old, vs with
    | some (.value _), _ => exact Or.inr rfl
    | some (.tests _), _ => exact Or.inr rfl
    | some (.relation _), [] | some (.group _), [] | none, [] => exact Or.inl ⟨v, rfl, rfl⟩
    | some (.relation _), _ :: _ | some (.group _), _ :: _ | none, _ :: _ => exact Or.inr rfl

theorem comesFromOne_addValue {key value : String} {old : Option Node} {c : Clause}
    (h : c ∈ (addValue old value).clauses key) :
    c.ComesFromOne (⟨[], key, none, value⟩ :: oldClauses key old) := by
  rcases addValue_eq old value with ⟨v, _, heq⟩ | heq
  · rw [heq, clauses, List.mem_singleton] at h
    exact ⟨_, List.mem_cons_self .., by rw [h]; exact ⟨rfl, rfl, Or.inl rfl⟩⟩
  · rw [heq] at h
    obtain ⟨hrelations, hfield, op, hop, hoperator⟩ := mem_clauses_tests h
    rcases Entries.mem_keys_update.mp hop with rfl | hold
    · exact ⟨_, List.mem_cons_self .., hrelations, hfield, Or.inr ⟨rfl, hoperator⟩⟩
    · obtain ⟨d, hd, hfrom⟩ := comesFromOne_of_mem_keys hold hrelations hfield hoperator
      exact ⟨d, List.mem_cons_of_mem _ hd, hfrom⟩

end Node

namespace Tree

theorem mem_clauses_update {t : Tree} {key : String} {f : Option Node → Node} {c : Clause}
    (h : c ∈ (t.update key f).clauses) :
    c ∈ t.clauses ∨ c ∈ (f (t.get? key)).clauses key := by
  obtain ⟨e, he, hc⟩ := mem_clauses.mp h
  rcases Entries.mem_update he with he | rfl
  · exact Or.inl (mem_clauses.mpr ⟨e, he, hc⟩)
  · exact Or.inr hc

theorem oldClauses_subset (t : Tree) (key : String) :
    Node.oldClauses key (t.get? key) ⊆ t.clauses := by
  intro c h
  cases hold : t.get? key with
  | none =>
    rw [hold] at h
    cases h
  | some node =>
    rw [hold] at h
    exact mem_clauses.mpr ⟨(key, node), Entries.mem_of_get? hold, h⟩

/-- What is asked after a clause was added comes from that clause or was asked before. -/
theorem comesFromOne_addClause (mode : MatchMode) {t : Tree} {c d : Clause}
    (h : c ∈ (t.addClause mode d).clauses) : c.ComesFromOne (d :: t.clauses) := by
  -- by induction on the relations: the change below one of them is a clause without it
  obtain ⟨relations, field, operator, value⟩ := d
  rw [addClause] at h
  dsimp only at h
  induction relations generalizing t c with
  | nil =>
    rw [within] at h
    rcases mem_clauses_update h with h | h
    · exact .of_mem (List.mem_cons_of_mem _ h)
    · have hlevel : c.ComesFromOne (⟨[], field, operator, value⟩ ::
          Node.oldClauses field (t.get? field)) := by
        cases operator with
        | some op => exact Node.comesFromOne_addTest h
        | none => exact Node.comesFromOne_addValue h
      exact hlevel.mono (List.cons_subset_cons _ (t.oldClauses_subset field))
  | cons relation relations ih =>
    rw [within] at h
    rcases mem_clauses_update h with h | h
    · exact .of_mem (List.mem_cons_of_mem _ h)
    · rw [Node.clauses] at h
      obtain ⟨inner, hinner, rfl⟩ := List.mem_map.mp h
      have hlevel := List.Subset.trans (Node.relation_clauses_subset relation (t.get? relation))
        (t.oldClauses_subset relation)
      exact ((ih hinner).under relation).mono (List.cons_subset_cons _ hlevel)

theorem exists_comesFrom_ofParams (o : Options) (p : Params) :
    ∀ c ∈ (ofParams o p).clauses,
      ∃ pair ∈ p.pairs, ¬ o.isReserved pair.1 ∧ c.ComesFrom (.ofPair pair.1 pair.2) := by
  refine ofParams_induction (motive := fun t => ∀ c ∈ t.clauses, ∃ pair ∈ p.pairs,
    ¬ o.isReserved pair.1 ∧ c.ComesFrom (.ofPair pair.1 pair.2)) o p
    (fun _ hc => absurd hc List.not_mem_nil) ?_
  intro t ht pair hpair hreserved c hc
  obtain ⟨d, hd, hfrom⟩ := comesFromOne_addClause o.matchMode hc
  rcases List.mem_cons.mp hd with rfl | hd
  · exact ⟨pair, hpair, hreserved, hfrom⟩
  · obtain ⟨pair', hpair', hreserved', hfrom'⟩ := ht d hd
    exact ⟨pair', hpair', hreserved', hfrom.trans hfrom'⟩

end Tree

end QueryFilter
