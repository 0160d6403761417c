import QueryFilter.Proofs.Clauses

/-!
# Filters read from parameters

What every filter has that is read from parameters: no logical groups, nothing empty below the top,
operands of the right kind without commas in their texts, and keys that can be written
(`Tree.compiled_ofParams`). Each clause preserves this on the level where it is added and on all
levels above.
-/

namespace QueryFilter

/-- A membership takes a list that is not empty and any other operator one scalar. -/
def Operand.Compiled (op : Operator) : Operand → Prop
  | one v => op.isMembership = false ∧ v.Listed
  | many vs => op.isMembership = true ∧ vs ≠ [] ∧ ∀ v ∈ vs, v.Listed

/-- What the tests of a field are like, also before there is one. -/
structure Constraint.Fits (mode : MatchMode) (c : Constraint) : Prop where
  operands : ∀ e ∈ c.tests.entries, e.2.Compiled e.1
  ignoreCase : c.ignoreCase = (mode == .ignoreCase && c.tests.keys.any Operator.matchesText)

structure Constraint.Compiled (mode : MatchMode) (c : Constraint) : Prop extends c.Fits mode where
  nonempty : c.tests.entries ≠ []

mutual

def Node.Compiled (mode : MatchMode) (key : String) : Node → Prop
  | .value v => Operator.splitKey? key = none ∧ v.Listed
  | .tests c => c.Compiled mode
  | .relation t => t.entries ≠ [] ∧ t.Compiled mode
  | .group _ => False

def Tree.Compiled (mode : MatchMode) : Tree → Prop
  | ⟨es⟩ => (Entries.keys es).Nodup ∧ entriesCompiled mode es

def entriesCompiled (mode : MatchMode) : List (String × Node) → Prop
  | [] => True
  | (key, node) :: es => '.' ∉ key.toList ∧ node.Compiled mode key ∧ entriesCompiled mode es

end

section
variable {mode : MatchMode}

theorem entriesCompiled_iff {es : List (String × Node)} :
    entriesCompiled mode es ↔ ∀ e ∈ es, '.' ∉ e.1.toList ∧ e.2.Compiled mode e.1 := by
  induction es with
  | nil => simp [entriesCompiled]
  | cons e es ih => simp [entriesCompiled, ih, and_assoc]

theorem Tree.compiled_iff {t : Tree} :
    t.Compiled mode ↔ t.keys.Nodup ∧ ∀ e ∈ t.entries, '.' ∉ e.1.toList ∧ e.2.Compiled mode e.1 := by
  obtain ⟨es⟩ := t
  rw [Tree.Compiled, entriesCompiled_iff]
  rfl

theorem Tree.compiled_empty : Tree.empty.Compiled mode := ⟨List.nodup_nil, trivial⟩

/-! ## Constraints -/

namespace Constraint

theorem fits_empty : Constraint.empty.Fits mode where
  operands _ he := absurd he List.not_mem_nil
  ignoreCase := (Bool.and_false _).symm

theorem Fits.update {c : Constraint} (h : c.Fits mode) (op : Operator)
    (f : Option Operand → Operand) (hf : (f (c.get? op)).Compiled op) :
    (⟨c.tests.update op f, c.ignoreCase || (op.matchesText && mode == .ignoreCase)⟩ :
      Constraint).Compiled mode := by
  refine ⟨⟨fun e he => ?_, ?_⟩, Entries.update_ne_nil op f c.tests.entries⟩
  · rcases Entries.mem_update he with he | rfl
    · exact h.operands e he
    · exact hf
  · have hkeys : (c.tests.update op f).keys.any Operator.matchesText =
        (op.matchesText || c.tests.keys.any Operator.matchesText) := by
      rw [OrderedMap.keys_update]
      split
      · next hmem =>
        rw [Bool.eq_iff_iff, Bool.or_eq_true, List.any_eq_true]
        exact ⟨Or.inr, fun hor => hor.elim (fun hop => ⟨op, hmem, hop⟩) id⟩
      · rw [List.any_append, Bool.or_comm, List.any_cons, List.any_nil, Bool.or_false]
    simp only [hkeys, h.ignoreCase]
    cases mode == .ignoreCase
    · simp
    · simp [Bool.or_comm]

theorem Fits.addMembers {c : Constraint} (h : c.Fits mode) {vs : List Scalar} (hne : vs ≠ [])
    (hvs : ∀ v ∈ vs, v.Listed) : (c.addMembers vs).Compiled mode := by
  have hold : ∀ v ∈ (c.get? .isIn).elim [] Operand.values, v.Listed := by
    intro v hv
    cases hget : c.get? .isIn with
    | none =>
      rw [hget] at hv
      cases hv
    | some operand =>
      rw [hget] at hv
      have hoperand := h.operands _ (Entries.mem_of_get? hget)
      cases operand with
      | one v' => cases hoperand.1
      | many vs' => exact hoperand.2.2 v hv
  have hnew := h.update .isIn (fun old => .many (old.elim [] Operand.values ++ vs))
    ⟨rfl, by simp [hne], ?_⟩
  · rw [show Operator.isIn.matchesText = false from rfl, Bool.false_and, Bool.or_false] at hnew
    exact hnew
  · intro v hv
    exact (List.mem_append.mp hv).elim (hold v) (hvs v)

end Constraint

/-! ## One level -/

namespace Node

theorem fits_constraint {key : String} {old : Option Node}
    (hold : ∀ node, old = some node → node.Compiled mode key) : (constraint old).Fits mode := by
  match old with
  | some (.value v) =>
    have hmembers : (Constraint.members [v]).Compiled mode :=
      Constraint.fits_empty.addMembers (List.cons_ne_nil v []) (by simpa using (hold _ rfl).2)
    exact hmembers.toFits
  | some (.tests c) => exact (hold _ rfl).toFits
  | some (.relation _) | some (.group _) | none => exact Constraint.fits_empty

theorem compiled_addTest {key value : String} {old : Option Node} {op : Operator}
    (hold : ∀ node, old = some node → node.Compiled mode key) :
    (addTest mode old op value).Compiled mode key := by
  refine (fits_constraint hold).update op (fun _ => _) ?_
  split
  · next hop =>
    exact ⟨hop, Scalar.listOfText_ne_nil value, fun _ => Scalar.listed_of_mem_listOfText⟩
  · next hop => exact ⟨Bool.not_eq_true _ ▸ hop, Scalar.listed_firstOfText value⟩

theorem compiled_addValue {key value : String} {old : Option Node}
    (hold : ∀ node, old = some node → node.Compiled mode key)
    (hkey : Operator.splitKey? key = none) : (addValue old value).Compiled mode key := by
  have hlisted : ∀ v ∈ Scalar.listOfText value, v.Listed := fun _ =>
    Scalar.listed_of_mem_listOfText
  rcases addValue_eq old value with ⟨v, hvalue, heq⟩ | heq
  · rw [heq]
    exact ⟨hkey, hlisted v (by simp [hvalue])⟩
  · rw [heq]
    exact (fits_constraint hold).addMembers (Scalar.listOfText_ne_nil value) hlisted

end Node

namespace Tree

theorem Compiled.get? {t : Tree} (h : t.Compiled mode) {key : String} {node : Node}
    (hget : t.get? key = some node) : node.Compiled mode key :=
  ((compiled_iff.mp h).2 _ (Entries.mem_of_get? hget)).2

theorem Compiled.update {t : Tree} (h : t.Compiled mode) {key : String}
    {f : Option Node → Node} (hkey : '.' ∉ key.toList)
    (hf : (f (t.get? key)).Compiled mode key) : (t.update key f).Compiled mode := by
  obtain ⟨hnodup, hentries⟩ := compiled_iff.mp h
  refine compiled_iff.mpr ⟨Entries.nodup_keys_update key f hnodup, fun e he => ?_⟩
  rcases Entries.mem_update he with he | rfl
  · exact hentries e he
  · exact ⟨hkey, hf⟩

theorem Compiled.ofRelation {old : Option Node} {key : String}
    (hold : ∀ node, old = some node → node.Compiled mode key) :
    (ofRelation old).Compiled mode := by
  match old with
  | some (.relation t) => exact (hold _ rfl).2
  | some (.value _) | some (.tests _) | some (.group _) | none => exact compiled_empty

/-! ## All levels -/

/-- A change of the level that a path names keeps all levels, and leaves none of them empty. -/
theorem Compiled.within {f : Tree → Tree}
    (hf : ∀ t : Tree, t.Compiled mode → (f t).entries ≠ [] ∧ (f t).Compiled mode)
    {path : List String} (hpath : ∀ r ∈ path, '.' ∉ r.toList) {t : Tree} (h : t.Compiled mode) :
    (within path f t).entries ≠ [] ∧ (within path f t).Compiled mode := by
  induction path generalizing t with
  | nil => exact hf t h
  | cons relation path ih =>
    rw [List.forall_mem_cons] at hpath
    refine ⟨Entries.update_ne_nil _ _ _, h.update hpath.1 ?_⟩
    exact ih hpath.2 (.ofRelation fun _ => h.get?)

theorem Compiled.addClause {t : Tree} (h : t.Compiled mode) {c : Clause} (hc : c.WellFormed) :
    (t.addClause mode c).Compiled mode := by
  refine (Compiled.within (fun level hlevel => ⟨Entries.update_ne_nil _ _ _, ?_⟩) hc.relations h).2
  refine hlevel.update hc.field ?_
  split
  · exact Node.compiled_addTest fun _ => hlevel.get?
  · next hplain => exact Node.compiled_addValue (fun _ => hlevel.get?) (hc.plain hplain)

theorem compiled_ofParams (o : Options) (p : Params) : (ofParams o p).Compiled o.matchMode :=
  ofParams_induction o p compiled_empty fun _ ht pair _ _ =>
    ht.addClause (Clause.wellFormed_ofPair pair.1 pair.2)

end Tree

end

end QueryFilter
