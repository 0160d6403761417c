import QueryFilter.Proofs.Compiled

/-!
# Filters read from parameters, entry by entry

What holds of each entry of a filter read from parameters, however deep it lies: what the writers
and the conditions of filters rely on without a check.
-/

namespace QueryFilter

/-! ## The entries of all levels -/

mutual

def Node.entriesBelow : Node → List (String × Node)
  | .value _ => []
  | .tests _ => []
  | .relation t => t.allEntries
  | .group ts => allEntriesOfGroup ts

/-- The entries of a filter at every depth, those of related filters and groups included. -/
def Tree.allEntries : Tree → List (String × Node)
  | ⟨es⟩ => allEntriesOf es

def allEntriesOf : List (String × Node) → List (String × Node)
  | [] => []
  | (key, node) :: es => (key, node) :: (node.entriesBelow ++ allEntriesOf es)

def allEntriesOfGroup : List Tree → List (String × Node)
  | [] => []
  | t :: ts => t.allEntries ++ allEntriesOfGroup ts

end

/-! ## Tidy entries -/

/-- No text has a comma, and no float stands for an integer of 64 bits. All floats are finite. -/
def Scalar.Tidy : Scalar → Prop
  | bool _ => True
  | int _ => True
  | float x => ¬ x.IsInt64
  | text s => ',' ∉ s.toList

/-- A membership takes a list that is not empty and any other operator one scalar. -/
def Operand.Tidy (op : Operator) : Operand → Prop
  | one v => op.isMembership = false ∧ v.Tidy
  | many vs => op.isMembership = true ∧ vs ≠ [] ∧ ∀ v ∈ vs, v.Tidy

structure Constraint.Tidy (mode : MatchMode) (c : Constraint) : Prop where
  nonempty : c.tests.entries ≠ []
  operands : ∀ e ∈ c.tests.entries, e.2.Tidy e.1
  ignoreCase : c.ignoreCase ↔ mode = .ignoreCase ∧ ∃ op ∈ c.tests.keys, op.matchesText

/-- What may stand under a key. A value needs a key that is read without an operator. -/
def Node.Tidy (mode : MatchMode) (key : String) : Node → Prop
  | .value v => Operator.splitKey? key = none ∧ v.Tidy
  | .tests c => c.Tidy mode
  | .relation t => t.entries ≠ []
  | .group _ => False

section
variable {mode : MatchMode}

theorem Scalar.Listed.tidy {v : Scalar} (h : v.Listed) : v.Tidy := by
  obtain ⟨s, hcomma, hs⟩ := h
  cases v with
  | text s' => exact eq_of_ofText_eq_text hs ▸ hcomma
  | float x =>
    have hcanonical := canonical_ofText s
    rw [hs] at hcanonical
    exact hcanonical
  | bool b => trivial
  | int n => trivial

theorem Operand.Compiled.tidy {op : Operator} {operand : Operand} (h : operand.Compiled op) :
    operand.Tidy op := by
  cases operand with
  | one v => exact ⟨h.1, h.2.tidy⟩
  | many vs => exact ⟨h.1, h.2.1, fun v hv => (h.2.2 v hv).tidy⟩

theorem Constraint.Compiled.tidy {c : Constraint} (h : c.Compiled mode) : c.Tidy mode where
  nonempty := h.nonempty
  operands e he := (h.operands e he).tidy
  ignoreCase := by rw [h.ignoreCase, Bool.and_eq_true, beq_iff_eq, List.any_eq_true]

theorem Node.Compiled.tidy {key : String} {node : Node} (h : node.Compiled mode key) :
    node.Tidy mode key := by
  cases node with
  | value v => exact ⟨h.1, h.2.tidy⟩
  | tests c => exact Constraint.Compiled.tidy h
  | relation t => exact h.1
  | group ts => exact h

mutual

theorem Node.Compiled.entriesBelow {key : String} : ∀ {node : Node}, node.Compiled mode key →
    ∀ e ∈ node.entriesBelow, '.' ∉ e.1.toList ∧ e.2.Compiled mode e.1
  | .value _, _, e, he => by cases he
  | .tests _, _, e, he => by cases he
  | .relation _, h, e, he => h.2.allEntries e he
  | .group _, h, _, _ => h.elim

theorem Tree.Compiled.allEntries : ∀ {t : Tree}, t.Compiled mode →
    ∀ e ∈ t.allEntries, '.' ∉ e.1.toList ∧ e.2.Compiled mode e.1
  | ⟨es⟩, h, e, he => entriesCompiled_allEntriesOf es h.2 e he

theorem entriesCompiled_allEntriesOf : ∀ es : List (String × Node), entriesCompiled mode es →
    ∀ e ∈ allEntriesOf es, '.' ∉ e.1.toList ∧ e.2.Compiled mode e.1
  | [], _, e, he => by cases he
  | (key, node) :: es, h, e, he => by
    obtain ⟨hkey, hnode, hes⟩ := h
    rcases List.mem_cons.mp he with rfl | he
    · exact ⟨hkey, hnode⟩
    · rcases List.mem_append.mp he with he | he
      · exact hnode.entriesBelow e he
      · exact entriesCompiled_allEntriesOf es hes e he

end

end

namespace Tree

/-- Of a filter read from parameters every entry is tidy, at every depth and under a key without
dots, whatever the keys were used for before. -/
theorem tidy_ofParams (o : Options) (p : Params) :
    ∀ e ∈ (ofParams o p).allEntries, '.' ∉ e.1.toList ∧ e.2.Tidy o.matchMode e.1 := by
  intro e he
  obtain ⟨hkey, hnode⟩ := (compiled_ofParams o p).allEntries e he
  exact ⟨hkey, hnode.tidy⟩

/-- A field that was a value before it became a relation. -/
theorem tidy_ofParams_owner :
    let t := ofParams .standard
      ⟨[("owner", "x"), ("owner.age", "30"), ("search", "y"), ("owner.age_gte", "18,x")]⟩
    let c := (Constraint.members [.int 30]).put .atLeast (.one (.int 18))
    ("age", .tests c) ∈ t.allEntries ∧ '.' ∉ "age".toList ∧ c.Tidy .ignoreCase := by
  intro t c
  have hentries : t.allEntries =
      [("owner", .relation (single "age" (.tests c))), ("age", .tests c)] := rfl
  have hmem : ("age", .tests c) ∈ t.allEntries := by simp [hentries]
  exact ⟨hmem, tidy_ofParams _ _ _ hmem⟩

end Tree

end QueryFilter
