import QueryFilter.Proofs.Canonical
import QueryFilter.Proofs.Entries
import QueryFilter.Query.Json

/-!
# The JSON form of a filter reads back

The kinds of nodes are not marked in JSON, so a filter reads back if its keys tell them apart:
connectives name groups and nothing else, and no related filter looks like the tests of one field.
-/

namespace QueryFilter

/-! ## Filters that JSON can tell apart -/

/-- Whether keys look like the tests of one field: an operator, and no other key but the mode. -/
def NamesTests (keys : List String) : Prop :=
  (∃ key ∈ keys, (Operator.ofToken? key).isSome) ∧
    ∀ key ∈ keys, key = modeKey ∨ (Operator.ofToken? key).isSome

instance (keys : List String) : Decidable (NamesTests keys) :=
  inferInstanceAs (Decidable (_ ∧ _))

/-- A membership takes a list and any other operator one scalar. -/
def Operand.WellFormed (op : Operator) : Operand → Prop
  | one v => op.isMembership = false ∧ v.Canonical
  | many vs => op.isMembership = true ∧ ∀ v ∈ vs, v.Canonical

def Constraint.WellFormed (c : Constraint) : Prop :=
  c.tests.entries ≠ [] ∧ ∀ e ∈ c.tests.entries, e.2.WellFormed e.1

mutual

def Node.WellFormed (key : String) : Node → Prop
  | .value v => Connective.ofKey? key = none ∧ v.Canonical
  | .tests c => Connective.ofKey? key = none ∧ c.WellFormed
  | .relation t => Connective.ofKey? key = none ∧ ¬ NamesTests t.keys ∧ t.WellFormed
  | .group ts => (Connective.ofKey? key).isSome ∧ treesWellFormed ts

/-- No key repeats on one level, and each key with its node is well-formed. -/
def Tree.WellFormed : Tree → Prop
  | ⟨es⟩ => (Entries.keys es).Nodup ∧ entriesWellFormed es

def entriesWellFormed : List (String × Node) → Prop
  | [] => True
  | (key, node) :: es => node.WellFormed key ∧ entriesWellFormed es

def treesWellFormed : List Tree → Prop
  | [] => True
  | t :: ts => t.WellFormed ∧ treesWellFormed ts

end

/-! ## Scalars and operands -/

theorem mapM_map_ok {α β ε : Type} {f : α → β} {g : β → Except ε α} {as : List α}
    (h : ∀ a ∈ as, g (f a) = .ok a) : (as.map f).mapM g = .ok as := by
  induction as with
  | nil => rfl
  | cons a as ih =>
    rw [List.forall_mem_cons] at h
    rw [List.map_cons, List.mapM_cons, h.1, ih h.2]
    rfl

theorem ok_bind {α β ε : Type} (a : α) (f : α → Except ε β) : (Except.ok a >>= f) = f a := rfl

namespace Json.Number

@[simp] theorem toInt64?_ofInt64 (n : Int64) : (ofInt64 n).toInt64? = some n := by
  have h : n.toInt < 0x8000000000000000 := n.toInt_lt
  rw [ofInt64, toInt64?, if_pos h, Int64.ofInt_toInt]

@[simp] theorem toUInt64?_ofUInt64 (n : UInt64) : (ofUInt64 n).toUInt64? = some n := by
  simp [ofUInt64, toUInt64?]

end Json.Number

namespace Scalar

theorem ofJson_toJson (path : String) {v : Scalar} (h : v.Canonical) :
    ofJson path v.toJson = .ok v := by
  cases v with
  | bool b => rfl
  | int n => simp [toJson, ofJson, ofNumber?]
  | float x => simp [toJson, ofJson, ofNumber?, Json.Number.toInt64?, ofBinary64_eq_float h]
  | text s => rfl

theorem listOfJson_toJson (path : String) {vs : List Scalar} (h : ∀ v ∈ vs, v.Canonical) :
    listOfJson path (vs.map toJson) = .ok vs :=
  mapM_map_ok fun v hv => ofJson_toJson path (h v hv)

theorem toJson_ne_array (v : Scalar) (items : List Json) : v.toJson ≠ .array items := by
  cases v <;> simp [toJson]

theorem toJson_ne_object (v : Scalar) (members : List (String × Json)) :
    v.toJson ≠ .object members := by
  cases v <;> simp [toJson]

end Scalar

theorem Operand.ofJson_toJson {op : Operator} (path : String) {operand : Operand}
    (h : operand.WellFormed op) : ofJson op path operand.toJson = .ok operand := by
  cases operand with
  | one v =>
    obtain ⟨hop, hv⟩ := h
    rw [toJson, ofJson, Scalar.ofJson_toJson path hv, hop]
    · rfl
    · exact v.toJson_ne_array
  | many vs =>
    obtain ⟨hop, hvs⟩ := h
    rw [toJson, ofJson, if_pos hop, Scalar.listOfJson_toJson path hvs]
    rfl

/-! ## The tests of a field -/

namespace Constraint

theorem modeKey_not_token : Operator.ofToken? modeKey = none := by decide

theorem token_ne_modeKey (op : Operator) : op.token ≠ modeKey := by
  intro h
  have hsome := op.ofToken?_token
  rw [h, modeKey_not_token] at hsome
  cases hsome

theorem isObject_eq_true_iff (members : List (String × Json)) :
    isObject members = true ↔ NamesTests (Entries.keys members) := by
  simp [isObject, NamesTests, Entries.keys]

theorem isObject_toJson {c : Constraint} (h : c.tests.entries ≠ []) :
    isObject (c.tests.entries.map (fun e => (e.1.token, e.2.toJson)) ++
      if c.ignoreCase then [(modeKey, .string MatchMode.ignoreCase.word)] else []) = true := by
  rw [isObject, Bool.and_eq_true_iff, List.any_eq_true, List.all_eq_true]
  constructor
  · obtain ⟨e, es, hes⟩ := List.exists_cons_of_ne_nil h
    exact ⟨(e.1.token, e.2.toJson), by simp [hes], by simp⟩
  · intro m hm
    rcases List.mem_append.mp hm with hm | hm
    · obtain ⟨e, _, rfl⟩ := List.mem_map.mp hm
      simp
    · split at hm
      · simp [List.mem_singleton.mp hm]
      · cases hm

theorem addMember_token (path : String) (c : Constraint) (op : Operator) {operand : Operand}
    (h : operand.WellFormed op) :
    addMember path c (op.token, operand.toJson) = .ok (c.put op operand) := by
  simp only [addMember, if_neg (token_ne_modeKey op), Operator.ofToken?_token,
    Operand.ofJson_toJson _ h]
  rfl

theorem foldlM_addMember (path : String) (es : List (Operator × Operand)) :
    ∀ (c : Constraint) (hnodup : (Entries.keys (c.tests.entries ++ es)).Nodup),
      (∀ e ∈ es, e.2.WellFormed e.1) →
      (es.map fun e => (e.1.token, e.2.toJson)).foldlM (addMember path) c =
        .ok ⟨⟨c.tests.entries ++ es, hnodup⟩, c.ignoreCase⟩ := by
  induction es with
  | nil =>
    intro c hnodup _
    simp only [List.append_nil]
    rfl
  | cons e es ih =>
    intro c hnodup hes
    rw [List.forall_mem_cons] at hes
    have hnew : e.1 ∉ Entries.keys c.tests.entries := by
      intro hm
      rw [Entries.keys_append, Entries.keys_cons, List.nodup_append] at hnodup
      exact hnodup.2.2 e.1 hm e.1 (List.mem_cons_self ..) rfl
    have hput : (c.put e.1 e.2).tests.entries = c.tests.entries ++ [e] :=
      Entries.update_eq_append _ hnew
    have hnodup' : (Entries.keys ((c.put e.1 e.2).tests.entries ++ es)).Nodup := by
      rw [hput, List.append_assoc]
      exact hnodup
    rw [List.map_cons, List.foldlM_cons, addMember_token path c e.1 hes.1]
    refine (ih (c.put e.1 e.2) hnodup' hes.2).trans ?_
    simp only [hput, List.append_assoc, List.singleton_append]
    rfl

theorem ofMembers_toJson (path : String) {c : Constraint} (h : c.WellFormed) :
    ofMembers path (c.tests.entries.map (fun e => (e.1.token, e.2.toJson)) ++
      if c.ignoreCase then [(modeKey, .string MatchMode.ignoreCase.word)] else []) = .ok c := by
  obtain ⟨⟨⟨es, hes⟩, ignoreCase⟩, _⟩ := c, h
  have hread := foldlM_addMember path es empty hes h.2
  rw [ofMembers, List.foldlM_append, hread]
  cases ignoreCase <;> rfl

end Constraint

/-! ## Filters -/

theorem keys_membersJson (es : List (String × Node)) :
    Entries.keys (membersJson es) = Entries.keys es := by
  induction es with
  | nil => rfl
  | cons e es ih => rw [membersJson, Entries.keys_cons, Entries.keys_cons, ih]

theorem nodeOfJson_scalar (path : String) {v : Scalar} (h : v.Canonical) :
    nodeOfJson path v.toJson = .ok (.value v) := by
  rw [nodeOfJson, Scalar.ofJson_toJson path h]
  · rfl
  · exact v.toJson_ne_array
  · exact v.toJson_ne_object

mutual

/-- What stands under a key is read by the kind of the key. -/
theorem nodeOfJson_toJson (key path : String) :
    ∀ node : Node, node.WellFormed key →
      (if (Connective.ofKey? key).isSome then groupOfJson path node.toJson
        else nodeOfJson path node.toJson) = .ok node
  | .value v, h => by
    obtain ⟨hkey, hv⟩ := h
    rw [hkey, Node.toJson]
    exact nodeOfJson_scalar path hv
  | .tests c, h => by
    obtain ⟨hkey, hc⟩ := h
    rw [hkey, Node.toJson, Constraint.toJson]
    simp only [Option.isSome_none, Bool.false_eq_true, if_false, nodeOfJson]
    rw [if_pos (Constraint.isObject_toJson hc.1), Constraint.ofMembers_toJson path hc]
    rfl
  | .relation ⟨es⟩, h => by
    obtain ⟨hkey, htests, hnodup, hes⟩ := h
    have hobject : ¬ Constraint.isObject (membersJson es) := by
      rw [Constraint.isObject_eq_true_iff, keys_membersJson]
      exact htests
    rw [hkey, Node.toJson, Tree.toJson]
    simp only [Option.isSome_none, Bool.false_eq_true, if_false, nodeOfJson]
    rw [if_neg hobject, entriesOfJson_membersJson path es hes]
    exact congrArg (fun es => Except.ok (Node.relation ⟨es⟩)) (Entries.collect_eq_self hnodup)
  | .group ts, h => by
    obtain ⟨hkey, hts⟩ := h
    rw [if_pos hkey, Node.toJson, groupOfJson, treesOfJson_groupJson path 0 ts hts]
    rfl

theorem entriesOfJson_membersJson (path : String) :
    ∀ es : List (String × Node), entriesWellFormed es →
      entriesOfJson path (membersJson es) = .ok es
  | [], _ => rfl
  | (key, node) :: es, h => by
    obtain ⟨hnode, hes⟩ := h
    have hread := nodeOfJson_toJson key (Path.below path key) node hnode
    rw [membersJson, entriesOfJson, entriesOfJson_membersJson path es hes]
    split at hread
    · next hkey =>
      rw [if_pos hkey, hread]
      rfl
    · next hkey =>
      rw [if_neg hkey, hread]
      rfl

theorem treesOfJson_groupJson (path : String) (index : Nat) :
    ∀ ts : List Tree, treesWellFormed ts → treesOfJson path index (groupJson ts) = .ok ts
  | [], _ => rfl
  | ⟨es⟩ :: ts, h => by
    obtain ⟨⟨hnodup, hes⟩, hts⟩ := h
    rw [groupJson, Tree.toJson, treesOfJson, entriesOfJson_membersJson _ es hes,
      treesOfJson_groupJson path (index + 1) ts hts]
    exact congrArg (fun es => Except.ok ((⟨es⟩ : Tree) :: ts)) (Entries.collect_eq_self hnodup)

end

theorem Tree.ofJson_toJson {t : Tree} (h : t.WellFormed) : ofJson t.toJson = .ok t := by
  obtain ⟨es⟩ := t
  obtain ⟨hnodup, hes⟩ := h
  rw [toJson, ofJson, entriesOfJson_membersJson "" es hes]
  exact congrArg (fun es => Except.ok (⟨es⟩ : Tree)) (Entries.collect_eq_self hnodup)

/-! ## Queries -/

theorem SortOrder.ofJson_toJson (order : SortOrder) :
    SortOrder.ofJson order.toJson = .ok order := by
  have hword : ∀ d : Direction, Schema.word Direction.all Direction.word (.string d.word) = .ok d :=
    fun d => by cases d <;> rfl
  have hread : (order.entries.map fun e => (e.1, Json.string e.2.word)).mapM
      (fun m => (Schema.word Direction.all Direction.word m.2).map (m.1, ·)) = .ok order.entries :=
    mapM_map_ok fun e _ => by
      rw [hword]
      rfl
  rw [toJson, ofJson, hread]
  exact congrArg Except.ok (OrderedMap.ext (Entries.collect_eq_self order.nodup))

theorem Schema.int64_ofInt64 (n : Int64) : Schema.int64 (.number (.ofInt64 n)) = .ok n := by
  have h := Json.Number.toInt64?_ofInt64 n
  rw [Json.Number.ofInt64] at h ⊢
  rw [Schema.int64, h]

theorem Schema.uint64_ofUInt64 (n : UInt64) : Schema.uint64 (.number (.ofUInt64 n)) = .ok n := by
  have h := Json.Number.toUInt64?_ofUInt64 n
  rw [Json.Number.ofUInt64] at h ⊢
  rw [Schema.uint64, h]

namespace Query

/-- A part of a query that is left out when it is absent. -/
theorem foldlM_setField {α : Type} {field : String} {toJson : α → Json} {q : Query}
    (set : Option α → Query) (a : Option α) (hnone : set none = q)
    (hsome : ∀ a, setField q field (toJson a) = .ok (set (some a))) :
    (a.elim [] fun a => [(field, toJson a)]).foldlM (fun q m => setField q m.1 m.2) q =
      .ok (set a) := by
  cases a with
  | none =>
    rw [hnone]
    rfl
  | some a =>
    rw [Option.elim_some, List.foldlM_cons, hsome a]
    rfl

theorem setField_where (q : Query) {t : Tree} (h : t.WellFormed) :
    setField q "where" t.toJson = .ok { q with filter := t } := by
  simp only [setField, Tree.ofJson_toJson h]

theorem setField_orderBy (q : Query) (order : SortOrder) :
    setField q "orderBy" order.toJson = .ok { q with order := some order } := by
  have hread := order.ofJson_toJson
  rw [SortOrder.toJson] at hread ⊢
  simp only [setField, Schema.optional, hread]
  rfl

theorem setField_skip (q : Query) (n : Int64) :
    setField q "skip" (.number (.ofInt64 n)) =
      .ok { q with window := { q.window with skip := some n } } := by
  simp only [setField, Schema.optional, Schema.int64_ofInt64]
  rfl

theorem setField_take (q : Query) (n : UInt64) :
    setField q "take" (.number (.ofUInt64 n)) =
      .ok { q with window := { q.window with take := some n } } := by
  simp only [setField, Schema.optional, Schema.uint64_ofUInt64]
  rfl

/-- A filter that JSON can tell apart reads back from its JSON form, order of keys and operators
included, and so does every query around it. -/
theorem ofJson_toJson_around (t : Tree) (h : t.WellFormed) :
    Tree.ofJson t.toJson = .ok t ∧
      ∀ (order : Option SortOrder) (window : Window),
        Query.ofJson (Query.toJson ⟨t, order, window⟩) = .ok ⟨t, order, window⟩ := by
  refine ⟨Tree.ofJson_toJson h, fun order window => ?_⟩
  obtain ⟨skip, take⟩ := window
  have hfilter : [("where", t.toJson)].foldlM (fun q m => setField q m.1 m.2) empty =
      .ok ⟨t, none, .none⟩ := by
    rw [List.foldlM_cons, setField_where empty h]
    rfl
  have horder := foldlM_setField (fun order => ⟨t, order, .none⟩) order rfl
    (setField_orderBy ⟨t, none, .none⟩)
  have hskip := foldlM_setField (q := ⟨t, order, .none⟩) (fun skip => ⟨t, order, ⟨skip, none⟩⟩)
    skip rfl (setField_skip ⟨t, order, .none⟩)
  have htake := foldlM_setField (fun take => ⟨t, order, ⟨skip, take⟩⟩) take rfl
    (setField_take ⟨t, order, ⟨skip, none⟩⟩)
  rw [Query.toJson, Query.ofJson, Schema.record]
  rw [List.foldlM_append, List.foldlM_append, List.foldlM_append, hfilter]
  dsimp only
  rw [ok_bind, horder, ok_bind, hskip, ok_bind]
  exact htake

/-- A related filter with a field named like an operator, beside a group. -/
theorem ofJson_toJson_around_owner :
    (Tree.single "owner"
        (.relation ⟨[("in", .value (.bool true)), ("OR", .group [.empty])]⟩)).WellFormed ∧
      Tree.ofJson (Tree.single "owner"
          (.relation ⟨[("in", .value (.bool true)), ("OR", .group [.empty])]⟩)).toJson =
        .ok (Tree.single "owner"
          (.relation ⟨[("in", .value (.bool true)), ("OR", .group [.empty])]⟩)) := by
  have h : (Tree.single "owner"
      (.relation ⟨[("in", .value (.bool true)), ("OR", .group [.empty])]⟩)).WellFormed := by
    refine ⟨by decide, ⟨by decide, by decide, by decide, ?_⟩, trivial⟩
    exact ⟨⟨by decide, trivial⟩, ⟨by decide, ⟨by decide, trivial⟩, trivial⟩, trivial⟩
  exact ⟨h, (ofJson_toJson_around _ h).1⟩

end Query

end QueryFilter
