import QueryFilter.Proofs.JsonForm

/-!
# Filters read from JSON

Whatever JSON a filter is read from, JSON can tell it apart (`Tree.wellFormed_of_ofJson`): each way
to shorten a filter is read as the form that writing gives. So writing and reading it again changes
nothing.
-/

namespace QueryFilter

/-! ## Steps that succeed -/

theorem bind_eq_ok_iff {α β ε : Type} {x : Except ε α} {f : α → Except ε β} {b : β} :
    x >>= f = .ok b ↔ ∃ a, x = .ok a ∧ f a = .ok b := by
  cases x with
  | error e =>
    constructor
    · intro h
      cases h
    · rintro ⟨a, h, _⟩
      cases h
  | ok a =>
    constructor
    · intro h
      exact ⟨a, rfl, h⟩
    · rintro ⟨a', h, hf⟩
      cases h
      exact hf

theorem map_eq_ok_iff {α β ε : Type} {x : Except ε α} {f : α → β} {b : β} :
    x.map f = .ok b ↔ ∃ a, x = .ok a ∧ f a = b := by
  cases x <;> simp [Except.map]

theorem exists_of_mem_mapM {α β ε : Type} {f : α → Except ε β} {as : List α} {bs : List β}
    (h : as.mapM f = .ok bs) : ∀ b ∈ bs, ∃ a ∈ as, f a = .ok b := by
  induction as generalizing bs with
  | nil =>
    cases h
    simp
  | cons a as ih =>
    rw [List.mapM_cons, bind_eq_ok_iff] at h
    obtain ⟨b, hb, h⟩ := h
    obtain ⟨bs', hbs, h⟩ := bind_eq_ok_iff.mp h
    cases h
    intro b' hb'
    cases hb' with
    | head => exact ⟨a, by simp, hb⟩
    | tail _ hb' =>
      obtain ⟨a', ha', hf⟩ := ih hbs b' hb'
      exact ⟨a', by simp [ha'], hf⟩

/-! ## Scalars and operands -/

namespace Scalar

theorem canonical_of_ofNumber? {n : Json.Number} {v : Scalar} (h : ofNumber? n = some v) :
    v.Canonical := by
  unfold ofNumber? at h
  split at h
  · cases h
    trivial
  · split at h
    · cases h
      exact canonical_ofBinary64 _
    · obtain ⟨x, _, rfl⟩ := Option.map_eq_some_iff.mp h
      exact canonical_ofBinary64 x

theorem canonical_of_ofJson {path : String} {j : Json} {v : Scalar} (h : ofJson path j = .ok v) :
    v.Canonical := by
  cases j with
  | bool b => cases h; trivial
  | string s => cases h; trivial
  | number n =>
    rw [ofJson] at h
    split at h
    · next hn =>
      cases h
      exact canonical_of_ofNumber? hn
    · cases h
  | null => cases h
  | array items => cases h
  | object members => cases h

theorem canonical_of_listOfJson {path : String} {items : List Json} {vs : List Scalar}
    (h : listOfJson path items = .ok vs) : ∀ v ∈ vs, v.Canonical := by
  intro v hv
  obtain ⟨j, _, hj⟩ := exists_of_mem_mapM h v hv
  exact canonical_of_ofJson hj

end Scalar

theorem Operand.wellFormed_of_ofJson {op : Operator} {path : String} {j : Json} {operand : Operand}
    (h : ofJson op path j = .ok operand) : operand.WellFormed op := by
  unfold ofJson at h
  split at h
  · split at h
    · next hop =>
      obtain ⟨vs, hvs, rfl⟩ := map_eq_ok_iff.mp h
      exact ⟨hop, Scalar.canonical_of_listOfJson hvs⟩
    · cases h
  · obtain ⟨v, hv, rfl⟩ := map_eq_ok_iff.mp h
    have hcanonical := Scalar.canonical_of_ofJson hv
    by_cases hop : op.isMembership
    · rw [if_pos hop]
      exact ⟨hop, by simpa using hcanonical⟩
    · rw [if_neg hop]
      exact ⟨by simpa using hop, hcanonical⟩

/-! ## The tests of a field -/

namespace Constraint

theorem wellFormed_put {c : Constraint} (h : ∀ e ∈ c.tests.entries, e.2.WellFormed e.1)
    {op : Operator} {operand : Operand} (hoperand : operand.WellFormed op) :
    (c.put op operand).WellFormed := by
  refine ⟨Entries.update_ne_nil _ _ _, ?_⟩
  intro e he
  rcases Entries.mem_update he with he | rfl
  · exact h e he
  · exact hoperand

/-- A member keeps the operands right, and leaves a test behind if it names an operator. -/
theorem wellFormed_of_addMember {path : String} {c d : Constraint} {member : String × Json}
    (h : addMember path c member = .ok d) (hc : ∀ e ∈ c.tests.entries, e.2.WellFormed e.1) :
    (∀ e ∈ d.tests.entries, e.2.WellFormed e.1) ∧
      (c.tests.entries ≠ [] ∨ (Operator.ofToken? member.1).isSome → d.tests.entries ≠ []) := by
  obtain ⟨key, value⟩ := member
  by_cases hkey : key = modeKey
  · have htests : d.tests = c.tests := by
      simp only [addMember, if_pos hkey] at h
      split at h
      · split at h
        · cases h; rfl
        · cases h; rfl
        · cases h
      · cases h
    rw [htests, hkey, modeKey_not_token]
    exact ⟨hc, fun hor => by simpa using hor⟩
  · simp only [addMember, if_neg hkey] at h
    cases hop : Operator.ofToken? key with
    | none =>
      rw [hop] at h
      cases h
      exact ⟨hc, fun hor => by simpa using hor⟩
    | some op =>
      rw [hop] at h
      obtain ⟨operand, hoperand, rfl⟩ := map_eq_ok_iff.mp h
      have hput := wellFormed_put hc (Operand.wellFormed_of_ofJson hoperand)
      exact ⟨hput.2, fun _ => hput.1⟩

theorem wellFormed_of_foldlM {path : String} {members : List (String × Json)} {c d : Constraint}
    (h : members.foldlM (addMember path) c = .ok d)
    (hc : ∀ e ∈ c.tests.entries, e.2.WellFormed e.1)
    (hne : c.tests.entries ≠ [] ∨ ∃ m ∈ members, (Operator.ofToken? m.1).isSome) :
    d.WellFormed := by
  induction members generalizing c with
  | nil =>
    cases h
    exact ⟨by simpa using hne, hc⟩
  | cons m members ih =>
    rw [List.foldlM_cons, bind_eq_ok_iff] at h
    obtain ⟨c', hm, h⟩ := h
    obtain ⟨hc', hne'⟩ := wellFormed_of_addMember hm hc
    apply ih h hc'
    rcases hne with hne | ⟨m', hm', htoken⟩
    · exact Or.inl (hne' (Or.inl hne))
    · cases hm' with
      | head => exact Or.inl (hne' (Or.inr htoken))
      | tail _ hm' => exact Or.inr ⟨m', hm', htoken⟩

theorem wellFormed_of_ofMembers {path : String} {members : List (String × Json)} {c : Constraint}
    (hobject : isObject members) (h : ofMembers path members = .ok c) : c.WellFormed := by
  apply wellFormed_of_foldlM h
  · intro e he
    cases he
  · have hany := (Bool.and_eq_true_iff.mp hobject).1
    rw [List.any_eq_true] at hany
    exact Or.inr hany

end Constraint

/-! ## Filters -/

theorem entriesWellFormed_iff {es : List (String × Node)} :
    entriesWellFormed es ↔ ∀ e ∈ es, e.2.WellFormed e.1 := by
  induction es with
  | nil => simp [entriesWellFormed]
  | cons e es ih => simp [entriesWellFormed, ih]

theorem Tree.wellFormed_collect {es : List (String × Node)} (h : entriesWellFormed es) :
    (collect es).WellFormed := by
  refine ⟨Entries.nodup_keys_collect es, ?_⟩
  rw [entriesWellFormed_iff] at h ⊢
  intro e he
  exact h e (Entries.mem_of_mem_collect he)

/-- A repeated key does not make a related filter look like tests. -/
theorem namesTests_keys_collect {es : List (String × Node)} :
    NamesTests (Tree.collect es).keys ↔ NamesTests (Entries.keys es) := by
  have hmem : ∀ key, key ∈ (Tree.collect es).keys ↔ key ∈ Entries.keys es := fun _ =>
    Entries.mem_keys_collect
  simp only [NamesTests, hmem]

theorem entriesOfJson_cons_eq_ok {path key : String} {value : Json}
    {members : List (String × Json)} {es : List (String × Node)}
    (h : entriesOfJson path ((key, value) :: members) = .ok es) :
    ∃ node rest, es = (key, node) :: rest ∧ entriesOfJson path members = .ok rest ∧
      (if (Connective.ofKey? key).isSome then groupOfJson (Path.below path key) value
        else nodeOfJson (Path.below path key) value) = .ok node := by
  rw [entriesOfJson] at h
  split at h
  · next hkey =>
    obtain ⟨node, hnode, h⟩ := bind_eq_ok_iff.mp h
    obtain ⟨rest, hrest, h⟩ := bind_eq_ok_iff.mp h
    cases h
    exact ⟨node, rest, rfl, hrest, by rw [if_pos hkey, hnode]⟩
  · next hkey =>
    obtain ⟨node, hnode, h⟩ := bind_eq_ok_iff.mp h
    obtain ⟨rest, hrest, h⟩ := bind_eq_ok_iff.mp h
    cases h
    exact ⟨node, rest, rfl, hrest, by rw [if_neg hkey, hnode]⟩

mutual

theorem wellFormed_of_entriesOfJson (path : String) : ∀ (members : List (String × Json))
    (es : List (String × Node)), entriesOfJson path members = .ok es →
      entriesWellFormed es ∧ Entries.keys es = Entries.keys members
  | [], es, h => by
    cases h
    exact ⟨trivial, rfl⟩
  | (key, value) :: members, es, h => by
    obtain ⟨node, rest, rfl, hrest, hnode⟩ := entriesOfJson_cons_eq_ok h
    obtain ⟨hwell, hkeys⟩ := wellFormed_of_entriesOfJson path members rest hrest
    refine ⟨⟨?_, hwell⟩, by simp [hkeys]⟩
    split at hnode
    · next hkey => exact wellFormed_of_groupOfJson _ key value node hkey hnode
    · next hkey => exact wellFormed_of_nodeOfJson _ key value node (by simpa using hkey) hnode

theorem wellFormed_of_groupOfJson (path key : String) : ∀ (j : Json) (node : Node),
    (Connective.ofKey? key).isSome → groupOfJson path j = .ok node → node.WellFormed key
  | .object members, node, hkey, h => by
    rw [groupOfJson, bind_eq_ok_iff] at h
    obtain ⟨es, hes, h⟩ := h
    cases h
    have hread := wellFormed_of_entriesOfJson path members es hes
    exact ⟨hkey, Tree.wellFormed_collect hread.1, trivial⟩
  | .array items, node, hkey, h => by
    rw [groupOfJson, bind_eq_ok_iff] at h
    obtain ⟨ts, hts, h⟩ := h
    cases h
    exact ⟨hkey, wellFormed_of_treesOfJson path 0 items ts hts⟩
  | .null, node, _, h => by cases h
  | .bool _, node, _, h => by cases h
  | .number _, node, _, h => by cases h
  | .string _, node, _, h => by cases h

theorem wellFormed_of_treesOfJson (path : String) (index : Nat) : ∀ (items : List Json)
    (ts : List Tree), treesOfJson path index items = .ok ts → treesWellFormed ts
  | [], ts, h => by
    cases h
    trivial
  | .object members :: items, ts, h => by
    rw [treesOfJson, bind_eq_ok_iff] at h
    obtain ⟨es, hes, h⟩ := h
    obtain ⟨ts', hts, h⟩ := bind_eq_ok_iff.mp h
    cases h
    have hread := wellFormed_of_entriesOfJson _ members es hes
    exact ⟨Tree.wellFormed_collect hread.1, wellFormed_of_treesOfJson path (index + 1) items ts' hts⟩
  | .array _ :: _, ts, h => by cases h
  | .null :: _, ts, h => by cases h
  | .bool _ :: _, ts, h => by cases h
  | .number _ :: _, ts, h => by cases h
  | .string _ :: _, ts, h => by cases h

theorem wellFormed_of_nodeOfJson (path key : String) : ∀ (j : Json) (node : Node),
    Connective.ofKey? key = none → nodeOfJson path j = .ok node → node.WellFormed key
  | .array items, node, hkey, h => by
    rw [nodeOfJson, bind_eq_ok_iff] at h
    obtain ⟨vs, hvs, h⟩ := h
    cases h
    refine ⟨hkey, Constraint.wellFormed_put (c := .empty) ?_ ?_⟩
    · intro e he
      cases he
    · exact ⟨rfl, Scalar.canonical_of_listOfJson hvs⟩
  | .object members, node, hkey, h => by
    rw [nodeOfJson] at h
    split at h
    · next hobject =>
      obtain ⟨c, hc, h⟩ := bind_eq_ok_iff.mp h
      cases h
      exact ⟨hkey, Constraint.wellFormed_of_ofMembers hobject hc⟩
    · next hobject =>
      obtain ⟨es, hes, h⟩ := bind_eq_ok_iff.mp h
      cases h
      obtain ⟨hwell, hkeys⟩ := wellFormed_of_entriesOfJson path members es hes
      refine ⟨hkey, ?_, Tree.wellFormed_collect hwell⟩
      rw [namesTests_keys_collect, hkeys, ← Constraint.isObject_eq_true_iff]
      exact hobject
  | .null, node, _, h => by cases h
  | .bool b, node, hkey, h => by
    cases h
    exact ⟨hkey, trivial⟩
  | .string s, node, hkey, h => by
    cases h
    exact ⟨hkey, trivial⟩
  | .number n, node, hkey, h => by
    rw [nodeOfJson, bind_eq_ok_iff] at h
    · obtain ⟨v, hv, h⟩ := h
      cases h
      exact ⟨hkey, Scalar.canonical_of_ofJson hv⟩
    · simp
    · simp

end

namespace Tree

theorem wellFormed_of_ofJson {j : Json} {t : Tree} (h : ofJson j = .ok t) : t.WellFormed := by
  cases j with
  | object members =>
    rw [ofJson, bind_eq_ok_iff] at h
    obtain ⟨es, hes, h⟩ := h
    cases h
    exact wellFormed_collect (wellFormed_of_entriesOfJson "" members es hes).1
  | null => cases h
  | bool b => cases h
  | number n => cases h
  | string s => cases h
  | array items => cases h

/-- A filter that is read from JSON is written in a form that is read as the same filter, order of
keys and operators included. -/
theorem ofJson_toJson_of_ofJson (j : Json) (t : Tree) (h : ofJson j = .ok t) :
    ofJson t.toJson = .ok t :=
  ofJson_toJson (wellFormed_of_ofJson h)

/-- A list for a membership, a whole number with a fraction, an object under a connective, a scalar
under a membership, the standard mode, and a field named like an operator. -/
theorem ofJson_toJson_of_ofJson_shorthands :
    let j : Json := .object
      [("tags", .array [.string "a", .number (.float ⟨false, 0x4000000000000000, by decide⟩)]),
        ("NOT", .object
          [("owner", .object [("in", .number (.ofInt64 5)), ("mode", .string "default")]),
            ("site", .object [("in", .object []), ("name", .bool true)])])]
    let t : Tree :=
      ⟨[("tags", .tests (.members [.text "a", .int 2])),
        ("NOT", .group
          [⟨[("owner", .tests (.members [.int 5])),
            ("site", .relation ⟨[("in", .relation .empty), ("name", .value (.bool true))]⟩)]⟩])]⟩
    ofJson j = .ok t ∧ ofJson t.toJson = .ok t := by
  intro j t
  have h : ofJson j = .ok t := by with_unfolding_all rfl
  exact ⟨h, ofJson_toJson_of_ofJson j t h⟩

end Tree

end QueryFilter
