import QueryFilter.Proofs.Commuting
import QueryFilter.Proofs.Decoded
import QueryFilter.Proofs.Tidy

/-!
# Parameters through JSON

A parameter may name its fields as it likes, but JSON knows groups and tests by their keys. So a
filter read from parameters is read back from JSON exactly if no key is that of a connective and no
related record has the keys of tests (`Params.ofJson_toJson_toFilter_iff`). Nothing but the keys
matters: whatever else stands in such a filter has one form in JSON.
-/

namespace QueryFilter

/-- No key is taken for a connective, and no related record for the tests of a field. -/
def PlainKeys (es : List (String × Node)) : Prop :=
  ∀ e ∈ es, Connective.ofKey? e.1 = none ∧ ∀ t, e.2 = .relation t → ¬ NamesTests t.keys

theorem PlainKeys.mono {es fs : List (String × Node)} (h : PlainKeys fs) (hsub : es ⊆ fs) :
    PlainKeys es := fun e he => h e (hsub he)

theorem plainKeys_append_iff {es fs : List (String × Node)} :
    PlainKeys (es ++ fs) ↔ PlainKeys es ∧ PlainKeys fs := List.forall_mem_append

section
variable {mode : MatchMode}

/-! ## Plain keys make a filter well-formed -/

theorem Scalar.Listed.canonical {v : Scalar} (h : v.Listed) : v.Canonical := by
  obtain ⟨s, -, rfl⟩ := h
  exact canonical_ofText s

theorem Operand.Compiled.wellFormed {op : Operator} {operand : Operand}
    (h : operand.Compiled op) : operand.WellFormed op := by
  cases operand with
  | one v => exact ⟨h.1, h.2.canonical⟩
  | many vs => exact ⟨h.1, fun v hv => (h.2.2 v hv).canonical⟩

theorem Constraint.Compiled.wellFormed {c : Constraint} (h : c.Compiled mode) : c.WellFormed :=
  ⟨h.nonempty, fun e he => (h.operands e he).wellFormed⟩

mutual

theorem Node.Compiled.wellFormed {key : String} : ∀ {node : Node}, node.Compiled mode key →
    PlainKeys ((key, node) :: node.entriesBelow) → node.WellFormed key
  | .value _, h, hplain => ⟨(hplain _ (List.mem_cons_self ..)).1, h.2.canonical⟩
  | .tests c, h, hplain =>
    ⟨(hplain _ (List.mem_cons_self ..)).1, Constraint.Compiled.wellFormed h⟩
  | .relation t, h, hplain => by
    obtain ⟨hkey, hrelation⟩ := hplain _ (List.mem_cons_self ..)
    refine ⟨hkey, hrelation t rfl, h.2.wellFormed ?_⟩
    exact hplain.mono (List.subset_cons_self ..)
  | .group _, h, _ => h.elim

theorem Tree.Compiled.wellFormed : ∀ {t : Tree}, t.Compiled mode → PlainKeys t.allEntries →
    t.WellFormed
  | ⟨es⟩, h, hplain => ⟨h.1, entriesCompiled_wellFormed es h.2 hplain⟩

theorem entriesCompiled_wellFormed : ∀ es : List (String × Node), entriesCompiled mode es →
    PlainKeys (allEntriesOf es) → entriesWellFormed es
  | [], _, _ => trivial
  | (key, node) :: es, h, hplain => by
    obtain ⟨-, hnode, hes⟩ := h
    rw [allEntriesOf, ← List.cons_append, plainKeys_append_iff] at hplain
    exact ⟨hnode.wellFormed hplain.1, entriesCompiled_wellFormed es hes hplain.2⟩

end

/-! ## A filter that is read back has plain keys -/

theorem Tree.wellFormed_iff {t : Tree} :
    t.WellFormed ↔ t.keys.Nodup ∧ ∀ e ∈ t.entries, e.2.WellFormed e.1 := by
  obtain ⟨es⟩ := t
  rw [Tree.WellFormed, entriesWellFormed_iff]
  rfl

mutual

theorem Node.Compiled.plainKeys_of_same {key : String} : ∀ {node other : Node},
    node.Compiled mode key → node.same other → other.WellFormed key →
      PlainKeys ((key, node) :: node.entriesBelow)
  | .value _, other, _, hsame, hother => by
    cases other <;> simp only [Node.same, Bool.false_eq_true] at hsame
    simpa [PlainKeys, Node.entriesBelow] using hother.1
  | .tests _, other, _, hsame, hother => by
    cases other <;> simp only [Node.same, Bool.false_eq_true] at hsame
    simpa [PlainKeys, Node.entriesBelow] using hother.1
  | .relation t, other, h, hsame, hother => by
    cases other <;> simp only [Node.same, Bool.false_eq_true] at hsame
    obtain ⟨hkey, hnames, hs⟩ := hother
    have hkeys := Tree.mem_keys_iff_of_same (Tree.compiled_iff.mp h.2).1 (Tree.wellFormed_iff.mp hs).1
      hsame
    have hbelow := h.2.plainKeys_of_same hsame hs
    refine List.forall_mem_cons.mpr ⟨⟨hkey, fun t' ht' => ?_⟩, hbelow⟩
    cases ht'
    simpa only [NamesTests, hkeys] using hnames
  | .group _, _, h, _, _ => h.elim

theorem Tree.Compiled.plainKeys_of_same : ∀ {t s : Tree}, t.Compiled mode → t.same s →
    s.WellFormed → PlainKeys t.allEntries
  | ⟨es⟩, s, h, hsame, hs => by
    apply entriesCompiled_plainKeys es h.2
    intro e he
    rw [Tree.same, Bool.and_eq_true, sameEntries_eq_all, List.all_eq_true] at hsame
    obtain ⟨other, hget, hother⟩ := (Option.any_eq_true _ _).mp (hsame.2 e he)
    exact ⟨other, hother, (Tree.wellFormed_iff.mp hs).2 _ (Entries.mem_of_get? hget)⟩

theorem entriesCompiled_plainKeys : ∀ es : List (String × Node), entriesCompiled mode es →
    (∀ e ∈ es, ∃ other, e.2.same other ∧ other.WellFormed e.1) → PlainKeys (allEntriesOf es)
  | [], _, _ => by
    intro e he
    cases he
  | (key, node) :: es, h, hothers => by
    obtain ⟨-, hnode, hes⟩ := h
    rw [List.forall_mem_cons] at hothers
    obtain ⟨⟨other, hsame, hother⟩, hothers⟩ := hothers
    rw [allEntriesOf, ← List.cons_append, plainKeys_append_iff]
    exact ⟨hnode.plainKeys_of_same hsame hother, entriesCompiled_plainKeys es hes hothers⟩

end

end

namespace Params

/-- A filter read from parameters comes back from JSON exactly if its keys are plain. -/
theorem ofJson_toJson_toFilter_iff (o : Options) (p : Params) (hfields : o.searchFields = []) :
    (∃ t, Tree.ofJson (p.toFilter o).toJson = .ok t ∧ (p.toFilter o).same t) ↔
      PlainKeys (p.toFilter o).allEntries := by
  rw [toFilter_eq_ofParams hfields]
  have hcompiled := Tree.compiled_ofParams o p
  constructor
  · rintro ⟨t, hread, hsame⟩
    exact hcompiled.plainKeys_of_same hsame (Tree.wellFormed_of_ofJson hread)
  · intro hplain
    refine ⟨_, Tree.ofJson_toJson (hcompiled.wellFormed hplain), ?_⟩
    exact Tree.same_refl _ (Tree.keyed_ofParams o p)

/-- A related record with a field that is named like an operator, and one that is not. -/
theorem ofJson_toJson_toFilter_iff_site :
    let o := Options.standard
    let p := ofQuery "?site.in=1&site.name_not=x&tag=a,7"
    o.searchFields = [] ∧ PlainKeys (p.toFilter o).allEntries ∧
      ∃ t, Tree.ofJson (p.toFilter o).toJson = .ok t ∧ (p.toFilter o).same t := by
  intro o p
  have hfields : o.searchFields = [] := rfl
  have hpairs : p = ⟨[("site.in", "1"), ("site.name_not", "x"), ("tag", "a,7")]⟩ := by
    decide +kernel
  have hfilter : p.toFilter o =
      ⟨[("site", .relation
          ⟨[("in", .value (.int 1)),
            ("name", .tests (Constraint.empty.put .notEqual (.one (.text "x"))))]⟩),
        ("tag", .tests (.members [.text "a", .int 7]))]⟩ := by
    rw [hpairs]
    rfl
  have hplain : PlainKeys (p.toFilter o).allEntries := by
    have hkeys : ∀ key ∈ ["site", "in", "name", "tag"], Connective.ofKey? key = none := by decide
    have hnames : ¬ NamesTests ["in", "name"] := by decide
    rw [hfilter]
    simpa [PlainKeys, Tree.allEntries, allEntriesOf, Node.entriesBelow, Tree.keys, hnames] using hkeys
  exact ⟨hfields, hplain, (ofJson_toJson_toFilter_iff o p hfields).mpr hplain⟩

/-- A related record that is called like a connective comes back as a group. -/
theorem ofJson_toJson_toFilter_tenant :
    let tenant := Tree.single "tenant" (.value (.int 7))
    let t := (ofQuery "NOT.tenant=7").toFilter .standard
    t = .single "NOT" (.relation tenant) ∧ Tree.ofJson t.toJson = .ok (.group .not [tenant]) ∧
      ¬ ∃ s, Tree.ofJson t.toJson = .ok s ∧ t.same s := by
  intro tenant t
  have hpairs : ofQuery "NOT.tenant=7" = ⟨[("NOT.tenant", "7")]⟩ := by decide +kernel
  have ht : t = .single "NOT" (.relation tenant) := by
    simp only [t, hpairs]
    rfl
  have hread : Tree.ofJson t.toJson = .ok (.group .not [tenant]) := by
    rw [ht]
    rfl
  refine ⟨ht, hread, ?_⟩
  rintro ⟨s, hs, hsame⟩
  rw [hread] at hs
  cases hs
  rw [ht] at hsame
  simp [Tree.single, Tree.group, Tree.same, sameEntries, Tree.get?, Entries.get?, Connective.key,
    Node.same] at hsame

end Params

end QueryFilter
