import QueryFilter.Proofs.Commuting
import QueryFilter.Proofs.Restricting

/-!
# Operators that narrow

An operator for a field is merged into what is asked already: its test is one more, and the tests
before it stay. The one exception is a membership after plain values, which have become allowed
values by then: it takes their place, so nothing is lost only if it allows no more than they do
(`Params.holds_toFilter_of_push`).
-/

namespace QueryFilter

/-- Whether memberships are read as they should be: one of the equalities holds. -/
def ReadsMemberships (v : Atom → Bool) : Prop :=
  ∀ column vs, v ⟨column, .isIn vs⟩ = vs.any fun s => v ⟨column, .equal s⟩

/-! ## One field -/

theorem Constraint.ignoreCase_ofEvents_append {mode : MatchMode} {es : List Event} {op : Operator}
    (hop : op ∈ es.map Event.touched) (htext : op.matchesText) (e : Event) :
    (ofEvents mode (es ++ [e])).ignoreCase = (ofEvents mode es).ignoreCase := by
  have hany : (es.map Event.touched).any Operator.matchesText :=
    List.any_eq_true.mpr ⟨op, hop, htext⟩
  rw [ofEvents, ofEvents, List.map_append, List.any_append, hany, Bool.true_or]

/-- An operator that is touched without being asked for is the membership of plain values. -/
theorem eq_isIn_of_touched {es : List Event} {op : Operator} (h : op ∈ es.map Event.touched)
    (hfresh : ∀ e ∈ es, e.operator ≠ some op) : op = .isIn ∧ ∃ e ∈ es, e.operator = none := by
  obtain ⟨⟨operator, value⟩, he, htouched⟩ := List.mem_map.mp h
  cases operator with
  | none => exact ⟨htouched.symm, _, he, rfl⟩
  | some op' => exact absurd (congrArg some htouched) (hfresh _ he)

namespace Node

variable {v : Atom → Bool} {mode : MatchMode} {table : Option String} {key : String}

/-- A value asks what a membership of it alone asks. -/
theorem reads_ofEvents (hv : ReadsMemberships v) (es : List Event) :
    (ofEvents mode es).reads v table key =
      (Node.tests (.ofEvents mode es)).reads v table key := by
  rw [← constraint_ofEvents mode es]
  unfold ofEvents
  split
  · split
    · rfl
    · next s _ =>
      show v ⟨⟨table, key⟩, .equal (.ofText s)⟩ = (v ⟨⟨table, key⟩, .isIn [.ofText s]⟩ && true)
      rw [hv, Bool.and_true, List.any_cons, List.any_nil, Bool.or_false]
  · rfl

theorem reads_tests_ofEvents_iff {es : List Event} :
    (Node.tests (.ofEvents mode es)).reads v table key ↔
      ∀ op ∈ es.map Event.touched, v ⟨⟨table, key⟩,
        .asked (Constraint.ofEvents mode es).ignoreCase op (.ofEvents es op)⟩ := by
  simp [reads, Constraint.ofEvents, OrderedMap.tabulate]

theorem reads_of_append (hv : ReadsMemberships v) {es : List Event} {op : Operator} {value : String}
    (hfresh : ∀ e ∈ es, e.operator ≠ some op)
    (hmembers : op = .isIn → ∀ e ∈ es, e.operator = none →
      Scalar.listOfText value ⊆ allowedValues es)
    (h : (Node.tests (.ofEvents mode (es ++ [⟨some op, value⟩]))).reads v table key) :
    (ofEvents mode es).reads v table key := by
  rw [reads_ofEvents hv, reads_tests_ofEvents_iff]
  rw [reads_tests_ofEvents_iff] at h
  intro op' hop'
  have hasked := h op' (by rw [List.map_append]; exact List.mem_append_left _ hop')
  rw [Operand.ofEvents_append] at hasked
  by_cases heq : op' = op
  · -- the new membership stands in the place of the allowed values, and is among them
    subst heq
    obtain ⟨rfl, e, he, hplain⟩ := eq_isIn_of_touched hop' hfresh
    rw [if_pos rfl] at hasked
    change v ⟨_, .isIn (Scalar.listOfText value)⟩ at hasked
    show v ⟨_, .isIn (allowedValues es)⟩
    rw [hv, List.any_eq_true] at hasked ⊢
    obtain ⟨s, hs, hequal⟩ := hasked
    exact ⟨s, hmembers rfl e he hplain hs, hequal⟩
  · rw [if_neg heq] at hasked
    rwa [Test.asked_congr fun htext => (Constraint.ignoreCase_ofEvents_append hop' htext _).symm]

theorem negatesNoEmpty_ofEvents (mode : MatchMode) (es : List Event) :
    (ofEvents mode es).NegatesNoEmpty table key := by
  unfold ofEvents
  split
  · split <;> trivial
  · trivial

theorem holds?_of_addEvent (hv : ReadsMemberships v) {es : List Event} {op : Operator}
    {value : String} (hfresh : ∀ e ∈ es, e.operator ≠ some op)
    (hmembers : op = .isIn → ∀ e ∈ es, e.operator = none →
      Scalar.listOfText value ⊆ allowedValues es)
    (h : Condition.holds? v
      ((addEvent mode (some (ofEvents mode es)) ⟨some op, value⟩).condition? table key)) :
    Condition.holds? v ((ofEvents mode es).condition? table key) := by
  have htests (c : Constraint) : Condition.holds? v ((tests c).condition? table key) =
      (tests c).reads v table key := holds?_condition? v table key (.tests c) trivial
  rw [addEvent_ofEvents, Constraint.addEvent_ofEvents, htests] at h
  rw [holds?_condition? v _ _ _ (negatesNoEmpty_ofEvents mode es)]
  exact reads_of_append hv hfresh hmembers h

end Node

/-! ## One clause -/

namespace Clause

/-- Whether a clause asks something new of its own field: no other path leads through the end of
its path or ends on the way, and no clause has asked for its operator there. -/
structure IsNew (cs : List Clause) (d : Clause) : Prop where
  apart : ∀ c ∈ cs, c.path <+: d.path ∨ d.path <+: c.path → c.path = d.path
  fresh : ∀ c ∈ cs, c.path = d.path → c.operator ≠ d.operator

/-- Whether a clause, if it is a membership after plain values, allows no more than they do. -/
def KeepsMembers (cs : List Clause) (d : Clause) : Prop :=
  d.operator = some .isIn → ∀ c ∈ cs, c.path = d.path → c.operator = none →
    Scalar.listOfText d.value ⊆ allowedValues (eventsAt d.path cs)

instance (cs : List Clause) (d : Clause) : Decidable (IsNew cs d) :=
  decidable_of_iff (_ ∧ _) ⟨fun h => ⟨h.1, h.2⟩, fun h => ⟨h.apart, h.fresh⟩⟩

instance (cs : List Clause) (d : Clause) : Decidable (KeepsMembers cs d) :=
  inferInstanceAs (Decidable (_ → _))

variable {cs : List Clause} {d : Clause} {relation : String}

theorem eventsAt_path_under (relation : String) (d : Clause) (cs : List Clause) :
    eventsAt d.path (cs.filterMap (inside? [relation])) = eventsAt (d.under relation).path cs := by
  rw [path, ← eventsAt_inside, ← filterMap_inside?_cons, eventsAt_inside]
  rfl

theorem IsNew.relations_eq_nil (h : IsNew cs d) (hd : d.relations = []) :
    ∀ c ∈ cs, c.head = d.field → c.relations = [] := by
  intro c hc hhead
  have hprefix : d.path <+: c.path := by
    rw [path, hd, List.nil_append, ← hhead]
    exact c.head_prefix_path
  have heq : c.relations ++ [c.field] = d.relations ++ [d.field] := h.apart c hc (Or.inr hprefix)
  rw [hd] at heq
  exact List.append_inj_left' heq rfl

theorem IsNew.relations_ne_nil (h : IsNew cs (d.under relation)) :
    ∀ c ∈ cs, c.head = relation → c.relations ≠ [] := by
  intro c hc hhead hnil
  have hpath : c.path = [relation] := by rw [path, hnil, ← hhead, head, hnil]; rfl
  have heq := h.apart c hc (Or.inl ⟨d.path, by rw [hpath]; rfl⟩)
  rw [hpath, path_under] at heq
  simp [path] at heq

theorem IsNew.inside (h : IsNew cs (d.under relation)) :
    IsNew (cs.filterMap (inside? [relation])) d := by
  constructor
  · intro c hc hprefix
    have heq := h.apart _ (under_mem_of_mem_inside hc)
      (by simpa [path_under, List.cons_prefix_cons] using hprefix)
    simpa [path_under] using heq
  · intro c hc heq
    exact h.fresh (c.under relation) (under_mem_of_mem_inside hc)
      (by rw [path_under, path_under, heq])

theorem KeepsMembers.inside (h : KeepsMembers cs (d.under relation)) :
    KeepsMembers (cs.filterMap (inside? [relation])) d := by
  intro hin c hc heq hplain
  rw [eventsAt_path_under]
  exact h hin _ (under_mem_of_mem_inside hc) (by rw [path_under, path_under, heq]) hplain

end Clause

namespace Tree

variable {v : Atom → Bool} {table : Option String}

/-- A change that takes nothing back at its key takes nothing back. -/
theorem holds_of_update {t : Tree} {key : String} {f : Option Node → Node}
    (hnode : ∀ node, t.get? key = some node →
      Condition.holds? v ((f (some node)).condition? table key) →
        Condition.holds? v (node.condition? table key))
    (h : ((t.update key f).condition table).holds v) : (t.condition table).holds v := by
  rw [holds_condition] at h ⊢
  obtain ⟨es⟩ := t
  rw [update] at h
  induction es with
  | nil => rfl
  | cons e es ih =>
    obtain ⟨key', node⟩ := e
    by_cases hkey : key' = key
    · subst hkey
      simp only [Entries.update, if_true, List.all_cons, Bool.and_eq_true] at h ⊢
      exact ⟨hnode node (if_pos rfl) h.1, h.2⟩
    · simp only [Entries.update, if_neg hkey, List.all_cons, Bool.and_eq_true] at h ⊢
      refine ⟨h.1, ih ?_ h.2⟩
      intro node' hget
      exact hnode node' ((if_neg hkey).trans hget)

theorem holds_of_addClause (hv : ReadsMemberships v) (mode : MatchMode) {cs : List Clause}
    {d : Clause} (hop : d.operator ≠ none) (hnew : d.IsNew cs) (hmembers : d.KeepsMembers cs)
    (h : (((empty.addClauses mode cs).addClause mode d).condition table).holds v) :
    ((empty.addClauses mode cs).condition table).holds v := by
  obtain ⟨relations, field, operator, value⟩ := d
  obtain ⟨op, rfl⟩ : ∃ op, operator = some op := Option.ne_none_iff_exists'.mp hop
  -- down to the level of the field, where the events are known in closed form
  induction relations generalizing cs table with
  | nil =>
    rw [addClause_eq_update] at h
    refine holds_of_update ?_ h
    intro node hget hadded
    have hevents := (get?_addClauses_of_fields mode (hnew.relations_eq_nil rfl)).symm.trans hget
    by_cases hnil : Clause.eventsAt [field] cs = []
    · rw [hnil] at hevents
      cases hevents
    · rw [Node.foldl_addEvent mode hnil, Option.some.injEq] at hevents
      subst hevents
      apply Node.holds?_of_addEvent hv _ _ hadded
      · intro e he
        obtain ⟨c, hc, rfl⟩ := Clause.mem_eventsAt.mp he
        exact hnew.fresh c hc.1 hc.2
      · rintro rfl e he hplain
        obtain ⟨c, hc, rfl⟩ := Clause.mem_eventsAt.mp he
        exact hmembers rfl c hc.1 hc.2 hplain
  | cons relation relations ih =>
    rw [addClause_eq_update] at h
    refine holds_of_update ?_ h
    intro node hget hadded
    have hunder : Clause.IsNew cs (.under relation ⟨relations, field, some op, value⟩) := hnew
    have hinside := (get?_addClauses_of_relations mode hunder.relations_ne_nil).symm.trans hget
    split at hinside
    · cases hinside
    · cases hinside
      rw [Node.condition?, Condition.holds?_nonEmpty? v (holds_of_isEmpty v)]
      apply ih hop hunder.inside (Clause.KeepsMembers.inside hmembers)
      rw [← Condition.holds?_nonEmpty? v (holds_of_isEmpty v)]
      exact hadded

end Tree

/-! ## Parameters -/

namespace Params

variable {o : Options} {p : Params} {key value : String}

theorem toFilter_eq_ofParams_of_not_isReserved (h : ∀ pair ∈ p.pairs, ¬ o.isReserved pair.1) :
    p.toFilter o = Tree.ofParams o p := by
  have hterm : p.searchTerm? o = none :=
    searchTerm?_eq_none_iff.mpr fun pair hpair => mt isReserved_of_isSearchKey (h pair hpair)
  rw [toFilter, hterm]
  rfl

/-- Rows that pass with one more operator passed without it, if it asks something new of its field
and does not take the place of plain values that allow less. -/
theorem holds_toFilter_of_push (o : Options) (p : Params) {key value : String}
    (hp : ∀ pair ∈ p.pairs, ¬ o.isReserved pair.1) (hkey : ¬ o.isReserved key)
    (hop : (Clause.ofPair key value).operator ≠ none)
    (hnew : (Clause.ofPair key value).IsNew (p.clauses o))
    (hmembers : (Clause.ofPair key value).KeepsMembers (p.clauses o))
    {v : Atom → Bool} (hv : ReadsMemberships v)
    (h : ((p.push key value).toFilter o).toCondition.holds v) :
    (p.toFilter o).toCondition.holds v := by
  have hpush : ∀ pair ∈ (p.push key value).pairs, ¬ o.isReserved pair.1 := by
    intro pair hpair
    rcases List.mem_append.mp hpair with hpair | hpair
    · exact hp pair hpair
    · rwa [List.mem_singleton.mp hpair]
  rw [toFilter_eq_ofParams_of_not_isReserved hpush, Tree.ofParams_eq_addClauses,
    clauses_push hkey, Tree.addClauses_append] at h
  rw [toFilter_eq_ofParams_of_not_isReserved hp, Tree.ofParams_eq_addClauses]
  exact Tree.holds_of_addClause hv o.matchMode hop hnew hmembers h

/-- The truths on a row with one value in all its columns; other tests than those of equality count
as false. -/
def truthsOf (value : Scalar) (a : Atom) : Bool :=
  match a.test with
  | .equal s => s = value
  | .isIn vs => vs.any (· = value)
  | .notEqual s => s.any (· ≠ value)
  | .notIn vs => vs.all (· ≠ value)
  | _ => false

/-- A membership of one of the plain values, and of no other. -/
theorem holds_toFilter_of_push_status :
    let p : Params := ⟨[("status", "active,pending"), ("owner.status", "active"),
      ("status_not", "closed")]⟩
    let d := Clause.ofPair "status_in" "active"
    let v := truthsOf (.text "active")
    ((∀ pair ∈ p.pairs, ¬ Options.standard.isReserved pair.1) ∧
      ¬ Options.standard.isReserved "status_in" ∧ d.operator ≠ none ∧
      d.IsNew (p.clauses .standard) ∧ d.KeepsMembers (p.clauses .standard) ∧ ReadsMemberships v ∧
      ((p.push "status_in" "active").toFilter .standard).toCondition.holds v) ∧
    (p.toFilter .standard).toCondition.holds v := by
  intro p d v
  have hp : ∀ pair ∈ p.pairs, ¬ Options.standard.isReserved pair.1 := by decide +kernel
  have hkey : ¬ Options.standard.isReserved "status_in" := by decide +kernel
  have hop : d.operator ≠ none := by decide +kernel
  have hnew : d.IsNew (p.clauses .standard) := by decide +kernel
  have hmembers : d.KeepsMembers (p.clauses .standard) := by decide +kernel
  have hv : ReadsMemberships v := fun _ _ => rfl
  have h : ((p.push "status_in" "active").toFilter .standard).toCondition.holds v := by
    decide +kernel
  exact ⟨⟨hp, hkey, hop, hnew, hmembers, hv, h⟩,
    holds_toFilter_of_push .standard p hp hkey hop hnew hmembers hv h⟩

/-- A membership that takes the place of a plain value lets rows pass that did not pass before. -/
theorem not_holds_toFilter_of_push_status :
    let p : Params := ⟨[("status", "active")]⟩
    let d := Clause.ofPair "status_in" "active,pending"
    let v := truthsOf (.text "pending")
    (∀ pair ∈ p.pairs, ¬ Options.standard.isReserved pair.1) ∧
      ¬ Options.standard.isReserved "status_in" ∧ d.operator ≠ none ∧
      d.IsNew (p.clauses .standard) ∧ ReadsMemberships v ∧
      ((p.push "status_in" "active,pending").toFilter .standard).toCondition.holds v ∧
      ¬ (p.toFilter .standard).toCondition.holds v := by
  intro p d v
  have hv : ReadsMemberships v := fun _ _ => rfl
  refine ⟨?_, ?_, ?_, ?_, hv, ?_, ?_⟩
  all_goals decide +kernel

end Params

end QueryFilter
