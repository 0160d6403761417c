import QueryFilter.Proofs.Compiled
import QueryFilter.Query.Basic

/-!
# The parameters of a filter read back

The clauses of a filter that was read from parameters, added one after the other, build it again
(`Tree.addClauses_clauses`): each node is appended when its first clause comes, and the clauses
after it find the node as it was. So the parameters of the filter are read as the filter itself.
-/

namespace QueryFilter

/-- Adds clauses one after the other. -/
def Tree.addClauses (mode : MatchMode) (t : Tree) (cs : List Clause) : Tree :=
  cs.foldl (addClause mode) t

theorem Tree.addClauses_append (mode : MatchMode) (t : Tree) (cs ds : List Clause) :
    t.addClauses mode (cs ++ ds) = (t.addClauses mode cs).addClauses mode ds :=
  List.foldl_append

/-! ## Clauses at one key -/

namespace Tree

theorem update_update (t : Tree) (key : String) (f g : Option Node → Node) :
    (t.update key f).update key g = t.update key fun old => g (some (f old)) :=
  congrArg Tree.mk (Entries.update_update key f g t.entries)

theorem foldl_update {β : Type} (key : String) (f : Option Node → β → Node) (xs : List β)
    (g : Option Node → Node) (t : Tree) :
    xs.foldl (fun t x => t.update key (f · x)) (t.update key g) =
      t.update key fun old => xs.foldl (fun node x => f (some node) x) (g old) := by
  induction xs generalizing g with
  | nil => rfl
  | cons x xs ih =>
    rw [List.foldl_cons, update_update, ih]
    rfl

theorem update_eq_append {es : List (String × Node)} {key : String} (f : Option Node → Node)
    (h : key ∉ Entries.keys es) :
    (Tree.mk es).update key f = ⟨es ++ [(key, f none)]⟩ :=
  congrArg Tree.mk (Entries.update_eq_append f h)

/-- Clauses about a related record change the relation, and make one if there is none. -/
theorem addClauses_under (mode : MatchMode) (t : Tree) (relation : String) (c : Clause)
    (cs : List Clause) :
    t.addClauses mode ((c :: cs).map (.under relation)) =
      t.update relation fun old => .relation ((ofRelation old).addClauses mode (c :: cs)) := by
  have hrelation : ∀ (cs : List Clause) (inner : Tree),
      cs.foldl (fun node c => Node.relation ((ofRelation (some node)).addClause mode c))
        (.relation inner) = .relation (inner.addClauses mode cs) := by
    intro cs
    induction cs with
    | nil => intro inner; rfl
    | cons c cs ih => intro inner; exact ih _
  rw [addClauses, List.map_cons, List.foldl_cons, List.foldl_map]
  refine (foldl_update relation
    (fun old c => .relation ((ofRelation old).addClause mode c)) cs _ t).trans ?_
  congr 1
  funext old
  exact hrelation cs _

theorem addClauses_tests (mode : MatchMode) (t : Tree) (key : String) (e : Operator × Operand)
    (es : List (Operator × Operand)) :
    t.addClauses mode ((e :: es).map fun e => ⟨[], key, some e.1, e.2.display⟩) =
      t.update key fun old => es.foldl
        (fun node e => Node.addTest mode (some node) e.1 e.2.display)
        (Node.addTest mode old e.1 e.2.display) := by
  rw [addClauses, List.map_cons, List.foldl_cons, List.foldl_map]
  exact foldl_update key (fun old e => Node.addTest mode old e.1 e.2.display) es _ t

end Tree

/-! ## The tests of one field -/

namespace Constraint

/-- What a constraint is after an operator was asked. -/
def ask (mode : MatchMode) (c : Constraint) (e : Operator × Operand) : Constraint :=
  ⟨c.tests.put e.1 e.2, c.ignoreCase || (e.1.matchesText && mode == .ignoreCase)⟩

theorem foldl_ask (mode : MatchMode) (es : List (Operator × Operand)) (c : Constraint) :
    (es.foldl (ask mode) c).tests.entries = Entries.putAll c.tests.entries es ∧
      (es.foldl (ask mode) c).ignoreCase =
        (c.ignoreCase || es.any fun e => e.1.matchesText && mode == .ignoreCase) := by
  induction es generalizing c with
  | nil => exact ⟨rfl, (Bool.or_false _).symm⟩
  | cons e es ih =>
    obtain ⟨htests, hcase⟩ := ih (c.ask mode e)
    refine ⟨htests, ?_⟩
    rw [List.foldl_cons, hcase, List.any_cons, ask, Bool.or_assoc]

variable {mode : MatchMode}

theorem Compiled.foldl_ask {c : Constraint} (h : c.Compiled mode) :
    c.tests.entries.foldl (ask mode) empty = c := by
  obtain ⟨htests, hcase⟩ := Constraint.foldl_ask mode c.tests.entries empty
  have hflag : (c.tests.entries.foldl (ask mode) empty).ignoreCase = c.ignoreCase := by
    rw [hcase, h.ignoreCase, OrderedMap.keys, Entries.keys, List.any_map]
    cases mode == .ignoreCase
    · simp [empty]
    · simp [empty, Function.comp_def]
  have hentries : (c.tests.entries.foldl (ask mode) empty).tests = c.tests :=
    OrderedMap.ext (htests.trans (Entries.collect_eq_self c.tests.nodup))
  generalize c.tests.entries.foldl (ask mode) empty = d at *
  cases d
  cases c
  simp only at hflag hentries
  rw [hflag, hentries]

end Constraint

section
variable {mode : MatchMode}

namespace Node

theorem addTest_display {old : Option Node} {op : Operator} {operand : Operand}
    (h : operand.Compiled op) :
    addTest mode old op operand.display = .tests ((constraint old).ask mode (op, operand)) := by
  unfold addTest
  cases operand with
  | one v =>
    obtain ⟨hop, hv⟩ := h
    rw [Scalar.display_one, hop, Scalar.firstOfText_display hv]
    rfl
  | many vs =>
    obtain ⟨hop, hne, hvs⟩ := h
    rw [hop, Scalar.listOfText_display hne hvs]
    rfl

theorem foldl_addTest (mode : MatchMode) {es : List (Operator × Operand)}
    (h : ∀ e ∈ es, e.2.Compiled e.1) (c : Constraint) :
    es.foldl (fun node e => addTest mode (some node) e.1 e.2.display) (.tests c) =
      .tests (es.foldl (Constraint.ask mode) c) := by
  induction es generalizing c with
  | nil => rfl
  | cons e es ih =>
    rw [List.forall_mem_cons] at h
    rw [List.foldl_cons, addTest_display h.1, ih h.2]
    rfl

theorem addValue_display {v : Scalar} (h : v.Listed) : addValue none v.display = .value v := by
  unfold addValue
  rw [Scalar.listOfText_display_one h]

end Node

/-! ## The whole filter -/

mutual

theorem Node.clauses_ne_nil (key : String) : (node : Node) → node.Compiled mode key →
    node.clauses key ≠ []
  | .value _, _ => List.cons_ne_nil _ _
  | .tests _, h => fun hnil => h.nonempty (List.map_eq_nil_iff.mp hnil)
  | .relation t, h => fun hnil => t.clauses_ne_nil h.1 h.2 (List.map_eq_nil_iff.mp hnil)
  | .group _, h => h.elim

theorem Tree.clauses_ne_nil : (t : Tree) → t.entries ≠ [] → t.Compiled mode → t.clauses ≠ []
  | ⟨es⟩, hne, h => entryClauses_ne_nil es hne h.2

theorem entryClauses_ne_nil : (es : List (String × Node)) → es ≠ [] → entriesCompiled mode es →
    entryClauses es ≠ []
  | [], hne, _ => absurd rfl hne
  | (key, node) :: _, _, h => List.append_ne_nil_of_left_ne_nil (node.clauses_ne_nil key h.2.1) _

end

mutual

/-- The clauses of a node append it. -/
theorem Node.addClauses_clauses (key : String) (done : List (String × Node))
    (hkey : key ∉ Entries.keys done) : (node : Node) → node.Compiled mode key →
    (Tree.mk done).addClauses mode (node.clauses key) = ⟨done ++ [(key, node)]⟩
  | .value v, h => by
    have happend := Tree.update_eq_append (fun old => Node.addValue old v.display) hkey
    rw [Node.addValue_display h.2] at happend
    exact happend
  | .tests c, h => by
    obtain ⟨e, es, hentries⟩ := List.exists_cons_of_ne_nil h.nonempty
    have hfold := Node.foldl_addTest mode h.operands .empty
    rw [h.foldl_ask, hentries] at hfold
    rw [Node.clauses, hentries, Tree.addClauses_tests, Tree.update_eq_append _ hkey, ← hfold]
    rfl
  | .relation t, h => by
    obtain ⟨c, cs, hclauses⟩ := List.exists_cons_of_ne_nil (t.clauses_ne_nil h.1 h.2)
    rw [Node.clauses, hclauses, Tree.addClauses_under, ← hclauses, Tree.update_eq_append _ hkey]
    rw [show Tree.ofRelation none = .empty from rfl, t.addClauses_clauses h.2]
  | .group _, h => h.elim

theorem Tree.addClauses_clauses : (t : Tree) → t.Compiled mode →
    Tree.empty.addClauses mode t.clauses = t
  | ⟨es⟩, h => entries_addClauses_clauses [] es h.1 h.2

theorem entries_addClauses_clauses (done : List (String × Node)) : (es : List (String × Node)) →
    (Entries.keys (done ++ es)).Nodup → entriesCompiled mode es →
    (Tree.mk done).addClauses mode (entryClauses es) = ⟨done ++ es⟩
  | [], _, _ => by
    rw [List.append_nil]
    rfl
  | (key, node) :: es, hnodup, h => by
    have hkey : key ∉ Entries.keys done := by
      intro hmem
      rw [Entries.keys_append, Entries.keys_cons, List.nodup_append] at hnodup
      exact hnodup.2.2 key hmem key (List.mem_cons_self ..) rfl
    rw [entryClauses, Tree.addClauses_append, node.addClauses_clauses key done hkey h.2.1]
    rw [entries_addClauses_clauses (done ++ [(key, node)]) es (by simpa using hnodup) h.2.2]
    rw [List.append_assoc]
    rfl

end

end

/-! ## Parameters -/

/-- A filter is read back from its parameters if all of them are read as its clauses. -/
theorem Tree.ofParams_toPairs {o : Options} {t : Tree} (h : t.Compiled o.matchMode)
    (hclauses : ∀ c ∈ t.clauses, c.WellFormed ∧ ¬ o.isReserved c.key) :
    ofParams o ⟨t.toPairs ""⟩ = t := by
  have hread : ∀ (cs : List Clause) (s : Tree), (∀ c ∈ cs, c.WellFormed ∧ ¬ o.isReserved c.key) →
      (cs.map fun c => ("" ++ c.key, c.value)).foldl (fun t pair =>
        if o.isReserved pair.1 then t else t.addClause o.matchMode (.ofPair pair.1 pair.2)) s =
      s.addClauses o.matchMode cs := by
    intro cs
    induction cs with
    | nil => intro s _; rfl
    | cons c cs ih =>
      intro s hcs
      rw [List.forall_mem_cons] at hcs
      rw [List.map_cons, List.foldl_cons, String.empty_append, if_neg hcs.1.2,
        Clause.ofPair_key hcs.1.1, ih _ hcs.2]
      rfl
  rw [ofParams, t.toPairs_eq "", hread t.clauses empty hclauses, t.addClauses_clauses h]

theorem Params.toFilter_eq_ofParams {o : Options} (hfields : o.searchFields = []) (p : Params) :
    p.toFilter o = .ofParams o p := by
  unfold toFilter Tree.search searchGroup?
  simp [hfields]

namespace Clause

theorem field_ofPair {key value : String} (h : (ofPair key value).operator = none) :
    (ofPair key value).field = (Path.split key).2 := by
  cases hsplit : Operator.splitKey? (Path.split key).2 with
  | none => rw [ofPair_eq_of_splitKey?_eq_none value hsplit]
  | some found =>
    rw [ofPair_eq_of_splitKey? value hsplit] at h
    cases h

/-- No key of a membership is reserved if no key of the options ends like one. -/
theorem not_isReserved_of_isIn {o : Options}
    (hsearch : ¬ "_in".toList <:+ o.searchKey.toList)
    (horder : ¬ "_in".toList <:+ o.orderKey.toList) {c : Clause}
    (h : c.operator = some .isIn) : ¬ o.isReserved c.key := by
  have hsuffix : "_in".toList <:+ c.key.toList := by
    refine ⟨(Path.stem c.relations ++ c.field).toList, ?_⟩
    simp [key, lastSegment, h, Operator.suffixed, Operator.token]
  have hne : ∀ s : String, ¬ "_in".toList <:+ s.toList → c.key ≠ s := fun s hs heq =>
    hs (heq ▸ hsuffix)
  have hwindow : ∀ s ∈ Window.keys, c.key ≠ s := by
    intro s hs
    refine hne s ?_
    revert s
    decide
  simp only [Options.isReserved, Options.isSearchKey, Bool.or_eq_true, Bool.and_eq_true, beq_iff_eq,
    List.contains_iff_mem]
  rintro ((hwin | hord) | hsea | ⟨-, hshort⟩)
  · exact hwindow _ hwin rfl
  · exact hne _ horder hord
  · exact hne _ hsearch hsea
  · exact hne _ (by decide) hshort

theorem ComesFrom.wellFormed {c d : Clause} (h : c.ComesFrom d) (hd : d.WellFormed)
    (hfield : d.operator = none → d.field ≠ "") : c.WellFormed where
  relations := h.relations ▸ hd.relations
  field := h.field ▸ hd.field
  plain hc := by
    rcases h.operator with ho | ⟨_, ho⟩
    · exact h.field ▸ hd.plain (ho ▸ hc)
    · rw [ho] at hc
      cases hc
  suffixed _ := by
    rw [h.field]
    cases hop : d.operator with
    | none => exact hfield hop
    | some op => exact hd.suffixed (by simp [hop])

theorem ComesFrom.key_eq {c d : Clause} (h : c.ComesFrom d) (ho : c.operator = d.operator) :
    c.key = d.key := by
  rw [key, key, lastSegment, lastSegment, h.relations, h.field, ho]

end Clause

namespace Params

/-- The parameters of a filter that was read from parameters are read as the same filter, in the
same order of keys and operators. -/
theorem toFilter_toParams_toFilter (o : Options) (p : Params) (hfields : o.searchFields = [])
    (hsearch : ¬ "_in".toList <:+ o.searchKey.toList)
    (horder : ¬ "_in".toList <:+ o.orderKey.toList)
    (hlast : ∀ pair ∈ p.pairs, ¬ o.isReserved pair.1 → (Path.split pair.1).2 ≠ "") :
    (Query.toParams o ⟨p.toFilter o, none, .none⟩).toFilter o = p.toFilter o := by
  rw [toFilter_eq_ofParams hfields, toFilter_eq_ofParams hfields]
  have hparams : Query.toParams o ⟨.ofParams o p, none, .none⟩ =
      ⟨(Tree.ofParams o p).toPairs ""⟩ := by
    simp [Query.toParams, Window.page?, Window.none]
  rw [hparams]
  refine Tree.ofParams_toPairs (Tree.compiled_ofParams o p) fun c hc => ?_
  obtain ⟨pair, hpair, hreserved, hfrom⟩ := Tree.exists_comesFrom_ofParams o p c hc
  refine ⟨hfrom.wellFormed (Clause.wellFormed_ofPair pair.1 pair.2) fun hplain => ?_, ?_⟩
  · rw [Clause.field_ofPair hplain]
    exact hlast pair hpair hreserved
  · rcases hfrom.operator with hsame | ⟨_, hmember⟩
    · rw [hfrom.key_eq hsame, Clause.key_ofPair]
      exact hreserved
    · exact Clause.not_isReserved_of_isIn hsearch horder hmember

/-- A field that is asked three times, a related one with a fraction and an operator, and a page. -/
theorem toFilter_toParams_toFilter_tags :
    let o := Options.standard
    let p : Params := ⟨[("tag", "a"), ("owner.age_gte", "2.50"), ("tag", "b,7"), ("page", "2"),
      ("tag_contains", "x")]⟩
    o.searchFields = [] ∧ ¬ "_in".toList <:+ o.searchKey.toList ∧
      ¬ "_in".toList <:+ o.orderKey.toList ∧
      (∀ pair ∈ p.pairs, ¬ o.isReserved pair.1 → (Path.split pair.1).2 ≠ "") ∧
      (Query.toParams o ⟨p.toFilter o, none, .none⟩).toFilter o = p.toFilter o := by
  intro o p
  have hfields : o.searchFields = [] := rfl
  have hsearch : ¬ "_in".toList <:+ o.searchKey.toList := by decide
  have horder : ¬ "_in".toList <:+ o.orderKey.toList := by decide
  have hlast : ∀ pair ∈ p.pairs, ¬ o.isReserved pair.1 → (Path.split pair.1).2 ≠ "" := by decide
  exact ⟨hfields, hsearch, horder, hlast,
    toFilter_toParams_toFilter o p hfields hsearch horder hlast⟩

end Params

end QueryFilter
