import QueryFilter.Proofs.Commuting

/-!
# Repeated keys

A plain key may be repeated, once for each of its values, or written once with the values between
commas. Both add the same allowed values to a node, whatever stands there already
(`Node.foldl_addValue`), so parameters before and after make no difference
(`Params.toFilter_join`). A list in a record is the key repeated.
-/

namespace QueryFilter

/-! ## Values between commas -/

theorem Scalar.listOfText_join {vs : List String} (h : vs ≠ []) :
    listOfText (Text.join ',' vs) = vs.flatMap listOfText := by
  induction vs with
  | nil => exact absurd rfl h
  | cons v vs ih =>
    by_cases hvs : vs = []
    · subst hvs
      simp [Text.join]
    · rw [List.flatMap_cons, ← ih hvs]
      simp only [listOfText, Text.pieces, Text.toList_join_cons hvs,
        List.splitOn_append_cons_self, List.map_append]

/-! ## One node -/

theorem Constraint.addMembers_addMembers (c : Constraint) (vs ws : List Scalar) :
    (c.addMembers vs).addMembers ws = c.addMembers (vs ++ ws) := by
  have htests : (c.addMembers vs).tests.update .isIn (fun old =>
      .many (old.elim [] Operand.values ++ ws)) = (c.addMembers (vs ++ ws)).tests := by
    apply OrderedMap.ext
    refine (Entries.update_update ..).trans ?_
    simp only [Option.elim_some, Operand.values, List.append_assoc]
    rfl
  simp only [addMembers] at htests ⊢
  rw [htests]

namespace Node

theorem addValue_addValue (old : Option Node) {v w s : String}
    (hs : Scalar.listOfText s = Scalar.listOfText v ++ Scalar.listOfText w) :
    addValue (some (addValue old v)) w = addValue old s := by
  have htwo : addValue (some (addValue old v)) w =
      .tests ((constraint old).addMembers (Scalar.listOfText s)) := by
    refine (addEvent_addEvent .exact old ⟨none, v⟩ ⟨none, w⟩).trans ?_
    rw [hs, ← Constraint.addMembers_addMembers]
    rfl
  rcases addValue_eq old s with ⟨u, hu, -⟩ | heq
  · -- a text of two lists is no single value
    have hv := List.length_pos_iff.mpr (Scalar.listOfText_ne_nil v)
    have hw := List.length_pos_iff.mpr (Scalar.listOfText_ne_nil w)
    have hlength := congrArg List.length (hu.symm.trans hs)
    rw [List.length_singleton, List.length_append] at hlength
    omega
  · rw [htwo, heq]

/-- Values one after the other are the values between commas, whatever they are added to. -/
theorem foldl_addValue (old : Option Node) (v : String) (vs : List String) :
    vs.foldl (fun node w => addValue (some node) w) (addValue old v) =
      addValue old (Text.join ',' (v :: vs)) := by
  induction vs using List.reverseRecOn with
  | nil => simp [Text.join]
  | append_singleton vs w ih =>
    rw [List.foldl_append, List.foldl_cons, List.foldl_nil, ih]
    apply addValue_addValue
    rw [Scalar.listOfText_join (List.cons_ne_nil v _), Scalar.listOfText_join (List.cons_ne_nil v _),
      ← List.cons_append, List.flatMap_append, List.flatMap_singleton]

end Node

/-! ## All parameters -/

theorem Tree.addClauses_join (mode : MatchMode) (t : Tree) (relations : List String)
    (field : String) {vs : List String} (h : vs ≠ []) :
    t.addClauses mode (vs.map fun v => ⟨relations, field, none, v⟩) =
      t.addClause mode ⟨relations, field, none, Text.join ',' vs⟩ := by
  obtain ⟨v, vs, rfl⟩ := List.exists_cons_of_ne_nil h
  induction relations generalizing t with
  | nil =>
    rw [addClauses, List.map_cons, List.foldl_cons, List.foldl_map]
    refine (foldl_update field (fun old v => Node.addValue old v) vs _ t).trans ?_
    simp only [Node.foldl_addValue]
    rfl
  | cons relation relations ih =>
    -- below the first relation the clauses are those without it
    have hunder : ((v :: vs).map fun v => Clause.mk (relation :: relations) field none v) =
        (⟨relations, field, none, v⟩ :: vs.map fun v => ⟨relations, field, none, v⟩).map
          (.under relation) := by
      rw [List.map_cons, List.map_cons, List.map_map]
      rfl
    have hlevel (level : Tree) : level.addClauses mode
        (⟨relations, field, none, v⟩ :: vs.map fun v => ⟨relations, field, none, v⟩) =
          level.addClause mode ⟨relations, field, none, Text.join ',' (v :: vs)⟩ := ih level
    rw [hunder, addClauses_under]
    simp only [hlevel]
    rfl

theorem Tree.ofParams_join (o : Options) (before after : List (String × String)) {key : String}
    (hkey : ¬ o.isReserved key) (hplain : Operator.splitKey? (Path.split key).2 = none)
    {vs : List String} (hvs : vs ≠ []) :
    ofParams o ⟨before ++ [(key, Text.join ',' vs)] ++ after⟩ =
      ofParams o ⟨before ++ vs.map (key, ·) ++ after⟩ := by
  have hone : Params.clauses o ⟨[(key, Text.join ',' vs)]⟩ =
      [⟨(Path.split key).1, (Path.split key).2, none, Text.join ',' vs⟩] := by
    simp [Params.clauses, hkey, Clause.ofPair_eq_of_splitKey?_eq_none _ hplain]
  have hmany : Params.clauses o ⟨vs.map (key, ·)⟩ =
      vs.map fun v => ⟨(Path.split key).1, (Path.split key).2, none, v⟩ := by
    simp [Params.clauses, hkey, List.filter_map, Function.comp_def,
      Clause.ofPair_eq_of_splitKey?_eq_none _ hplain]
  rw [ofParams_append, ofParams_append, ofParams_append _ after, ofParams_append, hone, hmany]
  rw [addClauses_join _ _ _ _ hvs]
  rfl

/-! ## Searches, orders and windows -/

theorem find?_reverse_between {α : Type} {q : α → Bool} {more : List α}
    (h : ∀ a ∈ more, ¬ q a) (before after : List α) :
    (before ++ more ++ after).reverse.find? q = (before ++ after).reverse.find? q := by
  have hmore : more.reverse.find? q = none := by simpa using h
  simp only [List.reverse_append, List.find?_append, hmore, Option.none_or]

namespace Params

variable {o : Options} {more : List (String × String)}

theorem last?_between (hmore : ∀ pair ∈ more, ¬ o.isReserved pair.1)
    (before after : List (String × String)) {key : String} (hkey : o.isReserved key) :
    last? ⟨before ++ more ++ after⟩ key = last? ⟨before ++ after⟩ key := by
  refine congrArg (Option.map Prod.snd) (find?_reverse_between ?_ before after)
  intro pair hpair heq
  rw [beq_iff_eq] at heq
  exact hmore pair hpair (heq ▸ hkey)

theorem searchTerm?_between (hmore : ∀ pair ∈ more, ¬ o.isReserved pair.1)
    (before after : List (String × String)) :
    searchTerm? o ⟨before ++ more ++ after⟩ = searchTerm? o ⟨before ++ after⟩ := by
  refine congrArg (Option.map Prod.snd) (find?_reverse_between ?_ before after)
  intro pair hpair hsearch
  exact hmore pair hpair (isReserved_of_isSearchKey hsearch)

end Params

/-- Between the same parameters, filters that build the same tree ask for the same query. -/
theorem Query.ofParams_between {o : Options} {before more more' after : List (String × String)}
    (hmore : ∀ pair ∈ more, ¬ o.isReserved pair.1) (hmore' : ∀ pair ∈ more', ¬ o.isReserved pair.1)
    (htree : Tree.ofParams o ⟨before ++ more ++ after⟩ =
      Tree.ofParams o ⟨before ++ more' ++ after⟩) :
    ofParams o ⟨before ++ more ++ after⟩ = ofParams o ⟨before ++ more' ++ after⟩ := by
  have hlast : ∀ key, o.isReserved key → Params.last? ⟨before ++ more ++ after⟩ key =
      Params.last? ⟨before ++ more' ++ after⟩ key := by
    intro key hkey
    rw [Params.last?_between hmore before after hkey, Params.last?_between hmore' before after hkey]
  have hfilter : Params.toFilter o ⟨before ++ more ++ after⟩ =
      Params.toFilter o ⟨before ++ more' ++ after⟩ := by
    rw [Params.toFilter, Params.toFilter, htree, Params.searchTerm?_between hmore,
      Params.searchTerm?_between hmore']
  have hwindow : Window.ofParams ⟨before ++ more ++ after⟩ o.pageSize =
      Window.ofParams ⟨before ++ more' ++ after⟩ o.pageSize := by
    apply Window.ofParams_congr
    intro key hkey
    apply hlast
    simp [Options.isReserved, hkey]
  have horder : SortOrder.ofParams? ⟨before ++ more ++ after⟩ o.orderKey =
      SortOrder.ofParams? ⟨before ++ more' ++ after⟩ o.orderKey := by
    rw [SortOrder.ofParams?, SortOrder.ofParams?, hlast o.orderKey (by simp [Options.isReserved])]
  rw [ofParams, ofParams, hfilter, hwindow, horder]

theorem Input.toParams_record_append (fields more : List (String × Option FieldValue)) :
    (record (fields ++ more)).toParams.pairs =
      (record fields).toParams.pairs ++ (record more).toParams.pairs :=
  List.filterMap_append

/-- A plain key that is repeated for each value asks what it asks with the values between commas,
wherever it stands. So does a list in a record. -/
theorem Params.toFilter_join (o : Options) {key : String} (hkey : ¬ o.isReserved key)
    (hplain : Operator.splitKey? (Path.split key).2 = none) {vs : List String} (hvs : vs ≠ []) :
    (∀ before after, toFilter o ⟨before ++ [(key, Text.join ',' vs)] ++ after⟩ =
      toFilter o ⟨before ++ vs.map (key, ·) ++ after⟩) ∧
    ∀ fields more, Query.ofInput o (.record (fields ++ [(key, some (.many vs))] ++ more)) =
      Query.ofParams o ⟨(Input.record fields).toParams.pairs ++ vs.map (key, ·) ++
        (Input.record more).toParams.pairs⟩ := by
  have hquery (before after : List (String × String)) :
      Query.ofParams o ⟨before ++ [(key, Text.join ',' vs)] ++ after⟩ =
        Query.ofParams o ⟨before ++ vs.map (key, ·) ++ after⟩ := by
    apply Query.ofParams_between
    · simpa using hkey
    · simpa using fun _ _ => hkey
    · exact Tree.ofParams_join o before after hkey hplain hvs
  constructor
  · intro before after
    exact congrArg Query.filter (hquery before after)
  · intro fields more
    rw [← hquery]
    show Query.ofParams o ⟨(Input.record _).toParams.pairs⟩ = _
    rw [Input.toParams_record_append, Input.toParams_record_append]
    rfl

/-- Values with commas and without text, in a record where the key was asked for in other ways. -/
theorem Params.toFilter_join_tags :
    let vs := ["a,b", "", "3"]
    let before := [("search", "ann"), ("owner.tags.x", "1"), ("owner.tags_in", "z")]
    let fields := [("owner", none), ("owner.tags_not", some (.one "z"))]
    (¬ Options.standard.isReserved "owner.tags" ∧
      Operator.splitKey? (Path.split "owner.tags").2 = none ∧ vs ≠ []) ∧
    toFilter .standard ⟨before ++ [("owner.tags", "a,b,,3")] ++ [("age", "7")]⟩ =
      toFilter .standard ⟨before ++
        [("owner.tags", "a,b"), ("owner.tags", ""), ("owner.tags", "3")] ++ [("age", "7")]⟩ ∧
    Query.ofInput .standard (.record (fields ++ [("owner.tags", some (.many vs))] ++ [])) =
      Query.ofParams .standard ⟨[("owner.tags_not", "z")] ++
        [("owner.tags", "a,b"), ("owner.tags", ""), ("owner.tags", "3")] ++ []⟩ := by
  intro vs before fields
  have hkey : ¬ Options.standard.isReserved "owner.tags" := by decide +kernel
  have hplain : Operator.splitKey? (Path.split "owner.tags").2 = none := by decide +kernel
  have hvs : vs ≠ [] := List.cons_ne_nil _ _
  have hjoin : Text.join ',' vs = "a,b,,3" := by decide +kernel
  obtain ⟨hfilter, hrecord⟩ := Params.toFilter_join .standard hkey hplain hvs
  refine ⟨⟨hkey, hplain, hvs⟩, ?_, hrecord fields []⟩
  rw [← hjoin]
  exact hfilter before [("age", "7")]

end QueryFilter
