import QueryFilter.Proofs.Commuting

/-!
# What one parameter leaves untouched

A clause changes its own path. The nodes at all other paths stay what they are
(`Tree.node?_addClause`), also over any number of clauses (`Tree.node?_addClauses`). Each level on
the way to its field changes one entry, in place or at the end (`Tree.level?_addClause`), and so no
level that survives loses a key or moves one (`Tree.keys_of_level?_addClause`).
-/

namespace QueryFilter

/-- Whether neither of two paths leads through the other. -/
def Clause.LiesApart (c : Clause) (path : List String) : Prop :=
  ¬ path <+: c.path ∧ ¬ c.path <+: path

instance (c : Clause) (path : List String) : Decidable (c.LiesApart path) :=
  inferInstanceAs (Decidable (_ ∧ _))

namespace Tree

/-! ## Levels -/

theorem level?_cons_eq_some_iff {relation : String} {relations : List String} {t level : Tree} :
    t.level? (relation :: relations) = some level ↔
      ∃ inner, t.get? relation = some (.relation inner) ∧ inner.level? relations = some level := by
  rw [level?]
  cases t.get? relation with
  | none => simp
  | some node => cases node <;> simp

/-- Nothing stands below a node that is no relation. -/
theorem node?_cons (relation : String) (relations : List String) (key : String) (t : Tree) :
    t.node? (relation :: relations) key = (ofRelation (t.get? relation)).node? relations key := by
  have hempty : empty.node? relations key = none := by
    cases relations <;> rfl
  rw [node?, level?]
  cases t.get? relation with
  | none => exact hempty.symm
  | some node =>
    cases node with
    | relation inner => rfl
    | value v => exact hempty.symm
    | tests c => exact hempty.symm
    | group ts => exact hempty.symm

variable (mode : MatchMode)

theorem get?_addClause (t : Tree) (c : Clause) (key : String) :
    (t.addClause mode c).get? key =
      if key = c.head then some (Node.addClause mode (t.get? key) c) else t.get? key := by
  rw [addClause_eq_update, get?_update]
  split
  · next hkey => rw [hkey]
  · rfl

/-! ## Other paths -/

/-- A clause leaves the node at each path that is apart from its own. -/
theorem node?_addClause {relations : List String} {key : String} {c : Clause}
    (h : c.LiesApart (relations ++ [key])) (t : Tree) :
    (t.addClause mode c).node? relations key = t.node? relations key := by
  -- down to the level on which the paths part: there they name different keys
  induction relations generalizing t c with
  | nil =>
    have hkey : key ≠ c.head := by
      rintro rfl
      exact h.1 c.head_prefix_path
    exact (get?_addClause mode t c key).trans (if_neg hkey)
  | cons relation relations ih =>
    rw [node?_cons, node?_cons, get?_addClause]
    by_cases hhead : relation = c.head
    · rw [if_pos hhead]
      obtain ⟨above, field, operator, value⟩ := c
      cases above with
      | nil =>
        have hfield : relation = field := hhead
        exact absurd ⟨relations ++ [key], by rw [hfield]; rfl⟩ h.2
      | cons r above =>
        obtain rfl : relation = r := hhead
        refine ih (c := ⟨above, field, operator, value⟩) ?_ (ofRelation (t.get? relation))
        simpa [Clause.LiesApart, Clause.path, List.cons_prefix_cons] using h
    · rw [if_neg hhead]

theorem node?_addClauses {relations : List String} {key : String} {cs : List Clause}
    (h : ∀ c ∈ cs, c.LiesApart (relations ++ [key])) (t : Tree) :
    (t.addClauses mode cs).node? relations key = t.node? relations key := by
  induction cs generalizing t with
  | nil => rfl
  | cons c cs ih =>
    rw [List.forall_mem_cons] at h
    exact (ih h.2 (t.addClause mode c)).trans (node?_addClause mode h.1 t)

/-! ## Levels on the way -/

/-- A clause below some relations is a change of the level that they name. -/
theorem addClause_append (relations above : List String) (field value : String)
    (operator : Option Operator) (t : Tree) :
    t.addClause mode ⟨relations ++ above, field, operator, value⟩ =
      within relations (·.addClause mode ⟨above, field, operator, value⟩) t := by
  induction relations generalizing t with
  | nil => rfl
  | cons relation relations ih =>
    rw [addClause_eq_update, within]
    exact congrArg (t.update relation) (funext fun old => congrArg Node.relation (ih _))

/-- Above its field a clause changes one entry of each level, that of the next segment of its path;
a level that is missing counts as empty. -/
theorem level?_addClause {relations : List String} {next : String} {c : Clause}
    (h : relations ++ [next] <+: c.path) (t : Tree) :
    ∃ f, (t.addClause mode c).level? relations =
      some (((t.level? relations).getD empty).update next f) := by
  obtain ⟨above, field, operator, value⟩ := c
  obtain ⟨rest, rfl, rfl⟩ : ∃ rest, above = relations ++ rest ∧ rest.headD field = next := by
    rcases List.prefix_concat_iff.mp h with heq | ⟨rest, rfl⟩
    · obtain ⟨hrelations, hnext⟩ := List.append_inj' heq rfl
      exact ⟨[], by simp [hrelations], (List.singleton_inj.mp hnext).symm⟩
    · exact ⟨next :: rest, List.append_assoc .., rfl⟩
  rw [addClause_append, level?_within, addClause_eq_update]
  exact ⟨_, rfl⟩

/-- A level that is there before and after a clause keeps its keys in place, and has at most one
more at the end. -/
theorem keys_of_level?_addClause {relations : List String} {c : Clause} {t level level' : Tree}
    (h : t.level? relations = some level)
    (h' : (t.addClause mode c).level? relations = some level') :
    level'.keys = level.keys ∨ ∃ key, key ∉ level.keys ∧ level'.keys = level.keys ++ [key] := by
  induction relations generalizing t c with
  | nil =>
    cases h
    cases h'
    rw [addClause_eq_update, keys_update]
    split
    · exact Or.inl rfl
    · next hnew => exact Or.inr ⟨c.head, hnew, rfl⟩
  | cons relation relations ih =>
    obtain ⟨inner, hinner, hlevel⟩ := level?_cons_eq_some_iff.mp h
    obtain ⟨inner', hinner', hlevel'⟩ := level?_cons_eq_some_iff.mp h'
    rw [get?_addClause, hinner] at hinner'
    split at hinner'
    · obtain ⟨above, field, operator, value⟩ := c
      cases above with
      | nil =>
        -- a field is no relation, whatever it was
        rcases Node.addEvent_eq mode (some (.relation inner)) ⟨operator, value⟩ with
          ⟨v, heq⟩ | ⟨tests, heq⟩
        · cases (Option.some.inj hinner').symm.trans heq
        · cases (Option.some.inj hinner').symm.trans heq
      | cons r above =>
        obtain rfl : inner.addClause mode ⟨above, field, operator, value⟩ = inner' :=
          Node.relation.inj (Option.some.inj hinner')
        exact ih hlevel hlevel'
    · cases hinner'
      rw [hlevel] at hlevel'
      exact Or.inl (congrArg keys (Option.some.inj hlevel').symm)

/-! ## Parameters -/

theorem ofParams_push {o : Options} {key : String} (h : ¬ o.isReserved key) (p : Params)
    (value : String) : ofParams o (p.push key value) =
      (ofParams o p).addClause o.matchMode (.ofPair key value) := by
  rw [ofParams_eq_addClauses, Params.clauses_push h, addClauses_append, ← ofParams_eq_addClauses]
  rfl

/-- Parameters about other paths leave the node of a field as those before them made it. -/
theorem node?_ofParams_append {o : Options} {more : List (String × String)}
    {relations : List String} {field : String}
    (h : ∀ c ∈ Params.clauses o ⟨more⟩, c.LiesApart (relations ++ [field]))
    (pairs : List (String × String)) :
    (ofParams o ⟨pairs ++ more⟩).node? relations field =
      (ofParams o ⟨pairs⟩).node? relations field := by
  rw [ofParams_append]
  exact node?_addClauses _ h _

/-- Whatever stands in the filter already, one more parameter leaves the nodes at all paths apart
from its own; each level that is there before and after keeps its keys in place, with at most one
more at the end; and each level above its field stays and keeps all entries but that of the next
segment of its path. -/
theorem ofParams_push_untouched (o : Options) (p : Params) (key value : String)
    (hkey : ¬ o.isReserved key) :
    (∀ relations field, (Clause.ofPair key value).LiesApart (relations ++ [field]) →
      (ofParams o (p.push key value)).node? relations field =
        (ofParams o p).node? relations field) ∧
    (∀ relations level level', (ofParams o p).level? relations = some level →
      (ofParams o (p.push key value)).level? relations = some level' →
      level'.keys = level.keys ∨
        ∃ new, new ∉ level.keys ∧ level'.keys = level.keys ++ [new]) ∧
    ∀ relations next, relations ++ [next] <+: (Clause.ofPair key value).path →
      ∀ level, (ofParams o p).level? relations = some level →
        ∃ level', (ofParams o (p.push key value)).level? relations = some level' ∧
          level'.entries.filter (·.1 ≠ next) = level.entries.filter (·.1 ≠ next) := by
  have hclauses : Params.clauses o ⟨[(key, value)]⟩ = [.ofPair key value] :=
    Params.clauses_push (p := .empty) hkey
  refine ⟨fun relations field h => node?_ofParams_append ?_ p.pairs, ?_⟩
  · rwa [hclauses, List.forall_mem_singleton]
  rw [ofParams_push hkey]
  refine ⟨fun relations level level' h h' => keys_of_level?_addClause _ h h', ?_⟩
  intro relations next h level hlevel
  obtain ⟨f, hf⟩ := level?_addClause o.matchMode h (ofParams o p)
  rw [hlevel, Option.getD_some] at hf
  exact ⟨level.update next f, hf, Entries.filter_update next f level.entries⟩

/-- A field of a related record that becomes a relation in its place, between other fields. -/
theorem ofParams_push_untouched_owner :
    let p : Params :=
      ⟨[("owner.name", "x"), ("owner.age", "30"), ("owner.age_lt", "9"), ("owner.site", "y")]⟩
    let t := ofParams .standard (p.push "owner.age.years_gte" "18")
    ¬ Options.standard.isReserved "owner.age.years_gte" ∧
      t.node? ["owner"] "site" = (ofParams .standard p).node? ["owner"] "site" ∧
      ∃ level, t.level? ["owner"] = some level ∧
        level.entries.filter (·.1 ≠ "age") =
          [("name", .value (.text "x")), ("site", .value (.text "y"))] := by
  intro p t
  have hkey : ¬ Options.standard.isReserved "owner.age.years_gte" := by decide
  obtain ⟨hnodes, -, hentries⟩ :=
    ofParams_push_untouched .standard p "owner.age.years_gte" "18" hkey
  exact ⟨hkey, hnodes ["owner"] "site" (by decide +kernel),
    hentries ["owner"] "age" (by decide +kernel) _ rfl⟩

end Tree

end QueryFilter
