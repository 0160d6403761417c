import QueryFilter.Proofs.Events

/-!
# Filters as a function of all their parameters

A filter read from parameters is known level by level. Clauses with different first segments do not
touch each other, so at each key the filter is what the clauses of that key alone would build
(`Tree.get?_addClauses`): the closed form of the events about a field, or the filter of the clauses
inside a relation. A key cannot be both as long as no path leads through the end of another.
-/

namespace QueryFilter

namespace Clause

/-- The first segment of the path. -/
def head (c : Clause) : String := c.relations.headD c.field

def path (c : Clause) : List String := c.relations ++ [c.field]

def event (c : Clause) : Event := ⟨c.operator, c.value⟩

/-- What a clause asks inside a level; nothing if its path does not lead there. -/
def inside? (relations : List String) (c : Clause) : Option Clause :=
  if relations <+: c.relations then some { c with relations := c.relations.drop relations.length }
  else none

/-- The events about one path, in order. -/
def eventsAt (path : List String) (cs : List Clause) : List Event :=
  (cs.filter (·.path = path)).map event

/-- No path is a proper beginning of another one. -/
def PathsApart (cs : List Clause) : Prop :=
  ∀ c ∈ cs, ∀ d ∈ cs, c.path <+: d.path → c.path = d.path

instance (cs : List Clause) : Decidable (PathsApart cs) :=
  inferInstanceAs (Decidable (∀ c ∈ cs, ∀ d ∈ cs, _))

end Clause

/-- The clauses of the parameters that are not reserved. -/
def Params.clauses (o : Options) (p : Params) : List Clause :=
  (p.pairs.filter fun pair => !o.isReserved pair.1).map fun pair => .ofPair pair.1 pair.2

theorem Params.clauses_push {o : Options} {p : Params} {key value : String}
    (hkey : ¬ o.isReserved key) :
    (p.push key value).clauses o = p.clauses o ++ [.ofPair key value] := by
  simp [clauses, push, hkey]

/-- What stands under a key of the level that a path of relations names. -/
def Tree.node? (relations : List String) (key : String) (t : Tree) : Option Node :=
  (t.level? relations).bind (·.get? key)

/-! ## One level -/

def Node.addClause (mode : MatchMode) (old : Option Node) (c : Clause) : Node :=
  match c.relations with
  | [] => addEvent mode old c.event
  | _ :: relations => .relation ((Tree.ofRelation old).addClause mode { c with relations })

namespace Tree

theorem addClause_eq_update (mode : MatchMode) (t : Tree) (c : Clause) :
    t.addClause mode c = t.update c.head (Node.addClause mode · c) := by
  obtain ⟨relations, field, operator, value⟩ := c
  cases relations with
  | nil => rfl
  | cons relation relations => rfl

variable (mode : MatchMode)

theorem entries_addClauses (cs : List Clause) (t : Tree) :
    (t.addClauses mode cs).entries =
      cs.foldl (fun es c => Entries.update c.head (Node.addClause mode · c) es) t.entries := by
  induction cs generalizing t with
  | nil => rfl
  | cons c cs ih =>
    rw [addClauses, List.foldl_cons, addClause_eq_update]
    exact ih _

theorem keys_addClauses (cs : List Clause) :
    (empty.addClauses mode cs).keys = (cs.map Clause.head).eraseDups := by
  rw [keys, entries_addClauses]
  exact Entries.keys_foldl_update Clause.head (Node.addClause mode) cs

theorem get?_addClauses (cs : List Clause) (key : String) :
    (empty.addClauses mode cs).get? key =
      (cs.filter (·.head = key)).foldl (fun old c => some (Node.addClause mode old c)) none := by
  rw [get?, entries_addClauses]
  exact Entries.get?_foldl_update Clause.head (Node.addClause mode) cs [] key

theorem get?_addClauses_of_fields {cs : List Clause} {key : String}
    (h : ∀ c ∈ cs, c.head = key → c.relations = []) :
    (empty.addClauses mode cs).get? key =
      (Clause.eventsAt [key] cs).foldl (fun old e => some (Node.addEvent mode old e)) none := by
  rw [get?_addClauses]
  generalize none = old
  induction cs generalizing old with
  | nil => rfl
  | cons c cs ih =>
    rw [List.forall_mem_cons] at h
    by_cases hc : c.head = key
    · have hrelations := h.1 hc
      have hpath : c.path = [key] := by simpa [Clause.path, Clause.head, hrelations] using hc
      have hadd : Node.addClause mode old c = Node.addEvent mode old c.event := by
        rw [Node.addClause, hrelations]
      simpa [Clause.eventsAt, hc, hpath, hadd] using ih h.2 _
    · have hpath : c.path ≠ [key] := by
        intro heq
        apply hc
        rw [Clause.path, List.append_eq_singleton_iff] at heq
        simp_all [Clause.head]
      simpa [Clause.eventsAt, hc, hpath] using ih h.2 old

end Tree

/-! ## Clauses inside a level -/

namespace Clause

theorem path_under (relation : String) (c : Clause) :
    (c.under relation).path = relation :: c.path := rfl

theorem head_prefix_path (c : Clause) : [c.head] <+: c.path := by
  obtain ⟨relations, field, operator, value⟩ := c
  cases relations with
  | nil => exact List.prefix_rfl
  | cons r relations => exact ⟨relations ++ [field], rfl⟩

theorem inside?_cons (relation : String) (relations : List String) (c : Clause) :
    c.inside? (relation :: relations) = (c.inside? [relation]).bind (inside? relations) := by
  obtain ⟨above, field, operator, value⟩ := c
  cases above with
  | nil => simp [inside?]
  | cons r above =>
    by_cases hr : relation = r
    · simp [inside?, List.cons_prefix_cons, hr]
    · simp [inside?, List.cons_prefix_cons, hr]

theorem filterMap_inside?_nil (cs : List Clause) : cs.filterMap (inside? []) = cs := by
  have hsome : inside? [] = some := funext fun c => if_pos List.nil_prefix
  rw [hsome, List.filterMap_some]

theorem filterMap_inside?_cons (relation : String) (relations : List String) (cs : List Clause) :
    cs.filterMap (inside? (relation :: relations)) =
      (cs.filterMap (inside? [relation])).filterMap (inside? relations) := by
  rw [List.filterMap_filterMap]
  exact congrArg (cs.filterMap ·) (funext (inside?_cons relation relations))

theorem under_of_inside? {relation : String} {c d : Clause} (h : c.inside? [relation] = some d) :
    d.under relation = c := by
  obtain ⟨above, field, operator, value⟩ := c
  cases above with
  | nil => simp [inside?] at h
  | cons r above =>
    simp only [inside?, List.cons_prefix_cons, List.nil_prefix, and_true] at h
    split at h
    · next hr =>
      cases h
      rw [hr]
      rfl
    · cases h

theorem under_mem_of_mem_inside {relation : String} {cs : List Clause} {c : Clause}
    (h : c ∈ cs.filterMap (inside? [relation])) : c.under relation ∈ cs := by
  obtain ⟨c', hc', hinside⟩ := List.mem_filterMap.mp h
  rwa [under_of_inside? hinside]

theorem filter_head_eq {cs : List Clause} {key : String}
    (h : ∀ c ∈ cs, c.head = key → c.relations ≠ []) :
    cs.filter (·.head = key) = (cs.filterMap (inside? [key])).map (under key) := by
  induction cs with
  | nil => rfl
  | cons c cs ih =>
    rw [List.forall_mem_cons] at h
    obtain ⟨relations, field, operator, value⟩ := c
    cases relations with
    | nil =>
      have hhead : (Clause.mk [] field operator value).head ≠ key := fun heq => h.1 heq rfl
      have hinside : inside? [key] ⟨[], field, operator, value⟩ = none := by simp [inside?]
      rw [List.filter_cons_of_neg (by simpa using hhead), List.filterMap_cons_none hinside, ih h.2]
    | cons r relations =>
      by_cases hr : r = key
      · subst hr
        have hinside : inside? [r] ⟨r :: relations, field, operator, value⟩ =
            some ⟨relations, field, operator, value⟩ := by simp [inside?]
        rw [List.filter_cons_of_pos (by simp [head]), List.filterMap_cons_some hinside, ih h.2]
        rfl
      · have hinside : inside? [key] ⟨r :: relations, field, operator, value⟩ = none := by
          simp [inside?, Ne.symm hr]
        rw [List.filter_cons_of_neg (by simpa [head] using hr), List.filterMap_cons_none hinside,
          ih h.2]

theorem filterMap_inside?_eq_nil {cs : List Clause} {key : String}
    (h : ∀ c ∈ cs, c.head = key → c.relations = []) : cs.filterMap (inside? [key]) = [] := by
  rw [List.filterMap_eq_nil_iff]
  intro c hc
  cases hinside : c.inside? [key] with
  | none => rfl
  | some d =>
    have hnil := h c hc (by rw [← under_of_inside? hinside]; rfl)
    rw [← under_of_inside? hinside] at hnil
    cases hnil

theorem PathsApart.inside {cs : List Clause} (h : PathsApart cs) (relations : List String) :
    PathsApart (cs.filterMap (inside? relations)) := by
  induction relations generalizing cs with
  | nil =>
    rw [filterMap_inside?_nil]
    exact h
  | cons relation relations ih =>
    rw [filterMap_inside?_cons]
    apply ih
    intro c hc d hd hprefix
    have heq := h _ (under_mem_of_mem_inside hc) _ (under_mem_of_mem_inside hd)
      (by simpa [path_under, List.cons_prefix_cons] using hprefix)
    simpa [path_under] using heq

theorem eventsAt_inside (relations : List String) (key : String) (cs : List Clause) :
    eventsAt [key] (cs.filterMap (inside? relations)) = eventsAt (relations ++ [key]) cs := by
  induction cs with
  | nil => rfl
  | cons c cs ih =>
    simp only [eventsAt] at ih ⊢
    by_cases h : relations <+: c.relations
    · obtain ⟨rest, hrest⟩ := h
      have hinside : c.inside? relations = some { c with relations := rest } := by
        simp [inside?, ← hrest]
      have hpath : ({ c with relations := rest } : Clause).path = [key] ↔
          c.path = relations ++ [key] := by
        rw [path, path, ← hrest, List.append_assoc, List.append_cancel_left_eq]
      rw [List.filterMap_cons_some hinside]
      by_cases hc : c.path = relations ++ [key]
      · simp [hc, hpath.mpr hc, ih, event]
      · simp [hc, mt hpath.mp hc, ih]
    · have hinside : c.inside? relations = none := if_neg h
      have hpath : c.path ≠ relations ++ [key] := by
        intro heq
        have hrelations : c.relations = relations := List.append_inj_left' heq rfl
        exact h (hrelations ▸ List.prefix_rfl)
      rw [List.filterMap_cons_none hinside, List.filter_cons_of_neg (by simpa using hpath), ih]

theorem mem_eventsAt {path : List String} {cs : List Clause} {e : Event} :
    e ∈ eventsAt path cs ↔ ∃ c, (c ∈ cs ∧ c.path = path) ∧ c.event = e := by
  simp [eventsAt]

theorem eventsAt_ne_nil_iff {path : List String} {cs : List Clause} :
    eventsAt path cs ≠ [] ↔ path ∈ cs.map Clause.path := by
  simp [eventsAt, List.filter_eq_nil_iff]

end Clause

/-! ## All levels -/

namespace Tree

variable (mode : MatchMode)

theorem get?_addClauses_of_relations {cs : List Clause} {key : String}
    (h : ∀ c ∈ cs, c.head = key → c.relations ≠ []) :
    (empty.addClauses mode cs).get? key =
      if cs.filterMap (Clause.inside? [key]) = [] then none
      else some (.relation (empty.addClauses mode (cs.filterMap (Clause.inside? [key])))) := by
  have hfilter : (empty.addClauses mode cs).get? key =
      (empty.addClauses mode (cs.filter (·.head = key))).get? key := by
    simp [get?_addClauses, List.filter_filter]
  rw [hfilter, Clause.filter_head_eq h]
  cases hinside : cs.filterMap (Clause.inside? [key]) with
  | nil => rfl
  | cons c cs' =>
    rw [addClauses_under, get?_update, if_pos rfl, if_neg (List.cons_ne_nil c cs')]
    rfl

/-- Paths apart, a key that starts the path of a field is passed by no other path. -/
theorem fields_of_eventsAt {cs : List Clause} (h : Clause.PathsApart cs) {key : String}
    (hevents : Clause.eventsAt [key] cs ≠ []) : ∀ c ∈ cs, c.head = key → c.relations = [] := by
  intro c hc hhead
  obtain ⟨d, hd, hpath⟩ := List.mem_map.mp (Clause.eventsAt_ne_nil_iff.mp hevents)
  have heq := h d hd c hc (by rw [hpath, ← hhead]; exact c.head_prefix_path)
  have hfield : c.relations ++ [c.field] = [] ++ [key] := heq.symm.trans hpath
  exact List.append_inj_left' hfield rfl

theorem relations_of_eventsAt {cs : List Clause} {key : String}
    (hevents : Clause.eventsAt [key] cs = []) : ∀ c ∈ cs, c.head = key → c.relations ≠ [] := by
  intro c hc hhead hrelations
  have hpath : c.path = [key] := by simpa [Clause.path, Clause.head, hrelations] using hhead
  exact Clause.eventsAt_ne_nil_iff.mpr (List.mem_map.mpr ⟨c, hc, hpath⟩) hevents

theorem get?_addClauses_eq_some_iff {cs : List Clause} (h : Clause.PathsApart cs) {key : String}
    {node : Node} (hnode : ∀ t, node ≠ .relation t) :
    (empty.addClauses mode cs).get? key = some node ↔
      Clause.eventsAt [key] cs ≠ [] ∧ node = .ofEvents mode (Clause.eventsAt [key] cs) := by
  by_cases hevents : Clause.eventsAt [key] cs = []
  · rw [get?_addClauses_of_relations mode (relations_of_eventsAt hevents)]
    constructor
    · intro hget
      split at hget
      · cases hget
      · cases hget
        exact absurd rfl (hnode _)
    · intro hne
      exact absurd hevents hne.1
  · rw [get?_addClauses_of_fields mode (fields_of_eventsAt h hevents)]
    rw [Node.foldl_addEvent mode hevents, Option.some.injEq]
    constructor
    · intro heq
      exact ⟨hevents, heq.symm⟩
    · intro heq
      exact heq.2.symm

/-- A level is built by the clauses inside it, and is there if there are any. -/
theorem level?_addClauses {cs : List Clause} (h : Clause.PathsApart cs) (relations : List String) :
    (empty.addClauses mode cs).level? relations =
      if relations = [] ∨ cs.filterMap (Clause.inside? relations) ≠ [] then
        some (empty.addClauses mode (cs.filterMap (Clause.inside? relations)))
      else none := by
  induction relations generalizing cs with
  | nil =>
    rw [Clause.filterMap_inside?_nil]
    rfl
  | cons relation relations ih =>
    rw [level?, Clause.filterMap_inside?_cons]
    have hih := ih (h.inside [relation])
    by_cases hevents : Clause.eventsAt [relation] cs = []
    · -- a key without events of its own is a relation, if anything is inside it
      rw [get?_addClauses_of_relations mode (relations_of_eventsAt hevents)]
      by_cases hinside : cs.filterMap (Clause.inside? [relation]) = []
      · simp [hinside]
      · rw [if_neg hinside]
        refine hih.trans (if_congr ?_ rfl rfl)
        cases relations with
        | nil => simp [Clause.filterMap_inside?_nil, hinside]
        | cons next relations => simp
    · -- a field is no level, and no clause is inside it
      have hfields := fields_of_eventsAt h hevents
      have hinside := Clause.filterMap_inside?_eq_nil hfields
      rw [get?_addClauses_of_fields mode hfields, Node.foldl_addEvent mode hevents, hinside]
      have hnode : ∀ t, Node.ofEvents mode (Clause.eventsAt [relation] cs) ≠ .relation t :=
        Node.ofEvents_ne_relation mode _
      simp only [List.filterMap_nil, ne_eq, not_true_eq_false, or_false]
      rw [if_neg (List.cons_ne_nil _ _)]
      split
      · next heq =>
        exact absurd (Option.some.inj heq) (hnode _)
      · rfl

theorem ofParams_eq_addClauses (o : Options) (p : Params) :
    ofParams o p = empty.addClauses o.matchMode (p.clauses o) := by
  rw [ofParams, Params.clauses, addClauses, List.foldl_map, List.foldl_filter]
  congr 1
  funext t pair
  cases o.isReserved pair.1 <;> rfl

/-- A filter read from parameters is known from their clauses, if no path leads through the end of
another: the keys of each level are the next segments of the paths that lead there, in the order of
their first occurrence, and the nodes that are no relations stand at the paths of the clauses, each
the closed form of the events about its path. -/
theorem ofParams_by_path (o : Options) (p : Params) (h : Clause.PathsApart (p.clauses o)) :
    (∀ relations level, (ofParams o p).level? relations = some level →
      level.keys = (((p.clauses o).filterMap (·.inside? relations)).map Clause.head).eraseDups) ∧
    ∀ relations key node, (∀ t, node ≠ .relation t) →
      ((ofParams o p).node? relations key = some node ↔
        relations ++ [key] ∈ (p.clauses o).map Clause.path ∧
          node = .ofEvents o.matchMode (Clause.eventsAt (relations ++ [key]) (p.clauses o))) := by
  rw [ofParams_eq_addClauses]
  constructor
  · intro relations level hlevel
    rw [level?_addClauses o.matchMode h] at hlevel
    split at hlevel
    · cases hlevel
      exact keys_addClauses o.matchMode _
    · cases hlevel
  · intro relations key node hnode
    rw [node?, level?_addClauses o.matchMode h, ← Clause.eventsAt_ne_nil_iff,
      ← Clause.eventsAt_inside]
    split
    · exact get?_addClauses_eq_some_iff o.matchMode (h.inside relations) hnode
    · next hnone =>
      rw [not_or, not_not] at hnone
      simp [hnone.2, Clause.eventsAt]

/-- A plain value before a membership is replaced by it; one after it is added. -/
theorem ofParams_by_path_tags :
    let p : Params := ⟨[("tag", "a"), ("owner.age_gte", "2.50,x"), ("tag", "b,7"), ("page", "2"),
      ("tag_in", "c"), ("owner.name_contains", "X"), ("tag", "d")]⟩
    let c := Constraint.members [.text "c", .text "d"]
    Clause.PathsApart (p.clauses .standard) ∧ (ofParams .standard p).keys = ["tag", "owner"] ∧
      (ofParams .standard p).node? [] "tag" = some (.tests c) := by
  intro p c
  have happart : Clause.PathsApart (p.clauses .standard) := by
    simp only [p]
    decide +kernel
  obtain ⟨hkeys, hnode⟩ := ofParams_by_path .standard p happart
  refine ⟨happart, (hkeys [] _ rfl).trans ?_, (hnode [] "tag" _ (by simp)).mpr ⟨?_, ?_⟩⟩
  · rfl
  · simp only [p]
    decide +kernel
  · rfl

end Tree

end QueryFilter
