import QueryFilter.Proofs.Paths
import QueryFilter.Proofs.Sameness

/-!
# Parameters that commute

Neighbours in a list of parameters may change places if they say nothing of the same thing: one of
them is no filter, or their fields lie apart, or they touch different operators of one field. What
was said before makes no difference, and what is said after keeps equal filters equal
(`Tree.same_addClause`). So the queries are the same (`Query.same_ofParams_of_independent`).
-/

namespace QueryFilter

/-! ## Events about one field -/

/-- The operand that an event leaves at the operator it touches. -/
def Event.operand (e : Event) (old : Option Operand) : Operand :=
  match e.operator with
  | some op => .ofText op e.value
  | none => .many (old.elim [] Operand.values ++ Scalar.listOfText e.value)

namespace Constraint

variable (mode : MatchMode)

theorem get?_addEvent (c : Constraint) (e : Event) (op : Operator) :
    (c.addEvent mode e).get? op =
      if op = e.touched then some (e.operand (c.get? e.touched)) else c.get? op := by
  obtain ⟨operator, value⟩ := e
  cases operator with
  | some op' => exact c.get?_put op' op _
  | none => exact c.get?_addMembers _ op

theorem ignoreCase_addEvent (c : Constraint) (e : Event) :
    (c.addEvent mode e).ignoreCase =
      (c.ignoreCase || (e.touched.matchesText && mode == .ignoreCase)) := by
  obtain ⟨operator, value⟩ := e
  cases operator with
  | some op => rfl
  | none => exact (Bool.or_false _).symm

theorem get?_members (vs : List Scalar) (op : Operator) :
    (members vs).get? op = if op = .isIn then some (.many vs) else none :=
  OrderedMap.get?_put (.empty : OrderedMap Operator Operand) .isIn op (.many vs)

theorem same_members {v w : Scalar} (h : v.same w) : (members [v]).same (members [w]) := by
  rw [same_iff]
  refine ⟨rfl, fun op => ?_⟩
  rw [get?_members, get?_members]
  split
  · exact .some (by simpa [Operand.same] using h)
  · exact .none

theorem same_addEvent {c d : Constraint} (h : c.same d) (e : Event) :
    (c.addEvent mode e).same (d.addEvent mode e) := by
  obtain ⟨operator, value⟩ := e
  cases operator with
  | none => exact same_addMembers h _
  | some op =>
    rw [same_iff] at h ⊢
    constructor
    · rw [ignoreCase_addEvent, ignoreCase_addEvent, h.1]
    · intro op'
      rw [get?_addEvent, get?_addEvent]
      split
      · exact .some (Operand.same_refl _)
      · exact h.2 op'

theorem same_addEvent_swap (c : Constraint) {e e' : Event} (h : e.touched ≠ e'.touched) :
    ((c.addEvent mode e).addEvent mode e').same ((c.addEvent mode e').addEvent mode e) := by
  apply same_of_get?
  · simp only [ignoreCase_addEvent]
    exact Bool.or_right_comm ..
  · intro op
    simp only [get?_addEvent]
    by_cases hop : op = e.touched
    · simp [hop, h]
    · by_cases hop' : op = e'.touched
      · simp [hop', h.symm]
      · simp [hop, hop']

end Constraint

namespace Node

variable (mode : MatchMode)

theorem constraint_addValue (old : Option Node) (value : String) :
    constraint (some (addValue old value)) =
      (constraint old).addMembers (Scalar.listOfText value) := by
  unfold addValue
  match old, Scalar.listOfText value with
  | some (.value _), _ => rfl
  | some (.tests _), _ => rfl
  | some (.relation _), [] | some (.group _), [] | none, [] => rfl
  | some (.relation _), [_] | some (.group _), [_] | none, [_] => rfl
  | some (.relation _), _ :: _ :: _ | some (.group _), _ :: _ :: _ | none, _ :: _ :: _ => rfl

theorem constraint_addEvent (old : Option Node) (e : Event) :
    constraint (some (addEvent mode old e)) = (constraint old).addEvent mode e := by
  obtain ⟨operator, value⟩ := e
  cases operator with
  | some op => exact congrArg (fun node => constraint (some node)) (addTest_eq mode old op value)
  | none => exact constraint_addValue old value

theorem addEvent_value (v : Scalar) (e : Event) :
    addEvent mode (some (.value v)) e = .tests ((Constraint.members [v]).addEvent mode e) := by
  obtain ⟨operator, value⟩ := e
  cases operator with
  | some op => exact addTest_eq mode _ op value
  | none => rfl

theorem addEvent_tests (c : Constraint) (e : Event) :
    addEvent mode (some (.tests c)) e = .tests (c.addEvent mode e) := by
  obtain ⟨operator, value⟩ := e
  cases operator with
  | some op => exact addTest_eq mode _ op value
  | none => rfl

theorem addEvent_relation (t : Tree) (e : Event) :
    addEvent mode (some (.relation t)) e = addEvent mode none e := by
  obtain ⟨operator, value⟩ := e
  cases operator with
  | some op => rfl
  | none =>
    simp only [addEvent, addValue]
    rcases Scalar.listOfText value with _ | ⟨v, _ | ⟨w, vs⟩⟩
    · rfl
    · rfl
    · rfl

theorem addEvent_group (ts : List Tree) (e : Event) :
    addEvent mode (some (.group ts)) e = addEvent mode none e := by
  obtain ⟨operator, value⟩ := e
  cases operator with
  | some op => rfl
  | none =>
    simp only [addEvent, addValue]
    rcases Scalar.listOfText value with _ | ⟨v, _ | ⟨w, vs⟩⟩
    · rfl
    · rfl
    · rfl

theorem addEvent_eq (old : Option Node) (e : Event) :
    (∃ v, addEvent mode old e = .value v) ∨ ∃ c, addEvent mode old e = .tests c := by
  obtain ⟨operator, value⟩ := e
  cases operator with
  | some op => exact Or.inr ⟨_, rfl⟩
  | none =>
    rcases addValue_eq old value with ⟨v, _, heq⟩ | heq
    · exact Or.inl ⟨v, heq⟩
    · exact Or.inr ⟨_, heq⟩

theorem keyed_addEvent (old : Option Node) (e : Event) : (addEvent mode old e).Keyed := by
  rcases addEvent_eq mode old e with ⟨v, heq⟩ | ⟨c, heq⟩
  · rw [heq]
    trivial
  · rw [heq]
    trivial

/-- After a first event the node holds nothing but what is asked of its field. -/
theorem addEvent_addEvent (old : Option Node) (e e' : Event) :
    addEvent mode (some (addEvent mode old e)) e' =
      .tests (((constraint old).addEvent mode e).addEvent mode e') := by
  rw [← constraint_addEvent]
  rcases addEvent_eq mode old e with ⟨v, heq⟩ | ⟨c, heq⟩
  · rw [heq, addEvent_value]
    rfl
  · rw [heq, addEvent_tests]
    rfl

theorem same_addEvent_swap (old : Option Node) {e e' : Event} (h : e.touched ≠ e'.touched) :
    (addEvent mode (some (addEvent mode old e)) e').same
      (addEvent mode (some (addEvent mode old e')) e) := by
  rw [addEvent_addEvent, addEvent_addEvent, Node.same]
  exact Constraint.same_addEvent_swap mode _ h

theorem same_addEvent {old old' : Option Node}
    (h : Option.Rel (fun m n : Node => m.same n) old old') (e : Event) :
    (addEvent mode old e).same (addEvent mode old' e) := by
  have hfresh := same_refl _ (keyed_addEvent mode none e)
  cases h with
  | none => exact hfresh
  | @some m n h =>
    cases m <;> cases n <;> simp only [Node.same, Bool.false_eq_true] at h
    · simpa only [addEvent_value, Node.same] using
        Constraint.same_addEvent mode (Constraint.same_members h) e
    · simpa only [addEvent_tests, Node.same] using Constraint.same_addEvent mode h e
    · simpa only [addEvent_relation] using hfresh
    · simpa only [addEvent_group] using hfresh

end Node

/-! ## Clauses -/

/-- Whether clauses say nothing of the same thing: their fields lie apart, or they touch different
operators of one field. -/
def Clause.Independent (c d : Clause) : Prop :=
  (¬ c.path <+: d.path ∧ ¬ d.path <+: c.path) ∨
    (c.path = d.path ∧ c.event.touched ≠ d.event.touched)

instance (c d : Clause) : Decidable (c.Independent d) :=
  inferInstanceAs (Decidable (_ ∨ _))

namespace Clause

theorem independent_under {c d : Clause} {relation : String} :
    (c.under relation).Independent (d.under relation) ↔ c.Independent d := by
  simp [Independent, path, under, event, List.cons_prefix_cons]

/-- A field that another path leads through is not independent of it. -/
theorem relations_of_independent {c d : Clause} (h : c.Independent d) (hhead : c.head = d.head)
    (hc : c.relations = []) : d.relations = [] := by
  obtain ⟨relations, field, operator, value⟩ := c
  obtain ⟨relations', field', operator', value'⟩ := d
  subst hc
  cases relations' with
  | nil => rfl
  | cons relation relations' =>
    have hfield : field = relation := hhead
    simp [Independent, path, hfield] at h

theorem Independent.symm {c d : Clause} (h : c.Independent d) : d.Independent c :=
  h.imp And.symm fun h => ⟨h.1.symm, h.2.symm⟩

end Clause

namespace Tree

variable (mode : MatchMode)

theorem keyed_addClause {t : Tree} (h : t.Keyed) (c : Clause) : (t.addClause mode c).Keyed := by
  obtain ⟨relations, field, operator, value⟩ := c
  induction relations generalizing t with
  | nil =>
    rw [addClause_eq_update]
    exact h.update (Node.keyed_addEvent mode _ _)
  | cons relation relations ih =>
    rw [addClause_eq_update]
    exact h.update (ih (h.ofRelation relation))

theorem same_addClause {s t : Tree} (hs : s.Keyed) (ht : t.Keyed) (h : s.same t) (c : Clause) :
    (s.addClause mode c).same (t.addClause mode c) := by
  obtain ⟨relations, field, operator, value⟩ := c
  induction relations generalizing s t with
  | nil =>
    have hrel := (same_iff hs.nodup ht.nodup).mp h
    rw [addClause_eq_update, addClause_eq_update]
    exact same_update hs.nodup ht.nodup h (Node.same_addEvent mode (hrel field) _)
  | cons relation relations ih =>
    have hrel := (same_iff hs.nodup ht.nodup).mp h
    rw [addClause_eq_update, addClause_eq_update]
    apply same_update hs.nodup ht.nodup h
    simp only [Node.addClause, Node.same]
    exact ih (hs.ofRelation relation) (ht.ofRelation relation) (same_ofRelation (hrel relation))

theorem same_addClauses {s t : Tree} (hs : s.Keyed) (ht : t.Keyed) (h : s.same t)
    (cs : List Clause) : (s.addClauses mode cs).same (t.addClauses mode cs) := by
  induction cs generalizing s t with
  | nil => exact h
  | cons c cs ih =>
    exact ih (keyed_addClause mode hs c) (keyed_addClause mode ht c)
      (same_addClause mode hs ht h c)

theorem keyed_addClauses {t : Tree} (h : t.Keyed) (cs : List Clause) :
    (t.addClauses mode cs).Keyed := by
  induction cs generalizing t with
  | nil => exact h
  | cons c cs ih => exact ih (keyed_addClause mode h c)

theorem same_addClause_swap_of_head {t : Tree} (ht : t.Keyed) {c d : Clause}
    (h : c.head ≠ d.head) : ((t.addClause mode c).addClause mode d).same
      ((t.addClause mode d).addClause mode c) := by
  apply same_of_get?
  · exact keyed_addClause mode (keyed_addClause mode ht c) d
  · exact keyed_addClause mode (keyed_addClause mode ht d) c
  · intro key
    simp only [addClause_eq_update, get?_update]
    by_cases hc : key = c.head
    · simp [hc, h]
    · by_cases hd : key = d.head
      · simp [hd, h.symm]
      · simp [hc, hd]

/-- Two clauses at one key change the node there one after the other. -/
theorem same_addClause_swap_of_node {t : Tree} (ht : t.Keyed) {c d : Clause}
    (hhead : c.head = d.head)
    (h : (Node.addClause mode (some (Node.addClause mode (t.get? c.head) c)) d).same
      (Node.addClause mode (some (Node.addClause mode (t.get? c.head) d)) c)) :
    ((t.addClause mode c).addClause mode d).same ((t.addClause mode d).addClause mode c) := by
  simp only [addClause_eq_update, ← hhead, update_update]
  exact same_update ht.nodup ht.nodup (t.same_refl ht) h

/-- Independent clauses commute, whatever stands in the filter already. -/
theorem same_addClause_swap {t : Tree} (ht : t.Keyed) {c d : Clause} (h : c.Independent d) :
    ((t.addClause mode c).addClause mode d).same ((t.addClause mode d).addClause mode c) := by
  obtain ⟨relations, field, operator, value⟩ := c
  -- down to the level on which the paths part, or on which the common field stands
  induction relations generalizing t d with
  | nil =>
    by_cases hhead : Clause.head ⟨[], field, operator, value⟩ = d.head
    · have hnil := Clause.relations_of_independent h hhead rfl
      have htouched := h.resolve_left fun hapart => by simp_all [Clause.path, Clause.head]
      apply same_addClause_swap_of_node mode ht hhead
      simp only [Node.addClause, hnil]
      exact Node.same_addEvent_swap mode _ htouched.2
    · exact same_addClause_swap_of_head mode ht hhead
  | cons relation relations ih =>
    by_cases hhead : Clause.head ⟨relation :: relations, field, operator, value⟩ = d.head
    · obtain ⟨relations', field', operator', value'⟩ := d
      cases relations' with
      | nil => cases Clause.relations_of_independent h.symm hhead.symm rfl
      | cons relation' relations' =>
        have hrelation : relation = relation' := hhead
        subst hrelation
        apply same_addClause_swap_of_node mode ht hhead
        simp only [Node.addClause, Node.same]
        exact ih (ht.ofRelation relation) (Clause.independent_under.mp h)
    · exact same_addClause_swap_of_head mode ht hhead

end Tree

/-! ## Parameters -/

/-- Whether parameters say nothing of the same thing: they have different keys, are not both
filters and not both searches, or they are filters with independent clauses. -/
def Params.Independent (o : Options) (a b : String × String) : Prop :=
  (a.1 ≠ b.1 ∧ (o.isReserved a.1 ∨ o.isReserved b.1) ∧ ¬ (o.isSearchKey a.1 ∧ o.isSearchKey b.1)) ∨
    (¬ o.isReserved a.1 ∧ ¬ o.isReserved b.1 ∧
      (Clause.ofPair a.1 a.2).Independent (.ofPair b.1 b.2))

instance (o : Options) (a b : String × String) : Decidable (Params.Independent o a b) :=
  inferInstanceAs (Decidable (_ ∨ _))

theorem find?_reverse_swap {α : Type} (q : α → Bool) {a b : α} (h : ¬ (q a ∧ q b))
    (before after : List α) : (before ++ a :: b :: after).reverse.find? q =
      (before ++ b :: a :: after).reverse.find? q := by
  have hpair : [b, a].find? q = [a, b].find? q := by
    cases ha : q a <;> cases hb : q b <;> simp_all
  simp only [List.reverse_append, List.reverse_cons, List.append_assoc, List.find?_append,
    List.singleton_append, hpair]

namespace Params

variable {o : Options} {a b : String × String} {before after : List (String × String)}

theorem last?_swap {key : String} (h : ¬ (a.1 = key ∧ b.1 = key)) :
    last? ⟨before ++ a :: b :: after⟩ key = last? ⟨before ++ b :: a :: after⟩ key :=
  congrArg (Option.map Prod.snd) (find?_reverse_swap (·.1 == key) (by simpa using h) before after)

theorem searchTerm?_swap (h : ¬ (o.isSearchKey a.1 ∧ o.isSearchKey b.1)) :
    searchTerm? o ⟨before ++ a :: b :: after⟩ = searchTerm? o ⟨before ++ b :: a :: after⟩ :=
  congrArg (Option.map Prod.snd) (find?_reverse_swap (o.isSearchKey ·.1) h before after)

theorem isReserved_of_isSearchKey {key : String} (h : o.isSearchKey key) : o.isReserved key := by
  simp [Options.isReserved, h]

/-- A reserved key is that of at most one of them. -/
theorem Independent.last?_eq (h : Independent o a b) {key : String} (hkey : o.isReserved key) :
    last? ⟨before ++ a :: b :: after⟩ key = last? ⟨before ++ b :: a :: after⟩ key := by
  apply last?_swap
  rintro ⟨ha, hb⟩
  rcases h with h | h
  · exact h.1 (ha.trans hb.symm)
  · exact h.1 (ha ▸ hkey)

theorem Independent.searchTerm?_eq (h : Independent o a b) :
    searchTerm? o ⟨before ++ a :: b :: after⟩ = searchTerm? o ⟨before ++ b :: a :: after⟩ := by
  apply searchTerm?_swap
  rintro ⟨ha, hb⟩
  rcases h with h | h
  · exact h.2.2 ⟨ha, hb⟩
  · exact h.1 (isReserved_of_isSearchKey ha)

theorem clauses_append (pairs more : List (String × String)) :
    clauses o ⟨pairs ++ more⟩ = clauses o ⟨pairs⟩ ++ clauses o ⟨more⟩ := by
  simp [clauses]

/-- Clauses only change places if both parameters are filters. -/
theorem clauses_swap_of_isReserved (h : o.isReserved a.1 ∨ o.isReserved b.1) :
    clauses o ⟨[a, b]⟩ = clauses o ⟨[b, a]⟩ := by
  cases ha : o.isReserved a.1 <;> cases hb : o.isReserved b.1 <;> simp_all [clauses]

end Params

namespace Tree

variable {o : Options} {a b : String × String}

theorem keyed_ofParams (o : Options) (p : Params) : (ofParams o p).Keyed := by
  rw [ofParams_eq_addClauses]
  exact keyed_addClauses _ keyed_empty _

theorem ofParams_append (pairs more : List (String × String)) : ofParams o ⟨pairs ++ more⟩ =
    (ofParams o ⟨pairs⟩).addClauses o.matchMode (Params.clauses o ⟨more⟩) := by
  rw [ofParams_eq_addClauses, ofParams_eq_addClauses, ← addClauses_append, Params.clauses_append]

theorem same_addClauses_pair {t : Tree} (ht : t.Keyed) (h : Params.Independent o a b) :
    (t.addClauses o.matchMode (Params.clauses o ⟨[a, b]⟩)).same
      (t.addClauses o.matchMode (Params.clauses o ⟨[b, a]⟩)) := by
  rcases h with ⟨_, hreserved, _⟩ | ⟨ha, hb, hindependent⟩
  · rw [Params.clauses_swap_of_isReserved hreserved]
    exact same_refl _ (keyed_addClauses _ ht _)
  · have hpair : ∀ c d : String × String, ¬ o.isReserved c.1 → ¬ o.isReserved d.1 →
        Params.clauses o ⟨[c, d]⟩ = [.ofPair c.1 c.2, .ofPair d.1 d.2] := by
      intro c d hc hd
      simp [Params.clauses, hc, hd]
    have htwo : ∀ c d, t.addClauses o.matchMode [c, d] =
        (t.addClause o.matchMode c).addClause o.matchMode d := fun _ _ => rfl
    rw [hpair a b ha hb, hpair b a hb ha, htwo, htwo]
    exact same_addClause_swap _ ht hindependent

theorem same_ofParams_swap (h : Params.Independent o a b) (before after : List (String × String)) :
    (ofParams o ⟨before ++ a :: b :: after⟩).same (ofParams o ⟨before ++ b :: a :: after⟩) := by
  have hsplit : ∀ a b : String × String, ofParams o ⟨before ++ a :: b :: after⟩ =
      ((ofParams o ⟨before⟩).addClauses o.matchMode (Params.clauses o ⟨[a, b]⟩)).addClauses
        o.matchMode (Params.clauses o ⟨after⟩) := by
    intro a b
    rw [← ofParams_append, ← ofParams_append, List.append_assoc]
    rfl
  have hbefore := keyed_ofParams o ⟨before⟩
  rw [hsplit, hsplit]
  apply same_addClauses
  · exact keyed_addClauses _ hbefore _
  · exact keyed_addClauses _ hbefore _
  · exact same_addClauses_pair hbefore h

/-! ## Search -/

theorem keyed_searchField (term : String) (mode : MatchMode) (field : String) :
    (searchField term mode field).Keyed := by
  apply searchField_induction
  · intro key c _
    exact keyed_single trivial
  · intro key t ht
    exact keyed_single ht

theorem keyed_searchGroup? {term : String} {fields : List String} {mode : MatchMode} {t : Tree}
    (h : searchGroup? term fields mode = some t) : t.Keyed := by
  unfold searchGroup? at h
  split at h
  · cases h
  · cases h
    apply keyed_single
    simpa [Node.Keyed, treesKeyed_iff] using fun field _ => keyed_searchField term mode field

theorem isEmpty_eq_of_same {s t : Tree} (h : s.same t) : s.isEmpty = t.isEmpty := by
  obtain ⟨es⟩ := s
  obtain ⟨fs⟩ := t
  rw [same, Bool.and_eq_true, beq_iff_eq] at h
  have hlength : es.length = fs.length := h.1
  rw [Bool.eq_iff_iff, isEmpty, isEmpty, List.isEmpty_iff, List.isEmpty_iff,
    ← List.length_eq_zero_iff, ← List.length_eq_zero_iff, hlength]

theorem same_single {key : String} {m n : Node} (h : m.same n) :
    (single key m).same (single key n) :=
  same_update (f := fun _ => m) (g := fun _ => n) keyed_empty.nodup keyed_empty.nodup same_empty h

theorem same_search {s t : Tree} (h : s.same t) (term : Option String) :
    (s.search o term).same (t.search o term) := by
  unfold search
  split
  · exact h
  · next found hfound =>
    obtain ⟨word, -, hword⟩ := Option.bind_eq_some_iff.mp hfound
    have hrefl := found.same_refl (keyed_searchGroup? hword)
    rw [isEmpty_eq_of_same h]
    split
    · exact hrefl
    · apply same_single
      simp [Node.same, sameGroups, h, hrefl]

end Tree

/-! ## Queries -/

/-- A window depends only on the last values of its keys. -/
theorem Window.ofParams_congr {p q : Params} (h : ∀ key ∈ keys, p.last? key = q.last? key)
    (pageSize : UInt64) : ofParams p pageSize = ofParams q pageSize := by
  simp only [keys, List.forall_mem_cons] at h
  obtain ⟨hskip, htake, hpage, hsize, -⟩ := h
  rw [ofParams, ofParams, hskip, htake, hpage, hsize]

namespace Query

/-- Parameters that say nothing of the same thing may change places, whatever stands around them. -/
theorem same_ofParams_of_independent (o : Options) (before after : List (String × String))
    (a b : String × String) (h : Params.Independent o a b) :
    (ofParams o ⟨before ++ a :: b :: after⟩).same (ofParams o ⟨before ++ b :: a :: after⟩) := by
  have hfilter : (Params.toFilter o ⟨before ++ a :: b :: after⟩).same
      (Params.toFilter o ⟨before ++ b :: a :: after⟩) := by
    rw [Params.toFilter, Params.toFilter, h.searchTerm?_eq]
    exact Tree.same_search (Tree.same_ofParams_swap h before after) _
  have hwindow : Window.ofParams ⟨before ++ a :: b :: after⟩ o.pageSize =
      Window.ofParams ⟨before ++ b :: a :: after⟩ o.pageSize := by
    apply Window.ofParams_congr
    intro key hkey
    apply h.last?_eq
    simp [Options.isReserved, hkey]
  have horder : SortOrder.ofParams? ⟨before ++ a :: b :: after⟩ o.orderKey =
      SortOrder.ofParams? ⟨before ++ b :: a :: after⟩ o.orderKey := by
    rw [SortOrder.ofParams?, SortOrder.ofParams?, h.last?_eq (by simp [Options.isReserved])]
  simp only [same, ofParams, hfilter, hwindow, horder, Bool.true_and, Bool.and_true, beq_self_eq_true]
  cases hget : SortOrder.ofParams? ⟨before ++ b :: a :: after⟩ o.orderKey with
  | none => rfl
  | some order =>
    simp only [beq_self_eq_true, Bool.true_and, List.all_eq_true, beq_iff_eq]
    intro e he
    exact Entries.get?_eq_some_of_mem order.nodup he

/-- A field is asked in two ways, after it was a relation and before more values come. -/
theorem same_ofParams_of_independent_age :
    let before := [("age.x", "1"), ("search", "ann")]
    let after := [("order", "age_desc"), ("age", "7,8")]
    Params.Independent .standard ("age", "30") ("age_gte", "18") ∧
      (ofParams .standard ⟨before ++ ("age", "30") :: ("age_gte", "18") :: after⟩).same
        (ofParams .standard ⟨before ++ ("age_gte", "18") :: ("age", "30") :: after⟩) := by
  intro before after
  have h : Params.Independent .standard ("age", "30") ("age_gte", "18") := by
    decide +kernel
  exact ⟨h, same_ofParams_of_independent .standard before after _ _ h⟩

end Query

end QueryFilter
