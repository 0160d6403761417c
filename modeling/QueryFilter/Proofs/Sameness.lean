import Mathlib.Data.List.Perm.Subperm
import QueryFilter.Proofs.Entries
import QueryFilter.Tree.Basic

/-!
# Equality of values, key by key

Two maps are the same if they say the same at every key, in whatever order (`Entries.rel_iff`). So
constraints and filters are compared by looking keys up, and a change at one key of the same
filters leaves them the same (`Tree.same_update`).
-/

namespace QueryFilter

namespace Entries

variable {κ α β : Type} [DecidableEq κ]

theorem get?_eq_none_iff {k : κ} {es : List (κ × α)} : get? k es = none ↔ k ∉ keys es := by
  induction es with
  | nil => simp [get?]
  | cons e es ih =>
    by_cases h : e.1 = k
    · simp [get?, h]
    · simp [get?, h, Ne.symm h, ih]

theorem get?_eq_some_of_mem {e : κ × α} {es : List (κ × α)} (hnodup : (keys es).Nodup)
    (h : e ∈ es) : get? e.1 es = some e.2 := by
  induction es with
  | nil => cases h
  | cons e' es ih =>
    rw [keys_cons, List.nodup_cons] at hnodup
    rcases List.mem_cons.mp h with rfl | h
    · simp [get?]
    · have hne : e'.1 ≠ e.1 := fun heq => hnodup.1 (heq ▸ mem_keys_of_mem h)
      simp [get?, hne, ih hnodup.2 h]

/-- Entries of the same number are related if each finds a partner at its key. -/
theorem rel_iff {r : α → β → Prop} {es : List (κ × α)} {fs : List (κ × β)}
    (hes : (keys es).Nodup) (hfs : (keys fs).Nodup) :
    (es.length = fs.length ∧ ∀ e ∈ es, ∃ b, get? e.1 fs = some b ∧ r e.2 b) ↔
      ∀ k, Option.Rel r (get? k es) (get? k fs) := by
  constructor
  · rintro ⟨hlength, hpartner⟩ k
    cases hk : get? k es with
    | some a =>
      obtain ⟨b, hb, hr⟩ := hpartner (k, a) (mem_of_get? hk)
      rw [hb]
      exact .some hr
    | none =>
      -- no key of the right side is left over, as there are as many on the left
      have hsub : keys es ⊆ keys fs := by
        intro k' hk'
        obtain ⟨e, he, rfl⟩ := List.mem_map.mp hk'
        obtain ⟨b, hb, _⟩ := hpartner e he
        exact mem_keys_of_mem (mem_of_get? hb)
      have hperm : (keys es).Perm (keys fs) :=
        (List.subperm_of_subset hes hsub).perm_of_length_le (by simp [keys, hlength])
      have hnone : get? k fs = none := by
        rw [get?_eq_none_iff] at hk ⊢
        exact fun hmem => hk (hperm.mem_iff.mpr hmem)
      rw [hnone]
      exact .none
  · intro hrel
    constructor
    · have hperm : (keys es).Perm (keys fs) := by
        rw [List.perm_ext_iff_of_nodup hes hfs]
        intro k
        have hk := hrel k
        rw [← not_iff_not, ← get?_eq_none_iff, ← get?_eq_none_iff]
        generalize get? k es = a, get? k fs = b at hk ⊢
        cases hk <;> simp
      simpa [keys] using hperm.length_eq
    · intro e he
      have he' := hrel e.1
      rw [get?_eq_some_of_mem hes he] at he'
      cases hb : get? e.1 fs with
      | none =>
        rw [hb] at he'
        cases he'
      | some b =>
        rw [hb] at he'
        cases he' with
        | some hr => exact ⟨b, rfl, hr⟩

end Entries

/-! ## Scalars and operands -/

theorem Scalar.same_refl (v : Scalar) : v.same v := by
  cases v <;> simp [same, Binary64.same]

namespace Operand

theorem same_refl (operand : Operand) : operand.same operand := by
  cases operand with
  | one v => exact v.same_refl
  | many vs =>
    have hzip : ∀ p ∈ vs.zip vs, p.1.same p.2 := by
      induction vs with
      | nil => simp
      | cons v vs ih => simpa [Scalar.same_refl] using ih
    simpa [same] using hzip

theorem same_many_iff {vs ws : List Scalar} : (many vs).same (many ws) ↔
    vs.length = ws.length ∧ (vs.zip ws).all fun p => p.1.same p.2 := by
  simp [same]

theorem values_of_same {a b : Operand} (h : a.same b) : (many a.values).same (many b.values) := by
  cases a with
  | one v =>
    cases b with
    | one w => simpa [same, values] using h
    | many ws => simp [same] at h
  | many vs =>
    cases b with
    | one w => simp [same] at h
    | many ws => exact h

theorem same_append {vs ws : List Scalar} (h : (many vs).same (many ws)) (more : List Scalar) :
    (many (vs ++ more)).same (many (ws ++ more)) := by
  have hmore := same_refl (many more)
  rw [same_many_iff] at h hmore ⊢
  constructor
  · simp [h.1]
  · rw [List.zip_append h.1, List.all_append, h.2, hmore.2]
    rfl

end Operand

/-! ## Constraints -/

namespace Constraint

theorem same_iff {c d : Constraint} : c.same d ↔ c.ignoreCase = d.ignoreCase ∧
    ∀ op, Option.Rel (fun a b : Operand => a.same b) (c.get? op) (d.get? op) := by
  have hrel := Entries.rel_iff (r := fun a b : Operand => a.same b) c.tests.nodup d.tests.nodup
  simp only [get?, OrderedMap.get?, ← hrel, same, OrderedMap.size, Bool.and_eq_true, beq_iff_eq,
    List.all_eq_true, Option.any_eq_true, and_assoc]

theorem same_of_get? {c d : Constraint} (hcase : c.ignoreCase = d.ignoreCase)
    (h : ∀ op, c.get? op = d.get? op) : c.same d := by
  rw [same_iff]
  refine ⟨hcase, fun op => ?_⟩
  rw [h op]
  cases d.get? op with
  | none => exact .none
  | some operand => exact .some operand.same_refl

theorem same_refl (c : Constraint) : c.same c := same_of_get? rfl fun _ => rfl

theorem same_addMembers {c d : Constraint} (h : c.same d) (vs : List Scalar) :
    (c.addMembers vs).same (d.addMembers vs) := by
  rw [same_iff] at h ⊢
  refine ⟨h.1, fun op => ?_⟩
  rw [get?_addMembers, get?_addMembers]
  by_cases hop : op = .isIn
  · rw [if_pos hop, if_pos hop]
    apply Option.Rel.some
    have hold := h.2 .isIn
    generalize c.get? .isIn = old, d.get? .isIn = old' at hold ⊢
    cases hold with
    | none => exact Operand.same_refl _
    | some hoperand => exact Operand.same_append (Operand.values_of_same hoperand) vs
  · rw [if_neg hop, if_neg hop]
    exact h.2 op

end Constraint

/-! ## Filters -/

mutual

def Node.Keyed : Node → Prop
  | .value _ => True
  | .tests _ => True
  | .relation t => t.Keyed
  | .group ts => treesKeyed ts

/-- No key repeats, on any level. -/
def Tree.Keyed : Tree → Prop
  | ⟨es⟩ => (Entries.keys es).Nodup ∧ entriesKeyed es

def entriesKeyed : List (String × Node) → Prop
  | [] => True
  | (_, node) :: es => node.Keyed ∧ entriesKeyed es

def treesKeyed : List Tree → Prop
  | [] => True
  | t :: ts => t.Keyed ∧ treesKeyed ts

end

theorem treesKeyed_iff {ts : List Tree} : treesKeyed ts ↔ ∀ t ∈ ts, t.Keyed := by
  induction ts with
  | nil => simp [treesKeyed]
  | cons t ts ih => simp [treesKeyed, ih]

theorem sameEntries_eq_all (es : List (String × Node)) (t : Tree) :
    sameEntries es t = es.all fun e => (t.get? e.1).any fun other => e.2.same other := by
  induction es with
  | nil => simp [sameEntries]
  | cons e es ih =>
    rw [sameEntries, ih, List.all_cons]
    cases t.get? e.1 <;> rfl

namespace Tree

theorem nodup_keys_update {t : Tree} (h : t.keys.Nodup) (key : String)
    (f : Option Node → Node) : (t.update key f).keys.Nodup :=
  Entries.nodup_keys_update key f h

theorem keyed_iff {t : Tree} : t.Keyed ↔ t.keys.Nodup ∧ ∀ e ∈ t.entries, e.2.Keyed := by
  have hentries : ∀ es : List (String × Node), entriesKeyed es ↔ ∀ e ∈ es, e.2.Keyed := by
    intro es
    induction es with
    | nil => simp [entriesKeyed]
    | cons e es ih => simp [entriesKeyed, ih]
  obtain ⟨es⟩ := t
  rw [Keyed, hentries]
  rfl

theorem Keyed.nodup {t : Tree} (h : t.Keyed) : t.keys.Nodup := (keyed_iff.mp h).1

theorem keyed_empty : empty.Keyed := ⟨List.nodup_nil, trivial⟩

theorem Keyed.get? {t : Tree} (h : t.Keyed) {key : String} {node : Node}
    (hget : t.get? key = some node) : node.Keyed :=
  (keyed_iff.mp h).2 _ (Entries.mem_of_get? hget)

theorem Keyed.update {t : Tree} (h : t.Keyed) {key : String} {f : Option Node → Node}
    (hf : (f (t.get? key)).Keyed) : (t.update key f).Keyed := by
  obtain ⟨hnodup, hentries⟩ := keyed_iff.mp h
  refine keyed_iff.mpr ⟨nodup_keys_update hnodup key f, fun e he => ?_⟩
  rcases Entries.mem_update he with he | rfl
  · exact hentries e he
  · exact hf

theorem Keyed.ofRelation {t : Tree} (h : t.Keyed) (key : String) :
    (ofRelation (t.get? key)).Keyed := by
  unfold Tree.ofRelation
  split
  · next hget => exact h.get? hget
  · exact keyed_empty

theorem keyed_single {key : String} {node : Node} (h : node.Keyed) : (single key node).Keyed :=
  keyed_iff.mpr ⟨by simp [single, keys], by simpa [single] using h⟩

theorem same_iff {s t : Tree} (hs : s.keys.Nodup) (ht : t.keys.Nodup) : s.same t ↔
    ∀ key, Option.Rel (fun m n : Node => m.same n) (s.get? key) (t.get? key) := by
  obtain ⟨es⟩ := s
  have hrel := Entries.rel_iff (r := fun m n : Node => m.same n) hs ht
  simp only [get?, ← hrel, same, size, sameEntries_eq_all, Bool.and_eq_true, beq_iff_eq,
    List.all_eq_true, Option.any_eq_true]

theorem mem_keys_iff_of_same {s t : Tree} (hs : s.keys.Nodup) (ht : t.keys.Nodup) (h : s.same t)
    (key : String) : key ∈ s.keys ↔ key ∈ t.keys := by
  have hnone : s.get? key = none ↔ t.get? key = none := by
    have hrel := (same_iff hs ht).mp h key
    generalize s.get? key = m, t.get? key = n at hrel ⊢
    cases hrel <;> simp
  rw [← not_iff_not]
  exact Entries.get?_eq_none_iff.symm.trans (hnone.trans Entries.get?_eq_none_iff)

theorem same_update {s t : Tree} (hs : s.keys.Nodup) (ht : t.keys.Nodup) (h : s.same t)
    {key : String} {f g : Option Node → Node}
    (hfg : (f (s.get? key)).same (g (t.get? key))) : (s.update key f).same (t.update key g) := by
  rw [same_iff hs ht] at h
  rw [same_iff (nodup_keys_update hs key f) (nodup_keys_update ht key g)]
  intro key'
  rw [get?_update, get?_update]
  by_cases hkey : key' = key
  · rw [if_pos hkey, if_pos hkey]
    exact .some hfg
  · rw [if_neg hkey, if_neg hkey]
    exact h key'

end Tree

mutual

theorem Node.same_refl : ∀ node : Node, node.Keyed → node.same node
  | .value v, _ => by
    rw [Node.same]
    exact v.same_refl
  | .tests c, _ => by
    rw [Node.same]
    exact c.same_refl
  | .relation t, h => by
    rw [Node.same]
    exact t.same_refl h
  | .group ts, h => by
    rw [Node.same]
    exact sameGroups_refl ts h

theorem Tree.same_refl : ∀ t : Tree, t.Keyed → t.same t
  | ⟨es⟩, ⟨hnodup, hes⟩ => by
    have hread := entries_same_refl es hes
    have hkeys : (Tree.mk es).keys.Nodup := hnodup
    rw [Tree.same_iff hkeys hkeys]
    refine (Entries.rel_iff hnodup hnodup).mp ?_
    exact ⟨rfl, fun e he => ⟨e.2, Entries.get?_eq_some_of_mem hnodup he, hread e he⟩⟩

theorem entries_same_refl : ∀ es : List (String × Node), entriesKeyed es →
    ∀ e ∈ es, e.2.same e.2
  | [], _ => by simp
  | (_, node) :: es, ⟨hnode, hes⟩ => by
    rw [List.forall_mem_cons]
    exact ⟨node.same_refl hnode, entries_same_refl es hes⟩

theorem sameGroups_refl : ∀ ts : List Tree, treesKeyed ts → sameGroups ts ts
  | [], _ => by rw [sameGroups]
  | t :: ts, ⟨ht, hts⟩ => by
    rw [sameGroups, t.same_refl ht, sameGroups_refl ts hts]
    rfl

end

namespace Tree

theorem rel_refl {t : Tree} (h : t.Keyed) (key : String) :
    Option.Rel (fun m n : Node => m.same n) (t.get? key) (t.get? key) := by
  cases hget : t.get? key with
  | none => exact .none
  | some node => exact .some (node.same_refl (h.get? hget))

theorem same_of_get? {s t : Tree} (hs : s.Keyed) (ht : t.Keyed)
    (h : ∀ key, s.get? key = t.get? key) : s.same t := by
  rw [same_iff hs.nodup ht.nodup]
  intro key
  rw [h key]
  exact rel_refl ht key

theorem same_empty : empty.same empty := empty.same_refl keyed_empty

theorem same_ofRelation {old old' : Option Node}
    (h : Option.Rel (fun m n : Node => m.same n) old old') :
    (ofRelation old).same (ofRelation old') := by
  cases h with
  | none => exact same_empty
  | @some m n h =>
    cases m <;> cases n <;> simp_all [Node.same, ofRelation, same_empty]

end Tree

end QueryFilter
