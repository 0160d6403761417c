import Mathlib.Data.List.Induction
import QueryFilter.Proofs.Entries

/-!
# Maps that grow by one change after the other

A fold of changes, each at one key, leaves the keys in the order in which they first occur, and at
each key what the changes at that key alone would leave (`get?_foldl_update`). A map that is a
function on such keys stays one when it is changed (`update_tabulate`).
-/

namespace QueryFilter

namespace Entries

variable {κ α β : Type} [DecidableEq κ]

/-! ## First occurrences -/

theorem eraseDups_append_singleton (ks : List κ) (k : κ) :
    (ks ++ [k]).eraseDups = if k ∈ ks then ks.eraseDups else ks.eraseDups ++ [k] := by
  rw [List.eraseDups_append]
  by_cases h : k ∈ ks
  · simp [List.removeAll, h]
  · simp [List.removeAll, h, List.eraseDups_cons]

theorem nodup_eraseDups (ks : List κ) : ks.eraseDups.Nodup := by
  induction ks using List.reverseRecOn with
  | nil => simp
  | append_singleton ks k ih =>
    rw [eraseDups_append_singleton]
    by_cases h : k ∈ ks
    · rw [if_pos h]
      exact ih
    · rw [if_neg h, List.nodup_append]
      refine ⟨ih, by simp, ?_⟩
      intro k' hk' k'' hk'' heq
      rw [List.mem_singleton.mp hk''] at heq
      exact h (heq ▸ List.mem_eraseDups.mp hk')

/-! ## Folds of changes -/

theorem keys_foldl_update (key : β → κ) (step : Option α → β → α) (xs : List β) :
    keys (xs.foldl (fun es x => update (key x) (step · x) es) []) = (xs.map key).eraseDups := by
  induction xs using List.reverseRecOn with
  | nil => rfl
  | append_singleton xs x ih =>
    rw [List.foldl_append, List.foldl_cons, List.foldl_nil, keys_update, ih, List.map_append,
      List.map_cons, List.map_nil, eraseDups_append_singleton]
    simp only [List.mem_eraseDups]

theorem get?_foldl_update (key : β → κ) (step : Option α → β → α) (xs : List β)
    (es : List (κ × α)) (k : κ) :
    get? k (xs.foldl (fun es x => update (key x) (step · x) es) es) =
      (xs.filter (key · = k)).foldl (fun old x => some (step old x)) (get? k es) := by
  induction xs generalizing es with
  | nil => rfl
  | cons x xs ih =>
    rw [List.foldl_cons, ih, get?_update]
    by_cases h : key x = k
    · simp [h]
    · simp [h, Ne.symm h]

end Entries

/-! ## Functions as maps -/

namespace OrderedMap

variable {κ α : Type} [DecidableEq κ]

/-- The map that has the values of a function at some keys, in the order of their first
occurrence. -/
def tabulate (ks : List κ) (f : κ → α) : OrderedMap κ α where
  entries := ks.eraseDups.map fun k => (k, f k)
  nodup := by
    rw [Entries.keys, List.map_map]
    simpa [Function.comp_def] using Entries.nodup_eraseDups ks

theorem tabulate_congr {ks : List κ} {f g : κ → α} (h : ∀ k ∈ ks, f k = g k) :
    tabulate ks f = tabulate ks g := by
  apply ext
  apply List.map_congr_left
  intro k hk
  rw [h k (List.mem_eraseDups.mp hk)]

theorem update_map_of_mem {ks : List κ} {k : κ} (f : κ → α) (g : Option α → α) (hnodup : ks.Nodup)
    (h : k ∈ ks) :
    Entries.update k g (ks.map fun k => (k, f k)) =
      ks.map fun k' => (k', if k' = k then g (some (f k)) else f k') := by
  induction ks with
  | nil => cases h
  | cons k₀ ks ih =>
    rw [List.nodup_cons] at hnodup
    by_cases hk : k₀ = k
    · subst hk
      have hrest : ∀ k' ∈ ks, (k', f k') = (k', if k' = k₀ then g (some (f k₀)) else f k') := by
        intro k' hk'
        have hne : k' ≠ k₀ := fun heq => hnodup.1 (heq ▸ hk')
        rw [if_neg hne]
      simp [Entries.update, List.map_congr_left hrest]
    · have hmem : k ∈ ks := by simpa [Ne.symm hk] using h
      simp [Entries.update, hk, ih hnodup.2 hmem]

/-- A change makes the key one of the keys and keeps the function elsewhere. -/
theorem update_tabulate (ks : List κ) (f : κ → α) (k : κ) (g : Option α → α) :
    (tabulate ks f).update k g =
      tabulate (ks ++ [k])
        fun k' => if k' = k then g (if k ∈ ks then some (f k) else none) else f k' := by
  apply ext
  change Entries.update k g (ks.eraseDups.map fun k => (k, f k)) = List.map _ _
  rw [Entries.eraseDups_append_singleton]
  by_cases h : k ∈ ks
  · rw [if_pos h, if_pos h]
    exact update_map_of_mem f g (Entries.nodup_eraseDups ks) (List.mem_eraseDups.mpr h)
  · have hkeys : k ∉ Entries.keys (ks.eraseDups.map fun k => (k, f k)) := by
      simpa [Entries.keys, Function.comp_def] using h
    have hrest : ∀ k' ∈ ks.eraseDups, (k', f k') = (k', if k' = k then g none else f k') := by
      intro k' hk'
      have hne : k' ≠ k := fun heq => h (heq ▸ List.mem_eraseDups.mp hk')
      rw [if_neg hne]
    rw [if_neg h, if_neg h, Entries.update_eq_append g hkeys, List.map_append,
      List.map_congr_left hrest]
    simp

end OrderedMap

end QueryFilter
