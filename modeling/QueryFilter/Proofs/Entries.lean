import QueryFilter.OrderedMap

/-!
# Entries of maps, as lists

A key that is new is appended, and a key that is there keeps its place. Writing many entries leaves
those whose keys are not among them, up to order (`putAll_perm`), and only appends if all keys are
new (`putAll_eq_append`).
-/

namespace QueryFilter

namespace Entries

section
variable {κ α : Type}

@[simp] theorem keys_nil : keys ([] : List (κ × α)) = [] := rfl

@[simp] theorem keys_cons (e : κ × α) (es : List (κ × α)) : keys (e :: es) = e.1 :: keys es := rfl

@[simp] theorem keys_append (es fs : List (κ × α)) : keys (es ++ fs) = keys es ++ keys fs :=
  List.map_append

theorem mem_keys_of_mem {e : κ × α} {es : List (κ × α)} (h : e ∈ es) : e.1 ∈ keys es :=
  List.mem_map_of_mem h

end

section
variable {κ α : Type} [DecidableEq κ]

theorem update_eq_append {k : κ} (f : Option α → α) {es : List (κ × α)} (h : k ∉ keys es) :
    update k f es = es ++ [(k, f none)] := by
  induction es with
  | nil => rfl
  | cons e es ih =>
    obtain ⟨k', a⟩ := e
    rw [keys_cons, List.mem_cons, not_or] at h
    rw [update, if_neg (Ne.symm h.1), ih h.2, List.cons_append]

theorem update_update (k : κ) (f g : Option α → α) (es : List (κ × α)) :
    update k g (update k f es) = update k (fun old => g (some (f old))) es := by
  induction es with
  | nil => simp [update]
  | cons e es ih =>
    obtain ⟨k', a⟩ := e
    by_cases h : k' = k
    · simp [update, h]
    · simp [update, h, ih]

theorem mem_keys_update {k k' : κ} {f : Option α → α} {es : List (κ × α)} :
    k' ∈ keys (update k f es) ↔ k' = k ∨ k' ∈ keys es := by
  rw [keys_update]
  split
  · next h => exact ⟨Or.inr, fun h' => h'.elim (fun he => he ▸ h) id⟩
  · rw [List.mem_append, List.mem_singleton, or_comm]

theorem mem_update {k : κ} {f : Option α → α} {e : κ × α} {es : List (κ × α)}
    (h : e ∈ update k f es) : e ∈ es ∨ e = (k, f (get? k es)) := by
  induction es with
  | nil => exact Or.inr (List.mem_singleton.mp h)
  | cons e' es ih =>
    obtain ⟨k', a⟩ := e'
    by_cases hk : k' = k
    · subst hk
      rw [update, if_pos rfl] at h
      rcases List.mem_cons.mp h with h | h
      · right
        rw [h, get?, if_pos rfl]
      · exact Or.inl (List.mem_cons_of_mem _ h)
    · rw [update, if_neg hk] at h
      rw [get?, if_neg hk]
      rcases List.mem_cons.mp h with h | h
      · exact Or.inl (h ▸ List.mem_cons_self ..)
      · exact (ih h).imp_left (List.mem_cons_of_mem _)

theorem mem_of_get? {k : κ} {a : α} {es : List (κ × α)} (h : get? k es = some a) :
    (k, a) ∈ es := by
  induction es with
  | nil => cases h
  | cons e es ih =>
    obtain ⟨k', b⟩ := e
    by_cases hk : k' = k
    · rw [get?, if_pos hk, Option.some.injEq] at h
      rw [← hk, h]
      exact List.mem_cons_self ..
    · rw [get?, if_neg hk] at h
      exact List.mem_cons_of_mem _ (ih h)

theorem update_ne_nil (k : κ) (f : Option α → α) (es : List (κ × α)) : update k f es ≠ [] := by
  cases es with
  | nil => simp [update]
  | cons e es =>
    rw [update]
    split <;> simp

theorem putAll_nil (es : List (κ × α)) : putAll es [] = es := rfl

theorem putAll_cons (es : List (κ × α)) (e : κ × α) (more : List (κ × α)) :
    putAll es (e :: more) = putAll (put e.1 e.2 es) more := rfl

theorem putAll_eq_append {es more : List (κ × α)} (h : (keys (es ++ more)).Nodup) :
    putAll es more = es ++ more := by
  induction more generalizing es with
  | nil => rw [putAll_nil, List.append_nil]
  | cons e more ih =>
    have hk : e.1 ∉ keys es := by
      intro hm
      rw [keys_append, keys_cons, List.nodup_append] at h
      exact h.2.2 e.1 hm e.1 (List.mem_cons_self ..) rfl
    rw [putAll_cons, put, update_eq_append _ hk]
    rw [ih (by rw [List.append_assoc]; exact h), List.append_assoc]
    rfl

theorem collect_eq_self {es : List (κ × α)} (h : (keys es).Nodup) : collect es = es :=
  putAll_eq_append h

theorem mem_of_mem_putAll {e : κ × α} {es more : List (κ × α)} (h : e ∈ putAll es more) :
    e ∈ es ∨ e ∈ more := by
  induction more generalizing es with
  | nil => exact Or.inl h
  | cons e' more ih =>
    rw [putAll_cons] at h
    rcases ih h with h | h
    · rcases mem_update h with h | rfl
      · exact Or.inl h
      · exact Or.inr (by simp)
    · exact Or.inr (by simp [h])

theorem mem_of_mem_collect {e : κ × α} {es : List (κ × α)} (h : e ∈ collect es) : e ∈ es := by
  simpa using mem_of_mem_putAll h

theorem mem_keys_putAll {k : κ} {es more : List (κ × α)} :
    k ∈ keys (putAll es more) ↔ k ∈ keys es ∨ k ∈ keys more := by
  induction more generalizing es with
  | nil => simp [putAll_nil]
  | cons e more ih =>
    rw [putAll_cons, ih, put, mem_keys_update, keys_cons, List.mem_cons, or_comm (a := k = e.1),
      or_assoc]

theorem mem_keys_collect {k : κ} {es : List (κ × α)} : k ∈ keys (collect es) ↔ k ∈ keys es := by
  rw [collect, mem_keys_putAll]
  simp

/-! ## Writing as a permutation -/

theorem filter_key_ne_eq_self {k : κ} {es : List (κ × α)} (h : k ∉ keys es) :
    es.filter (·.1 ≠ k) = es := by
  rw [List.filter_eq_self]
  intro e he
  exact decide_eq_true fun hk => h (hk ▸ mem_keys_of_mem he)

/-- A change of one entry leaves the others. -/
theorem filter_update (k : κ) (f : Option α → α) (es : List (κ × α)) :
    (update k f es).filter (·.1 ≠ k) = es.filter (·.1 ≠ k) := by
  induction es with
  | nil => simp [update]
  | cons e es ih =>
    by_cases hk : e.1 = k
    · simp [update, hk]
    · simp only [update, if_neg hk, List.filter_cons, ih]

theorem put_perm (k : κ) (a : α) {es : List (κ × α)} (h : (keys es).Nodup) :
    (put k a es).Perm (es.filter (·.1 ≠ k) ++ [(k, a)]) := by
  induction es with
  | nil => exact List.Perm.refl _
  | cons e es ih =>
    obtain ⟨k', b⟩ := e
    rw [keys_cons, List.nodup_cons] at h
    rw [put, update]
    by_cases hk : k' = k
    · subst hk
      have hrest : es.filter (·.1 ≠ k') = es := filter_key_ne_eq_self h.1
      rw [if_pos rfl, List.filter_cons_of_neg (by simp), hrest]
      exact (List.perm_append_singleton _ _).symm
    · rw [if_neg hk, List.filter_cons_of_pos (by simpa using hk), List.cons_append]
      exact (ih h.2).cons _

/-- What is written replaces the entries of its keys and leaves the others. -/
theorem putAll_perm {es more : List (κ × α)} (hes : (keys es).Nodup) (hmore : (keys more).Nodup) :
    (putAll es more).Perm (es.filter (·.1 ∉ keys more) ++ more) := by
  induction more generalizing es with
  | nil =>
    have hall : es.filter (·.1 ∉ keys ([] : List (κ × α))) = es :=
      List.filter_eq_self.mpr fun _ _ => by simp
    rw [putAll_nil, List.append_nil, hall]
  | cons e more ih =>
    obtain ⟨k, a⟩ := e
    rw [keys_cons, List.nodup_cons] at hmore
    rw [putAll_cons]
    refine (ih (nodup_keys_update k _ hes) hmore.2).trans ?_
    have hfilter := ((put_perm k a hes).filter (·.1 ∉ keys more)).append_right more
    refine hfilter.trans (List.Perm.of_eq ?_)
    have hnew : [(k, a)].filter (·.1 ∉ keys more) = [(k, a)] := by simpa using hmore.1
    have hold : (es.filter (·.1 ≠ k)).filter (·.1 ∉ keys more) =
        es.filter (·.1 ∉ keys ((k, a) :: more)) := by
      rw [List.filter_filter]
      apply List.filter_congr
      intro e _
      rw [Bool.and_comm]
      simp [not_or]
    rw [List.filter_append, hnew, hold, List.append_assoc]
    rfl

end

end Entries

end QueryFilter
