/-!
# Cutting text at a separator

A list of characters is cut at the first or at the last occurrence of a separator. A cut loses
nothing but the separator, and the side that was searched holds no further one
(`cutFirst?_eq_some_iff`, `cutLast?_eq_some_iff`). Pieces and their join are inverse to each other.
-/

namespace QueryFilter

namespace Chars

/-- The characters before and after the first `sep`. -/
def cutFirst? (sep : Char) : List Char → Option (List Char × List Char)
  | [] => none
  | c :: cs => if c = sep then some ([], cs) else (cutFirst? sep cs).map fun p => (c :: p.1, p.2)

/-- The characters before and after the last `sep`. -/
def cutLast? (sep : Char) : List Char → Option (List Char × List Char)
  | [] => none
  | c :: cs =>
    match cutLast? sep cs with
    | some p => some (c :: p.1, p.2)
    | none => if c = sep then some ([], cs) else none

theorem cutFirst?_append {sep : Char} (a b : List Char) (h : sep ∉ a) :
    cutFirst? sep (a ++ sep :: b) = some (a, b) := by
  induction a with
  | nil => simp [cutFirst?]
  | cons c a ih =>
    simp only [List.mem_cons, not_or] at h
    simp [cutFirst?, Ne.symm h.1, ih h.2]

theorem cutFirst?_eq_none_iff {sep : Char} (cs : List Char) :
    cutFirst? sep cs = none ↔ sep ∉ cs := by
  induction cs with
  | nil => simp [cutFirst?]
  | cons c cs ih =>
    by_cases h : c = sep
    · simp [cutFirst?, h]
    · simp [cutFirst?, h, ih, Ne.symm h]

theorem cutFirst?_eq_some_iff {sep : Char} {cs a b : List Char} :
    cutFirst? sep cs = some (a, b) ↔ cs = a ++ sep :: b ∧ sep ∉ a := by
  refine ⟨fun h => ?_, fun h => h.1 ▸ cutFirst?_append a b h.2⟩
  induction cs generalizing a with
  | nil => simp [cutFirst?] at h
  | cons c cs ih =>
    by_cases hc : c = sep
    · simp [cutFirst?, hc] at h
      obtain ⟨rfl, rfl⟩ := h
      simp [hc]
    · simp [cutFirst?, hc] at h
      obtain ⟨a', hp, rfl⟩ := h
      have := ih hp
      simp [this.1, this.2, Ne.symm hc]

theorem cutLast?_eq_none_iff {sep : Char} (cs : List Char) :
    cutLast? sep cs = none ↔ sep ∉ cs := by
  induction cs with
  | nil => simp [cutLast?]
  | cons c cs ih =>
    cases h : cutLast? sep cs with
    | none =>
      by_cases hc : c = sep
      · simp [cutLast?, h, hc]
      · simp [cutLast?, h, hc, Ne.symm hc, ih.1 h]
    | some p =>
      have hm : sep ∈ cs := by
        rcases Decidable.em (sep ∈ cs) with hm | hm
        · exact hm
        · rw [ih.2 hm] at h; simp at h
      simp [cutLast?, h, hm]

theorem cutLast?_append {sep : Char} (a b : List Char) (h : sep ∉ b) :
    cutLast? sep (a ++ sep :: b) = some (a, b) := by
  induction a with
  | nil => simp [cutLast?, (cutLast?_eq_none_iff b).2 h]
  | cons c a ih => simp [cutLast?, ih]

theorem cutLast?_eq_some_iff {sep : Char} {cs a b : List Char} :
    cutLast? sep cs = some (a, b) ↔ cs = a ++ sep :: b ∧ sep ∉ b := by
  refine ⟨fun h => ?_, fun h => h.1 ▸ cutLast?_append a b h.2⟩
  induction cs generalizing a with
  | nil => simp [cutLast?] at h
  | cons c cs ih =>
    cases hp : cutLast? sep cs with
    | none =>
      simp only [cutLast?, hp] at h
      split at h
      · next hc =>
        simp only [Option.some.injEq, Prod.mk.injEq] at h
        exact ⟨by simp [← h.1, ← h.2, hc], h.2 ▸ (cutLast?_eq_none_iff cs).1 hp⟩
      · simp at h
    | some p =>
      simp only [cutLast?, hp, Option.some.injEq, Prod.mk.injEq] at h
      obtain ⟨rfl, rfl⟩ := h
      have := ih hp
      exact ⟨by rw [this.1]; rfl, this.2⟩

end Chars

namespace Text

def cutFirst? (sep : Char) (s : String) : Option (String × String) :=
  (Chars.cutFirst? sep s.toList).map fun p => (String.ofList p.1, String.ofList p.2)

def cutLast? (sep : Char) (s : String) : Option (String × String) :=
  (Chars.cutLast? sep s.toList).map fun p => (String.ofList p.1, String.ofList p.2)

/-- The pieces between the occurrences of `sep`; there is always at least one. -/
def pieces (sep : Char) (s : String) : List String :=
  (s.toList.splitOn sep).map String.ofList

/-- The texts in order, with `sep` between neighbours. -/
def join (sep : Char) (ss : List String) : String :=
  String.ofList ([sep].intercalate (ss.map String.toList))

theorem cutFirst?_eq_none_iff {sep : Char} {s : String} :
    cutFirst? sep s = none ↔ sep ∉ s.toList := by
  rw [cutFirst?, Option.map_eq_none_iff, Chars.cutFirst?_eq_none_iff]

theorem cutFirst?_eq_some_iff {sep : Char} {s a b : String} :
    cutFirst? sep s = some (a, b) ↔
      s.toList = a.toList ++ sep :: b.toList ∧ sep ∉ a.toList := by
  rw [cutFirst?, Option.map_eq_some_iff]
  constructor
  · rintro ⟨p, hp, heq⟩
    rw [← (Prod.mk.inj heq).1, ← (Prod.mk.inj heq).2, String.toList_ofList, String.toList_ofList]
    exact Chars.cutFirst?_eq_some_iff.mp hp
  · intro h
    exact ⟨_, Chars.cutFirst?_eq_some_iff.mpr h, by simp⟩

theorem not_mem_of_cutFirst? {sep : Char} {s a b : String} (h : cutFirst? sep s = some (a, b)) :
    sep ∉ a.toList :=
  (cutFirst?_eq_some_iff.mp h).2

theorem cutLast?_eq_none_iff {sep : Char} {s : String} :
    cutLast? sep s = none ↔ sep ∉ s.toList := by
  rw [cutLast?, Option.map_eq_none_iff, Chars.cutLast?_eq_none_iff]

theorem cutLast?_eq_some_iff {sep : Char} {s a b : String} :
    cutLast? sep s = some (a, b) ↔
      s.toList = a.toList ++ sep :: b.toList ∧ sep ∉ b.toList := by
  rw [cutLast?, Option.map_eq_some_iff]
  constructor
  · rintro ⟨p, hp, heq⟩
    rw [← (Prod.mk.inj heq).1, ← (Prod.mk.inj heq).2, String.toList_ofList, String.toList_ofList]
    exact Chars.cutLast?_eq_some_iff.mp hp
  · intro h
    exact ⟨_, Chars.cutLast?_eq_some_iff.mpr h, by simp⟩

theorem pieces_ne_nil (sep : Char) (s : String) : pieces sep s ≠ [] := by
  simp [pieces]

theorem not_mem_of_mem_splitOn {sep : Char} {cs piece : List Char} (h : piece ∈ cs.splitOn sep) :
    sep ∉ piece := by
  induction cs generalizing piece with
  | nil =>
    rw [List.splitOn_nil, List.mem_singleton] at h
    simp [h]
  | cons c cs ih =>
    rw [List.splitOn_cons_eq_if_modifyHead] at h
    split at h
    · rcases List.mem_cons.mp h with rfl | h
      · simp
      · exact ih h
    · next hc =>
      obtain ⟨first, rest, hsplit⟩ := List.exists_cons_of_ne_nil (List.splitOn_ne_nil sep cs)
      rw [hsplit, List.modifyHead_cons] at h
      rw [hsplit] at ih
      rcases List.mem_cons.mp h with rfl | h
      · rw [List.mem_cons, not_or]
        exact ⟨fun he => hc (beq_iff_eq.mpr he.symm), ih (List.mem_cons_self ..)⟩
      · exact ih (List.mem_cons_of_mem _ h)

theorem not_mem_of_mem_pieces {sep : Char} {s piece : String} (h : piece ∈ pieces sep s) :
    sep ∉ piece.toList := by
  obtain ⟨cs, hcs, rfl⟩ := List.mem_map.mp h
  rw [String.toList_ofList]
  exact not_mem_of_mem_splitOn hcs

theorem toList_join_cons {sep : Char} {v : String} {vs : List String} (h : vs ≠ []) :
    (join sep (v :: vs)).toList = v.toList ++ sep :: (join sep vs).toList := by
  have hmap : vs.map String.toList ≠ [] := mt List.map_eq_nil_iff.mp h
  simp [join, List.intercalate_cons_of_ne_nil hmap]

theorem join_pieces (sep : Char) (s : String) : join sep (pieces sep s) = s := by
  simp [join, pieces, Function.comp_def]

/-- Texts without the separator are the pieces of their join. -/
theorem pieces_join {sep : Char} {ss : List String} (hne : ss ≠ [])
    (h : ∀ s ∈ ss, sep ∉ s.toList) : pieces sep (join sep ss) = ss := by
  have hpieces : ∀ cs ∈ ss.map String.toList, sep ∉ cs := by
    intro cs hcs
    obtain ⟨s, hs, rfl⟩ := List.mem_map.mp hcs
    exact h s hs
  rw [pieces, join, String.toList_ofList, List.splitOn_intercalate sep hpieces (by simpa using hne),
    List.map_map]
  simp

theorem pieces_of_not_mem {sep : Char} {s : String} (h : sep ∉ s.toList) : pieces sep s = [s] := by
  have hjoin : join sep [s] = s := by simp [join]
  have hpieces : pieces sep (join sep [s]) = [s] :=
    pieces_join (List.cons_ne_nil s []) (by simpa using h)
  rwa [hjoin] at hpieces

/-- The first cut takes off the first piece. -/
theorem pieces_of_cutFirst? {sep : Char} {s a b : String} (h : cutFirst? sep s = some (a, b)) :
    pieces sep s = a :: pieces sep b := by
  obtain ⟨hs, ha⟩ := cutFirst?_eq_some_iff.mp h
  have hjoin : join sep (a :: pieces sep b) = s := by
    apply String.toList_inj.mp
    rw [toList_join_cons (pieces_ne_nil sep b), join_pieces, hs]
  have hpieces : pieces sep (join sep (a :: pieces sep b)) = a :: pieces sep b := by
    refine pieces_join (List.cons_ne_nil _ _) ?_
    rw [List.forall_mem_cons]
    exact ⟨ha, fun _ hpiece => not_mem_of_mem_pieces hpiece⟩
  rwa [hjoin] at hpieces

end Text

end QueryFilter
