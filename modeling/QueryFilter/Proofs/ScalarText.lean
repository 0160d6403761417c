import QueryFilter.Proofs.FloatText

/-!
# Scalars read back from text

What a text stands for is read back from its plain form (`Scalar.ofText_display`). A text without
commas gives a form without commas, so a list of such scalars is read back from its items with
commas between them.
-/

namespace QueryFilter

namespace Chars

theorem isBlank_of_isNumberChar {c : Char} (h : Json.isNumberChar c) : isBlank c = false := by
  simp only [Json.isNumberChar, Bool.or_eq_true, List.contains_eq_mem, decide_eq_true_eq,
    List.mem_cons, List.not_mem_nil, or_false] at h
  rcases h with h | rfl | rfl | rfl | rfl | rfl
  · obtain ⟨hlow, hhigh⟩ := isDigit_iff.mp h
    simp only [isBlank, Bool.or_eq_false_iff, Bool.and_eq_false_iff, decide_eq_false_iff_not,
      beq_eq_false_iff_ne]
    omega
  all_goals decide

theorem dropWhile_isBlank {before cs : List Char} (hbefore : ∀ c ∈ before, isBlank c)
    (h : ∀ c ∈ cs, isBlank c = false) : (before ++ cs).dropWhile isBlank = cs := by
  rw [List.dropWhile_append_of_pos hbefore]
  cases cs with
  | nil => rfl
  | cons c cs => rw [List.dropWhile_cons_of_neg (by simp [h c (List.mem_cons_self ..)])]

/-- Blanks are all that is trimmed from around characters that are none. -/
theorem trim_append {before cs after : List Char} (hbefore : ∀ c ∈ before, isBlank c)
    (hafter : ∀ c ∈ after, isBlank c) (h : ∀ c ∈ cs, isBlank c = false) :
    trim (before ++ (cs ++ after)) = cs := by
  have hend : trimEnd (cs ++ after) = cs := by
    rw [trimEnd, List.reverse_append, dropWhile_isBlank (fun c hc => hafter c (by simpa using hc))
      (fun c hc => h c (by simpa using hc)), List.reverse_reverse]
  rw [trim, trimStart, List.dropWhile_append_of_pos hbefore]
  cases cs with
  | nil => rw [List.nil_append, List.dropWhile_eq_nil_iff.mpr hafter]; rfl
  | cons c cs =>
    rw [List.cons_append, List.dropWhile_cons_of_neg (by simp [h c (List.mem_cons_self ..)]),
      ← List.cons_append, hend]

theorem trim_eq_self {cs : List Char} (h : ∀ c ∈ cs, isBlank c = false) : trim cs = cs := by
  have := trim_append (List.forall_mem_nil _) (List.forall_mem_nil _) h
  rwa [List.nil_append, List.append_nil] at this

end Chars

namespace Scalar

/-! ## Single scalars -/

/-- A text of the characters of numbers between blanks is no word. -/
theorem ofText_of_trim {s : String} (h : ∀ c ∈ Chars.trim s.toList, Json.isNumberChar c) :
    ofText s = (number? (Chars.trim s.toList)).getD (text s) := by
  have htrue : s ≠ "true" := by
    rintro rfl
    exact absurd (h 't' (by decide)) (by decide)
  have hfalse : s ≠ "false" := by
    rintro rfl
    exact absurd (h 'f' (by decide)) (by decide)
  rw [ofText, if_neg htrue, if_neg hfalse]

/-- A text of the characters of numbers is a number if it is read as one. -/
theorem ofText_of_number? {cs : List Char} {v : Scalar}
    (hchars : ∀ c ∈ cs, Chars.IsNumeral c) (h : number? cs = some v) :
    ofText (String.ofList cs) = v := by
  have htrim : Chars.trim (String.ofList cs).toList = cs := by
    rw [String.toList_ofList]
    exact Chars.trim_eq_self fun c hc => Chars.isBlank_of_isNumberChar (hchars c hc).isNumberChar
  rw [ofText_of_trim (by rw [htrim]; exact fun c hc => (hchars c hc).isNumberChar), htrim, h,
    Option.getD_some]

theorem isNumeral_of_mem_ofInt {n : Int} {c : Char} (hc : c ∈ Chars.ofInt n) :
    Chars.IsNumeral c := by
  unfold Chars.ofInt at hc
  split at hc
  · rcases List.mem_cons.mp hc with hc | hc
    · exact Or.inr (Or.inr hc)
    · exact Or.inl (Decimal.isDigit_toDigits _ c hc)
  · exact Or.inl (Decimal.isDigit_toDigits _ c hc)

theorem number?_ofInt (n : Int64) : number? (Chars.ofInt n.toInt) = some (int n) := by
  rw [number?, Integer.ofMarked?_eq_none fun _ hc => (isNumeral_of_mem_ofInt hc).isNumberChar,
    Integer.ofDecimal?_ofInt]

theorem ofBinary64_ne_text (x : Binary64) (s : String) : ofBinary64 x ≠ text s := by
  rw [ofBinary64]
  cases x.toInt?.bind int64? <;> simp

theorem number?_ne_text (cs : List Char) (s : String) : number? cs ≠ some (text s) := by
  unfold number?
  split
  · simp
  · split
    · simp
    · rw [ne_eq, Option.map_eq_some_iff]
      rintro ⟨x, _, hx⟩
      exact ofBinary64_ne_text x s hx

theorem eq_of_ofText_eq_text {s s' : String} (h : ofText s = text s') : s = s' := by
  unfold ofText at h
  split at h
  · cases h
  · split at h
    · cases h
    · cases hnumber : number? (Chars.trim s.toList) with
      | none =>
        rw [hnumber] at h
        cases h
        rfl
      | some v =>
        rw [hnumber, Option.getD_some] at h
        exact absurd (h ▸ hnumber) (number?_ne_text _ s')

theorem ofText_display {s : String} {v : Scalar} (hs : ofText s = v) : ofText v.display = v := by
  cases v with
  | bool b => cases b <;> decide
  | int n => exact ofText_of_number? (fun _ => isNumeral_of_mem_ofInt) (number?_ofInt n)
  | float x =>
    have hcanonical := canonical_ofText s
    rw [hs] at hcanonical
    exact ofText_of_number? (fun _ => Binary64.isNumeral_of_mem_display)
      (number?_chars_display hcanonical)
  | text s' => exact eq_of_ofText_eq_text hs ▸ hs

/-- What a text without commas stands for. -/
def Listed (v : Scalar) : Prop := ∃ s : String, ',' ∉ s.toList ∧ ofText s = v

namespace Listed

variable {v : Scalar}

theorem ofText_display (h : v.Listed) : ofText v.display = v :=
  have ⟨_, _, hs⟩ := h
  Scalar.ofText_display hs

theorem not_mem_display (h : v.Listed) : ',' ∉ v.display.toList := by
  have hnumber : ∀ cs : List Char, (∀ c ∈ cs, Chars.IsNumeral c) →
      ',' ∉ (String.ofList cs).toList := by
    intro cs hcs hc
    rw [String.toList_ofList] at hc
    exact absurd (hcs ',' hc) (by decide)
  obtain ⟨s, hcomma, hs⟩ := h
  cases v with
  | bool b => cases b <;> decide
  | int n => exact hnumber _ fun _ => isNumeral_of_mem_ofInt
  | float x => exact hnumber _ fun _ => Binary64.isNumeral_of_mem_display
  | text s' => exact eq_of_ofText_eq_text hs ▸ hcomma

end Listed

/-! ## Lists of scalars -/

theorem listed_of_mem_listOfText {s : String} {v : Scalar} (h : v ∈ listOfText s) : v.Listed := by
  obtain ⟨piece, hpiece, rfl⟩ := List.mem_map.mp h
  exact ⟨piece, Text.not_mem_of_mem_pieces hpiece, rfl⟩

theorem listOfText_ne_nil (s : String) : listOfText s ≠ [] := by
  simp [listOfText, Text.pieces_ne_nil]

theorem listOfText_of_not_mem {s : String} (h : ',' ∉ s.toList) : listOfText s = [ofText s] := by
  rw [listOfText, Text.pieces_of_not_mem h, List.map_singleton]

theorem not_mem_of_listOfText {s : String} {v : Scalar} (h : listOfText s = [v]) :
    ',' ∉ s.toList := by
  obtain ⟨piece, hpieces, _⟩ := List.map_eq_singleton_iff.mp h
  have hjoin := Text.join_pieces ',' s
  have hpiece : ',' ∉ piece.toList := Text.not_mem_of_mem_pieces (s := s) (by simp [hpieces])
  rw [hpieces] at hjoin
  rw [← hjoin]
  simpa [Text.join] using hpiece

/-- The scalar before the first comma is the one of the first piece. -/
theorem firstOfText_eq (s : String) :
    firstOfText s = ofText ((Text.pieces ',' s).head (Text.pieces_ne_nil ',' s)) := by
  cases hcut : Text.cutFirst? ',' s with
  | none =>
    have hpieces := Text.pieces_of_not_mem (Text.cutFirst?_eq_none_iff.mp hcut)
    simp only [firstOfText, hcut, hpieces, List.head_cons]
  | some cut =>
    have hpieces := Text.pieces_of_cutFirst? hcut
    simp only [firstOfText, hcut, hpieces, List.head_cons]

theorem listed_firstOfText (s : String) : (firstOfText s).Listed := by
  rw [firstOfText_eq]
  exact ⟨_, Text.not_mem_of_mem_pieces (List.head_mem _), rfl⟩

theorem listOfText_display {vs : List Scalar} (hne : vs ≠ []) (h : ∀ v ∈ vs, v.Listed) :
    listOfText (Operand.many vs).display = vs := by
  have hcomma : ∀ s ∈ vs.map display, ',' ∉ s.toList := by
    intro s hs
    obtain ⟨v, hv, rfl⟩ := List.mem_map.mp hs
    exact (h v hv).not_mem_display
  have hread : ∀ v ∈ vs, (ofText ∘ display) v = id v := fun v hv => (h v hv).ofText_display
  rw [listOfText, Operand.display, Operand.values, Text.pieces_join (by simpa using hne) hcomma,
    List.map_map, List.map_congr_left hread, List.map_id]

/-- What a text stands for, and what a text of items with commas between them stands for, is the
same after printing. -/
theorem ofText_display_ofText (s : String) :
    ofText (ofText s).display = ofText s ∧
      listOfText (Operand.many (listOfText s)).display = listOfText s := by
  constructor
  · exact ofText_display rfl
  · exact listOfText_display (listOfText_ne_nil s) fun _ => listed_of_mem_listOfText

theorem display_one (v : Scalar) : (Operand.one v).display = v.display := by
  simp [Operand.display, Operand.values, Text.join]

theorem listOfText_display_one {v : Scalar} (h : v.Listed) : listOfText v.display = [v] := by
  rw [listOfText_of_not_mem h.not_mem_display, h.ofText_display]

theorem firstOfText_display {v : Scalar} (h : v.Listed) : firstOfText v.display = v := by
  rw [firstOfText, Text.cutFirst?_eq_none_iff.mpr h.not_mem_display]
  exact h.ofText_display

end Scalar

end QueryFilter
