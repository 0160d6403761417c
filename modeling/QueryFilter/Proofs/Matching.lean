import Mathlib.Data.List.Infix
import QueryFilter.Sql.Condition

/-!
# Text that patterns match

A pattern matches a text if its characters do, one after the other, where the wildcards match more
than themselves. The user's text is escaped, so it matches nothing but itself, and it is searched
for where the operator says (`Test.acceptsText_ofOperator`). Upper case neither makes nor hides a
character with a meaning of its own, so this holds where case is ignored too.
-/

namespace QueryFilter

namespace Like

/-! ## Patterns -/

/-- Whether a pattern matches a whole text. A percent sign stands for any text, an underscore for
any character, and a character after a backslash for itself. -/
def accepts : List Char → List Char → Bool
  | [], s => s.isEmpty
  | '%' :: ps, s => s.tails.any (accepts ps)
  | '_' :: ps, s => s.tail?.any (accepts ps)
  | ['\\'], _ => false
  | '\\' :: c :: ps, s => s.head? == some c && accepts ps s.tail
  | c :: ps, s => s.head? == some c && accepts ps s.tail

/-- Whether a character has a meaning of its own in a pattern. -/
def IsSpecial (c : Char) : Prop := c = '\\' ∨ c = '%' ∨ c = '_'

instance (c : Char) : Decidable (IsSpecial c) :=
  inferInstanceAs (Decidable (_ ∨ _))

theorem head?_and_tail_iff {c : Char} {s : List Char} {q : List Char → Bool} :
    (s.head? == some c && q s.tail) ↔ ∃ t, s = c :: t ∧ q t := by
  cases s with
  | nil => simp
  | cons d s =>
    rw [List.head?_cons, List.tail_cons, Bool.and_eq_true, beq_iff_eq, Option.some.injEq]
    constructor
    · rintro ⟨rfl, h⟩
      exact ⟨s, rfl, h⟩
    · rintro ⟨t, heq, h⟩
      cases heq
      exact ⟨rfl, h⟩

theorem accepts_nil {s : List Char} : accepts [] s ↔ s = [] := by
  rw [accepts, List.isEmpty_iff]

theorem accepts_percent {ps s : List Char} :
    accepts ('%' :: ps) s ↔ ∃ t, t <:+ s ∧ accepts ps t := by
  simp [accepts]

theorem accepts_escaped {c : Char} {ps s : List Char} :
    accepts ('\\' :: c :: ps) s ↔ ∃ t, s = c :: t ∧ accepts ps t :=
  head?_and_tail_iff

theorem accepts_plain {c : Char} (h : ¬ IsSpecial c) {ps s : List Char} :
    accepts (c :: ps) s ↔ ∃ t, s = c :: t ∧ accepts ps t := by
  have heq : accepts (c :: ps) s = (s.head? == some c && accepts ps s.tail) := by
    simp only [IsSpecial, not_or] at h
    rw [accepts]
    all_goals simp [h]
  rw [heq]
  exact head?_and_tail_iff

/-! ## Literal text -/

theorem accepts_escapeChar_append {c : Char} {ps s : List Char} :
    accepts (escapeChar c ++ ps) s ↔ ∃ t, s = c :: t ∧ accepts ps t := by
  unfold escapeChar
  split
  · exact accepts_escaped
  · next h => exact accepts_plain h

theorem accepts_literal_append {u ps s : List Char} :
    accepts (literal u ++ ps) s ↔ ∃ t, s = u ++ t ∧ accepts ps t := by
  unfold literal
  induction u generalizing s with
  | nil => simp
  | cons c u ih =>
    rw [List.flatMap_cons, List.append_assoc, accepts_escapeChar_append]
    constructor
    · rintro ⟨t, rfl, h⟩
      obtain ⟨r, rfl, hr⟩ := ih.mp h
      exact ⟨r, rfl, hr⟩
    · rintro ⟨r, rfl, hr⟩
      exact ⟨u ++ r, rfl, ih.mpr ⟨r, rfl, hr⟩⟩

/-- A text with a backslash before each occurrence of a character. -/
def escapeEach (c : Char) (cs : List Char) : List Char :=
  cs.flatMap fun d => if d = c then ['\\', d] else [d]

theorem escapeEach_append (c : Char) (cs ds : List Char) :
    escapeEach c (cs ++ ds) = escapeEach c cs ++ escapeEach c ds :=
  List.flatMap_append

/-- Escaping one character after the other is escaping them at once, as long as the backslash comes
first: it must not escape the backslashes that the others add. -/
theorem literal_eq_escapeEach (cs : List Char) :
    literal cs = escapeEach '_' (escapeEach '%' (escapeEach '\\' cs)) := by
  have hchar (c : Char) :
      escapeChar c = escapeEach '_' (escapeEach '%' (escapeEach '\\' [c])) := by
    by_cases h : IsSpecial c
    · rcases h with rfl | rfl | rfl
      all_goals decide
    · have hc : escapeChar c = [c] := if_neg h
      simp only [IsSpecial, not_or] at h
      simp [hc, escapeEach, h]
  induction cs with
  | nil => rfl
  | cons c cs ih =>
    show escapeChar c ++ literal cs = _
    rw [← List.singleton_append, escapeEach_append, escapeEach_append, escapeEach_append, ← ih,
      hchar]

theorem accepts_literal {u s : List Char} : accepts (literal u) s ↔ s = u := by
  rw [← List.append_nil (literal u), accepts_literal_append]
  simp [accepts_nil]

/-- Whether a text stands in another one at the place where an operator looks for it. -/
def Found (op : Operator) (u s : List Char) : Prop :=
  match op with
  | .startsWith => u <+: s
  | .endsWith => u <:+ s
  | _ => u <:+: s

instance (op : Operator) (u s : List Char) : Decidable (Found op u s) :=
  match op with
  | .startsWith => inferInstanceAs (Decidable (u <+: s))
  | .endsWith => inferInstanceAs (Decidable (u <:+ s))
  | .isIn | .notIn | .notEqual | .greater | .atLeast | .less | .atMost | .contains =>
    inferInstanceAs (Decidable (u <:+: s))

theorem accepts_literal_percent {u s : List Char} : accepts (literal u ++ ['%']) s ↔ u <+: s := by
  rw [accepts_literal_append]
  constructor
  · rintro ⟨t, rfl, -⟩
    exact List.prefix_append u t
  · rintro ⟨t, rfl⟩
    exact ⟨t, rfl, accepts_percent.mpr ⟨[], List.nil_suffix, rfl⟩⟩

theorem accepts_pattern (op : Operator) {u s : List Char} :
    accepts (pattern op u) s ↔ Found op u s := by
  unfold pattern Found
  split
  · exact accepts_literal_percent
  · rw [accepts_percent]
    simp [accepts_literal]
  · rw [List.cons_append, accepts_percent, List.infix_iff_prefix_suffix]
    simp only [accepts_literal_percent, and_comm]

/-! ## Upper case -/

theorem toNat_ofNat_eq (n : Nat) : (Char.ofNat n).toNat = n ∨ (Char.ofNat n).toNat = 0 := by
  by_cases h : n.isValidChar
  · have hchar : Char.ofNat n = Char.ofNatAux n h := dif_pos h
    rw [hchar]
    exact Or.inl rfl
  · -- a number that is no code point stands for the null character
    have hchar : Char.ofNat n = Char.ofNat 0 := (dif_neg h).trans (dif_pos (by decide)).symm
    rw [hchar]
    exact Or.inr rfl

/-- Whether a character is one of the printed ones of ASCII and no letter. -/
def IsCaseless (c : Char) : Prop :=
  (0x20 ≤ c.toNat ∧ c.toNat < 0x80) ∧
    ¬ (0x41 ≤ c.toNat ∧ c.toNat ≤ 0x5A) ∧ ¬ (0x61 ≤ c.toNat ∧ c.toNat ≤ 0x7A)

instance : DecidablePred IsCaseless := fun _ => inferInstanceAs (Decidable (_ ∧ _))

theorem IsSpecial.isCaseless {c : Char} (h : IsSpecial c) : IsCaseless c := by
  rcases h with rfl | rfl | rfl
  all_goals decide

theorem toUpper_of_isCaseless : ∀ n < 0x80,
    IsCaseless (Char.ofNat n) ∨ IsCaseless (Char.ofNat n).toUpper →
      (Char.ofNat n).toUpper = Char.ofNat n := by
  decide +kernel

theorem not_isCaseless_of_expansions : ∀ e ∈ CaseTable.expansions,
    e.2 ≠ [] ∧ ∀ n ∈ e.2, ¬ IsCaseless (Char.ofNat n) := by
  decide +kernel

-- the forms of a run are letters of ASCII, or past ASCII
theorem forms_of_mem_runs : ∀ r ∈ CaseTable.runs,
    0x80 ≤ r.2.2.2 ∨ 0x41 ≤ r.2.2.2 ∧ r.2.2.2 + (r.2.1 - r.1) ≤ 0x5A := by
  decide +kernel

theorem upperChar_of_isCaseless {c : Char} (h : IsCaseless c) : upperChar c = [c] := by
  have hself := toUpper_of_isCaseless c.toNat h.1.2
  rw [Char.ofNat_toNat] at hself
  unfold upperChar
  rw [if_pos h.1.2, hself (Or.inl h)]

theorem upperChar_ne_nil (c : Char) : upperChar c ≠ [] := by
  unfold upperChar
  dsimp only
  split
  · exact List.cons_ne_nil _ _
  · split
    · next form hform =>
      obtain ⟨before, after, heq, -⟩ := List.lookup_eq_some_iff.mp hform
      have hne := (not_isCaseless_of_expansions (c.toNat, form) (by simp [heq])).1
      simpa using hne
    · split <;> exact List.cons_ne_nil _ _

/-- No other character has a caseless one in its upper case. -/
theorem eq_of_mem_upperChar {c d : Char} (hd : d ∈ upperChar c) (h : IsCaseless d) : c = d := by
  unfold upperChar at hd
  dsimp only at hd
  split at hd
  · next hlt =>
    have hself := toUpper_of_isCaseless c.toNat hlt
    rw [Char.ofNat_toNat] at hself
    rw [List.mem_singleton.mp hd] at h ⊢
    exact (hself (Or.inr h)).symm
  · split at hd
    · next form hform =>
      obtain ⟨before, after, heq, -⟩ := List.lookup_eq_some_iff.mp hform
      obtain ⟨n, hn, rfl⟩ := List.mem_map.mp hd
      exact absurd h ((not_isCaseless_of_expansions (c.toNat, form) (by simp [heq])).2 n hn)
    · split at hd
      · next first last step form hrun =>
        have hin := List.find?_some hrun
        have hform := forms_of_mem_runs _ (List.mem_of_find?_eq_some hrun)
        simp only [Bool.and_eq_true, decide_eq_true_eq] at hin hform
        rw [List.mem_singleton.mp hd] at h
        have hvalue := toNat_ofNat_eq (form + (c.toNat - first))
        have hletter := h.2.1
        have hprinted := h.1
        omega
      · exact (List.mem_singleton.mp hd).symm

theorem upper_append (cs ds : List Char) : upper (cs ++ ds) = upper cs ++ upper ds :=
  List.flatMap_append

theorem upper_singleton (c : Char) : upper [c] = upperChar c :=
  List.flatMap_singleton upperChar c

theorem literal_append (cs ds : List Char) : literal (cs ++ ds) = literal cs ++ literal ds :=
  List.flatMap_append

theorem literal_eq_self {cs : List Char} (h : ∀ c ∈ cs, ¬ IsSpecial c) : literal cs = cs := by
  induction cs with
  | nil => rfl
  | cons c cs ih =>
    have hc : escapeChar c = [c] := if_neg (h c List.mem_cons_self)
    show escapeChar c ++ literal cs = c :: cs
    rw [hc, ih fun d hd => h d (List.mem_cons_of_mem c hd), List.singleton_append]

theorem upper_escapeChar (c : Char) : upper (escapeChar c) = literal (upperChar c) := by
  unfold escapeChar
  split
  · next h =>
    have hc : escapeChar c = ['\\', c] := if_pos h
    rw [upperChar_of_isCaseless (IsSpecial.isCaseless h)]
    show upperChar '\\' ++ upper [c] = escapeChar c ++ []
    rw [upper_singleton, upperChar_of_isCaseless (IsSpecial.isCaseless h),
      upperChar_of_isCaseless (show IsCaseless '\\' by decide), hc]
    rfl
  · next h =>
    rw [upper_singleton, literal_eq_self]
    intro d hd hspecial
    exact h (eq_of_mem_upperChar hd hspecial.isCaseless ▸ hspecial)

theorem upper_literal (u : List Char) : upper (literal u) = literal (upper u) := by
  induction u with
  | nil => rfl
  | cons c u ih =>
    show upper (escapeChar c ++ literal u) = literal (upperChar c ++ upper u)
    rw [upper_append, upper_escapeChar, ih, literal_append]

theorem upper_pattern (op : Operator) (u : List Char) :
    upper (pattern op u) = pattern op (upper u) := by
  have hpercent : upper ['%'] = ['%'] := by
    rw [upper_singleton, upperChar_of_isCaseless (show IsCaseless '%' by decide)]
  have hcons (cs : List Char) : upper ('%' :: cs) = '%' :: upper cs := by
    rw [← List.singleton_append, upper_append, hpercent, List.singleton_append]
  unfold pattern
  split
  · rw [upper_append, upper_literal, hpercent]
  · rw [hcons, upper_literal]
  · rw [List.cons_append, hcons, upper_append, upper_literal, hpercent, List.cons_append]

end Like

/-! ## Tests of text -/

/-- Whether a text passes a test of text. Where case is ignored, the pattern is compared with what
the table has for the text in upper case. -/
def Test.acceptsText (tableUpper : List Char → List Char) : Test → List Char → Bool
  | .like ignoreCase pattern, s =>
    Like.accepts pattern.toList (if ignoreCase then tableUpper s else s)
  | _, _ => false

theorem Test.ofOperator_eq_like {op : Operator} (hop : op.matchesText) (ignoreCase : Bool)
    (operand : Operand) : ofOperator ignoreCase op operand =
      .like ignoreCase (String.ofList (if ignoreCase
        then upper (Like.pattern op operand.display.toList)
        else Like.pattern op operand.display.toList)) := by
  cases op <;> first | rfl | cases hop

/-- A text passes exactly if the text asked for stands in it where the operator looks for it, both
in upper case if case is ignored. -/
theorem Test.acceptsText_ofOperator (tableUpper : List Char → List Char) (ignoreCase : Bool)
    {op : Operator} (hop : op.matchesText) (operand : Operand) (s : List Char) :
    (Test.ofOperator ignoreCase op operand).acceptsText tableUpper s ↔
      Like.Found op
        (if ignoreCase then upper operand.display.toList else operand.display.toList)
        (if ignoreCase then tableUpper s else s) := by
  rw [Test.ofOperator_eq_like hop, Test.acceptsText, String.toList_ofList]
  cases ignoreCase
  · exact Like.accepts_pattern op
  · rw [if_pos rfl, Like.upper_pattern]
    exact Like.accepts_pattern op

/-- The wildcards of a text match nothing but themselves. -/
theorem Test.acceptsText_ofOperator_wildcards :
    let test := Test.ofOperator true .contains (.one (.text "5%_\\ß"))
    Operator.contains.matchesText ∧ test.acceptsText upper "15%_\\sS".toList ∧
      ¬ test.acceptsText upper "15%%\\sS".toList := by
  intro test
  refine ⟨rfl, ?_, ?_⟩
  · apply (Test.acceptsText_ofOperator upper true rfl _ _).mpr
    decide +kernel
  · rw [Test.acceptsText_ofOperator upper true rfl]
    decide +kernel

end QueryFilter
