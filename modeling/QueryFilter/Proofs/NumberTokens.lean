import QueryFilter.Proofs.ScalarText

/-!
# Numbers in JSON text

The JSON texts that are read as a number are the number's characters between blanks
(`Json.ofText?_eq_number_iff`). The characters are a sign, digits before and after a point, and a
power of ten, and the readers of text cut them in the same places as the reader of JSON does
(`Json.Token`).
-/

namespace QueryFilter

/-! ## Digits and what follows them -/

namespace Chars

theorem digit?_ten_eq_none {c : Char} (h : ¬ c.isDigit) : digit? 10 c = none := by
  have hlarge : ∀ m, 10 ≤ m → (some m).filter (· < 10) = none := by
    intro m hm
    simp [Option.filter_some, hm]
  rw [isDigit_iff] at h
  -- a letter stands for ten and more
  simp only [digit?, if_neg h]
  split
  · exact hlarge _ (by omega)
  · split
    · exact hlarge _ (by omega)
    · rfl

theorem natural?_ten_eq_none {cs : List Char} (h : ¬ ∀ c ∈ cs, c.isDigit) :
    natural? 10 cs = none := by
  obtain ⟨c, hc, hdigit⟩ : ∃ c ∈ cs, ¬ c.isDigit := by simpa using h
  exact natural?_eq_none hc (digit?_ten_eq_none hdigit)

end Chars

namespace Json

/-! ## The parts of a number -/

/-- The characters of a number, cut into a sign, digits, digits after a point, and a power of ten. -/
structure Token (cs : List Char) where
  negative : Bool
  unsigned : List Char
  whole : List Char
  fraction : Option (List Char)
  power : List Char
  eq_withSign : cs = Chars.withSign negative unsigned
  mantissa_eq : Decimal.mantissa unsigned = (whole, fraction, power)
  whole_ne_nil : whole ≠ []

namespace Token

variable {cs : List Char} (t : Token cs)

/-- Whether nothing but digits follow the sign. -/
def IsInteger : Prop := t.fraction = none ∧ t.power = []

/-- The digits before the point with the sign. -/
def value : Int := signed t.negative (Nat.ofDigitChars 10 t.whole 0)

/-- The decimal number, given its power of ten. -/
def decimal (e : Int) : Decimal := .ofParts t.negative t.whole (t.fraction.getD []) e

theorem isDigit_whole : ∀ c ∈ t.whole, c.isDigit := (Decimal.eq_of_mantissa t.mantissa_eq).2.1

theorem whole_eq (h : t.IsInteger) : t.whole = t.unsigned := by
  have heq := (Decimal.eq_of_mantissa t.mantissa_eq).1
  rwa [h.1, h.2, Option.elim_none, List.append_nil, List.append_nil] at heq

theorem isInteger_iff : t.IsInteger ↔ ∀ c ∈ t.unsigned, c.isDigit := by
  constructor
  · exact fun h => t.whole_eq h ▸ t.isDigit_whole
  · intro h
    have hmantissa := t.mantissa_eq
    rw [Decimal.mantissa_of_isDigit h, Prod.mk.injEq, Prod.mk.injEq] at hmantissa
    exact ⟨hmantissa.2.1.symm, hmantissa.2.2.symm⟩

theorem sign_eq : Chars.sign cs = (t.negative, t.unsigned) := by
  have hhead : ∀ c ∈ t.unsigned.head?, c.isDigit := by
    rw [← (Decimal.eq_of_mantissa t.mantissa_eq).1]
    exact Chars.head?_append_isDigit _ t.whole_ne_nil t.isDigit_whole
  exact (congrArg Chars.sign t.eq_withSign).trans (Chars.sign_withSign t.negative hhead)

/-- The reader of decimal numbers finds the parts of the token. -/
theorem ofChars?_eq : Decimal.ofChars? cs = (Decimal.exponent? t.power).map t.decimal := by
  simp only [Decimal.ofChars?, t.sign_eq, t.mantissa_eq]
  exact if_neg fun h => t.whole_ne_nil h.1

theorem ofDecimal?_eq (h : t.IsInteger) : Integer.ofDecimal? cs = int64? t.value := by
  simp only [Integer.ofDecimal?, t.sign_eq, ← t.whole_eq h,
    Chars.natural?_of_isDigit t.whole_ne_nil t.isDigit_whole, Option.bind_some, value]

theorem ofDecimal?_eq_none (h : ¬ t.IsInteger) : Integer.ofDecimal? cs = none := by
  rw [isInteger_iff] at h
  simp only [Integer.ofDecimal?, t.sign_eq, Chars.natural?_ten_eq_none h, Option.bind_none]

end Token

/-- A number is read from a token: from an integer as it is, if it has at most 64 bits and is not
minus zero, and from any other by scaling its digits. -/
theorem Number.exists_token {cs : List Char} {n : Number} (h : ofChars? cs = some n) :
    ∃ t : Token cs, (t.IsInteger ∧ ∃ hr, n = .int t.value hr) ∨
      ∃ e x, Decimal.exponent? t.power = some e ∧
        scaled? t.negative t.whole (t.fraction.getD []) e = some x ∧ n = .float x ∧
        (t.IsInteger → (t.negative ∧ t.value = 0) ∨ int64? t.value = none) := by
  unfold ofChars? at h
  split at h
  next negative unsigned hsign =>
  split at h
  next whole fraction power hmantissa =>
  have hcs : cs = Chars.withSign negative unsigned := by
    split at hsign <;> cases hsign <;> rfl
  split at h
  · cases h
  · next hshape =>
    dsimp only at h
    obtain ⟨t, rfl, rfl, rfl, rfl⟩ : ∃ t : Token cs, t.negative = negative ∧ t.whole = whole ∧
        t.fraction = fraction ∧ t.power = power :=
      ⟨⟨negative, unsigned, whole, fraction, power, hcs, hmantissa, fun hnil => hshape (Or.inl hnil)⟩,
        rfl, rfl, rfl, rfl⟩
    refine ⟨t, ?_⟩
    have hrounded : ((Decimal.exponent? t.power).bind fun e =>
        (scaled? t.negative t.whole (t.fraction.getD []) e).map float) = some n →
          ∃ e x, Decimal.exponent? t.power = some e ∧
            scaled? t.negative t.whole (t.fraction.getD []) e = some x ∧ n = .float x := by
      intro hsome
      obtain ⟨e, he, hscaled⟩ := Option.bind_eq_some_iff.mp hsome
      obtain ⟨x, hx, hn⟩ := Option.map_eq_some_iff.mp hscaled
      exact ⟨e, x, he, hx, hn.symm⟩
    split at h
    · next hinteger =>
      split at h
      · next hr => exact Or.inl ⟨⟨hinteger.1, hinteger.2.1⟩, hr, (Option.some.inj h).symm⟩
      · next hr =>
        obtain ⟨e, x, he, hx, hn⟩ := hrounded h
        exact Or.inr ⟨e, x, he, hx, hn, fun _ => Or.inr (int64?_eq_none_iff.mpr fun hv =>
          hr ⟨hv.1, Int.lt_trans hv.2 (by decide)⟩)⟩
    · next hother =>
      obtain ⟨e, x, he, hx, hn⟩ := hrounded h
      refine Or.inr ⟨e, x, he, hx, hn, fun hinteger => Or.inl ?_⟩
      exact Classical.not_not.mp fun hzero => hother ⟨hinteger.1, hinteger.2, hzero⟩

/-! ## The text of a number -/

theorem isBlank_of_isSpace {c : Char} (h : isSpace c) : isBlank c := by
  apply isBlank_of_isWhitespace
  simp only [isSpace, Char.isWhitespace, Bool.or_eq_true, beq_iff_eq, decide_eq_true_eq] at h ⊢
  exact or_right_comm.mp h

section
variable {cs : List Char} {r : Read Json cs}

theorem kind_array? {item : Reader Json} (h : array? item cs = some r) : r.value.kind = .array := by
  unfold array? at h
  split at h
  · dsimp only at h
    split at h
    · cases h
      rfl
    · obtain ⟨_, _, rfl⟩ := Option.map_eq_some_iff.mp h
      rfl
  · cases h

theorem kind_object? {value : Reader Json} (h : object? value cs = some r) :
    r.value.kind = .object := by
  unfold object? at h
  split at h
  · dsimp only at h
    split at h
    · cases h
      rfl
    · obtain ⟨_, _, rfl⟩ := Option.map_eq_some_iff.mp h
      rfl
  · cases h

theorem kind_quoted? (h : quoted? cs = some r) : r.value.kind = .string := by
  unfold quoted? at h
  split at h
  · obtain ⟨_, _, rfl⟩ := Option.map_eq_some_iff.mp h
    rfl
  · cases h

theorem value_word? {word : List Char} {j : Json} {hw : word ≠ []}
    (h : word? word j hw cs = some r) : r.value = j := by
  unfold word? at h
  split at h
  · cases h
    rfl
  · cases h

theorem leaf?_eq_number? (h : leaf? cs = some r) (hkind : r.value.kind = .number) :
    number? cs = some r := by
  simp only [leaf?, Option.orElse_eq_orElse, Option.orElse_eq_or, Option.or_eq_some_iff] at h
  rcases h with h | ⟨_, h | ⟨_, h | ⟨_, h | ⟨_, h⟩⟩⟩⟩
  · rw [kind_quoted? h] at hkind
    cases hkind
  · rw [value_word? h] at hkind
    cases hkind
  · rw [value_word? h] at hkind
    cases hkind
  · rw [value_word? h] at hkind
    cases hkind
  · exact h

theorem value?_eq_number {depth : Nat} {n : Number} (h : value? depth cs = some r)
    (hvalue : r.value = .number n) :
    Number.ofChars? ((skipSpace cs).takeWhile isNumberChar) = some n ∧
      r.rest = (skipSpace cs).dropWhile isNumberChar := by
  have hleaf : (leaf? (skipSpace cs)).map (.after (length_skipSpace cs)) = some r := by
    cases depth with
    | zero => exact h
    | succ depth =>
      obtain ⟨r', hr', rfl⟩ := Option.map_eq_some_iff.mp h
      have hkind : r'.value.kind = .number := congrArg kind hvalue
      simp only [Option.orElse_eq_orElse, Option.orElse_eq_or, Option.or_eq_some_iff] at hr'
      rcases hr' with hr' | ⟨_, hr' | ⟨_, hr'⟩⟩
      · rw [kind_array? hr'] at hkind
        cases hkind
      · rw [kind_object? hr'] at hkind
        cases hkind
      · rw [hr', Option.map_some]
  obtain ⟨r', hr', rfl⟩ := Option.map_eq_some_iff.mp hleaf
  have hnumber := leaf?_eq_number? hr' (congrArg kind hvalue)
  unfold number? at hnumber
  split at hnumber
  · cases hnumber
  · obtain ⟨n', hn', rfl⟩ := Option.map_eq_some_iff.mp hnumber
    cases hvalue
    exact ⟨hn', rfl⟩

end

section
variable {cs : List Char} (h : ∀ c ∈ cs.head?, isNumberChar c)
include h

theorem skipSpace_eq_self : skipSpace cs = cs := by
  cases cs with
  | nil => rfl
  | cons c cs =>
    refine List.dropWhile_cons_of_neg fun hspace => ?_
    have hblank := isBlank_of_isSpace hspace
    rw [Chars.isBlank_of_isNumberChar (h c rfl)] at hblank
    cases hblank

theorem array?_eq_none (item : Reader Json) : array? item cs = none := by
  unfold array?
  split
  · exact absurd (h '[' rfl) (by decide)
  · rfl

theorem object?_eq_none (value : Reader Json) : object? value cs = none := by
  unfold object?
  split
  · exact absurd (h _ rfl) (by decide)
  · rfl

theorem quoted?_eq_none : quoted? cs = none := by
  unfold quoted?
  split
  · exact absurd (h '"' rfl) (by decide)
  · rfl

theorem word?_eq_none {word : List Char} {j : Json} {hw : word ≠ []}
    (hletter : word.head?.any isNumberChar = false) : word? word j hw cs = none := by
  refine dif_neg fun hprefix => ?_
  obtain ⟨letter, word, rfl⟩ := List.exists_cons_of_ne_nil hw
  obtain ⟨rest, rfl⟩ := hprefix
  exact absurd (h letter rfl) (ne_true_of_eq_false hletter)

end

theorem value?_of_number? (depth : Nat) {cs : List Char}
    (h : ∀ c ∈ (skipSpace cs).head?, isNumberChar c) :
    value? depth cs = (number? (skipSpace cs)).map (.after (length_skipSpace cs)) := by
  have hleaf : leaf? (skipSpace cs) = number? (skipSpace cs) := by
    simp only [leaf?, quoted?_eq_none h, Option.orElse_eq_orElse, Option.orElse_eq_or,
      Option.none_or]
    rw [word?_eq_none h rfl, word?_eq_none h rfl, word?_eq_none h rfl]
    rfl
  cases depth with
  | zero => rw [value?, hleaf]
  | succ depth =>
    rw [value?, array?_eq_none h, object?_eq_none h, hleaf]
    rfl

theorem exists_number?_append {token after : List Char} {n : Number}
    (hchars : ∀ c ∈ token, isNumberChar c) (hafter : ∀ c ∈ after.head?, ¬ isNumberChar c)
    (h : Number.ofChars? token = some n) :
    ∃ r, number? (token ++ after) = some r ∧ r.value = .number n ∧ r.rest = after := by
  obtain ⟨htake, hdrop⟩ := Chars.span_append hchars hafter
  have hread : Number.ofChars? ((token ++ after).takeWhile isNumberChar) = some n := by
    rw [htake, h]
  have hne : (token ++ after).takeWhile isNumberChar ≠ [] := by
    intro hnil
    rw [hnil] at hread
    cases hread
  exact ⟨_, (dif_neg hne).trans (by rw [hread, Option.map_some]), rfl, hdrop⟩

/-- The texts that are read as a number are its characters between blanks. -/
theorem ofText?_eq_number_iff {s : String} {n : Number} :
    ofText? s = some (.number n) ↔ ∃ before token after,
      s.toList = before ++ (token ++ after) ∧ (∀ c ∈ before, isSpace c) ∧
        (∀ c ∈ after, isSpace c) ∧ (∀ c ∈ token, isNumberChar c) ∧
          Number.ofChars? token = some n := by
  constructor
  · intro h
    obtain ⟨r, hr, hend⟩ := Option.bind_eq_some_iff.mp h
    split at hend
    · next hrest =>
      obtain ⟨hn, hleft⟩ := value?_eq_number hr (Option.some.inj hend)
      rw [hleft] at hrest
      refine ⟨s.toList.takeWhile isSpace, (skipSpace s.toList).takeWhile isNumberChar,
        (skipSpace s.toList).dropWhile isNumberChar, ?_, fun _ => List.mem_takeWhile_imp,
        List.dropWhile_eq_nil_iff.mp hrest, fun _ => List.mem_takeWhile_imp, hn⟩
      rw [List.takeWhile_append_dropWhile, skipSpace, List.takeWhile_append_dropWhile]
    · cases hend
  · rintro ⟨before, token, after, hs, hbefore, hafter, hchars, h⟩
    have hhead : ∀ c ∈ (token ++ after).head?, isNumberChar c := by
      cases token with
      | nil => cases h
      | cons c token =>
        rintro _ ⟨⟩
        exact hchars c (List.mem_cons_self ..)
    have hskip : skipSpace s.toList = token ++ after := by
      rw [hs, skipSpace, List.dropWhile_append_of_pos hbefore]
      exact skipSpace_eq_self hhead
    have hblank : ∀ c ∈ after.head?, ¬ isNumberChar c := by
      intro c hc hnumber
      have hspace := isBlank_of_isSpace (hafter c (List.mem_of_mem_head? hc))
      rw [Chars.isBlank_of_isNumberChar hnumber] at hspace
      cases hspace
    have hnumber := exists_number?_append hchars hblank h
    rw [← hskip] at hhead hnumber
    obtain ⟨r, hr, hvalue, hrest⟩ := hnumber
    rw [ofText?, ofTextWithin?, value?_of_number? 127 hhead, hr, Option.map_some, Option.bind_some]
    have hend : skipSpace (r.after (length_skipSpace s.toList)).rest = [] :=
      List.dropWhile_eq_nil_iff.mpr (hrest ▸ hafter)
    rw [if_pos hend]
    exact congrArg some hvalue

theorem ofText?_eq_number {s : String} {n : Number} (h : ofText? s = some (.number n)) :
    (∀ c ∈ Chars.trim s.toList, isNumberChar c) ∧
      Number.ofChars? (Chars.trim s.toList) = some n := by
  obtain ⟨before, token, after, hs, hbefore, hafter, hchars, hn⟩ := ofText?_eq_number_iff.mp h
  have htrim : Chars.trim s.toList = token := by
    rw [hs]
    exact Chars.trim_append (fun c hc => isBlank_of_isSpace (hbefore c hc))
      (fun c hc => isBlank_of_isSpace (hafter c hc))
      fun c hc => Chars.isBlank_of_isNumberChar (hchars c hc)
  rw [htrim]
  exact ⟨hchars, hn⟩

end Json

end QueryFilter
