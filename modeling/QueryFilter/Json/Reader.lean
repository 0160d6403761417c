import QueryFilter.Json.Number
import QueryFilter.OrderedMap

/-!
# Reading JSON

A strict reader of JSON text. Every step returns the unread rest together with the fact that it is
shorter, so the loops over strings, arrays and objects end; containers nest at most 127 deep. A
repeated key keeps its first place and its last value.
-/

namespace QueryFilter

namespace Json

/-! ## Strings -/

/-- The value of four hexadecimal digits and what follows them. -/
def hex4? : List Char → Option (Nat × List Char)
  | a :: b :: c :: d :: rest => (Chars.natural? 16 [a, b, c, d]).map (·, rest)
  | _ => none

/-- The character that follows a backslash in a string, and the rest. A code point beyond U+FFFF is
written as a high and a low surrogate; neither stands alone. -/
def escaped? : List Char → Option (Char × List Char)
  | '"' :: rest => some ('"', rest)
  | '\\' :: rest => some ('\\', rest)
  | '/' :: rest => some ('/', rest)
  | 'b' :: rest => some ('\x08', rest)
  | 'f' :: rest => some ('\x0c', rest)
  | 'n' :: rest => some ('\n', rest)
  | 'r' :: rest => some ('\r', rest)
  | 't' :: rest => some ('\t', rest)
  | 'u' :: digits =>
    (hex4? digits).bind fun (high, rest) =>
      if 0xD800 ≤ high ∧ high < 0xDC00 then
        match rest with
        | '\\' :: 'u' :: digits =>
          (hex4? digits).bind fun (low, rest) =>
            if 0xDC00 ≤ low ∧ low < 0xE000 then
              some (Char.ofNat (0x10000 + (high - 0xD800) * 0x400 + (low - 0xDC00)), rest)
            else none
        | _ => none
      else if 0xDC00 ≤ high ∧ high < 0xE000 then none
      else some (Char.ofNat high, rest)
  | _ => none

/-- One character of a string, plain or escaped. -/
def stringChar? : List Char → Option (Char × List Char)
  | '\\' :: rest => escaped? rest
  | c :: rest => if c.toNat < 0x20 then none else some (c, rest)
  | [] => none

theorem length_hex4? {cs rest : List Char} {n : Nat} (h : hex4? cs = some (n, rest)) :
    rest.length < cs.length := by
  unfold hex4? at h
  split at h
  · simp only [Option.map_eq_some_iff, Prod.mk.injEq] at h
    obtain ⟨_, _, _, rfl⟩ := h
    simp only [List.length_cons]
    omega
  · simp at h

theorem length_escaped? {cs rest : List Char} {c : Char} (h : escaped? cs = some (c, rest)) :
    rest.length < cs.length := by
  unfold escaped? at h
  split at h
  case h_9 digits =>
    obtain ⟨⟨high, rest₁⟩, h₁, h⟩ := Option.bind_eq_some_iff.1 h
    have l₁ := length_hex4? h₁
    dsimp only at h
    split at h
    · split at h
      · obtain ⟨⟨low, rest₂⟩, h₂, h⟩ := Option.bind_eq_some_iff.1 h
        have l₂ := length_hex4? h₂
        dsimp only at h
        split at h
        · simp only [Option.some.injEq, Prod.mk.injEq] at h
          simp only [List.length_cons] at l₁ ⊢
          rw [← h.2]
          omega
        · simp at h
      · simp at h
    · split at h
      · simp at h
      · simp only [Option.some.injEq, Prod.mk.injEq] at h
        simp only [List.length_cons]
        rw [← h.2]
        omega
  all_goals simp_all

theorem length_stringChar? {cs rest : List Char} {c : Char}
    (h : stringChar? cs = some (c, rest)) : rest.length < cs.length := by
  unfold stringChar? at h
  split at h
  · have := length_escaped? h
    simp only [List.length_cons]
    omega
  · split at h <;> simp_all
  · simp at h

/-! ## Values -/

/-- What a reader took from `cs`. -/
structure Read (α : Type) (cs : List Char) where
  value : α
  rest : List Char
  shorter : rest.length < cs.length

abbrev Reader (α : Type) := (cs : List Char) → Option (Read α cs)

/-- The value of a reading, changed. -/
def Read.map {α β : Type} {cs : List Char} (f : α → β) (r : Read α cs) : Read β cs :=
  ⟨f r.value, r.rest, r.shorter⟩

/-- A reading of a shorter text as one of a longer. -/
def Read.after {α : Type} {cs ds : List Char} (h : ds.length ≤ cs.length) (r : Read α ds) :
    Read α cs :=
  ⟨r.value, r.rest, Nat.lt_of_lt_of_le r.shorter h⟩

def isSpace (c : Char) : Bool := c == ' ' || c == '\t' || c == '\n' || c == '\r'

def skipSpace (cs : List Char) : List Char := cs.dropWhile isSpace

theorem length_skipSpace (cs : List Char) : (skipSpace cs).length ≤ cs.length :=
  (List.dropWhile_suffix _).length_le

/-- The rest of a string whose opening quote has been read. -/
def string? : Reader (List Char)
  | [] => none
  | c :: cs =>
    if c = '"' then some ⟨[], cs, by simp⟩
    else
      match h : stringChar? (c :: cs) with
      | none => none
      | some (c', rest) =>
        have hr := length_stringChar? h
        (string? rest).map fun r => (r.map (c' :: ·)).after (Nat.le_of_lt hr)
termination_by cs => cs.length
decreasing_by exact hr

/-- The rest of an array with an item, whose opening bracket has been read. -/
def items? (item : Reader Json) (cs : List Char) : Option (Read (List Json) cs) :=
  (item cs).bind fun r =>
    have := r.shorter
    have hs := length_skipSpace r.rest
    match h : skipSpace r.rest with
    | ',' :: rest =>
      have hr : rest.length < r.rest.length := by rw [h] at hs; exact hs
      (items? item rest).map fun more => (more.map (r.value :: ·)).after (by omega)
    | ']' :: rest => some ⟨[r.value], rest, by rw [h] at hs; simp at hs; omega⟩
    | _ => none
termination_by cs.length

/-- A key with its colon. -/
def key? (cs : List Char) : Option (Read String cs) :=
  have hs := length_skipSpace cs
  match h : skipSpace cs with
  | '"' :: rest =>
    (string? rest).bind fun r =>
      have := r.shorter
      have hs' := length_skipSpace r.rest
      match h' : skipSpace r.rest with
      | ':' :: rest' => some ⟨String.ofList r.value, rest', by
          rw [h] at hs; rw [h'] at hs'; simp at hs hs'; omega⟩
      | _ => none
  | _ => none

/-- The rest of an object with a member, whose opening brace has been read. -/
def members? (value : Reader Json) (cs : List Char) : Option (Read (List (String × Json)) cs) :=
  (key? cs).bind fun k =>
    have := k.shorter
    (value k.rest).bind fun r =>
      have := r.shorter
      have hs := length_skipSpace r.rest
      match h : skipSpace r.rest with
      | ',' :: rest =>
        have hr : rest.length < r.rest.length := by rw [h] at hs; exact hs
        (members? value rest).map fun more => (more.map ((k.value, r.value) :: ·)).after (by omega)
      | '\x7d' :: rest => some ⟨[(k.value, r.value)], rest, by rw [h] at hs; simp at hs; omega⟩
      | _ => none
termination_by cs.length

/-- A word with the value it stands for. -/
def word? (word : List Char) (j : Json) (hw : word ≠ []) (cs : List Char) : Option (Read Json cs) :=
  if h : word <+: cs then
    some ⟨j, cs.drop word.length, by
      have := h.length_le
      have := List.length_pos_iff.2 hw
      simp only [List.length_drop]
      omega⟩
  else none

/-- A number and what follows its characters. -/
def number? (cs : List Char) : Option (Read Json cs) :=
  if h : cs.takeWhile isNumberChar = [] then none
  else (Number.ofChars? (cs.takeWhile isNumberChar)).map fun n =>
    ⟨.number n, cs.dropWhile isNumberChar, by
      have := congrArg List.length (List.takeWhile_append_dropWhile (p := isNumberChar) (l := cs))
      have := List.length_pos_iff.2 h
      simp only [List.length_append] at *
      omega⟩

/-- A string with its quotes. -/
def quoted? : Reader Json
  | '"' :: rest =>
    (string? rest).map fun r => (r.map fun s => string (String.ofList s)).after (by simp)
  | _ => none

/-- An array, given a reader of its items. -/
def array? (item : Reader Json) : Reader Json
  | '[' :: cs =>
    have hs := length_skipSpace cs
    match h : skipSpace cs with
    | ']' :: rest => some ⟨array [], rest, by rw [h] at hs; simp at hs ⊢; omega⟩
    | _ => (items? item cs).map fun r => (r.map array).after (by simp)
  | _ => none

/-- An object, given a reader of its values. -/
def object? (value : Reader Json) : Reader Json
  | '\x7b' :: cs =>
    have hs := length_skipSpace cs
    match h : skipSpace cs with
    | '\x7d' :: rest => some ⟨object [], rest, by rw [h] at hs; simp at hs ⊢; omega⟩
    | _ => (members? value cs).map fun r =>
      (r.map fun ms => object (Entries.collect ms)).after (by simp)
  | _ => none

/-- A value that is no container. -/
def leaf? (cs : List Char) : Option (Read Json cs) :=
  quoted? cs <|> word? "null".toList null (by decide) cs <|>
    word? "true".toList (bool true) (by decide) cs <|>
    word? "false".toList (bool false) (by decide) cs <|> number? cs

/-- A value whose containers nest at most as deep as given; blanks may stand before it. -/
def value? : Nat → Reader Json
  | 0, cs => (leaf? (skipSpace cs)).map (.after (length_skipSpace cs))
  | depth + 1, cs =>
    (array? (value? depth) (skipSpace cs) <|> object? (value? depth) (skipSpace cs) <|>
      leaf? (skipSpace cs)).map (.after (length_skipSpace cs))

/-- The value of a whole text whose containers nest at most as deep as given. -/
def ofTextWithin? (depth : Nat) (s : String) : Option Json :=
  (value? depth s.toList).bind fun r => if skipSpace r.rest = [] then some r.value else none

/-- The value of a whole text. -/
def ofText? (s : String) : Option Json := ofTextWithin? 127 s

end Json

end QueryFilter
