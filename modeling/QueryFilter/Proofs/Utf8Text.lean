import QueryFilter.Text.Utf8

/-!
# UTF-8 read back

What characters are encoded as is decoded as these characters (`Utf8.decode_encode`): each form of
one to four bytes leads from between characters to between characters and gives its one character.
-/

namespace QueryFilter

namespace Utf8

/-! ## The forms of a character -/

/-- A byte that continues a character, whatever came before. -/
def Tail (b : UInt8) : Prop := 0x80 ≤ b.toNat ∧ b.toNat ≤ 0xBF

theorem decodeFrom_none (b : UInt8) (bs : List UInt8) :
    decodeFrom none (b :: bs) = (first b).1 ++ decodeFrom (first b).2 bs := rfl

section
variable {bits low high : Nat} {b : UInt8} (bs : List UInt8)

theorem decodeFrom_owed (owed : Nat) (h : low ≤ b.toNat ∧ b.toNat ≤ high) :
    decodeFrom (some ⟨bits, owed + 2, low, high⟩) (b :: bs) =
      decodeFrom (some ⟨bits * 64 + b.toNat % 64, owed + 1, 0x80, 0xBF⟩) bs := by
  simp [decodeFrom, next, h]

theorem decodeFrom_last (h : low ≤ b.toNat ∧ b.toNat ≤ high) :
    decodeFrom (some ⟨bits, 1, low, high⟩) (b :: bs) =
      Char.ofNat (bits * 64 + b.toNat % 64) :: decodeFrom none bs := by
  simp [decodeFrom, next, h]

end

section
variable {a b c d : UInt8} (bs : List UInt8)

theorem decodeFrom_one (ha : a.toNat < 0x80) :
    decodeFrom none (a :: bs) = Char.ofNat a.toNat :: decodeFrom none bs := by
  have hfirst : first a = ([Char.ofNat a.toNat], none) := by simp [first, ha]
  rw [decodeFrom_none, hfirst]
  rfl

theorem decodeFrom_two (ha : 0xC2 ≤ a.toNat ∧ a.toNat < 0xE0) (hb : Tail b) :
    decodeFrom none (a :: b :: bs) =
      Char.ofNat ((a.toNat - 0xC0) * 64 + b.toNat % 64) :: decodeFrom none bs := by
  have hfirst : first a = ([], some ⟨a.toNat - 0xC0, 1, 0x80, 0xBF⟩) := by grind [first]
  rw [decodeFrom_none, hfirst]
  exact decodeFrom_last bs hb

/-- The second byte is bounded so that no shorter form will do and no surrogate is written. -/
theorem decodeFrom_three (ha : 0xE0 ≤ a.toNat ∧ a.toNat < 0xF0) (hb : Tail b)
    (hbounds : (a.toNat = 0xE0 → 0xA0 ≤ b.toNat) ∧ (a.toNat = 0xED → b.toNat ≤ 0x9F))
    (hc : Tail c) :
    decodeFrom none (a :: b :: c :: bs) =
      Char.ofNat (((a.toNat - 0xE0) * 64 + b.toNat % 64) * 64 + c.toNat % 64) ::
        decodeFrom none bs := by
  have hfirst : first a = ([], some ⟨a.toNat - 0xE0, 2,
      if a.toNat = 0xE0 then 0xA0 else 0x80, if a.toNat = 0xED then 0x9F else 0xBF⟩) := by
    grind [first]
  have hsecond : (if a.toNat = 0xE0 then 0xA0 else 0x80) ≤ b.toNat ∧
      b.toNat ≤ if a.toNat = 0xED then 0x9F else 0xBF := by grind [Tail]
  rw [decodeFrom_none, hfirst, List.nil_append, decodeFrom_owed _ _ hsecond]
  exact decodeFrom_last bs hc

/-- The second byte is bounded so that no shorter form will do and no code point past the last is
written. -/
theorem decodeFrom_four (ha : 0xF0 ≤ a.toNat ∧ a.toNat < 0xF5) (hb : Tail b)
    (hbounds : (a.toNat = 0xF0 → 0x90 ≤ b.toNat) ∧ (a.toNat = 0xF4 → b.toNat ≤ 0x8F))
    (hc : Tail c) (hd : Tail d) :
    decodeFrom none (a :: b :: c :: d :: bs) =
      Char.ofNat ((((a.toNat - 0xF0) * 64 + b.toNat % 64) * 64 + c.toNat % 64) * 64 +
        d.toNat % 64) :: decodeFrom none bs := by
  have hfirst : first a = ([], some ⟨a.toNat - 0xF0, 3,
      if a.toNat = 0xF0 then 0x90 else 0x80, if a.toNat = 0xF4 then 0x8F else 0xBF⟩) := by
    grind [first]
  have hsecond : (if a.toNat = 0xF0 then 0x90 else 0x80) ≤ b.toNat ∧
      b.toNat ≤ if a.toNat = 0xF4 then 0x8F else 0xBF := by grind [Tail]
  rw [decodeFrom_none, hfirst, List.nil_append, decodeFrom_owed _ _ hsecond,
    decodeFrom_owed _ _ hc]
  exact decodeFrom_last bs hd

end

/-! ## All characters -/

theorem decodeFrom_utf8EncodeChar (c : Char) (bs : List UInt8) :
    decodeFrom none (String.utf8EncodeChar c ++ bs) = c :: decodeFrom none bs := by
  -- the bounds of the second byte come from here: no surrogate, and no code point past the last
  have hvalid : c.toNat < 0xD800 ∨ 0xDFFF < c.toNat ∧ c.toNat < 0x110000 := c.valid
  have hchar : ∀ {n : Nat}, n = c.toNat → Char.ofNat n = c := fun h => h ▸ Char.ofNat_toNat c
  simp only [String.utf8EncodeChar, show c.val.toNat = c.toNat from rfl]
  generalize c.toNat = n at *
  split
  · rw [List.singleton_append, decodeFrom_one, hchar] <;> rw [UInt8.toNat_ofNat'] <;> omega
  split
  · simp only [List.cons_append, List.nil_append]
    rw [decodeFrom_two, hchar] <;> simp only [Tail, UInt8.toNat_ofNat'] <;> omega
  split
  · simp only [List.cons_append, List.nil_append]
    rw [decodeFrom_three, hchar] <;> simp only [Tail, UInt8.toNat_ofNat'] <;> omega
  · simp only [List.cons_append, List.nil_append]
    rw [decodeFrom_four, hchar] <;> simp only [Tail, UInt8.toNat_ofNat'] <;> omega

theorem decode_encode (cs : List Char) : decode (encode cs) = cs := by
  unfold decode encode
  induction cs with
  | nil => rfl
  | cons c cs ih => rw [List.flatMap_cons, decodeFrom_utf8EncodeChar, ih]

end Utf8

end QueryFilter
