import QueryFilter.Tree.Json

/-!
# Canonical scalars

A number that is an integer of 64 bits has one scalar, the integer. Reading a text or a JSON value
gives canonical scalars only.
-/

namespace QueryFilter

/-- Whether the value is an integer of 64 bits. -/
def Binary64.IsInt64 (x : Binary64) : Prop :=
  ∃ n : Int, x.toInt? = some n ∧ -0x8000000000000000 ≤ n ∧ n < 0x8000000000000000

theorem int64?_eq_none_iff {n : Int} :
    int64? n = none ↔ ¬ (-0x8000000000000000 ≤ n ∧ n < 0x8000000000000000) := by
  unfold int64?
  split
  · next h => simp [h]
  · next h => simp only [h, not_false_eq_true]

namespace Scalar

/-- No float stands for an integer of 64 bits. -/
def Canonical : Scalar → Prop
  | float x => ¬ x.IsInt64
  | _ => True

theorem ofBinary64_eq_float {x : Binary64} (h : ¬ x.IsInt64) : ofBinary64 x = float x := by
  have hnone : x.toInt?.bind int64? = none := by
    rw [Option.bind_eq_none_iff]
    intro n hn
    exact int64?_eq_none_iff.mpr fun hr => h ⟨n, hn, hr⟩
  rw [ofBinary64, hnone, Option.elim_none]

theorem canonical_ofBinary64 (x : Binary64) : (ofBinary64 x).Canonical := by
  rw [ofBinary64]
  cases hint : x.toInt?.bind int64? with
  | some n => trivial
  | none =>
    rintro ⟨n, hn, hr⟩
    rw [hn, Option.bind_some] at hint
    exact int64?_eq_none_iff.mp hint hr

theorem canonical_of_number? {cs : List Char} {v : Scalar} (h : number? cs = some v) :
    v.Canonical := by
  unfold number? at h
  split at h
  · cases h
    trivial
  · split at h
    · cases h
      trivial
    · obtain ⟨x, _, rfl⟩ := Option.map_eq_some_iff.mp h
      exact canonical_ofBinary64 x

theorem canonical_ofText (s : String) : (ofText s).Canonical := by
  unfold ofText
  split
  · trivial
  · split
    · trivial
    · cases h : number? (Chars.trim s.toList) with
      | none => trivial
      | some v => exact canonical_of_number? h

end Scalar

end QueryFilter
