import QueryFilter.Proofs.Utf8Text
import QueryFilter.Query.Basic

/-!
# Parameters read back from a URL query

A component is written with letters, digits and a few marks only, so no separator of the query
stands in it, and its bytes are read one by one as they were written. So parameters are read back
from their query, whatever their texts are (`Params.ofQuery_toQuery`).
-/

namespace QueryFilter

theorem Chars.mem_of_mem_intercalate {c sep : Char} {pieces : List (List Char)}
    (h : c ∈ [sep].intercalate pieces) : c = sep ∨ ∃ piece ∈ pieces, c ∈ piece := by
  induction pieces with
  | nil => cases h
  | cons piece pieces ih =>
    by_cases hp : pieces = []
    · rw [hp, List.intercalate_singleton] at h
      exact Or.inr ⟨piece, List.mem_cons_self .., h⟩
    · rw [List.intercalate_cons_of_ne_nil hp, List.append_assoc, List.mem_append] at h
      rcases h with h | h
      · exact Or.inr ⟨piece, List.mem_cons_self .., h⟩
      · rcases List.mem_cons.mp h with rfl | h
        · exact Or.inl rfl
        · exact (ih h).imp_right fun ⟨q, hq, hc⟩ => ⟨q, List.mem_cons_of_mem _ hq, hc⟩

namespace Form

/-! ## Bytes -/

theorem digit?_hexDigit {n : Nat} (h : n < 16) : Chars.digit? 16 (hexDigit n) = some n := by
  revert n
  decide

theorem isPlain_hexDigit {n : Nat} (h : n < 16) : isPlain (hexDigit n) := by
  revert n
  decide

theorem bytes_escapeByte (b : UInt8) (cs : List Char) :
    bytes (escapeByte b ++ cs) = b :: bytes cs := by
  have hb := b.toNat_lt
  have hhigh : b.toNat / 16 < 16 := by omega
  have hlow : b.toNat % 16 < 16 := by omega
  have hbyte : UInt8.ofNat (16 * (b.toNat / 16) + b.toNat % 16) = b := by
    rw [Nat.div_add_mod, UInt8.ofNat_toNat]
  simp only [escapeByte, List.cons_append, List.nil_append, bytes, digit?_hexDigit hhigh,
    digit?_hexDigit hlow, hbyte]

theorem bytes_flatMap_escapeByte (bs : List UInt8) (cs : List Char) :
    bytes (bs.flatMap escapeByte ++ cs) = bs ++ bytes cs := by
  induction bs with
  | nil => rfl
  | cons b bs ih => rw [List.flatMap_cons, List.append_assoc, bytes_escapeByte, ih, List.cons_append]

theorem bytes_cons {c : Char} (h : c ≠ '%') (cs : List Char) :
    bytes (c :: cs) = (if c = '+' then [0x20] else String.utf8EncodeChar c) ++ bytes cs := by
  rw [bytes]
  rintro high low cs' rfl
  exact absurd rfl h

/-! ## Components -/

/-- A plus sign is written as an escape, so that it is not taken for a blank. -/
theorem bytes_encodeChar (c : Char) (cs : List Char) :
    bytes (encodeChar c ++ cs) = String.utf8EncodeChar c ++ bytes cs := by
  unfold encodeChar
  split
  · next h =>
    subst h
    exact bytes_cons (by decide) cs
  · split
    · next h =>
      have hpercent : c ≠ '%' := fun he => absurd (he ▸ h) (by decide)
      have hplus : c ≠ '+' := fun he => absurd (he ▸ h) (by decide)
      rw [List.singleton_append, bytes_cons hpercent, if_neg hplus]
    · exact bytes_flatMap_escapeByte _ cs

theorem bytes_encode (s : String) : bytes (encode s) = Utf8.encode s.toList := by
  unfold encode Utf8.encode
  induction s.toList with
  | nil => rfl
  | cons c cs ih => rw [List.flatMap_cons, bytes_encodeChar, ih, List.flatMap_cons]

theorem decode_encode (s : String) : decode (encode s) = s := by
  rw [decode, bytes_encode, Utf8.decode_encode, String.ofList_toList]

theorem of_mem_encode {s : String} {c : Char} (h : c ∈ encode s) :
    isPlain c ∨ c = '+' ∨ c = '%' := by
  obtain ⟨c', -, hc⟩ := List.mem_flatMap.mp h
  unfold encodeChar at hc
  split at hc
  · exact Or.inr (Or.inl (List.mem_singleton.mp hc))
  · split at hc
    · next hplain => exact Or.inl (List.mem_singleton.mp hc ▸ hplain)
    · obtain ⟨b, -, hb⟩ := List.mem_flatMap.mp hc
      have hlt := b.toNat_lt
      simp only [escapeByte, List.mem_cons, List.not_mem_nil, or_false] at hb
      rcases hb with rfl | rfl | rfl
      · exact Or.inr (Or.inr rfl)
      · exact Or.inl (isPlain_hexDigit (by omega))
      · exact Or.inl (isPlain_hexDigit (by omega))

/-- Whether a character separates the parts of a query, or may stand before it. -/
def IsMark (c : Char) : Prop := c = '&' ∨ c = '=' ∨ c = '?'

theorem not_mem_encode {c : Char} (h : IsMark c) (s : String) : c ∉ encode s := by
  intro hc
  rcases h with rfl | rfl | rfl
  all_goals exact absurd (of_mem_encode hc) (by decide)

/-! ## Pairs -/

theorem decodePair_encodePair (pair : String × String) : decodePair (encodePair pair) = pair := by
  have hcut : Chars.cutFirst? '=' (encodePair pair) = some (encode pair.1, encode pair.2) :=
    Chars.cutFirst?_append _ _ (not_mem_encode (Or.inr (Or.inl rfl)) pair.1)
  rw [decodePair, hcut]
  simp only [decode_encode]

theorem not_mem_encodePair {c : Char} (h : IsMark c) (hc : c ≠ '=') (pair : String × String) :
    c ∉ encodePair pair := by
  simp [encodePair, not_mem_encode h, hc]

theorem encodePair_ne_nil (pair : String × String) : encodePair pair ≠ [] := by
  simp [encodePair]

end Form

namespace Params

theorem toList_toQuery (p : Params) :
    p.toQuery.toList = ['&'].intercalate (p.pairs.map Form.encodePair) :=
  String.toList_ofList

-- a key that starts with a question mark is escaped, so none is cut off when the query is read
theorem not_mem_toQuery (p : Params) : '?' ∉ p.toQuery.toList := by
  rw [toList_toQuery]
  intro h
  rcases Chars.mem_of_mem_intercalate h with h | ⟨piece, hpiece, h⟩
  · exact absurd h (by decide)
  · obtain ⟨pair, -, rfl⟩ := List.mem_map.mp hpiece
    exact Form.not_mem_encodePair (Or.inr (Or.inr rfl)) (by decide) pair h

theorem pieces_toQuery (p : Params) :
    (p.toQuery.toList.splitOn '&').filter (· ≠ []) = p.pairs.map Form.encodePair := by
  rw [toList_toQuery]
  by_cases hp : p.pairs = []
  · rw [hp]
    rfl
  · have hpieces : ∀ cs ∈ p.pairs.map Form.encodePair, '&' ∉ cs := by
      intro cs hcs
      obtain ⟨pair, -, rfl⟩ := List.mem_map.mp hcs
      exact Form.not_mem_encodePair (Or.inl rfl) (by decide) pair
    rw [List.splitOn_intercalate '&' hpieces (by simpa using hp), List.filter_eq_self]
    intro cs hcs
    obtain ⟨pair, -, rfl⟩ := List.mem_map.mp hcs
    exact decide_eq_true (Form.encodePair_ne_nil pair)

theorem ofQuery_of_not_mem {query : String} (h : '?' ∉ query.toList) :
    ofQuery query = ⟨((query.toList.splitOn '&').filter (· ≠ [])).map Form.decodePair⟩ := by
  unfold ofQuery
  split
  · next cs heq => exact absurd (heq ▸ List.mem_cons_self ..) h
  · rfl

/-- Parameters are read back from their query, so either is as good an input as the other. -/
theorem ofQuery_toQuery (p : Params) :
    ofQuery p.toQuery = p ∧
      ∀ o, Query.ofInput o (.query p.toQuery) = Query.ofInput o (.params p) := by
  have hpair : Form.decodePair ∘ Form.encodePair = id := funext Form.decodePair_encodePair
  have hread : ofQuery p.toQuery = p := by
    rw [ofQuery_of_not_mem p.not_mem_toQuery, pieces_toQuery, List.map_map, hpair, List.map_id]
  refine ⟨hread, ?_⟩
  intro o
  rw [Query.ofInput, Input.toParams, hread]
  rfl

end Params

end QueryFilter
