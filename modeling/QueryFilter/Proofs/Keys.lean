import QueryFilter.Tree.Params

/-!
# The keys of clauses

A key is the relations of a clause, each with a dot after it, and its field, perhaps with an
operator suffix. Taking a suffix off is the inverse of writing it, on all fields but the empty one.
Reading a key and writing the key of a clause are inverse to each other on the clauses that keys
can ask for.
-/

namespace QueryFilter

/-! ## Suffixes -/

namespace Operator

theorem underscore_not_mem_token (op : Operator) : '_' ∉ op.token.toList := by
  cases op <;> decide

theorem dot_not_mem_token (op : Operator) : '.' ∉ op.token.toList := by
  cases op <;> decide

theorem toList_suffixed (field : String) (op : Operator) :
    (suffixed field op).toList = field.toList ++ '_' :: op.token.toList := by
  simp [suffixed]

theorem splitKey?_suffixed {field : String} (op : Operator) (h : field ≠ "") :
    splitKey? (suffixed field op) = some (field, op) := by
  have hcut : Text.cutLast? '_' (suffixed field op) = some (field, op.token) :=
    Text.cutLast?_eq_some_iff.mpr ⟨toList_suffixed field op, op.underscore_not_mem_token⟩
  simp [splitKey?, hcut, h]

theorem eq_suffixed_of_splitKey? {key field : String} {op : Operator}
    (h : splitKey? key = some (field, op)) : key = suffixed field op ∧ field ≠ "" := by
  unfold splitKey? at h
  split at h
  · next front token hcut =>
    split at h
    · cases h
    · next hne =>
      obtain ⟨op', htoken, heq⟩ := Option.map_eq_some_iff.mp h
      cases heq
      refine ⟨String.toList_inj.mp ?_, hne⟩
      rw [toList_suffixed, token_of_ofToken? htoken]
      exact (Text.cutLast?_eq_some_iff.mp hcut).1
  · cases h

/-- A key splits into a field and an operator exactly if it asks for that operator on that field
and the field is not empty. -/
theorem splitKey?_eq_some_iff (key field : String) (op : Operator) :
    splitKey? key = some (field, op) ↔ key = suffixed field op ∧ field ≠ "" := by
  constructor
  · exact eq_suffixed_of_splitKey?
  · intro h
    obtain ⟨rfl, hne⟩ := h
    exact splitKey?_suffixed op hne

-- Only the last suffix is taken off, and a field may be an underscore.
example : splitKey? "age_gte_in" = some ("age_gte", isIn) ∧ splitKey? "__in" = some ("_", isIn) ∧
    splitKey? "_in" = none := by decide

end Operator

/-! ## Paths -/

namespace Path

/-- The relations of a path, each with a dot after it. -/
def stem : List String → String
  | [] => ""
  | relation :: relations => relation ++ "." ++ stem relations

theorem stem_cons (relation : String) (relations : List String) :
    stem (relation :: relations) = relation ++ "." ++ stem relations := rfl

/-- Two relations and more are joined by dots. -/
theorem toList_stem_cons (relation : String) (relations : List String) :
    (stem (relation :: relations)).toList =
      (Text.join '.' (relation :: relations)).toList ++ ['.'] := by
  induction relations generalizing relation with
  | nil => simp [stem, Text.join]
  | cons next relations ih =>
    rw [stem_cons, String.toList_append, ih]
    simp [Text.join]

theorem split_stem {relations : List String} {last : String}
    (hrelations : ∀ r ∈ relations, '.' ∉ r.toList) (hlast : '.' ∉ last.toList) :
    split (stem relations ++ last) = (relations, last) := by
  cases relations with
  | nil =>
    have hcut : Text.cutLast? '.' (stem [] ++ last) = none :=
      Text.cutLast?_eq_none_iff.mpr (by simpa [stem] using hlast)
    rw [split, hcut]
    simp [stem]
  | cons relation relations =>
    have hcut : Text.cutLast? '.' (stem (relation :: relations) ++ last) =
        some (Text.join '.' (relation :: relations), last) := by
      refine Text.cutLast?_eq_some_iff.mpr ⟨?_, hlast⟩
      rw [String.toList_append, toList_stem_cons, List.append_assoc]
      rfl
    rw [split, hcut]
    simp only [Text.pieces_join (List.cons_ne_nil _ _) hrelations]

/-- A key is its relations and its last segment, in which there are no dots. -/
theorem stem_split (key : String) :
    stem (split key).1 ++ (split key).2 = key ∧
      (∀ r ∈ (split key).1, '.' ∉ r.toList) ∧ '.' ∉ (split key).2.toList := by
  unfold split
  split
  · next above last hcut =>
    obtain ⟨hkey, hlast⟩ := Text.cutLast?_eq_some_iff.mp hcut
    refine ⟨?_, fun r hr => Text.not_mem_of_mem_pieces hr, hlast⟩
    obtain ⟨relation, relations, hpieces⟩ := List.exists_cons_of_ne_nil (Text.pieces_ne_nil '.' above)
    apply String.toList_inj.mp
    rw [hpieces, String.toList_append, toList_stem_cons, ← hpieces, Text.join_pieces, hkey,
      List.append_assoc]
    rfl
  · next hcut =>
    refine ⟨by simp [stem], by simp, Text.cutLast?_eq_none_iff.mp hcut⟩

end Path

/-! ## Clauses -/

namespace Clause

/-- The last segment of a clause's key. -/
def lastSegment (c : Clause) : String :=
  match c.operator with
  | some op => Operator.suffixed c.field op
  | none => c.field

/-- The key that asks for a clause. -/
def key (c : Clause) : String := Path.stem c.relations ++ c.lastSegment

/-- A clause that some key asks for. -/
structure WellFormed (c : Clause) : Prop where
  relations : ∀ r ∈ c.relations, '.' ∉ r.toList
  field : '.' ∉ c.field.toList
  plain : c.operator = none → Operator.splitKey? c.field = none
  suffixed : c.operator ≠ none → c.field ≠ ""

theorem dot_not_mem_lastSegment {c : Clause} (h : c.WellFormed) : '.' ∉ c.lastSegment.toList := by
  unfold lastSegment
  split
  · next op _ =>
    rw [Operator.toList_suffixed, List.mem_append, List.mem_cons]
    rintro (hf | hu | ht)
    · exact h.field hf
    · exact absurd hu (by decide)
    · exact op.dot_not_mem_token ht
  · exact h.field

theorem ofPair_key {c : Clause} (h : c.WellFormed) : ofPair c.key c.value = c := by
  have hsplit : Path.split c.key = (c.relations, c.lastSegment) :=
    Path.split_stem h.relations (dot_not_mem_lastSegment h)
  obtain ⟨relations, field, operator, value⟩ := c
  unfold ofPair
  rw [hsplit]
  cases operator with
  | some op => simp [lastSegment, Operator.splitKey?_suffixed op (h.suffixed (by simp))]
  | none => simp [lastSegment, h.plain rfl]

theorem ofPair_eq_of_splitKey? {key field : String} {op : Operator} (value : String)
    (h : Operator.splitKey? (Path.split key).2 = some (field, op)) :
    ofPair key value = ⟨(Path.split key).1, field, some op, value⟩ := by
  simp [ofPair, h]

theorem ofPair_eq_of_splitKey?_eq_none {key : String} (value : String)
    (h : Operator.splitKey? (Path.split key).2 = none) :
    ofPair key value = ⟨(Path.split key).1, (Path.split key).2, none, value⟩ := by
  simp [ofPair, h]

theorem key_ofPair (key value : String) : (ofPair key value).key = key := by
  have hkey := (Path.stem_split key).1
  cases h : Operator.splitKey? (Path.split key).2 with
  | none => rw [ofPair_eq_of_splitKey?_eq_none value h]; exact hkey
  | some found =>
    obtain ⟨field, op⟩ := found
    rw [ofPair_eq_of_splitKey? value h]
    rw [(Operator.eq_suffixed_of_splitKey? h).1] at hkey
    exact hkey

theorem wellFormed_ofPair (key value : String) : (ofPair key value).WellFormed := by
  obtain ⟨_, hrelations, hlast⟩ := Path.stem_split key
  cases h : Operator.splitKey? (Path.split key).2 with
  | none =>
    rw [ofPair_eq_of_splitKey?_eq_none value h]
    exact ⟨hrelations, hlast, fun _ => h, fun hne => absurd rfl hne⟩
  | some found =>
    obtain ⟨field, op⟩ := found
    obtain ⟨heq, hne⟩ := Operator.eq_suffixed_of_splitKey? h
    rw [ofPair_eq_of_splitKey? value h]
    refine ⟨hrelations, fun hf => hlast ?_, by simp, fun _ => hne⟩
    rw [heq, Operator.toList_suffixed]
    exact List.mem_append_left _ hf

end Clause

end QueryFilter
