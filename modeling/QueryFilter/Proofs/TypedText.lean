import QueryFilter.Proofs.Matching
import QueryFilter.Proofs.Narrowing
import QueryFilter.Proofs.Searching

/-!
# Text as it was typed

A search looks for the text that was typed. An operator on text looks for the plain form of the
scalar that the text stands for, which is another text where a number was typed in an unusual way:
`007` is looked for as `7`. So both ask the same exactly for the texts that are their own plain
form (`Params.toCondition_text`).
-/

namespace QueryFilter

/-! ## Patterns of different texts -/

namespace Like

theorem pattern_injective (op : Operator) : Function.Injective (pattern op) := by
  -- a literal matches nothing but its own text
  have hliteral : ∀ u w : List Char, literal u = literal w → u = w := fun u w h =>
    accepts_literal.mp (h ▸ accepts_literal.mpr rfl)
  intro u w h
  unfold pattern at h
  split at h
  · exact hliteral u w (List.append_cancel_right h)
  · exact hliteral u w (List.cons.inj h).2
  · exact hliteral u w (List.append_cancel_right (List.cons.inj h).2)

open Chars (IsNumeral)

theorem isCaseless_of_isNumeral {c : Char} (h : IsNumeral c) : IsCaseless c := by
  rcases h with h | rfl | rfl
  · have := Chars.isDigit_iff.mp h
    unfold IsCaseless
    omega
  · decide
  · decide

/-- Only a numeral has an upper case of numerals. -/
theorem upperChar_eq_self {c : Char} (h : ∀ d ∈ upperChar c, IsNumeral d) : upperChar c = [c] := by
  obtain ⟨d, hd⟩ := List.exists_mem_of_ne_nil _ (upperChar_ne_nil c)
  have hcaseless := isCaseless_of_isNumeral (h d hd)
  exact upperChar_of_isCaseless (eq_of_mem_upperChar hd hcaseless ▸ hcaseless)

theorem upper_of_isNumeral {cs : List Char} (h : ∀ c ∈ cs, IsNumeral c) : upper cs = cs := by
  induction cs with
  | nil => rfl
  | cons c cs ih =>
    rw [List.forall_mem_cons] at h
    show upperChar c ++ upper cs = c :: cs
    rw [upperChar_of_isCaseless (isCaseless_of_isNumeral h.1), ih h.2, List.singleton_append]

theorem upper_eq_self {cs : List Char} (h : ∀ c ∈ upper cs, IsNumeral c) : upper cs = cs := by
  induction cs with
  | nil => rfl
  | cons c cs ih =>
    change ∀ d ∈ upperChar c ++ upper cs, IsNumeral d at h
    rw [List.forall_mem_append] at h
    show upperChar c ++ upper cs = c :: cs
    rw [upperChar_eq_self h.1, ih h.2, List.singleton_append]

end Like

/-! ## Tests of different texts -/

namespace Test

theorem eq_of_literal_eq {ignoreCase : Bool} {op : Operator} {d s : String}
    (hd : ∀ c ∈ d.toList, Chars.IsNumeral c)
    (h : literal ignoreCase op d = literal ignoreCase op s) : d = s := by
  apply String.toList_inj.mp
  rw [literal_eq_like, literal_eq_like, Test.like.injEq, String.ofList_inj] at h
  cases ignoreCase with
  | false => exact Like.pattern_injective op h.2
  | true =>
    have hupper : upper d.toList = upper s.toList := by
      apply Like.pattern_injective op
      rw [← Like.upper_pattern, ← Like.upper_pattern]
      exact h.2
    rw [Like.upper_of_isNumeral hd] at hupper
    rw [hupper] at hd ⊢
    exact Like.upper_eq_self hd

end Test

namespace Scalar

theorem isNumeral_of_number? {cs : List Char} {v : Scalar} (h : number? cs = some v) :
    ∀ c ∈ v.display.toList, Chars.IsNumeral c := by
  have hint : ∀ n : Int64, ∀ c ∈ (int n).display.toList, Chars.IsNumeral c := by
    intro n c hc
    rw [display, Integer.text, String.toList_ofList] at hc
    exact isNumeral_of_mem_ofInt hc
  unfold number? at h
  split at h
  · exact Option.some.inj h ▸ hint _
  · split at h
    · exact Option.some.inj h ▸ hint _
    · obtain ⟨x, -, rfl⟩ := Option.map_eq_some_iff.mp h
      rw [ofBinary64]
      cases x.toInt?.bind int64? with
      | some n => exact hint n
      | none =>
        intro c hc
        rw [Option.elim_none, display, String.toList_ofList] at hc
        exact Binary64.isNumeral_of_mem_display hc

/-- The plain form of what a text stands for is the text, or it is that of a number. -/
theorem display_ofText (s : String) :
    (ofText s).display = s ∨ ∀ c ∈ (ofText s).display.toList, Chars.IsNumeral c := by
  unfold ofText
  split
  · next h => exact Or.inl h.symm
  · split
    · next h => exact Or.inl h.symm
    · cases h : number? (Chars.trim s.toList) with
      | none => exact Or.inl rfl
      | some v => exact Or.inr (isNumeral_of_number? h)

end Scalar

/-! ## Parameters of one field -/

theorem Clause.ofPair_suffixed {field : String} (op : Operator) (value : String)
    (h : (Path.split field).2 ≠ "") : ofPair (Operator.suffixed field op) value =
      ⟨(Path.split field).1, (Path.split field).2, some op, value⟩ := by
  obtain ⟨hfield, hrelations, hlast⟩ := Path.stem_split field
  have hkey : key ⟨(Path.split field).1, (Path.split field).2, some op, value⟩ =
      Operator.suffixed field op := by
    simp [key, lastSegment, Operator.suffixed, ← String.append_assoc, hfield]
  rw [← hkey]
  exact ofPair_key ⟨hrelations, hlast, by simp, fun _ => h⟩

theorem Tree.addClause_empty (mode : MatchMode) (relations : List String) (field : String)
    (op : Operator) (value : String) :
    addClause mode empty ⟨relations, field, some op, value⟩ =
      nested relations field (Node.addTest mode none op value) := by
  rw [addClause]
  induction relations with
  | nil => rfl
  | cons relation relations ih =>
    rw [nested, List.foldr_cons, ← nested, ← ih]
    rfl

theorem Node.addTest_none {op : Operator} (hop : op.matchesText) (mode : MatchMode)
    (value : String) : addTest mode none op value =
      .tests ⟨.singleton op (.one (Scalar.firstOfText value)), mode == .ignoreCase⟩ := by
  cases op <;> first | rfl | cases hop

/-- One entry of a disjunction stands for itself. -/
theorem Tree.condition_group_or {table : Option String} {t : Tree} {a : Atom}
    (h : t.condition table = .ofAtoms [a]) : (group .or [t]).condition table = .ofAtoms [a] := by
  have hnode : (Node.group [t]).condition? table Connective.or.key =
      some (.anyOf [.ofAtoms [a]]) := by
    rw [Node.condition?_group, List.map_singleton, h]
    rfl
  exact condition_single hnode

namespace Params

section
variable (o : Options) {field value : String}

theorem toCondition_suffixed (hcomma : ',' ∉ value.toList) (hfield : (Column.ofField field).name ≠ "")
    {op : Operator} (hop : op.matchesText) (hkey : ¬ o.isReserved (Operator.suffixed field op)) :
    (toFilter o ⟨[(Operator.suffixed field op, value)]⟩).toCondition =
      .ofAtoms [⟨.ofField field,
        .literal (o.matchMode == .ignoreCase) op (Scalar.ofText value).display⟩] := by
  rw [Column.ofField_eq] at hfield
  have hclause := Clause.ofPair_suffixed op value hfield
  have htree : toFilter o ⟨[(Operator.suffixed field op, value)]⟩ =
      .nested (Path.split field).1 (Path.split field).2
        (.tests ⟨.singleton op (.one (Scalar.ofText value)), o.matchMode == .ignoreCase⟩) := by
    rw [toFilter_eq_ofParams_of_not_isReserved (by simpa using hkey), Tree.ofParams,
      List.foldl_cons, List.foldl_nil, if_neg hkey, hclause, Tree.addClause_empty,
      Node.addTest_none hop, Scalar.firstOfText, Text.cutFirst?_eq_none_iff.mpr hcomma]
  rw [htree, Tree.toCondition, Tree.condition_nested rfl, Test.ofOperator_eq_literal hop,
    Scalar.display_one, Column.ofField_eq, Option.or_none]

theorem toCondition_search (hvalue : value ≠ "") (hfields : o.searchFields = [field]) :
    (toFilter o ⟨[(o.searchKey, value)]⟩).toCondition =
      .ofAtoms [⟨.ofField field, .literal (o.matchMode == .ignoreCase) .contains value⟩] := by
  have hkey : o.isSearchKey o.searchKey := by simp [Options.isSearchKey]
  have hempty : Tree.ofParams o ⟨[(o.searchKey, value)]⟩ = .empty := by
    rw [Tree.ofParams, List.foldl_cons, List.foldl_nil, if_pos (isReserved_of_isSearchKey hkey)]
  have hterm : searchTerm? o ⟨[(o.searchKey, value)]⟩ = some value := by
    simp [searchTerm?, hkey]
  have hsome : o.searchFields ≠ [] := by simp [hfields]
  have htree : toFilter o ⟨[(o.searchKey, value)]⟩ =
      .group .or [searchField value o.matchMode field] := by
    rw [toFilter, hempty, hterm, Tree.search_eq hvalue hsome, hfields]
    rfl
  have hfound := condition_searchField value o.matchMode field
  rw [htree]
  exact Tree.condition_group_or hfound

end

/-- Both an operator on text and a search compare the column of the field with a pattern. That of
the search is for the text itself; that of the operator is for the plain form of what the text
stands for, so it is for the text exactly if the text is its own plain form. -/
theorem toCondition_text (o : Options) {field value : String} (hvalue : value ≠ "")
    (hcomma : ',' ∉ value.toList) (hfield : (Column.ofField field).name ≠ "") :
    (o.searchFields = [field] → (toFilter o ⟨[(o.searchKey, value)]⟩).toCondition =
      .ofAtoms [⟨.ofField field, .literal (o.matchMode == .ignoreCase) .contains value⟩]) ∧
    ∀ op : Operator, op.matchesText → ¬ o.isReserved (Operator.suffixed field op) →
      (toFilter o ⟨[(Operator.suffixed field op, value)]⟩).toCondition =
        .ofAtoms [⟨.ofField field,
          .literal (o.matchMode == .ignoreCase) op (Scalar.ofText value).display⟩] ∧
      ((toFilter o ⟨[(Operator.suffixed field op, value)]⟩).toCondition =
          .ofAtoms [⟨.ofField field, .literal (o.matchMode == .ignoreCase) op value⟩] ↔
        (Scalar.ofText value).display = value) := by
  refine ⟨toCondition_search o hvalue, fun op hop hkey => ?_⟩
  have hcondition := toCondition_suffixed o hcomma hfield hop hkey
  refine ⟨hcondition, ?_⟩
  rw [hcondition]
  constructor
  · intro h
    rcases Scalar.display_ofText value with hself | hnumeral
    · exact hself
    · simp only [Condition.ofAtoms, List.map_cons, List.map_nil, Condition.mk.injEq,
        List.cons.injEq, Part.atom.injEq, Atom.mk.injEq, true_and, and_true] at h
      exact Test.eq_of_literal_eq hnumeral h
  · intro h
    rw [h]

/-- A text with wildcards, typed for a field of a related record. -/
theorem toCondition_text_wildcards :
    let o := { Options.standard with searchFields := ["site.owner.code"] }
    let c := Condition.ofAtoms [⟨⟨some "owner", "code"⟩, .like true "%50\\%\\_OFF%"⟩]
    ("50%_off" ≠ "" ∧ ',' ∉ "50%_off".toList ∧ (Column.ofField "site.owner.code").name ≠ "" ∧
      o.searchFields = ["site.owner.code"] ∧ Operator.contains.matchesText ∧
      ¬ o.isReserved (Operator.suffixed "site.owner.code" .contains)) ∧
    (toFilter o ⟨[(o.searchKey, "50%_off")]⟩).toCondition = c ∧
    (toFilter o ⟨[(Operator.suffixed "site.owner.code" .contains, "50%_off")]⟩).toCondition = c := by
  intro o c
  have hvalue : "50%_off" ≠ "" := by decide
  have hcomma : ',' ∉ "50%_off".toList := by decide
  have hfield : (Column.ofField "site.owner.code").name ≠ "" := by decide +kernel
  have hkey : ¬ o.isReserved (Operator.suffixed "site.owner.code" .contains) := by decide +kernel
  have hplain : (Scalar.ofText "50%_off").display = "50%_off" := by decide +kernel
  have hcolumn : Column.ofField "site.owner.code" = ⟨some "owner", "code"⟩ := by decide +kernel
  have htest : Test.literal (o.matchMode == .ignoreCase) .contains "50%_off" =
      .like true "%50\\%\\_OFF%" := by
    decide +kernel
  obtain ⟨hsearch, hoperator⟩ := toCondition_text o hvalue hcomma hfield
  have hsearched := hsearch rfl
  have hasked := (hoperator .contains rfl hkey).2.mpr hplain
  rw [hcolumn, htest] at hsearched hasked
  exact ⟨⟨hvalue, hcomma, hfield, rfl, rfl, hkey⟩, hsearched, hasked⟩

/-- The zeros before a number are searched for, but an operator does not look for them. -/
theorem toCondition_text_zeros :
    let o := { Options.standard with searchFields := ["code"] }
    ("007" ≠ "" ∧ ',' ∉ "007".toList ∧ (Column.ofField "code").name ≠ "" ∧
      ¬ o.isReserved (Operator.suffixed "code" .contains)) ∧
    (toFilter o ⟨[(Operator.suffixed "code" .contains, "007")]⟩).toCondition =
      .ofAtoms [⟨⟨none, "code"⟩, .like true "%7%"⟩] ∧
    (toFilter o ⟨[(o.searchKey, "007")]⟩).toCondition =
      .ofAtoms [⟨⟨none, "code"⟩, .like true "%007%"⟩] ∧
    (toFilter o ⟨[(Operator.suffixed "code" .contains, "007")]⟩).toCondition ≠
      (toFilter o ⟨[(o.searchKey, "007")]⟩).toCondition := by
  intro o
  have hvalue : "007" ≠ "" := by decide
  have hcomma : ',' ∉ "007".toList := by decide
  have hfield : (Column.ofField "code").name ≠ "" := by decide +kernel
  have hkey : ¬ o.isReserved (Operator.suffixed "code" .contains) := by decide +kernel
  have hop : Operator.contains.matchesText := rfl
  have hasked := toCondition_suffixed o hcomma hfield hop hkey
  have hsearched := toCondition_search o hvalue rfl
  have hatoms : (⟨.ofField "code", .literal (o.matchMode == .ignoreCase) .contains
        (Scalar.ofText "007").display⟩ : Atom) = ⟨⟨none, "code"⟩, .like true "%7%"⟩ ∧
      (⟨.ofField "code", .literal (o.matchMode == .ignoreCase) .contains "007"⟩ : Atom) =
        ⟨⟨none, "code"⟩, .like true "%007%"⟩ := by
    decide +kernel
  rw [hatoms.1] at hasked
  rw [hatoms.2] at hsearched
  refine ⟨⟨hvalue, hcomma, hfield, hkey⟩, hasked, hsearched, ?_⟩
  rw [hasked, hsearched]
  simp [Condition.ofAtoms]

end Params

end QueryFilter
