import QueryFilter.Proofs.Windows
import QueryFilter.Query.Basic

/-!
# Sort orders read back

A directive may have a colon or an underscore between the field and the direction, and the field
that is read from it has no colon (`SortOrder.exists_of_ofDirective?`). An order is always written
with an underscore, and what is written is cut at its first underscore. So an order is read back
exactly if its field has none (`SortOrder.ofDirective?_directive_iff`), whatever else the query asks
(`Query.order_toParams_iff`).
-/

namespace QueryFilter

theorem Direction.ofWord_word (d : Direction) : ofWord d.word = d := by
  cases d <;> decide

theorem Direction.colon_not_mem_word (d : Direction) : ':' ∉ d.word.toList := by
  cases d <;> decide

namespace SortOrder

/-! ## One directive -/

/-- The directive that is written for a field. -/
def directive (field : String) (d : Direction) : String := field ++ "_" ++ d.word

theorem toList_directive (field : String) (d : Direction) :
    (directive field d).toList = field.toList ++ '_' :: d.word.toList := by
  simp [directive]

theorem singleton_inj {field field' : String} {d d' : Direction}
    (h : (.singleton field d : SortOrder) = .singleton field' d') : field = field' := by
  have hentries : [(field, d)] = [(field', d')] := congrArg OrderedMap.entries h
  exact (Prod.mk.inj (List.head_eq_of_cons_eq hentries)).1

theorem ofDirective?_of_cut {s field word : String}
    (h : (Text.cutFirst? ':' s).or (Text.cutFirst? '_' s) = some (field, word)) :
    ofDirective? s = if field = "" then none else some (.singleton field (.ofWord word)) := by
  rw [ofDirective?, h]
  rfl

theorem ofDirective?_of_no_cut {s : String} (hcolon : Text.cutFirst? ':' s = none)
    (hunder : Text.cutFirst? '_' s = none) :
    ofDirective? s = if s = "" then none else some (.singleton s .asc) := by
  rw [ofDirective?, hcolon, hunder]
  rfl

/-- An order names one field, in which there is no colon. -/
theorem exists_of_ofDirective? {s : String} {order : SortOrder} (h : ofDirective? s = some order) :
    ∃ field d, order = .singleton field d ∧ field ≠ "" ∧ ':' ∉ field.toList := by
  have hfound : ∀ {field : String} {d : Direction}, ':' ∉ field.toList →
      (if field = "" then none else some (.singleton field d)) = some order →
      ∃ field d, order = .singleton field d ∧ field ≠ "" ∧ ':' ∉ field.toList := by
    intro field d hmem h
    split at h
    · cases h
    · next hne => exact ⟨field, d, (Option.some.inj h).symm, hne, hmem⟩
  cases hcolon : Text.cutFirst? ':' s with
  | some cut =>
    rw [ofDirective?_of_cut (by rw [hcolon, Option.some_or])] at h
    exact hfound (Text.not_mem_of_cutFirst? hcolon) h
  | none =>
    have hs := Text.cutFirst?_eq_none_iff.mp hcolon
    cases hunder : Text.cutFirst? '_' s with
    | some cut =>
      rw [ofDirective?_of_cut (by rw [hcolon, hunder, Option.none_or])] at h
      refine hfound (fun hmem => hs ?_) h
      rw [(Text.cutFirst?_eq_some_iff.mp hunder).1]
      exact List.mem_append_left _ hmem
    | none =>
      rw [ofDirective?_of_no_cut hcolon hunder] at h
      exact hfound hs h

/-- What is written is read as the field before the first underscore. -/
theorem ofDirective?_directive_iff {field : String} (d : Direction) (hne : field ≠ "")
    (hcolon : ':' ∉ field.toList) :
    ofDirective? (directive field d) = some (.singleton field d) ↔ '_' ∉ field.toList := by
  have hno : Text.cutFirst? ':' (directive field d) = none := by
    rw [Text.cutFirst?_eq_none_iff, toList_directive, List.mem_append, List.mem_cons]
    rintro (h | h | h)
    · exact hcolon h
    · exact absurd h (by decide)
    · exact d.colon_not_mem_word h
  constructor
  · intro h
    obtain ⟨⟨front, word⟩, hcut⟩ : ∃ cut, Text.cutFirst? '_' (directive field d) = some cut := by
      rw [← Option.ne_none_iff_exists', ne_eq, Text.cutFirst?_eq_none_iff, toList_directive]
      simp
    rw [ofDirective?_of_cut (by rw [hno, hcut, Option.none_or])] at h
    split at h
    · cases h
    · rw [← singleton_inj (Option.some.inj h)]
      exact Text.not_mem_of_cutFirst? hcut
  · intro h
    have hcut : Text.cutFirst? '_' (directive field d) = some (field, d.word) :=
      Text.cutFirst?_eq_some_iff.mpr ⟨toList_directive field d, h⟩
    rw [ofDirective?_of_cut (by rw [hno, hcut, Option.none_or]), if_neg hne, d.ofWord_word]

end SortOrder

/-! ## Queries -/

namespace Query

/-- No filter and no page stands after the order under its key. -/
theorem last?_toParams {o : Options} (hkey : o.orderKey ≠ Window.pageKey) {q : Query}
    {field : String} {d : Direction} (h : q.order = some (.singleton field d)) :
    (toParams o q).last? o.orderKey = some (SortOrder.directive field d) := by
  have hpairs : toParams o q = ⟨q.filter.toPairs "" ++ (o.orderKey, SortOrder.directive field d) ::
      q.window.page?.elim [] fun page => [(Window.pageKey, Integer.text page.toInt)]⟩ := by
    rw [toParams, h, Option.elim_some, List.append_assoc]
    rfl
  rw [hpairs]
  apply Params.last?_of_forall_ne
  intro pair hpair
  cases hpage : q.window.page? with
  | none =>
    rw [hpage] at hpair
    cases hpair
  | some page =>
    rw [hpage] at hpair
    rw [List.mem_singleton.mp hpair]
    exact hkey.symm

/-- A sort order that was read from parameters is read back from those that are written, exactly if
its field has no underscore. Of the keys of the options only that of the page could interfere. -/
theorem order_toParams_iff (o : Options) (p : Params) (order : SortOrder)
    (hkey : o.orderKey ≠ Window.pageKey) (horder : (ofParams o p).order = some order) :
    (ofParams o (toParams o (ofParams o p))).order = some order ↔
      ∀ field ∈ order.keys, '_' ∉ field.toList := by
  obtain ⟨s, -, hs⟩ := Option.bind_eq_some_iff.mp horder
  obtain ⟨field, d, rfl, hne, hcolon⟩ := SortOrder.exists_of_ofDirective? hs
  have hread : (ofParams o (toParams o (ofParams o p))).order =
      SortOrder.ofDirective? (SortOrder.directive field d) := by
    change SortOrder.ofParams? _ _ = _
    rw [SortOrder.ofParams?, last?_toParams hkey horder, Option.bind_some]
  have hkeys : (.singleton field d : SortOrder).keys = [field] := rfl
  rw [hread, SortOrder.ofDirective?_directive_iff d hne hcolon, hkeys, List.forall_mem_singleton]

/-- A filter of the same name, an order that is given twice, and a page. -/
theorem order_toParams_iff_name :
    let p : Params :=
      ⟨[("name", "ann"), ("order", "age_asc"), ("page", "3"), ("order", "name:desc")]⟩
    Options.standard.orderKey ≠ Window.pageKey ∧
      (ofParams .standard p).order = some (.singleton "name" .desc) ∧
      (ofParams .standard (toParams .standard (ofParams .standard p))).order =
        some (.singleton "name" .desc) := by
  intro p
  have hkey : Options.standard.orderKey ≠ Window.pageKey := by decide
  have horder : (ofParams .standard p).order = some (.singleton "name" .desc) := by decide
  exact ⟨hkey, horder, (order_toParams_iff .standard p _ hkey horder).mpr (by decide)⟩

/-- The field `created_at` is read back as `created`, in the other direction. -/
theorem not_order_toParams :
    ¬ ∀ (o : Options) (p : Params) (order : SortOrder), o.orderKey ∉ Window.keys →
      ¬ o.isSearchKey o.orderKey → (ofParams o p).order = some order →
      (ofParams o (toParams o (ofParams o p))).order = some order := by
  intro h
  have hread : (ofParams .standard (toParams .standard
      (ofParams .standard ⟨[("order", "created_at:desc")]⟩))).order =
        some (.singleton "created" .asc) := by decide +kernel
  rw [h .standard _ (.singleton "created_at" .desc) (by decide) (by decide) (by decide)] at hread
  exact absurd hread (by decide)

end Query

end QueryFilter
