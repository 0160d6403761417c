import QueryFilter.Proofs.LeadingIntegers
import QueryFilter.Proofs.Windows
import QueryFilter.Query.Basic

/-!
# Page numbers read back

A window with both bounds is written as the page of its first row (`Window.page?_of_bounds`), and a
written number is read back (`Integer.ofLeading?_text`). So the window of the written parameters is
that page, in the page size of whoever reads them, and it is written as the same page
(`Query.toParams_page`). Under a key of the window a sort order may be read as part of the window
(`Query.not_toParams_page`), under any other key it leaves the window alone
(`Query.leavesWindow_of_orderKey`).
-/

namespace QueryFilter

/-- A written number is read back at the start of its text, unless it saturates. -/
theorem Integer.ofLeading?_text {n : Int} (h : n.natAbs ≤ 0x7FFFFFFFFFFFFFFF) :
    ofLeading? (text n) = some (Int64.ofInt n) := by
  have htrim : Chars.trimStart (Chars.ofInt n) = Chars.ofInt n :=
    Chars.dropWhile_isBlank (List.forall_mem_nil _) fun _ hc =>
      Chars.isBlank_of_isNumberChar (Scalar.isNumeral_of_mem_ofInt hc).isNumberChar
  have hdigits : (Nat.toDigits 10 n.natAbs).takeWhile Char.isDigit = Nat.toDigits 10 n.natAbs :=
    List.takeWhile_eq_self_iff.mpr (Decimal.isDigit_toDigits _)
  simp only [ofLeading?, text, String.toList_ofList, htrim, Chars.sign_ofInt, hdigits,
    if_neg Nat.toDigits_ne_nil, foldl_appendDigit_zero, Nat.ofDigitChars_ten_toDigits,
    sign_saturate, signed_natAbs]
  rw [Int.min_eq_left (by omega), Int.max_eq_right (by omega)]

theorem Options.one_le_pageSize (o : Options) : 1 ≤ o.pageSize.toNat := by
  rw [pageSize]
  split
  · decide
  · next h => exact Nat.pos_of_ne_zero fun hzero => h (UInt64.toNat_inj.mp hzero)

namespace Window

/-! ## The page of a window -/

/-- A page that no bound cuts, in exact arithmetic. -/
theorem page?_of_bounds {skip : Int64} {take : UInt64} (htake : 1 ≤ take.toNat)
    (hsigned : take.toNat < 0x8000000000000000) (hskip : 0 ≤ skip.toInt)
    (hpages : skip.toInt / take.toNat < 0x7FFFFFFFFFFFFFFF) :
    ∃ page, page? ⟨some skip, some take⟩ = some page ∧
      page.toInt = skip.toInt / take.toNat + 1 := by
  have hnonneg : 0 ≤ skip.toInt / take.toNat := Int.ediv_nonneg hskip (Int.natCast_nonneg _)
  refine ⟨_, by rw [page?, if_pos ⟨htake, hsigned⟩], ?_⟩
  rw [Int.min_eq_left (Int.add_one_le_of_lt hpages), toInt_ofInt (by omega) (by omega)]

/-- A window that begins with a page is written as that page. -/
theorem page?_of_first_row {first : Int64} {size : UInt64} {page : Int64} (hsize : 1 ≤ size.toNat)
    (hsigned : size.toNat < 0x8000000000000000) (hpage : 1 ≤ page.toInt)
    (hfirst : first.toInt = (page.toInt - 1) * size.toNat) :
    page? ⟨some first, some size⟩ = some page := by
  have hrows : first.toInt / size.toNat = page.toInt - 1 := by
    rw [hfirst, Int.mul_ediv_cancel _ (by omega)]
  have hnonneg : 0 ≤ first.toInt := by
    rw [hfirst]
    exact Int.mul_nonneg (Int.sub_nonneg_of_le hpage) (Int.natCast_nonneg _)
  have hlt := page.toInt_lt
  obtain ⟨page', hpage', hvalue⟩ := page?_of_bounds hsize hsigned hnonneg (by omega)
  obtain rfl : page' = page := by
    rw [← Int64.toInt_inj, hvalue, hrows, Int.sub_add_cancel]
  exact hpage'

/-- The window of a page after other parameters, in the page size of the reader. -/
theorem ofParams_push {p : Params} {pageSize : UInt64} {page : Int}
    (hskip : p.last? skipKey = Option.none)
    (hother : ∀ key ∈ [takeKey, pageSizeKey], (p.last? key).bind positive? = Option.none)
    (hpos : 1 ≤ page) (hmax : page ≤ 0x7FFFFFFFFFFFFFFF)
    (hrows : (page - 1) * pageSize.toNat ≤ 0x7FFFFFFFFFFFFFFF) :
    ∃ skip, ofParams (p.push pageKey (Integer.text page)) pageSize = ⟨some skip, some pageSize⟩ ∧
      skip.toInt = (page - 1) * pageSize.toNat := by
  have hkey : ∀ key ∈ [skipKey, takeKey, pageSizeKey],
      (p.push pageKey (Integer.text page)).last? key = p.last? key := by
    intro key hkey
    refine (p.last?_push _ _ _).trans (if_neg ?_)
    rintro rfl
    exact absurd hkey (by decide)
  have hpage : (p.push pageKey (Integer.text page)).last? pageKey = some (Integer.text page) :=
    (p.last?_push _ _ _).trans (if_pos rfl)
  -- a value that is not positive leaves the page size
  have htake : ((p.last? takeKey).map fun s => (positive? s).getD pageSize).getD pageSize =
      pageSize := by
    have hnone := hother takeKey (by decide)
    cases hlast : p.last? takeKey with
    | none => rfl
    | some s =>
      rw [hlast, Option.bind_some] at hnone
      rw [Option.map_some, Option.getD_some, hnone, Option.getD_none]
  have hread : Integer.ofLeading? (Integer.text page) = some (Int64.ofInt page) :=
    Integer.ofLeading?_text (by omega)
  have hvalue : (Int64.ofInt page).toInt = page := toInt_ofInt (by omega) hmax
  refine ⟨offset ((positive? (Integer.text page)).getD 1) pageSize, ?_, ?_⟩
  · rw [ofParams_of_page ((hkey skipKey (by decide)).trans hskip) hpage,
      hkey takeKey (by decide), hkey pageSizeKey (by decide), hother pageSizeKey (by decide),
      Option.getD_none, htake]
  · rw [toInt_offset_of_page hread (by omega), hvalue]
    exact Int.min_eq_left hrows

end Window

namespace Query

theorem toParams_of_page? (o : Options) {q : Query} {page : Int64}
    (h : q.window.page? = some page) :
    toParams o q = (toParams o ⟨q.filter, q.order, .none⟩).push Window.pageKey
      (Integer.text page.toInt) := by
  have hnone : Window.none.page? = none := rfl
  rw [toParams, toParams, h, hnone, Option.elim_some, Option.elim_none, List.append_nil, Params.push]

/-- Whether a sort order asks nothing of the window: its pairs are read as no row to begin with, and
as no positive number of rows. -/
def LeavesWindow (o : Options) (order : Option SortOrder) : Prop :=
  (toParams o ⟨.empty, order, .none⟩).last? Window.skipKey = none ∧
    ∀ key ∈ [Window.takeKey, Window.pageSizeKey],
      ((toParams o ⟨.empty, order, .none⟩).last? key).bind Window.positive? = none

/-- A sort order stands under its own key only. -/
theorem last?_toParams_of_ne {o : Options} {key : String} (h : o.orderKey ≠ key)
    (order : Option SortOrder) : (toParams o ⟨.empty, order, .none⟩).last? key = none := by
  rw [Params.last?_eq_none_iff]
  have hpage : Window.none.page? = none := rfl
  cases order with
  | none => exact List.forall_mem_nil _
  | some order =>
    intro pair hpair
    rw [toParams, hpage, Option.elim_none, List.append_nil, Option.elim_some] at hpair
    obtain ⟨e, -, rfl⟩ := List.mem_map.mp hpair
    exact h

theorem leavesWindow_of_orderKey {o : Options}
    (h : o.orderKey ∉ [Window.skipKey, Window.takeKey, Window.pageSizeKey])
    (order : Option SortOrder) : LeavesWindow o order := by
  simp only [List.mem_cons, List.not_mem_nil, or_false, not_or] at h
  obtain ⟨hskip, htake, hsize⟩ := h
  refine ⟨last?_toParams_of_ne hskip order, ?_⟩
  rw [List.forall_mem_cons, List.forall_mem_singleton, last?_toParams_of_ne htake,
    last?_toParams_of_ne hsize]
  exact ⟨rfl, rfl⟩

/-- The first row is on the written page. The page is read back as a page of the reader's own size,
which is the window that was written if the sizes are the same and the page began there, and it
is written as the same page again. The sort order must leave the window alone, as it does under a
key that is none of the window's. -/
theorem toParams_page (o : Options) (order : Option SortOrder) (skip : Int64) (take : UInt64)
    (hskip : 0 ≤ skip.toInt) (hlast : skip.toInt < 0x7FFFFFFFFFFFFFFF) (htake : 1 ≤ take.toNat)
    (hsigned : take.toNat < 0x8000000000000000) :
    ∃ (page : Int) (p : Params), toParams o ⟨.empty, order, ⟨some skip, some take⟩⟩ = p ∧
      p = (toParams o ⟨.empty, order, .none⟩).push Window.pageKey (Integer.text page) ∧
      (page - 1) * take.toNat ≤ skip.toInt ∧ skip.toInt < page * take.toNat ∧
      (o.orderKey ∉ [Window.skipKey, Window.takeKey, Window.pageSizeKey] ∨ LeavesWindow o order →
        ∀ o' : Options,
          (o'.pageSize.toNat < 0x8000000000000000 →
            (page - 1) * o'.pageSize.toNat ≤ 0x7FFFFFFFFFFFFFFF →
            ∃ first, (ofParams o' p).window = ⟨some first, some o'.pageSize⟩ ∧
              first.toInt = (page - 1) * o'.pageSize.toNat ∧
              toParams o' (ofParams o' p) =
                (toParams o' ⟨(ofParams o' p).filter, (ofParams o' p).order, .none⟩).push
                  Window.pageKey (Integer.text page)) ∧
          (o'.pageSize = take → (take.toNat : Int) ∣ skip.toInt →
            (ofParams o' p).window = ⟨some skip, some take⟩)) := by
  obtain ⟨page, hpage, hvalue⟩ := Window.page?_of_bounds htake hsigned hskip
    (Int.lt_of_le_of_lt (Int.ediv_le_self _ hskip) hlast)
  have hpos : (0 : Int) < take.toNat := by omega
  have hstart : (page.toInt - 1) * take.toNat ≤ skip.toInt := by
    rw [hvalue, Int.add_sub_cancel]
    exact Int.ediv_mul_le skip.toInt (Int.ne_of_gt hpos)
  have hend : skip.toInt < page.toInt * take.toNat := by
    rw [hvalue]
    exact Int.lt_ediv_add_one_mul_self skip.toInt hpos
  have hfirst : 1 ≤ page.toInt := by
    have := Int.ediv_nonneg hskip (Int.le_of_lt hpos)
    omega
  have hmax : page.toInt ≤ 0x7FFFFFFFFFFFFFFF := Int.le_of_lt_add_one page.toInt_lt
  refine ⟨page.toInt, _, toParams_of_page? o hpage, rfl, hstart, hend, fun hquiet o' => ?_⟩
  obtain ⟨hnoskip, hother⟩ : LeavesWindow o order :=
    hquiet.elim (fun hkey => leavesWindow_of_orderKey hkey order) id
  constructor
  · intro hsize hrows
    obtain ⟨first, hwindow, hoffset⟩ := Window.ofParams_push hnoskip hother hfirst hmax hrows
    have hpage' := Window.page?_of_first_row o'.one_le_pageSize hsize hfirst hoffset
    exact ⟨first, hwindow, hoffset,
      toParams_of_page? o' ((congrArg Window.page? hwindow).trans hpage')⟩
  · rintro rfl hdvd
    obtain ⟨first, hwindow, hoffset⟩ := Window.ofParams_push hnoskip hother hfirst hmax
      (Int.le_trans hstart (Int.le_of_lt hlast))
    obtain rfl : first = skip := by
      rw [← Int64.toInt_inj, hoffset, hvalue, Int.add_sub_cancel, Int.ediv_mul_cancel hdvd]
    exact hwindow

/-- Rows 25 to 34 begin on the third page of ten; read in pages of 25, the third page begins at 50. -/
theorem toParams_page_third :
    (0 ≤ (25 : Int64).toInt ∧ (25 : Int64).toInt < 0x7FFFFFFFFFFFFFFF ∧ 1 ≤ (10 : UInt64).toNat ∧
      (10 : UInt64).toNat < 0x8000000000000000) ∧
    ∃ first, (ofParams { Options.standard with defaultPageSize := 25 }
        (toParams .standard ⟨.empty, some (.singleton "name" .desc), ⟨some 25, some 10⟩⟩)).window =
        ⟨some first, some 25⟩ ∧ first.toInt = 50 := by
  refine ⟨by decide, ?_⟩
  obtain ⟨page, _, rfl, -, hstart, hend, hread⟩ := toParams_page .standard
    (some (.singleton "name" .desc)) 25 10 (by decide) (by decide) (by decide) (by decide)
  have hsize : ({ Options.standard with defaultPageSize := 25 } : Options).pageSize = 25 := by decide
  obtain rfl : page = 3 := by
    have hskip : (25 : Int64).toInt = 25 := by decide
    have htake : (10 : UInt64).toNat = 10 := by decide
    rw [hskip, htake] at hstart hend
    omega
  obtain ⟨first, hwindow, hfirst, -⟩ := (hread (.inl (by decide))
    { Options.standard with defaultPageSize := 25 }).1 (by decide) (by decide)
  rw [hsize] at hwindow hfirst
  exact ⟨first, hwindow, hfirst⟩

/-- A sort order under the key of the page size is read as a page size: the third page of ten rows is
read as the third page of seven. -/
theorem not_toParams_page :
    ¬ ∀ (o o' : Options) (order : Option SortOrder) (skip : Int64) (take : UInt64),
      0 ≤ skip.toInt → skip.toInt < 0x7FFFFFFFFFFFFFFF → 1 ≤ take.toNat →
      take.toNat < 0x8000000000000000 → o'.pageSize = take → (take.toNat : Int) ∣ skip.toInt →
      (ofParams o' (toParams o ⟨.empty, order, ⟨some skip, some take⟩⟩)).window =
        ⟨some skip, some take⟩ := by
  intro h
  have hread : (ofParams { Options.standard with orderKey := Window.pageSizeKey }
      (toParams { Options.standard with orderKey := Window.pageSizeKey }
        ⟨.empty, some (.singleton "7" .asc), ⟨some 20, some 10⟩⟩)).window = ⟨some 14, some 7⟩ := by
    decide +kernel
  rw [h _ _ _ 20 10 (by decide) (by decide) (by decide) (by decide) (by decide) (by decide)] at hread
  exact absurd hread (by decide)

end Query

end QueryFilter
