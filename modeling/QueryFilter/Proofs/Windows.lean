import QueryFilter.Window

/-!
# Page windows

What a window is in exact arithmetic. A page begins after the rows of the pages before it, at most
at the largest 64-bit integer (`Window.toInt_offset`), so the windows of two neighbouring pages are
adjacent (`Window.ofParams_next_page`). A window that skips also takes, takes at least one row, and
skips a negative number of rows only if that is asked for (`Window.ofParams_sound`).
-/

namespace QueryFilter

/-! ## The last value of a key -/

namespace Params

/-- The parameters without those of some keys. -/
def without (p : Params) (keys : List String) : Params :=
  ⟨p.pairs.filter fun pair => pair.1 ∉ keys⟩

theorem last?_without {keys : List String} {key : String} (h : key ∉ keys) (p : Params) :
    (p.without keys).last? key = p.last? key := by
  simp only [last?, without, ← List.filter_reverse, List.find?_filter]
  congr 2
  funext pair
  by_cases hpair : pair.1 = key
  · simp [hpair, h]
  · simp [hpair]

theorem last?_eq_none_iff {p : Params} {key : String} :
    p.last? key = none ↔ ∀ pair ∈ p.pairs, pair.1 ≠ key := by
  simp [last?]

variable {before after : List (String × String)} {key : String}

theorem last?_of_forall_ne (h : ∀ pair ∈ after, pair.1 ≠ key) (value : String) :
    last? ⟨before ++ (key, value) :: after⟩ key = some value := by
  have hafter : after.reverse.find? (·.1 == key) = none := by simpa using h
  simp [last?, List.find?_append, hafter]

/-- Another value of one key changes no other key. -/
theorem last?_replace {key' : String} (h : key ≠ key') (value value' : String) :
    last? ⟨before ++ (key, value) :: after⟩ key' = last? ⟨before ++ (key, value') :: after⟩ key' := by
  simp [last?, List.find?_append, h]

end Params

namespace Window

variable {p : Params} {pageSize : UInt64}

/-! ## Sizes and offsets -/

/-- A positive integer keeps its value. -/
theorem positive?_eq_some_iff {s : String} {u : UInt64} :
    positive? s = some u ↔
      ∃ n : Int64, Integer.ofLeading? s = some n ∧ 0 < n.toInt ∧ (u.toNat : Int) = n.toInt := by
  have hexact : ∀ n : Int64, 0 < n.toInt → ((UInt64.ofNat n.toInt.toNat).toNat : Int) = n.toInt := by
    intro n hn
    have hlt := n.toInt_lt
    rw [UInt64.toNat_ofNat_of_lt' (by simp only [UInt64.size]; omega)]
    omega
  rw [positive?, Option.bind_eq_some_iff]
  refine exists_congr fun n => and_congr_right fun _ => ?_
  by_cases hn : 0 < n.toInt
  · have hvalue := hexact n hn
    rw [if_pos hn, Option.some_inj, and_iff_right hn, ← UInt64.toNat_inj]
    omega
  · rw [if_neg hn]
    exact iff_of_false nofun fun h => hn h.1

theorem positive?_eq_none_iff {s : String} :
    positive? s = Option.none ↔ ∀ n, Integer.ofLeading? s = some n → n.toInt ≤ 0 := by
  rw [positive?, Option.bind_eq_none_iff]
  refine forall_congr' fun n => imp_congr_right fun _ => ?_
  by_cases hn : 0 < n.toInt
  · rw [if_pos hn]
    exact iff_of_false nofun (Int.not_le.mpr hn)
  · rw [if_neg hn]
    exact iff_of_true rfl (Int.not_lt.mp hn)

theorem toInt_offset (page size : UInt64) :
    (offset page size).toInt =
      min (((page.toNat - 1 : Nat) : Int) * size.toNat) 0x7FFFFFFFFFFFFFFF := by
  rw [offset, ← Int.natCast_mul]
  generalize (page.toNat - 1) * size.toNat = rows
  rw [toInt_ofInt (by omega) (by omega)]
  omega

theorem min_mul_min {m : Nat} (hm : 1 ≤ m) (a b : Nat) :
    min (min a m * min b m) m = min (a * b) m := by
  rcases Nat.eq_zero_or_pos a with rfl | ha
  · simp
  rcases Nat.eq_zero_or_pos b with rfl | hb
  · simp
  by_cases hab : a ≤ m ∧ b ≤ m
  · rw [Nat.min_eq_left hab.1, Nat.min_eq_left hab.2]
  · -- one factor is the bound already, and the other is positive
    have hright : m ≤ a * b := by
      have := Nat.le_mul_of_pos_right a hb
      have := Nat.le_mul_of_pos_left b ha
      omega
    have hleft : m ≤ min a m * min b m := by
      have := Nat.le_mul_of_pos_right (min a m) (show 0 < min b m by omega)
      have := Nat.le_mul_of_pos_left (min b m) (show 0 < min a m by omega)
      omega
    rw [Nat.min_eq_right hleft, Nat.min_eq_right hright]

/-- Each step of the offset saturates, and none wraps. -/
theorem offset_eq_saturate {page : UInt64} (hpage : 1 ≤ page.toNat) (size : UInt64) :
    offset page size =
      saturate ((saturate (page - 1).toNat).toInt * (saturate size.toNat).toInt) := by
  have hsub : (page - 1).toNat = page.toNat - 1 :=
    UInt64.toNat_sub_of_le page 1 (UInt64.le_iff_toNat_le.mpr hpage)
  have hsteps := min_mul_min (m := 0x7FFFFFFFFFFFFFFF) (by decide) (page.toNat - 1) size.toNat
  rw [← Int64.toInt_inj, toInt_offset, hsub, toInt_saturate_natCast, toInt_saturate_natCast,
    ← Int.natCast_mul, ← Int.natCast_mul, toInt_saturate_natCast, hsteps]
  omega

/-- The rows of a page: as many as `pageSize` asks for, if that is positive. -/
def pageLength (p : Params) (pageSize : UInt64) : Int :=
  match (p.last? pageSizeKey).bind Integer.ofLeading? with
  | some n => if 0 < n.toInt then n.toInt else pageSize.toNat
  | .none => pageSize.toNat

theorem toNat_pageLength (p : Params) (pageSize : UInt64) :
    ((((p.last? pageSizeKey).bind positive?).getD pageSize).toNat : Int) = pageLength p pageSize := by
  unfold pageLength
  cases p.last? pageSizeKey with
  | none => rfl
  | some s =>
    rw [Option.bind_some, Option.bind_some]
    cases hsize : positive? s with
    | some size =>
      obtain ⟨n, hn, hpos, hvalue⟩ := positive?_eq_some_iff.mp hsize
      simp only [hn, if_pos hpos]
      exact hvalue
    | none =>
      rw [positive?_eq_none_iff] at hsize
      cases hn : Integer.ofLeading? s with
      | none => rfl
      | some n =>
        simp only [if_neg (Int.not_lt.mpr (hsize n hn))]
        rfl

/-! ## Windows -/

theorem ofParams_of_skip {s : String} (h : p.last? skipKey = some s) :
    ofParams p pageSize = ⟨some ((Integer.ofLeading? s).getD 0),
      some (((p.last? takeKey).map fun s => (positive? s).getD pageSize).getD pageSize)⟩ := by
  simp only [ofParams, h]

theorem ofParams_of_page {s : String} (hskip : p.last? skipKey = Option.none)
    (hpage : p.last? pageKey = some s) :
    ofParams p pageSize =
      ⟨some (offset ((positive? s).getD 1) (((p.last? pageSizeKey).bind positive?).getD pageSize)),
        some (((p.last? takeKey).map fun s => (positive? s).getD pageSize).getD
          (((p.last? pageSizeKey).bind positive?).getD pageSize))⟩ := by
  simp only [ofParams, hskip, hpage]

theorem ofParams_of_no_page (hskip : p.last? skipKey = Option.none)
    (hpage : p.last? pageKey = Option.none) :
    ofParams p pageSize =
      ⟨Option.none, (p.last? takeKey).map fun s => (positive? s).getD pageSize⟩ := by
  simp only [ofParams, hskip, hpage]

/-- No parameter of a page changes a window with a `skip`. -/
theorem ofParams_without {s : String} (h : p.last? skipKey = some s) :
    ofParams (p.without [pageKey, pageSizeKey]) pageSize = ofParams p pageSize := by
  have hskip := Params.last?_without (show skipKey ∉ [pageKey, pageSizeKey] by decide) p
  have htake := Params.last?_without (show takeKey ∉ [pageKey, pageSizeKey] by decide) p
  rw [ofParams_of_skip h, ofParams_of_skip (hskip.trans h), htake]

theorem isSome_take (h : (ofParams p pageSize).skip.isSome) :
    (ofParams p pageSize).take.isSome := by
  cases hskip : p.last? skipKey with
  | some s => rw [ofParams_of_skip hskip]; rfl
  | none =>
    cases hpage : p.last? pageKey with
    | some s => rw [ofParams_of_page hskip hpage]; rfl
    | none =>
      rw [ofParams_of_no_page hskip hpage] at h
      cases h

theorem one_le_getD {o : Option UInt64} {size : UInt64} (ho : ∀ u ∈ o, 1 ≤ u.toNat)
    (hsize : 1 ≤ size.toNat) : 1 ≤ (o.getD size).toNat := by
  cases o with
  | none => exact hsize
  | some u => exact ho u rfl

theorem one_le_positive? (s : String) : ∀ u ∈ positive? s, 1 ≤ u.toNat := by
  intro u hu
  obtain ⟨n, -, hpos, hvalue⟩ := positive?_eq_some_iff.mp hu
  omega

/-- A window takes at least one row, whatever the parameters say. -/
theorem one_le_take (hsize : 1 ≤ pageSize.toNat) :
    ∀ take ∈ (ofParams p pageSize).take, 1 ≤ take.toNat := by
  have hasked : ∀ take ∈ (p.last? takeKey).map fun s => (positive? s).getD pageSize,
      1 ≤ take.toNat := by
    intro take htake
    obtain ⟨s, -, rfl⟩ := Option.map_eq_some_iff.mp htake
    exact one_le_getD (one_le_positive? s) hsize
  intro take htake
  cases hskip : p.last? skipKey with
  | some s =>
    rw [ofParams_of_skip hskip] at htake
    cases htake
    exact one_le_getD hasked hsize
  | none =>
    cases hpage : p.last? pageKey with
    | some s =>
      rw [ofParams_of_page hskip hpage] at htake
      cases htake
      refine one_le_getD hasked (one_le_getD ?_ hsize)
      intro u hu
      obtain ⟨s, -, hu⟩ := Option.bind_eq_some_iff.mp hu
      exact one_le_positive? s u hu
    | none =>
      rw [ofParams_of_no_page hskip hpage] at htake
      exact hasked take htake

theorem offset_nonneg (page size : UInt64) : 0 ≤ (offset page size).toInt := by
  rw [toInt_offset, ← Int.natCast_mul]
  omega

/-- Only a `skip` that reads as negative skips a negative number of rows. -/
theorem skip_of_neg {skip : Int64} (h : skip ∈ (ofParams p pageSize).skip)
    (hneg : skip.toInt < 0) : (p.last? skipKey).bind Integer.ofLeading? = some skip := by
  cases hskip : p.last? skipKey with
  | some s =>
    rw [ofParams_of_skip hskip] at h
    cases h
    cases hread : Integer.ofLeading? s with
    | some n => exact hread
    | none =>
      rw [hread] at hneg
      cases hneg
  | none =>
    cases hpage : p.last? pageKey with
    | some s =>
      rw [ofParams_of_page hskip hpage] at h
      cases h
      exact absurd hneg (Int.not_lt.mpr (offset_nonneg _ _))
    | none =>
      rw [ofParams_of_no_page hskip hpage] at h
      cases h

/-! ## Pages -/

theorem toInt_offset_of_page {s : String} {page : Int64} (hread : Integer.ofLeading? s = some page)
    (hpos : 1 ≤ page.toInt) (size : UInt64) :
    (offset ((positive? s).getD 1) size).toInt =
      min ((page.toInt - 1) * size.toNat) 0x7FFFFFFFFFFFFFFF := by
  obtain ⟨u, hu⟩ : ∃ u, positive? s = some u := by
    rw [← Option.ne_none_iff_exists']
    intro hnone
    have := positive?_eq_none_iff.mp hnone page hread
    omega
  obtain ⟨n, hn, -, hvalue⟩ := positive?_eq_some_iff.mp hu
  obtain rfl : n = page := Option.some.inj (hn.symm.trans hread)
  have hbefore : ((u.toNat - 1 : Nat) : Int) = n.toInt - 1 := by omega
  rw [hu, Option.getD_some, toInt_offset, hbefore]

/-- The window of a page in exact arithmetic. -/
theorem ofParams_page (pageSize : UInt64) {s : String} {page : Int64}
    (hskip : p.last? skipKey = Option.none) (htake : p.last? takeKey = Option.none)
    (hpage : p.last? pageKey = some s) (hread : Integer.ofLeading? s = some page)
    (hpos : 1 ≤ page.toInt) :
    ∃ skip take, ofParams p pageSize = ⟨some skip, some take⟩ ∧
      (take.toNat : Int) = pageLength p pageSize ∧
      skip.toInt = min ((page.toInt - 1) * pageLength p pageSize) 0x7FFFFFFFFFFFFFFF := by
  rw [ofParams_of_page hskip hpage, htake, Option.map_none, Option.getD_none]
  refine ⟨_, _, rfl, toNat_pageLength p pageSize, ?_⟩
  rw [toInt_offset_of_page hread hpos, toNat_pageLength]

/-- The rows of the next page begin where those of a page end. -/
theorem ofParams_next_page (pageSize : UInt64) {p' : Params} {s s' : String} {page page' : Int64}
    (hother : ∀ key, pageKey ≠ key → p'.last? key = p.last? key)
    (hskip : p.last? skipKey = Option.none) (htake : p.last? takeKey = Option.none)
    (hpage : p.last? pageKey = some s) (hpage' : p'.last? pageKey = some s')
    (hread : Integer.ofLeading? s = some page) (hread' : Integer.ofLeading? s' = some page')
    (hpos : 1 ≤ page.toInt) (hnext : page'.toInt = page.toInt + 1) :
    ∃ skip skip' take, ofParams p pageSize = ⟨some skip, some take⟩ ∧
      ofParams p' pageSize = ⟨some skip', some take⟩ ∧
      (take.toNat : Int) = pageLength p pageSize ∧
      skip.toInt = min ((page.toInt - 1) * take.toNat) 0x7FFFFFFFFFFFFFFF ∧
      skip'.toInt = min (page.toInt * take.toNat) 0x7FFFFFFFFFFFFFFF ∧
      skip'.toInt = min (skip.toInt + take.toNat) 0x7FFFFFFFFFFFFFFF := by
  obtain ⟨skip, take, hwindow, hlength, hrows⟩ :=
    ofParams_page pageSize hskip htake hpage hread hpos
  obtain ⟨skip', take', hwindow', hlength', hrows'⟩ :=
    ofParams_page pageSize ((hother skipKey (by decide)).trans hskip)
      ((hother takeKey (by decide)).trans htake) hpage' hread' (by omega)
  have hsame : pageLength p' pageSize = pageLength p pageSize := by
    rw [pageLength, pageLength, hother pageSizeKey (by decide)]
  rw [hsame] at hlength' hrows'
  obtain rfl : take' = take := UInt64.toNat_inj.mp (by omega)
  rw [← hlength] at hrows hrows'
  rw [hnext, Int.add_sub_cancel] at hrows'
  refine ⟨skip, skip', take', hwindow, hwindow', hlength, hrows, hrows', ?_⟩
  -- a saturated offset stays saturated, and any other is exact
  have hsum : (page.toInt - 1) * take'.toNat + take'.toNat = page.toInt * take'.toNat := by
    rw [Int.sub_mul, Int.one_mul, Int.sub_add_cancel]
  omega

/-- Windows in exact arithmetic, for any parameters and any page size: a window that skips also
takes; it takes at least one row; it skips a negative number of rows only if the last `skip` says so;
the parameters of a page change nothing beside a `skip`; the windows of neighbouring pages are
adjacent; and no step from a page to its offset wraps. -/
theorem ofParams_sound (p : Params) (pageSize : UInt64) (hsize : 1 ≤ pageSize.toNat) :
    ((ofParams p pageSize).skip.isSome → (ofParams p pageSize).take.isSome) ∧
    (∀ take ∈ (ofParams p pageSize).take, 1 ≤ take.toNat) ∧
    (∀ skip ∈ (ofParams p pageSize).skip, skip.toInt < 0 →
      (p.last? skipKey).bind Integer.ofLeading? = some skip) ∧
    (∀ value, (skipKey, value) ∈ p.pairs →
      ofParams (p.without [pageKey, pageSizeKey]) pageSize = ofParams p pageSize) ∧
    (∀ before after value value' page page',
      p.pairs = before ++ (pageKey, value) :: after → (∀ pair ∈ after, pair.1 ≠ pageKey) →
      (∀ pair ∈ p.pairs, pair.1 ≠ skipKey ∧ pair.1 ≠ takeKey) →
      Integer.ofLeading? value = some page → Integer.ofLeading? value' = some page' →
      1 ≤ page.toInt → page'.toInt = page.toInt + 1 →
      ∃ skip skip' take, ofParams p pageSize = ⟨some skip, some take⟩ ∧
        ofParams ⟨before ++ (pageKey, value') :: after⟩ pageSize = ⟨some skip', some take⟩ ∧
        (take.toNat : Int) = pageLength p pageSize ∧
        skip.toInt = min ((page.toInt - 1) * take.toNat) 0x7FFFFFFFFFFFFFFF ∧
        skip'.toInt = min (page.toInt * take.toNat) 0x7FFFFFFFFFFFFFFF ∧
        skip'.toInt = min (skip.toInt + take.toNat) 0x7FFFFFFFFFFFFFFF) ∧
    ∀ page size : UInt64, 1 ≤ page.toNat → (page - 1).toNat = page.toNat - 1 ∧
      offset page size =
        saturate ((saturate (page - 1).toNat).toInt * (saturate size.toNat).toInt) := by
  refine ⟨isSome_take, one_le_take hsize, fun _ => skip_of_neg, ?_, ?_, ?_⟩
  · intro value hmem
    cases hskip : p.last? skipKey with
    | some s => exact ofParams_without hskip
    | none => exact absurd rfl (Params.last?_eq_none_iff.mp hskip _ hmem)
  · intro before after value value' page page' hpairs hafter hkeys hread hread' hpos hnext
    obtain rfl : p = ⟨before ++ (pageKey, value) :: after⟩ := congrArg Params.mk hpairs
    exact ofParams_next_page pageSize (fun _ hkey => Params.last?_replace hkey value' value)
      (Params.last?_eq_none_iff.mpr fun pair hpair => (hkeys pair hpair).1)
      (Params.last?_eq_none_iff.mpr fun pair hpair => (hkeys pair hpair).2)
      (Params.last?_of_forall_ne hafter value) (Params.last?_of_forall_ne hafter value')
      hread hread' hpos hnext
  · intro page size hpage
    exact ⟨UInt64.toNat_sub_of_le page 1 (UInt64.le_iff_toNat_le.mpr hpage),
      offset_eq_saturate hpage size⟩

/-- The third page and the fourth, of a page size that no signed 64-bit integer is: the offsets of
both saturate. -/
theorem ofParams_sound_third_page :
    1 ≤ (0xFFFFFFFFFFFFFFFF : UInt64).toNat ∧
    ∃ skip skip' take,
      ofParams ⟨[("page", "none"), ("page", " +3rd"), ("pageSize", "0")]⟩ 0xFFFFFFFFFFFFFFFF =
        ⟨some skip, some take⟩ ∧
      ofParams ⟨[("page", "none"), ("page", "4.0"), ("pageSize", "0")]⟩ 0xFFFFFFFFFFFFFFFF =
        ⟨some skip', some take⟩ ∧
      (take.toNat : Int) = 0xFFFFFFFFFFFFFFFF ∧ skip.toInt = 0x7FFFFFFFFFFFFFFF ∧
      skip'.toInt = 0x7FFFFFFFFFFFFFFF := by
  refine ⟨by decide, ?_⟩
  obtain ⟨-, -, -, -, hpages, -⟩ := ofParams_sound
    ⟨[("page", "none"), ("page", " +3rd"), ("pageSize", "0")]⟩ 0xFFFFFFFFFFFFFFFF (by decide)
  obtain ⟨skip, skip', take, hwindow, hwindow', hlength, hskip, hskip', -⟩ :=
    hpages [("page", "none")] [("pageSize", "0")] " +3rd" "4.0" 3 4 rfl (by decide) (by decide)
      (by decide) (by decide) (by decide) (by decide)
  have hsize : pageLength ⟨[("page", "none"), ("page", " +3rd"), ("pageSize", "0")]⟩
      0xFFFFFFFFFFFFFFFF = 0xFFFFFFFFFFFFFFFF := by decide
  rw [hsize] at hlength
  rw [hlength] at hskip hskip'
  exact ⟨skip, skip', take, hwindow, hwindow', hlength, hskip, hskip'⟩

end Window

end QueryFilter
