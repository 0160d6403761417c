import QueryFilter.Proofs.Compiled
import QueryFilter.Proofs.Reading
import QueryFilter.Query.Basic

/-!
# What a merge asks

A merged filter asks what the trusted filter asks, and of the requested one all but the keys that
the trusted one has too (`Tree.holds_merge`). Keys are those of a map: none repeats on one level.
-/

namespace QueryFilter

namespace Tree

/-- The entries whose keys are not among those given. -/
def without (keys : List String) (t : Tree) : Tree := ⟨t.entries.filter (·.1 ∉ keys)⟩

/-- Whether the name of a connective is among the keys. -/
def NamesConnective (t : Tree) : Prop := "AND" ∈ t.keys ∨ "OR" ∈ t.keys ∨ "NOT" ∈ t.keys

instance (t : Tree) : Decidable t.NamesConnective := inferInstanceAs (Decidable (_ ∨ _))

theorem hasConnectiveKey_iff {t : Tree} : t.hasConnectiveKey ↔ t.NamesConnective := by
  rw [hasConnectiveKey, List.any_eq_true]
  constructor
  · rintro ⟨key, hkey, hsome⟩
    obtain ⟨connective, hread⟩ := Option.isSome_iff_exists.mp hsome
    rw [← Connective.key_of_ofKey? hread] at hkey
    cases connective with
    | and => exact .inl hkey
    | or => exact .inr (.inl hkey)
    | not => exact .inr (.inr hkey)
  · rintro (hkey | hkey | hkey)
    all_goals exact ⟨_, hkey, rfl⟩

/-- A merge is one side alone, a group of both sides, or all trusted entries written over the
requested ones. -/
theorem merge_cases (trusted requested : Tree) :
    (trusted.isEmpty ∧ merge trusted requested = requested) ∨
    (requested.isEmpty ∧ merge trusted requested = trusted) ∨
    ((trusted.NamesConnective ∨ requested.NamesConnective) ∧
      merge trusted requested = group .and (requested.conjuncts ++ trusted.conjuncts)) ∨
    (¬ (trusted.isEmpty ∨ requested.isEmpty ∨
        trusted.NamesConnective ∨ requested.NamesConnective) ∧
      merge trusted requested = requested.putAll trusted.entries) := by
  unfold merge
  split
  · next het => exact .inl ⟨het, rfl⟩
  · next het =>
    split
    · next her => exact .inr (.inl ⟨her, rfl⟩)
    · next her =>
      simp only [Bool.or_eq_true, hasConnectiveKey_iff]
      split
      · next hnames => exact .inr (.inr (.inl ⟨hnames, rfl⟩))
      · next hnames => exact .inr (.inr (.inr ⟨by simp [het, her, hnames], rfl⟩))

section
variable (v : Atom → Bool)

theorem holds_of_isEmpty_entries {t : Tree} (h : t.isEmpty) : t.toCondition.holds v := by
  rw [toCondition, holds_condition, List.isEmpty_iff.mp h]
  rfl

theorem holds_group_and (ts : List Tree) :
    (group .and ts).toCondition.holds v = ts.all (·.toCondition.holds v) := by
  rw [holds_group v (by simp), Connective.combine, List.all_map]
  rfl

theorem eq_group_of_soleGroup? {connective : Connective} {t : Tree} {ts : List Tree}
    (h : t.soleGroup? connective = some ts) : t = group connective ts := by
  unfold soleGroup? at h
  split at h
  · next key entries =>
    split at h
    · next hk =>
      rw [Option.some.injEq] at h
      subst h
      subst hk
      rfl
    · cases h
  · cases h

theorem all_conjuncts (t : Tree) :
    t.conjuncts.all (·.toCondition.holds v) = t.toCondition.holds v := by
  unfold conjuncts
  cases h : t.soleGroup? .and with
  | none => simp
  | some ts =>
    rw [Option.getD_some, eq_group_of_soleGroup? h, holds_group_and]

theorem holds_putAll {trusted requested : Tree} (ht : trusted.keys.Nodup)
    (hr : requested.keys.Nodup) :
    (requested.putAll trusted.entries).toCondition.holds v =
      (trusted.toCondition.holds v && (requested.without trusted.keys).toCondition.holds v) := by
  simp only [toCondition, holds_condition, putAll, without]
  rw [(Entries.putAll_perm hr ht).all_eq, List.all_append, Bool.and_comm]
  rfl

/-- The trusted entries are written over those requested only if both filters have keys and none of
these is a connective. -/
theorem holds_merge {trusted requested : Tree} (ht : trusted.keys.Nodup)
    (hr : requested.keys.Nodup) :
    (merge trusted requested).toCondition.holds v =
      (trusted.toCondition.holds v &&
        if trusted.isEmpty ∨ requested.isEmpty ∨
            trusted.NamesConnective ∨ requested.NamesConnective then
          requested.toCondition.holds v
        else (requested.without trusted.keys).toCondition.holds v) := by
  obtain ⟨het, hmerge⟩ | ⟨her, hmerge⟩ | ⟨hnames, hmerge⟩ | ⟨hapart, hmerge⟩ :=
    merge_cases trusted requested
  · rw [hmerge, if_pos (.inl het), holds_of_isEmpty_entries v het, Bool.true_and]
  · rw [hmerge, if_pos (.inr (.inl her)), holds_of_isEmpty_entries v her, Bool.and_true]
  · rw [hmerge, if_pos (.inr (.inr hnames)), holds_group_and, List.all_append, all_conjuncts,
      all_conjuncts, Bool.and_comm]
  · rw [hmerge, if_neg hapart, holds_putAll v ht hr]

end

/-! ## The keys of a filter read from parameters -/

theorem nodup_keys_ofParams (o : Options) (p : Params) : (ofParams o p).keys.Nodup :=
  (compiled_iff.mp (compiled_ofParams o p)).1

theorem nodup_keys_toFilter (o : Options) (p : Params) : (p.toFilter o).keys.Nodup := by
  unfold Params.toFilter search
  split
  · exact nodup_keys_ofParams o p
  · next found hfound =>
    have hgroup : ∀ connective ts, (group connective ts).keys.Nodup := fun _ _ =>
      List.nodup_cons.mpr ⟨List.not_mem_nil, List.nodup_nil⟩
    split
    · obtain ⟨term, _, hs⟩ := Option.bind_eq_some_iff.mp hfound
      unfold searchGroup? at hs
      split at hs
      · cases hs
      · exact Option.some.inj hs ▸ hgroup ..
    · exact hgroup ..

/-! ## The trusted filter survives -/

/-- A merged filter asks what both sides ask, but for requested keys that are trusted too, on which
the trusted side wins. So no input gets around the trusted filter. -/
theorem holds_merge_iff (v : Atom → Bool) (trusted requested : Tree) (ht : trusted.keys.Nodup)
    (hr : requested.keys.Nodup) :
    (if trusted.isEmpty ∨ requested.isEmpty ∨
        trusted.NamesConnective ∨ requested.NamesConnective then
      ((merge trusted requested).toCondition.holds v ↔
        trusted.toCondition.holds v ∧ requested.toCondition.holds v)
    else
      ((merge trusted requested).toCondition.holds v ↔
        trusted.toCondition.holds v ∧
          (requested.without trusted.keys).toCondition.holds v)) ∧
    ∀ (o : Options) (input : Input) (order : Option SortOrder) (window : Window),
      (Query.merge ⟨trusted, order, window⟩ (.ofInput o input)).filter.toCondition.holds v →
        trusted.toCondition.holds v := by
  constructor
  · rw [holds_merge v ht hr]
    split <;> exact Bool.and_eq_true_iff
  · intro o input order window h
    have hinput : (Query.ofInput o input).filter.keys.Nodup := nodup_keys_toFilter o input.toParams
    rw [Query.merge, holds_merge v ht hinput, Bool.and_eq_true_iff] at h
    exact h.1

/-- A requested key that is the name of a connective, but holds a value. -/
theorem holds_merge_iff_connective_value :
    (single "tenant" (.value (.int 7))).keys.Nodup ∧
      (single "AND" (.value (.bool true))).keys.Nodup ∧
      ((merge (single "tenant" (.value (.int 7))) (single "AND" (.value (.bool true)))).toCondition.holds
          (·.column.name == "AND") ↔
        (single "tenant" (.value (.int 7))).toCondition.holds (·.column.name == "AND") ∧
          (single "AND" (.value (.bool true))).toCondition.holds (·.column.name == "AND")) := by
  have ht : (single "tenant" (.value (.int 7))).keys.Nodup := by decide
  have hr : (single "AND" (.value (.bool true))).keys.Nodup := by decide
  have h := (holds_merge_iff (·.column.name == "AND") _ _ ht hr).1
  rw [if_pos (by decide)] at h
  exact ⟨ht, hr, h⟩

end Tree

end QueryFilter
