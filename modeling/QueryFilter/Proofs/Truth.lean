import QueryFilter.Sql.Condition

/-!
# The truth of conditions

A condition is a boolean formula over its atoms: all of no parts is true, any of no parts is false.
A part that is left out counts as true, so leaving out an empty condition of a filter changes
nothing: such a condition is a conjunction without parts.
-/

namespace QueryFilter

mutual

def Part.holds (v : Atom → Bool) : Part → Bool
  | .atom a => v a
  | .condition c => c.holds v

/-- The truth of a condition, given the truth of the atoms. -/
def Condition.holds (v : Atom → Bool) : Condition → Bool
  | ⟨negated, junction, parts⟩ =>
    let value := match junction with
      | .all => allHold v parts
      | .any => someHolds v parts
    if negated then !value else value

def allHold (v : Atom → Bool) : List Part → Bool
  | [] => true
  | part :: parts => part.holds v && allHold v parts

def someHolds (v : Atom → Bool) : List Part → Bool
  | [] => false
  | part :: parts => part.holds v || someHolds v parts

end

/-- The truth of a condition that may be left out. -/
def Condition.holds? (v : Atom → Bool) (c : Option Condition) : Bool := c.elim true (·.holds v)

section
variable (v : Atom → Bool)

theorem allHold_eq_all (parts : List Part) : allHold v parts = parts.all (·.holds v) := by
  induction parts with
  | nil => rfl
  | cons part parts ih => rw [allHold, List.all_cons, ih]

theorem someHolds_eq_any (parts : List Part) : someHolds v parts = parts.any (·.holds v) := by
  induction parts with
  | nil => rfl
  | cons part parts ih => rw [someHolds, List.any_cons, ih]

namespace Condition

theorem holds_asPart (c : Condition) : (asPart c).holds v = c.holds v := by
  unfold asPart
  split
  · next junction part =>
    cases junction <;> simp [Condition.holds, allHold, someHolds]
  · rfl

theorem holds_allOf (cs : List Condition) : (allOf cs).holds v = cs.all (·.holds v) := by
  simp only [allOf, holds, allHold_eq_all, List.all_map]
  exact congrArg (List.all cs) (funext fun c => holds_asPart v c)

theorem holds_anyOf (cs : List Condition) : (anyOf cs).holds v = cs.any (·.holds v) := by
  simp only [anyOf, holds, someHolds_eq_any, List.any_map]
  exact congrArg (List.any cs) (funext fun c => holds_asPart v c)

theorem holds_ofAtoms (atoms : List Atom) : (ofAtoms atoms).holds v = atoms.all v := by
  simp only [ofAtoms, holds, allHold_eq_all, List.all_map]
  rfl

theorem holds_negate (c : Condition) : c.negate.holds v = !c.holds v := by
  obtain ⟨negated, junction, parts⟩ := c
  cases negated <;> simp [negate, holds]

theorem isEmpty_allOf (cs : List Condition) : (allOf cs).isEmpty = cs.isEmpty := by
  cases cs <;> rfl

/-! ## Leaving out what is empty -/

theorem holds?_nonEmpty? {c : Condition} (h : c.isEmpty → c.holds v) :
    holds? v c.nonEmpty? = c.holds v := by
  unfold nonEmpty?
  split
  · next he => simp [holds?, h he]
  · rfl

theorem holds?_nonEmpty?_allOf (cs : List Condition) :
    holds? v (allOf cs).nonEmpty? = cs.all (·.holds v) := by
  rw [holds?_nonEmpty?, holds_allOf]
  intro he
  rw [isEmpty_allOf, List.isEmpty_iff] at he
  rw [he]
  rfl

theorem all_filter_nonEmpty {cs : List Condition} (h : ∀ c ∈ cs, c.isEmpty → c.holds v) :
    (cs.filter (!·.isEmpty)).all (·.holds v) = cs.all (·.holds v) := by
  induction cs with
  | nil => rfl
  | cons c cs ih =>
    rw [List.forall_mem_cons] at h
    rw [List.filter_cons]
    cases he : c.isEmpty with
    | true => simp [h.1 he, ih h.2]
    | false => simp [ih h.2]

/-- The truth of a conjunction of entries, of which the empty ones hold. -/
theorem holds?_combine_and {cs : List Condition} (h : ∀ c ∈ cs, c.isEmpty → c.holds v) :
    holds? v (combine .and cs) = cs.all (·.holds v) := by
  rw [combine, holds?_nonEmpty?_allOf, all_filter_nonEmpty v h]

theorem holds?_combine_or {cs : List Condition} (h : ∀ c ∈ cs, c.isEmpty → c.holds v) :
    holds? v (combine .or cs) = cs.any (·.holds v) := by
  rw [combine]
  split
  · next he =>
    -- the whole group is left out, and its empty entry is true
    obtain ⟨c, hc, hce⟩ := List.any_eq_true.mp he
    exact (List.any_eq_true.mpr ⟨c, hc, h c hc hce⟩).symm
  · exact holds_anyOf v cs

/-- Entries that are empty are left out of a negation too, whatever their truth. -/
theorem holds?_combine_not (cs : List Condition) :
    holds? v (combine .not cs) = (cs.filter (!·.isEmpty)).all (!·.holds v) := by
  rw [combine, holds?_nonEmpty?_allOf, List.all_map]
  exact congrArg (List.all _) (funext fun c => holds_negate v c)

end Condition

/-! ## Filters -/

theorem conditions_eq_map (table : Option String) (ts : List Tree) :
    conditions table ts = ts.map (·.condition table) := by
  induction ts with
  | nil => rfl
  | cons t ts ih => rw [conditions, ih, List.map_cons]

theorem all_entryConditions (table : Option String) (es : List (String × Node)) :
    (entryConditions table es).all (·.holds v) =
      es.all fun e => Condition.holds? v (e.2.condition? table e.1) := by
  induction es with
  | nil => rfl
  | cons e es ih =>
    obtain ⟨key, node⟩ := e
    rw [entryConditions, List.all_append, ih, List.all_cons]
    cases node.condition? table key <;> simp [Condition.holds?]

theorem Tree.holds_condition (table : Option String) (t : Tree) :
    (t.condition table).holds v =
      t.entries.all fun e => Condition.holds? v (e.2.condition? table e.1) := by
  obtain ⟨es⟩ := t
  rw [Tree.condition, Condition.holds_allOf, all_entryConditions]

/-- A filter whose condition is empty asks nothing. -/
theorem Tree.holds_of_isEmpty {table : Option String} {t : Tree}
    (h : (t.condition table).isEmpty) : (t.condition table).holds v := by
  obtain ⟨es⟩ := t
  rw [Tree.condition] at h ⊢
  rw [Condition.isEmpty_allOf, List.isEmpty_iff] at h
  rw [h]
  rfl

end

end QueryFilter
