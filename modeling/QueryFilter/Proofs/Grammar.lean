import QueryFilter.Proofs.JsonForm

/-!
# The grammar of filters in JSON

Which JSON values are filters (`Json.IsFilter`), and the same value by value: all values of a
document in its order (`Json.parts`), each with its place and with the role that the keys above give
it. A document is a filter exactly if each of its parts is what its role admits
(`Json.isFilter_iff`). A part that is not is an offence, and the error names it.
-/

namespace QueryFilter

namespace Json

/-! ## The grammar -/

def IsScalar (j : Json) : Prop := j.kind = .boolean ∨ j.kind = .number ∨ j.kind = .string

instance (j : Json) : Decidable j.IsScalar := inferInstanceAs (Decidable (_ ∨ _))

/-- What an operator takes: a scalar, and a membership also an array of scalars. -/
def IsOperand (op : Operator) : Json → Prop
  | array items => op.isMembership ∧ ∀ item ∈ items, item.IsScalar
  | j => j.IsScalar

def IsMode : Json → Prop
  | string word => word = MatchMode.exact.word ∨ word = MatchMode.ignoreCase.word
  | _ => False

instance : ∀ j : Json, Decidable j.IsMode
  | string _ => inferInstanceAs (Decidable (_ ∨ _))
  | null | bool _ | number _ | array _ | object _ => isFalse id

/-- A member of an object of tests. -/
def IsTest (member : String × Json) : Prop :=
  member.1 = modeKey ∧ member.2.IsMode ∨
    ∃ op : Operator, op.token = member.1 ∧ member.2.IsOperand op

mutual

/-- An object whose connectives hold groups and whose other keys hold nodes. -/
def IsFilter : Json → Prop
  | .object members => areEntries members
  | _ => False

/-- A filter or an array of filters. -/
def IsGroup : Json → Prop
  | .object members => areEntries members
  | .array items => areFilters items
  | _ => False

/-- A scalar, an array of scalars, or an object: tests if its keys name tests, and else a filter. -/
def IsNode : Json → Prop
  | .object members =>
    if NamesTests (Entries.keys members) then ∀ m ∈ members, IsTest m else areEntries members
  | .array items => ∀ item ∈ items, item.IsScalar
  | j => j.IsScalar

def areEntries : List (String × Json) → Prop
  | [] => True
  | (key, value) :: members =>
    (if (Connective.ofKey? key).isSome then value.IsGroup else value.IsNode) ∧ areEntries members

def areFilters : List Json → Prop
  | [] => True
  | item :: items => item.IsFilter ∧ areFilters items

end

/-! ## The parts of a document -/

/-- What a filter asks of the value at a place. An entry of a group knows its index. -/
inductive Role where
  | filter
  | group
  | entry (index : Nat)
  | node
  | operand (op : Operator)
  | mode
  | scalar

namespace Role

/-- Whether a role admits a value, whatever stands inside. -/
def Admits (j : Json) : Role → Prop
  | filter | entry _ => j.kind = .object
  | group => j.kind = .object ∨ j.kind = .array
  | node => j.kind ≠ .null
  | operand op => j.IsScalar ∨ j.kind = .array ∧ op.isMembership
  | mode => j.IsMode
  | scalar => j.IsScalar

instance (j : Json) : ∀ role : Role, Decidable (role.Admits j)
  | filter | entry _ => inferInstanceAs (Decidable (_ = _))
  | group | operand _ => inferInstanceAs (Decidable (_ ∨ _))
  | node => inferInstanceAs (Decidable (_ ≠ _))
  | mode => inferInstanceAs (Decidable j.IsMode)
  | scalar => inferInstanceAs (Decidable j.IsScalar)

/-- The role of what stands under a key of a filter. -/
def ofKey (key : String) : Role := if (Connective.ofKey? key).isSome then group else node

/-- The role of what stands under a key of tests. -/
def ofTest (key : String) : Role := (Operator.ofToken? key).elim mode operand

/-- The roles of the members of an object with these keys. -/
def member (keys : List String) : Role → String → Role
  | node => if NamesTests keys then ofTest else ofKey
  | _ => ofKey

/-- The roles of the items of an array. -/
def item : Role → Nat → Role
  | group => entry
  | _ => fun _ => scalar

/-- The place of the members of an object: the entries of a group are told apart by their index. -/
def inside (place : List String) : Role → List String
  | entry index => place ++ [Integer.text index]
  | _ => place

end Role

/-- A value in a document, its role, and the keys and indices that lead to it. The items of an array
stand at the place of the array. -/
structure Part where
  role : Role
  place : List String
  value : Json

mutual

/-- All values of a document in its order, each before those inside it. -/
def parts (role : Role) (place : List String) : Json → List Part
  | .object members =>
    ⟨role, place, .object members⟩ ::
      memberParts (role.member (Entries.keys members)) (role.inside place) members
  | .array items => ⟨role, place, .array items⟩ :: itemParts role.item place 0 items
  | j => [⟨role, place, j⟩]

def memberParts (roles : String → Role) (place : List String) : List (String × Json) → List Part
  | [] => []
  | (key, value) :: members =>
    value.parts (roles key) (place ++ [key]) ++ memberParts roles place members

def itemParts (roles : Nat → Role) (place : List String) : Nat → List Json → List Part
  | _, [] => []
  | index, item :: items =>
    item.parts (roles index) place ++ itemParts roles place (index + 1) items

end

def Part.Admitted (p : Part) : Prop := p.role.Admits p.value

instance (p : Part) : Decidable p.Admitted := inferInstanceAs (Decidable (p.role.Admits _))

/-! ## The parts inside a value -/

section
variable (role : Role) (place : List String)

theorem parts_of_isScalar {j : Json} (h : j.IsScalar) :
    j.parts role place = [⟨role, place, j⟩] := by
  cases j with
  | object members => simp [IsScalar, kind] at h
  | array items => simp [IsScalar, kind] at h
  | _ => rfl

theorem exists_parts_eq_cons (j : Json) :
    ∃ inside, j.parts role place = ⟨role, place, j⟩ :: inside := by
  cases j with
  | object members => exact ⟨_, by rw [parts]⟩
  | array items => exact ⟨_, by rw [parts]⟩
  | _ => exact ⟨[], rfl⟩

end

section
variable {role : Role} {place : List String}

theorem admits_of_parts {j : Json} (h : ∀ p ∈ j.parts role place, p.Admitted) : role.Admits j := by
  obtain ⟨inside, hparts⟩ := exists_parts_eq_cons role place j
  exact h ⟨role, place, j⟩ (hparts ▸ List.mem_cons_self ..)

theorem forall_parts_of_isScalar {j : Json} (h : j.IsScalar) :
    (∀ p ∈ j.parts role place, p.Admitted) ↔ role.Admits j := by
  rw [parts_of_isScalar role place h, List.forall_mem_singleton]
  rfl

theorem forall_parts_object {members : List (String × Json)} :
    (∀ p ∈ (object members).parts role place, p.Admitted) ↔ role.Admits (object members) ∧
      ∀ p ∈ memberParts (role.member (Entries.keys members)) (role.inside place) members,
        p.Admitted := by
  rw [parts, List.forall_mem_cons]
  rfl

theorem forall_parts_array {items : List Json} :
    (∀ p ∈ (array items).parts role place, p.Admitted) ↔ role.Admits (array items) ∧
      ∀ p ∈ itemParts role.item place 0 items, p.Admitted := by
  rw [parts, List.forall_mem_cons]
  rfl

theorem forall_parts_scalar {j : Json} :
    (∀ p ∈ j.parts .scalar place, p.Admitted) ↔ j.IsScalar :=
  ⟨admits_of_parts, fun h => (forall_parts_of_isScalar h).mpr h⟩

theorem forall_itemParts_scalar {items : List Json} {index : Nat} :
    (∀ p ∈ itemParts (fun _ => .scalar) place index items, p.Admitted) ↔
      ∀ item ∈ items, item.IsScalar := by
  induction items generalizing index with
  | nil => simp [itemParts]
  | cons item items ih =>
    rw [itemParts, List.forall_mem_append, forall_parts_scalar, ih, List.forall_mem_cons]

end

/-! ## Tests -/

section
variable {place : List String}

theorem forall_parts_operand {op : Operator} {j : Json} :
    (∀ p ∈ j.parts (.operand op) place, p.Admitted) ↔ j.IsOperand op := by
  by_cases hscalar : j.IsScalar
  · have hoperand : j.IsOperand op := by
      cases j with
      | array items => simp [IsScalar, kind] at hscalar
      | _ => exact hscalar
    exact iff_of_true ((forall_parts_of_isScalar hscalar).mpr (Or.inl hscalar)) hoperand
  · cases j with
    | array items =>
      have hadmits : (Role.operand op).Admits (array items) ↔ op.isMembership := by
        simp [Role.Admits, IsScalar, kind]
      rw [forall_parts_array, hadmits, IsOperand]
      exact and_congr_right fun _ => forall_itemParts_scalar
    | _ =>
      refine iff_of_false (fun h => ?_) hscalar
      rcases admits_of_parts h with h | h
      · exact hscalar h
      · cases h.1

theorem forall_parts_mode {j : Json} :
    (∀ p ∈ j.parts .mode place, p.Admitted) ↔ j.IsMode := by
  refine ⟨admits_of_parts, fun h => ?_⟩
  have hscalar : j.IsScalar := by
    cases j with
    | string word => exact Or.inr (Or.inr rfl)
    | _ => cases h
  exact (forall_parts_of_isScalar hscalar).mpr h

theorem forall_parts_ofTest {key : String} {value : Json}
    (hkey : key = modeKey ∨ (Operator.ofToken? key).isSome) :
    (∀ p ∈ value.parts (.ofTest key) place, p.Admitted) ↔ IsTest (key, value) := by
  rw [Role.ofTest, IsTest]
  cases htoken : Operator.ofToken? key with
  | none =>
    rw [htoken] at hkey
    have hmode : key = modeKey := hkey.resolve_right Bool.false_ne_true
    have hno : ¬ ∃ op : Operator, op.token = key ∧ value.IsOperand op := by
      rintro ⟨op, rfl, -⟩
      rw [op.ofToken?_token] at htoken
      cases htoken
    rw [Option.elim_none, forall_parts_mode, or_iff_left hno, and_iff_right hmode]
  | some op =>
    obtain rfl := Operator.token_of_ofToken? htoken
    have hno : ¬ (op.token = modeKey ∧ value.IsMode) := fun h => Constraint.token_ne_modeKey op h.1
    rw [Option.elim_some, forall_parts_operand, or_iff_right hno]
    constructor
    · intro h
      exact ⟨op, rfl, h⟩
    · rintro ⟨op', hop, h⟩
      have hread := op'.ofToken?_token
      rw [hop, op.ofToken?_token] at hread
      cases hread
      exact h

theorem forall_memberParts_ofTest {members : List (String × Json)}
    (hkeys : ∀ key ∈ Entries.keys members, key = modeKey ∨ (Operator.ofToken? key).isSome) :
    (∀ p ∈ memberParts .ofTest place members, p.Admitted) ↔ ∀ m ∈ members, IsTest m := by
  induction members with
  | nil => simp [memberParts]
  | cons m members ih =>
    rw [Entries.keys_cons, List.forall_mem_cons] at hkeys
    rw [memberParts, List.forall_mem_append, forall_parts_ofTest hkeys.1, ih hkeys.2,
      List.forall_mem_cons]

end

/-! ## Filters -/

mutual

theorem areEntries_iff (place : List String) : ∀ members : List (String × Json),
    areEntries members ↔ ∀ p ∈ memberParts .ofKey place members, p.Admitted
  | [] => by simp [areEntries, memberParts]
  | (key, value) :: members => by
    rw [areEntries, memberParts, List.forall_mem_append, areEntries_iff place members, Role.ofKey]
    split
    · rw [isGroup_iff (place ++ [key]) value]
    · rw [isNode_iff (place ++ [key]) value]

theorem isGroup_iff (place : List String) : ∀ j : Json,
    j.IsGroup ↔ ∀ p ∈ j.parts .group place, p.Admitted
  | .object members => by
    rw [IsGroup, forall_parts_object, areEntries_iff place members]
    exact (and_iff_right (Or.inl rfl)).symm
  | .array items => by
    rw [IsGroup, forall_parts_array, areFilters_iff place 0 items]
    exact (and_iff_right (Or.inr rfl)).symm
  | .null | .bool _ | .number _ | .string _ =>
    iff_of_false id fun h => (admits_of_parts h).elim nofun nofun

theorem areFilters_iff (place : List String) (index : Nat) : ∀ items : List Json,
    areFilters items ↔ ∀ p ∈ itemParts .entry place index items, p.Admitted
  | [] => by simp [areFilters, itemParts]
  | .object members :: items => by
    rw [areFilters, itemParts, List.forall_mem_append, areFilters_iff place (index + 1) items,
      IsFilter, forall_parts_object, areEntries_iff (place ++ [Integer.text index]) members]
    exact and_congr_left fun _ => (and_iff_right rfl).symm
  | .null :: _ | .bool _ :: _ | .number _ :: _ | .string _ :: _ | .array _ :: _ => by
    rw [areFilters, itemParts, List.forall_mem_append]
    exact iff_of_false (fun h => h.1) fun h => nomatch admits_of_parts h.1

theorem isNode_iff (place : List String) : ∀ j : Json,
    j.IsNode ↔ ∀ p ∈ j.parts .node place, p.Admitted
  | .object members => by
    have hadmits : Role.node.Admits (object members) := nofun
    rw [IsNode, forall_parts_object, and_iff_right hadmits, Role.member]
    split
    · next htests => exact (forall_memberParts_ofTest htests.2).symm
    · exact areEntries_iff place members
  | .array items => by
    have hadmits : Role.node.Admits (array items) := nofun
    rw [IsNode, forall_parts_array, and_iff_right hadmits]
    exact forall_itemParts_scalar.symm
  | .bool _ => iff_of_true (Or.inl rfl) ((forall_parts_of_isScalar (Or.inl rfl)).mpr nofun)
  | .number _ =>
    iff_of_true (Or.inr (Or.inl rfl)) ((forall_parts_of_isScalar (Or.inr (Or.inl rfl))).mpr nofun)
  | .string _ =>
    iff_of_true (Or.inr (Or.inr rfl)) ((forall_parts_of_isScalar (Or.inr (Or.inr rfl))).mpr nofun)
  | .null =>
    iff_of_false (fun h => by simp [IsNode, IsScalar, kind] at h) fun h => admits_of_parts h rfl

end

/-- A document is a filter exactly if nothing in it is an offence. -/
theorem isFilter_iff {j : Json} (place : List String) :
    j.IsFilter ↔ ∀ p ∈ j.parts .filter place, p.Admitted := by
  cases j with
  | object members =>
    rw [IsFilter, forall_parts_object, areEntries_iff place members]
    exact (and_iff_right rfl).symm
  | _ => exact iff_of_false id fun h => nomatch admits_of_parts h

end Json

end QueryFilter
