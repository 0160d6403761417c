import QueryFilter.Proofs.Grammar
import QueryFilter.Proofs.NumberReaders

/-!
# The first offence in a document

Each reader of a filter fails at the first offence among the parts that it reads
(`fault?_entriesOfJson` and what follows it, from one lemma for each way to combine steps). So a
document is read exactly if it is a filter, and otherwise the error is that of its first offence
(`Tree.ofJson_by_grammar`). The reader drops an empty key from the front of a place; in a document
without empty keys a place is written as its keys with points between them
(`Path.ofKeys_eq_join`).
-/

namespace QueryFilter

open Json (Part)

/-! ## Steps that fail -/

/-- The error of a computation that fails. -/
def fault? {ε α : Type} : Except ε α → Option ε
  | .ok _ => none
  | .error e => some e

section
variable {ε α β : Type}

theorem fault?_eq_some_iff {x : Except ε α} {e : ε} : fault? x = some e ↔ x = .error e := by
  cases x <;> simp [fault?]

theorem fault?_eq_none_iff {x : Except ε α} : fault? x = none ↔ ∃ a, x = .ok a := by
  cases x <;> simp [fault?]

theorem fault?_map (f : α → β) (x : Except ε α) : fault? (x.map f) = fault? x := by
  cases x <;> rfl

/-- Of two steps the first that fails gives the error. -/
theorem fault?_bind {f : α → Except ε β} {second : Option ε} (h : ∀ a, fault? (f a) = second)
    (x : Except ε α) : fault? (x >>= f) = (fault? x).or second := by
  cases x with
  | error e => rfl
  | ok a => exact h a

theorem fault?_bind_pure (f : α → β) (x : Except ε α) :
    fault? (x >>= fun a => pure (f a)) = fault? x := by
  cases x <;> rfl

theorem fault?_mapM (f : α → Except ε β) (as : List α) :
    fault? (as.mapM f) = as.findSome? fun a => fault? (f a) := by
  induction as with
  | nil => rfl
  | cons a as ih =>
    rw [List.mapM_cons, List.findSome?_cons, ← ih]
    cases f a with
    | error e => rfl
    | ok b => cases as.mapM f <;> rfl

/-- If no step depends on those before, the first that fails gives the error. -/
theorem fault?_foldlM {f : β → α → Except ε β} {fault : α → Option ε} {as : List α}
    (h : ∀ a ∈ as, ∀ b, fault? (f b a) = fault a) (b : β) :
    fault? (as.foldlM f b) = as.findSome? fault := by
  induction as generalizing b with
  | nil => rfl
  | cons a as ih =>
    rw [List.forall_mem_cons] at h
    rw [List.foldlM_cons, fault?_bind (ih h.2), h.1, List.findSome?_cons]
    cases fault a <;> rfl

end

/-! ## Places -/

namespace Path

theorem below_ne_empty (path : String) {key : String} (h : key ≠ "") : below path key ≠ "" := by
  rw [below]
  split
  · exact h
  · simp [String.append_eq_empty_iff]

/-- The text of a place, as the reader builds it. -/
def ofKeys (place : List String) : String := place.foldl below ""

theorem ofKeys_append (place : List String) (key : String) :
    ofKeys (place ++ [key]) = below (ofKeys place) key := by
  rw [ofKeys, List.foldl_append]
  rfl

end Path

namespace Json

/-! ## Offences -/

/-- The error about a part that is not admitted. -/
def Part.error (p : Part) (path : String) : FilterError :=
  match p.role with
  | .group | .entry _ => .invalidGroup path
  | _ => .unsupported path p.value.kind

/-- The error about a part, if it is an offence, with its place as a text. -/
def Part.fault? (text : List String → String) (p : Part) : Option FilterError :=
  if p.Admitted then none else some (p.error (text p.place))

theorem Part.fault?_eq_none_iff {p : Part} {text : List String → String} :
    p.fault? text = none ↔ p.Admitted := by
  rw [fault?]
  split
  · next h => exact iff_of_true rfl h
  · next h => exact iff_of_false nofun h

section
variable {text : List String → String} {role : Role} {place : List String} {j : Json}

/-- An offence is found before anything inside it. -/
theorem findSome?_parts_of_not_admits (h : ¬ role.Admits j) :
    (j.parts role place).findSome? (Part.fault? text) =
      some (Part.error ⟨role, place, j⟩ (text place)) := by
  obtain ⟨inside, hparts⟩ := exists_parts_eq_cons role place j
  have hfault : Part.fault? text ⟨role, place, j⟩ =
      some (Part.error ⟨role, place, j⟩ (text place)) := if_neg h
  rw [hparts, List.findSome?_cons, hfault]

theorem findSome?_parts_object {members : List (String × Json)} (h : role.Admits (object members)) :
    ((object members).parts role place).findSome? (Part.fault? text) =
      (memberParts (role.member (Entries.keys members)) (role.inside place) members).findSome?
        (Part.fault? text) := by
  have hfault : Part.fault? text ⟨role, place, object members⟩ = none :=
    Part.fault?_eq_none_iff.mpr h
  rw [parts, List.findSome?_cons, hfault]

theorem findSome?_parts_array {items : List Json} (h : role.Admits (array items)) :
    ((array items).parts role place).findSome? (Part.fault? text) =
      (itemParts role.item place 0 items).findSome? (Part.fault? text) := by
  have hfault : Part.fault? text ⟨role, place, array items⟩ = none :=
    Part.fault?_eq_none_iff.mpr h
  rw [parts, List.findSome?_cons, hfault]

end

end Json

/-! ## Scalars and operands -/

section
variable (place : List String)

theorem Scalar.exists_ofNumber? (n : Json.Number) : ∃ v, ofNumber? n = some v := by
  cases n with
  | float x => exact ⟨_, rfl⟩
  | int n hr =>
    by_cases hn : n < 0x8000000000000000
    · exact ⟨_, ofNumber?_int_of_lt hn⟩
    · obtain ⟨x, hx⟩ := Binary64.exists_ofNat? (n := n.toNat) (by omega)
      exact ⟨_, by rw [ofNumber?_int_of_le (Int.not_lt.mp hn), hx]; rfl⟩

theorem Scalar.fault?_ofJson (j : Json) : fault? (ofJson (Path.ofKeys place) j) =
    (j.parts .scalar place).findSome? (Part.fault? Path.ofKeys) := by
  cases j with
  | number n =>
    obtain ⟨v, hv⟩ := exists_ofNumber? n
    rw [ofJson, hv]
    rfl
  | _ => rfl

theorem Scalar.fault?_listOfJson (items : List Json) (index : Nat) :
    fault? (listOfJson (Path.ofKeys place) items) =
      (Json.itemParts (fun _ => .scalar) place index items).findSome?
        (Part.fault? Path.ofKeys) := by
  rw [listOfJson, fault?_mapM]
  induction items generalizing index with
  | nil => rfl
  | cons item items ih =>
    rw [Json.itemParts, List.findSome?_append, ← ih (index + 1), ← Scalar.fault?_ofJson,
      List.findSome?_cons]
    cases fault? (ofJson (Path.ofKeys place) item) <;> rfl

theorem Operand.fault?_ofJson (op : Operator) (j : Json) :
    fault? (ofJson op (Path.ofKeys place) j) =
      (j.parts (.operand op) place).findSome? (Part.fault? Path.ofKeys) := by
  cases j with
  | array items =>
    rw [ofJson]
    split
    · next hop =>
      have hadmits : (Json.Role.operand op).Admits (.array items) := Or.inr ⟨rfl, hop⟩
      rw [fault?_map, Scalar.fault?_listOfJson place items 0, Json.findSome?_parts_array hadmits]
      rfl
    · next hop =>
      rw [Json.findSome?_parts_of_not_admits]
      · rfl
      · rintro (h | h)
        · simp [Json.IsScalar, Json.kind] at h
        · exact hop h.2
  | number n =>
    rw [ofJson, fault?_map, Scalar.fault?_ofJson]
    · rfl
    · intro items h
      cases h
  | _ => rfl

/-! ## Tests -/

namespace Constraint

theorem fault?_addMember {key : String} {value : Json}
    (hkey : key = modeKey ∨ (Operator.ofToken? key).isSome) (c : Constraint) :
    fault? (addMember (Path.ofKeys place) c (key, value)) =
      (value.parts (.ofTest key) (place ++ [key])).findSome? (Part.fault? Path.ofKeys) := by
  rw [Json.Role.ofTest]
  cases htoken : Operator.ofToken? key with
  | none =>
    have hmode : key = modeKey := hkey.resolve_right (by simp [htoken])
    simp only [addMember, if_pos hmode, ← Path.ofKeys_append, Option.elim_none]
    cases value with
    | string word =>
      by_cases hword : word = MatchMode.exact.word ∨ word = MatchMode.ignoreCase.word
      · rcases hword with rfl | rfl <;> rfl
      · have hnone : MatchMode.ofWord? word = none := by
          refine List.find?_eq_none.mpr fun mode _ hmode => hword ?_
          rw [← beq_iff_eq.mp hmode]
          cases mode with
          | exact => exact Or.inl rfl
          | ignoreCase => exact Or.inr rfl
        have hadmits : ¬ Json.Role.mode.Admits (.string word) := hword
        rw [Json.findSome?_parts_of_not_admits hadmits]
        simp only [hnone]
        rfl
    | _ => rfl
  | some op =>
    obtain rfl := Operator.token_of_ofToken? htoken
    simp only [addMember, if_neg (token_ne_modeKey op), htoken, ← Path.ofKeys_append,
      Option.elim_some]
    rw [fault?_map, Operand.fault?_ofJson]

theorem fault?_ofMembers {members : List (String × Json)}
    (hkeys : ∀ key ∈ Entries.keys members, key = modeKey ∨ (Operator.ofToken? key).isSome) :
    fault? (ofMembers (Path.ofKeys place) members) =
      (Json.memberParts .ofTest place members).findSome? (Part.fault? Path.ofKeys) := by
  have hstep : ∀ m ∈ members, ∀ c, fault? (addMember (Path.ofKeys place) c m) =
      (m.2.parts (.ofTest m.1) (place ++ [m.1])).findSome? (Part.fault? Path.ofKeys) :=
    fun m hm c => fault?_addMember place (hkeys m.1 (Entries.mem_keys_of_mem hm)) c
  rw [ofMembers, fault?_foldlM hstep]
  clear hkeys hstep
  induction members with
  | nil => rfl
  | cons m members ih =>
    rw [Json.memberParts, List.findSome?_append, ← ih, List.findSome?_cons]
    cases (m.2.parts (.ofTest m.1) (place ++ [m.1])).findSome? (Part.fault? Path.ofKeys) <;> rfl

end Constraint

end

/-!
## Filters

One equation for each of the four readers, by recursion on the document as they recurse. A reader is
given the text of a place; the equations are about the place itself, so that the parts inside are
those of the document.
-/

theorem fault?_entriesOfJson_cons (path key : String) (value : Json)
    (members : List (String × Json)) : fault? (entriesOfJson path ((key, value) :: members)) =
      (fault? (if (Connective.ofKey? key).isSome then groupOfJson (Path.below path key) value
        else nodeOfJson (Path.below path key) value)).or (fault? (entriesOfJson path members)) := by
  have hrest := fun node : Node =>
    fault?_bind_pure ((key, node) :: ·) (entriesOfJson path members)
  rw [entriesOfJson]
  split
  · exact fault?_bind hrest _
  · exact fault?_bind hrest _

mutual

theorem fault?_entriesOfJson (place : List String) : ∀ members : List (String × Json),
    fault? (entriesOfJson (Path.ofKeys place) members) =
      (Json.memberParts .ofKey place members).findSome? (Part.fault? Path.ofKeys)
  | [] => rfl
  | (key, value) :: members => by
    rw [fault?_entriesOfJson_cons, ← Path.ofKeys_append, fault?_entriesOfJson place members,
      Json.memberParts, List.findSome?_append, Json.Role.ofKey]
    split
    · next hkey =>
      have hne : key ≠ "" := by
        rintro rfl
        exact absurd hkey (by decide)
      have hplace : Path.ofKeys (place ++ [key]) ≠ "" := by
        rw [Path.ofKeys_append]
        exact Path.below_ne_empty _ hne
      rw [fault?_groupOfJson (place ++ [key]) hplace value]
    · rw [fault?_nodeOfJson (place ++ [key]) value]

theorem fault?_groupOfJson (place : List String) (hplace : Path.ofKeys place ≠ "") :
    ∀ j : Json, fault? (groupOfJson (Path.ofKeys place) j) =
      (j.parts .group place).findSome? (Part.fault? Path.ofKeys)
  | .object members => by
    have hadmits : Json.Role.group.Admits (.object members) := Or.inl rfl
    rw [groupOfJson, fault?_bind_pure, fault?_entriesOfJson place members,
      Json.findSome?_parts_object hadmits]
    rfl
  | .array items => by
    have hadmits : Json.Role.group.Admits (.array items) := Or.inr rfl
    rw [groupOfJson, fault?_bind_pure, fault?_treesOfJson place hplace 0 items,
      Json.findSome?_parts_array hadmits]
    rfl
  | .null | .bool _ | .number _ | .string _ => rfl

theorem fault?_treesOfJson (place : List String) (hplace : Path.ofKeys place ≠ "") (index : Nat) :
    ∀ items : List Json, fault? (treesOfJson (Path.ofKeys place) index items) =
      (Json.itemParts .entry place index items).findSome? (Part.fault? Path.ofKeys)
  | [] => rfl
  | .object members :: items => by
    have hadmits : (Json.Role.entry index).Admits (.object members) := rfl
    -- the reader puts a point before an index without looking at the place, which a key has begun
    have hbelow : Path.ofKeys place ++ "." ++ Integer.text index =
        Path.ofKeys (place ++ [Integer.text index]) := by
      rw [Path.ofKeys_append, Path.below, if_neg hplace]
    rw [treesOfJson, fault?_bind (fun es => fault?_bind_pure (Tree.collect es :: ·) _), hbelow,
      fault?_entriesOfJson (place ++ [Integer.text index]) members,
      fault?_treesOfJson place hplace (index + 1) items, Json.itemParts, List.findSome?_append,
      Json.findSome?_parts_object hadmits]
    rfl
  | .null :: _ | .bool _ :: _ | .number _ :: _ | .string _ :: _ | .array _ :: _ => rfl

theorem fault?_nodeOfJson (place : List String) : ∀ j : Json,
    fault? (nodeOfJson (Path.ofKeys place) j) =
      (j.parts .node place).findSome? (Part.fault? Path.ofKeys)
  | .object members => by
    have hadmits : Json.Role.node.Admits (.object members) := nofun
    rw [nodeOfJson, Json.findSome?_parts_object hadmits, Json.Role.member]
    split
    · next hobject =>
      have htests := (Constraint.isObject_eq_true_iff members).mp hobject
      rw [fault?_bind_pure, Constraint.fault?_ofMembers place htests.2, if_pos htests]
      rfl
    · next hobject =>
      have htests := mt (Constraint.isObject_eq_true_iff members).mpr hobject
      rw [fault?_bind_pure, fault?_entriesOfJson place members, if_neg htests]
      rfl
  | .array items => by
    have hadmits : Json.Role.node.Admits (.array items) := nofun
    rw [nodeOfJson, fault?_bind_pure, Scalar.fault?_listOfJson place items 0,
      Json.findSome?_parts_array hadmits]
    rfl
  | .number n => by
    rw [nodeOfJson, fault?_bind_pure, Scalar.fault?_ofJson]
    · rfl
    · nofun
    · nofun
  | .null | .bool _ | .string _ => rfl

end

theorem Tree.fault?_ofJson (j : Json) :
    fault? (ofJson j) = (j.parts .filter []).findSome? (Part.fault? Path.ofKeys) := by
  cases j with
  | object members =>
    have hadmits : Json.Role.filter.Admits (.object members) := rfl
    rw [ofJson, fault?_bind_pure, Json.findSome?_parts_object hadmits]
    exact fault?_entriesOfJson [] members
  | _ => rfl

/-! ## Documents without empty keys -/

namespace Path

theorem foldl_below {path : String} (h : path ≠ "") (keys : List String) :
    keys.foldl below path = Text.join '.' (path :: keys) := by
  induction keys generalizing path with
  | nil => simp [Text.join]
  | cons key keys ih =>
    have hbelow : below path key = path ++ "." ++ key := if_neg h
    have hne : path ++ "." ++ key ≠ "" := by simp [String.append_eq_empty_iff]
    rw [List.foldl_cons, hbelow, ih hne, ← String.toList_inj,
      Text.toList_join_cons (List.cons_ne_nil key keys)]
    cases keys with
    | nil => simp [Text.join]
    | cons key' keys =>
      rw [Text.toList_join_cons (List.cons_ne_nil key' keys),
        Text.toList_join_cons (List.cons_ne_nil key' keys)]
      simp

/-- A place is written as its keys with points between them. -/
theorem ofKeys_eq_join {place : List String} (h : "" ∉ place) :
    ofKeys place = Text.join '.' place := by
  cases place with
  | nil => rfl
  | cons key keys =>
    have hkey : key ≠ "" := fun hkey => h (hkey ▸ List.mem_cons_self ..)
    exact foldl_below hkey keys

end Path

namespace Json

mutual

/-- The keys of all objects in a document. -/
def allKeys : Json → List String
  | .object members => memberKeys members
  | .array items => itemKeys items
  | _ => []

def memberKeys : List (String × Json) → List String
  | [] => []
  | (key, value) :: members => key :: (value.allKeys ++ memberKeys members)

def itemKeys : List Json → List String
  | [] => []
  | item :: items => item.allKeys ++ itemKeys items

end

theorem empty_not_mem_inside {place : List String} (h : "" ∉ place) (role : Role) :
    "" ∉ role.inside place := by
  cases role with
  | entry index =>
    have htext : Integer.text index ≠ "" := by
      intro htext
      have hdigits := String.ofList_eq_empty_iff.mp htext
      rw [Chars.ofInt, if_neg (by omega)] at hdigits
      exact Nat.toDigits_ne_nil hdigits
    rw [Role.inside, List.mem_append, List.mem_singleton]
    exact not_or_intro h htext.symm
  | _ => exact h

mutual

theorem empty_not_mem_parts : ∀ (j : Json) (role : Role) (place : List String), "" ∉ j.allKeys →
    "" ∉ place → ∀ p ∈ j.parts role place, "" ∉ p.place
  | .object members, role, place, h, hplace => by
    rw [parts, List.forall_mem_cons]
    exact ⟨hplace, empty_not_mem_memberParts members _ _ h (empty_not_mem_inside hplace role)⟩
  | .array items, role, place, h, hplace => by
    rw [parts, List.forall_mem_cons]
    exact ⟨hplace, empty_not_mem_itemParts items _ place 0 h hplace⟩
  | .null, _, _, _, hplace | .bool _, _, _, _, hplace | .number _, _, _, _, hplace
  | .string _, _, _, _, hplace => List.forall_mem_singleton.mpr hplace

theorem empty_not_mem_memberParts : ∀ (members : List (String × Json)) (roles : String → Role)
    (place : List String), "" ∉ memberKeys members → "" ∉ place →
      ∀ p ∈ memberParts roles place members, "" ∉ p.place
  | [], _, _, _, _ => List.forall_mem_nil _
  | (key, value) :: members, roles, place, h, hplace => by
    rw [memberKeys, List.mem_cons, List.mem_append, not_or, not_or] at h
    obtain ⟨hkey, hvalue, hmembers⟩ := h
    have hplace' : "" ∉ place ++ [key] := by
      rw [List.mem_append, List.mem_singleton]
      exact not_or_intro hplace hkey
    rw [memberParts, List.forall_mem_append]
    exact ⟨empty_not_mem_parts value _ _ hvalue hplace',
      empty_not_mem_memberParts members roles place hmembers hplace⟩

theorem empty_not_mem_itemParts : ∀ (items : List Json) (roles : Nat → Role)
    (place : List String) (index : Nat), "" ∉ itemKeys items → "" ∉ place →
      ∀ p ∈ itemParts roles place index items, "" ∉ p.place
  | [], _, _, _, _, _ => List.forall_mem_nil _
  | item :: items, roles, place, index, h, hplace => by
    rw [itemKeys, List.mem_append, not_or] at h
    rw [itemParts, List.forall_mem_append]
    exact ⟨empty_not_mem_parts item _ place h.1 hplace,
      empty_not_mem_itemParts items roles place (index + 1) h.2 hplace⟩

end

/-- The error about the first offence in a document. -/
def firstOffence? (j : Json) : Option FilterError :=
  (j.parts .filter []).findSome? (Part.fault? (Text.join '.'))

theorem firstOffence?_eq {j : Json} (h : "" ∉ j.allKeys) :
    j.firstOffence? = (j.parts .filter []).findSome? (Part.fault? Path.ofKeys) := by
  have hplaces := empty_not_mem_parts j .filter [] h (List.not_mem_nil)
  rw [firstOffence?]
  generalize j.parts .filter [] = ps at hplaces
  induction ps with
  | nil => rfl
  | cons p ps ih =>
    rw [List.forall_mem_cons] at hplaces
    have hfault : p.fault? (Text.join '.') = p.fault? Path.ofKeys := by
      rw [Part.fault?, Part.fault?, Path.ofKeys_eq_join hplaces.1]
    rw [List.findSome?_cons, List.findSome?_cons, hfault, ih hplaces.2]

end Json

namespace Tree

/-- A document is read exactly if it is a filter. Otherwise the error is that of the first offence
in the order of the document. -/
theorem ofJson_by_grammar (j : Json) :
    ((∃ t, ofJson j = .ok t) ↔ j.IsFilter) ∧
      ("" ∉ j.allKeys → ∀ e, ofJson j = .error e ↔ j.firstOffence? = some e) := by
  constructor
  · rw [← fault?_eq_none_iff, fault?_ofJson, List.findSome?_eq_none_iff, Json.isFilter_iff []]
    exact forall₂_congr fun p _ => Part.fault?_eq_none_iff
  · intro hkeys e
    rw [← fault?_eq_some_iff, fault?_ofJson, Json.firstOffence?_eq hkeys]

/-- Nothing that follows the first offence counts. An index leads into a group, but none into a
list. -/
theorem ofJson_by_grammar_owner :
    let j : Json := .object
      [("id", .number (.ofInt64 7)),
        ("OR", .array
          [.object [("age", .object [("gte", .number (.ofInt64 5)), ("mode", .string "default")])],
            .object [("owner", .object
              [("tags", .object [("in", .array [.string "a", .null])]), ("NOT", .bool false)])]]),
        ("AND", .null)]
    "" ∉ j.allKeys ∧ ofJson j = .error (.unsupported "OR.1.owner.tags.in" .null) := by
  intro j
  have hkeys : "" ∉ j.allKeys := by decide
  exact ⟨hkeys, ((ofJson_by_grammar j).2 hkeys _).mpr (by decide)⟩

end Tree

end QueryFilter
