import Mathlib.Data.List.DropRight
import QueryFilter.Proofs.Folds
import QueryFilter.Proofs.ParamsForm

/-!
# What parameters ask of one field

Each parameter about a field is an event: a plain value, or an operator with a value. Adding the
events one after the other leaves a node that is a closed form of their list
(`Node.foldl_addEvent`): operators stand in the order in which they are first touched, a later
operand replaces an earlier one, and plain values join the last membership.
-/

namespace QueryFilter

/-- What a parameter asks of its field. -/
structure Event where
  operator : Option Operator
  value : String

/-- The operator that an event touches: a plain value is an allowed value. -/
def Event.touched (e : Event) : Operator := e.operator.getD .isIn

/-! ## The closed form -/

/-- The value of the last event with an operator. -/
def lastValue? (op : Operator) (es : List Event) : Option String :=
  (es.reverse.find? (·.operator = some op)).map Event.value

/-- The values of the last membership, and all plain values after it. -/
def allowedValues (es : List Event) : List Scalar :=
  (lastValue? .isIn es).elim [] Scalar.listOfText ++
    ((es.rtakeWhile (·.operator ≠ some .isIn)).filter (·.operator = none)).flatMap
      fun e => Scalar.listOfText e.value

/-- A membership takes all pieces of its value between commas, any other operator the first one. -/
def Operand.ofText (op : Operator) (value : String) : Operand :=
  match op with
  | .isIn | .notIn => .many (Scalar.listOfText value)
  | _ => .one (.ofText ((Text.pieces ',' value).head (Text.pieces_ne_nil ',' value)))

/-- The operand of an operator that some event touches. -/
def Operand.ofEvents (es : List Event) (op : Operator) : Operand :=
  if op = .isIn then .many (allowedValues es) else .ofText op ((lastValue? op es).getD "")

def Constraint.ofEvents (mode : MatchMode) (es : List Event) : Constraint where
  tests := .tabulate (es.map Event.touched) (.ofEvents es)
  ignoreCase := mode == .ignoreCase && (es.map Event.touched).any Operator.matchesText

/-- The node of a field, given all events about it. One plain value without commas stands as it
is. -/
def Node.ofEvents (mode : MatchMode) : List Event → Node
  | [⟨none, s⟩] =>
    if ',' ∈ s.toList then .tests (.ofEvents mode [⟨none, s⟩]) else .value (.ofText s)
  | es => .tests (.ofEvents mode es)

theorem Operand.ofText_eq (op : Operator) (value : String) :
    ofText op value = if op.isMembership then .many (Scalar.listOfText value)
      else .one (Scalar.firstOfText value) := by
  rw [Scalar.firstOfText_eq]
  cases op <;> rfl

/-! ## One more event -/

theorem lastValue?_append (op : Operator) (es : List Event) (e : Event) :
    lastValue? op (es ++ [e]) =
      if e.operator = some op then some e.value else lastValue? op es := by
  by_cases h : e.operator = some op
  · simp [lastValue?, h]
  · simp [lastValue?, h]

theorem allowedValues_append_plain (es : List Event) (value : String) :
    allowedValues (es ++ [⟨none, value⟩]) = allowedValues es ++ Scalar.listOfText value := by
  simp [allowedValues, lastValue?_append]

theorem allowedValues_append (es : List Event) (op : Operator) (value : String) :
    allowedValues (es ++ [⟨some op, value⟩]) =
      if op = .isIn then Scalar.listOfText value else allowedValues es := by
  by_cases h : op = .isIn
  · simp [allowedValues, lastValue?_append, h]
  · simp [allowedValues, lastValue?_append, h]

theorem allowedValues_eq_nil {es : List Event} (h : .isIn ∉ es.map Event.touched) :
    allowedValues es = [] := by
  induction es using List.reverseRecOn with
  | nil => rfl
  | append_singleton es e ih =>
    obtain ⟨operator, value⟩ := e
    rw [List.map_append, List.mem_append, not_or] at h
    cases operator with
    | none => exact absurd (List.mem_singleton.mpr rfl) h.2
    | some op =>
      have hop : op ≠ .isIn := fun heq => h.2 (by simp [Event.touched, heq])
      rw [allowedValues_append, if_neg hop, ih h.1]

theorem Operand.ofEvents_append_plain (es : List Event) (value : String) (op : Operator) :
    ofEvents (es ++ [⟨none, value⟩]) op =
      if op = .isIn then .many (allowedValues es ++ Scalar.listOfText value)
      else ofEvents es op := by
  by_cases h : op = .isIn
  · simp [ofEvents, h, allowedValues_append_plain]
  · simp [ofEvents, h, lastValue?_append]

theorem Operand.ofEvents_append (es : List Event) (op : Operator) (value : String)
    (op' : Operator) :
    ofEvents (es ++ [⟨some op, value⟩]) op' =
      if op' = op then ofText op value else ofEvents es op' := by
  by_cases h : op' = op
  · subst h
    by_cases hin : op' = .isIn
    · simp [ofEvents, hin, allowedValues_append, ofText]
    · simp [ofEvents, hin, lastValue?_append]
  · by_cases hin : op' = .isIn
    · subst hin
      simp [ofEvents, h, Ne.symm h, allowedValues_append]
    · simp [ofEvents, h, Ne.symm h, hin, lastValue?_append]

namespace Constraint

def addEvent (mode : MatchMode) (c : Constraint) (e : Event) : Constraint :=
  match e.operator with
  | some op => c.ask mode (op, .ofText op e.value)
  | none => c.addMembers (Scalar.listOfText e.value)

theorem ofEvents_nil (mode : MatchMode) : ofEvents mode [] = empty := by
  cases mode <;> rfl

/-- An operator replaces its own operand and no other. -/
theorem ask_ofEvents (mode : MatchMode) (es : List Event) (op : Operator) (value : String) :
    (ofEvents mode es).ask mode (op, .ofText op value) =
      ofEvents mode (es ++ [⟨some op, value⟩]) := by
  have htests : (ofEvents mode es).tests.put op (.ofText op value) =
      (ofEvents mode (es ++ [⟨some op, value⟩])).tests := by
    simp only [ofEvents, OrderedMap.put, OrderedMap.update_tabulate, List.map_append]
    apply OrderedMap.tabulate_congr
    intro op' _
    rw [Operand.ofEvents_append]
  have hcase : ((ofEvents mode es).ignoreCase || (op.matchesText && mode == .ignoreCase)) =
      (ofEvents mode (es ++ [⟨some op, value⟩])).ignoreCase := by
    simp only [ofEvents, List.map_append, List.any_append]
    cases mode == .ignoreCase
    · simp
    · simp [Event.touched]
  simp only [ask, htests, hcase]

theorem addMembers_ofEvents (mode : MatchMode) (es : List Event) (value : String) :
    (ofEvents mode es).addMembers (Scalar.listOfText value) =
      ofEvents mode (es ++ [⟨none, value⟩]) := by
  -- without a membership so far, there are no allowed values to add to
  have hold : (if Operator.isIn ∈ es.map Event.touched
      then some (Operand.ofEvents es .isIn) else none).elim [] Operand.values =
        allowedValues es := by
    by_cases h : Operator.isIn ∈ es.map Event.touched
    · rw [if_pos h]
      rfl
    · rw [if_neg h, allowedValues_eq_nil h]
      rfl
  have htests : (ofEvents mode es).tests.update .isIn (fun old =>
      .many (old.elim [] Operand.values ++ Scalar.listOfText value)) =
      (ofEvents mode (es ++ [⟨none, value⟩])).tests := by
    simp only [ofEvents, OrderedMap.update_tabulate, List.map_append, hold]
    apply OrderedMap.tabulate_congr
    intro op' _
    rw [Operand.ofEvents_append_plain]
  have hcase : (ofEvents mode es).ignoreCase =
      (ofEvents mode (es ++ [⟨none, value⟩])).ignoreCase := by
    simp [ofEvents, Event.touched, Operator.matchesText]
  simp only [addMembers, htests, hcase]

theorem addEvent_ofEvents (mode : MatchMode) (es : List Event) (e : Event) :
    (ofEvents mode es).addEvent mode e = ofEvents mode (es ++ [e]) := by
  obtain ⟨operator, value⟩ := e
  cases operator with
  | some op => exact ask_ofEvents mode es op value
  | none => exact addMembers_ofEvents mode es value

end Constraint

/-! ## All events -/

namespace Node

def addEvent (mode : MatchMode) (old : Option Node) (e : Event) : Node :=
  match e.operator with
  | some op => addTest mode old op e.value
  | none => addValue old e.value

section
variable (mode : MatchMode)

theorem addTest_eq (old : Option Node) (op : Operator) (value : String) :
    addTest mode old op value = .tests ((constraint old).ask mode (op, .ofText op value)) := by
  rw [Operand.ofText_eq]
  rfl

theorem addEvent_none (e : Event) : addEvent mode none e = ofEvents mode [e] := by
  obtain ⟨operator, value⟩ := e
  have hfirst := Constraint.addEvent_ofEvents mode [] ⟨operator, value⟩
  rw [Constraint.ofEvents_nil, List.nil_append] at hfirst
  cases operator with
  | some op =>
    rw [ofEvents, ← hfirst]
    · exact addTest_eq mode none op value
    · simp
  | none =>
    by_cases h : ',' ∈ value.toList
    · rw [ofEvents, if_pos h, ← hfirst]
      rcases addValue_eq none value with ⟨v, hv, _⟩ | heq
      · exact absurd h (Scalar.not_mem_of_listOfText hv)
      · exact heq
    · rw [ofEvents, if_neg h, addEvent]
      simp only [addValue, Scalar.listOfText_of_not_mem h]

theorem constraint_ofEvents (es : List Event) :
    constraint (some (ofEvents mode es)) = Constraint.ofEvents mode es := by
  unfold ofEvents
  split
  · next value =>
    split
    · rfl
    · next h =>
      have hfirst := Constraint.addEvent_ofEvents mode [] ⟨none, value⟩
      rw [Constraint.ofEvents_nil, Constraint.addEvent] at hfirst
      rw [List.nil_append, Scalar.listOfText_of_not_mem h] at hfirst
      exact hfirst
  · rfl

/-- What was asked already is not lost when an event is added to it. -/
theorem addEvent_ofEvents (es : List Event) (e : Event) :
    addEvent mode (some (ofEvents mode es)) e =
      .tests ((Constraint.ofEvents mode es).addEvent mode e) := by
  rw [← constraint_ofEvents mode es]
  unfold ofEvents
  obtain ⟨operator, value⟩ := e
  cases operator with
  | some op => exact addTest_eq mode _ op value
  | none =>
    split
    · split <;> rfl
    · rfl

theorem ofEvents_ne_relation (es : List Event) (t : Tree) : ofEvents mode es ≠ .relation t := by
  unfold ofEvents
  split
  · split <;> simp
  · simp

theorem foldl_addEvent {es : List Event} (h : es ≠ []) :
    es.foldl (fun old e => some (addEvent mode old e)) none = some (ofEvents mode es) := by
  -- on the last event: what the earlier ones leave is a closed form already
  induction es using List.reverseRecOn with
  | nil => exact absurd rfl h
  | append_singleton es e ih =>
    rw [List.foldl_append, List.foldl_cons, List.foldl_nil]
    by_cases hes : es = []
    · subst hes
      exact congrArg some (addEvent_none mode e)
    · obtain ⟨e', es', rfl⟩ := List.exists_cons_of_ne_nil hes
      rw [ih hes, addEvent_ofEvents, Constraint.addEvent_ofEvents, List.cons_append]
      rw [ofEvents]
      simp

end

end Node

end QueryFilter
