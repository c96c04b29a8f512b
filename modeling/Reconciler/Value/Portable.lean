import Reconciler.Value.Basic

/-!
# Values as the server sends them

The server has no dates, only text. An object that comes from it therefore has the usual
text of each date and moment in their place. Sets have no such form.
-/

namespace Reconciler.Value

mutual

/-- A value with its dates and moments as text. -/
def portable : Value → Value
  | .date value => .text value.text
  | .moment value => .text value.text
  | .list items => .list (portableItems items)
  | .tuple items => .tuple (portableItems items)
  | .map members => .map (portableMembers members)
  | value => value

/-- Items with their dates and moments as text. -/
def portableItems : List Value → List Value
  | [] => []
  | item :: items => portable item :: portableItems items

/-- Members with the dates and moments in their values as text. -/
def portableMembers : Members → Members
  | [] => []
  | (key, value) :: rest => (key, portable value) :: portableMembers rest

end

mutual

/-- Whether a set occurs in a value. -/
def hasSet : Value → Bool
  | .set _ => true
  | .list items | .tuple items => anySet items
  | .map members => anySetIn members
  | _ => false

/-- Whether a set occurs in some item. -/
def anySet : List Value → Bool
  | [] => false
  | item :: items => hasSet item || anySet items

/-- Whether a set occurs in the value of some member. -/
def anySetIn : Members → Bool
  | [] => false
  | (_, value) :: rest => hasSet value || anySetIn rest

end

@[simp] theorem portable_null : Value.null.portable = .null := by simp [portable]

@[simp] theorem portable_text (value : String) : (Value.text value).portable = .text value := by
  simp [portable]

end Reconciler.Value
