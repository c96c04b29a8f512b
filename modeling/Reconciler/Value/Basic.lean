import Reconciler.Calendar.Moment
import Reconciler.Number.Double

/-!
# Document values

Manifests and cluster objects are trees whose kinds are known only when they are read, so
one type holds every value that a document may contain. A mapping keeps its members in the
order in which they were written, and its keys may be any value that is itself usable as a
key, not text alone.
-/

namespace Reconciler

/-- A value of a document. -/
inductive Value where
  | null
  | bool (value : Bool)
  | int (value : Int)
  | float (value : Double)
  | text (value : String)
  | date (value : Date)
  | moment (value : Moment)
  | bytes (value : List UInt8)
  | list (items : List Value)
  | tuple (items : List Value)
  | set (items : List Value)
  | map (members : List (Value × Value))
  deriving Inhabited

/-- The members of a mapping in order. -/
abbrev Members := List (Value × Value)

namespace Value

/-- The name by which messages call the type of a value. -/
def typeName : Value → String
  | .null => "NoneType"
  | .bool _ => "bool"
  | .int _ => "int"
  | .float _ => "float"
  | .text _ => "str"
  | .date _ => "date"
  | .moment _ => "datetime"
  | .bytes _ => "bytes"
  | .list _ => "list"
  | .tuple _ => "tuple"
  | .set _ => "set"
  | .map _ => "dict"

/-- Whether a value counts as present: null, false, zero and everything empty do not. -/
def isTruthy : Value → Bool
  | .null => false
  | .bool value => value
  | .int value => value != 0
  | .float value => !value.isZero
  | .text value => !value.isEmpty
  | .date _ | .moment _ => true
  | .bytes value => !value.isEmpty
  | .list items | .tuple items | .set items => !items.isEmpty
  | .map members => !members.isEmpty

/-- Null stands for a value that is not there. -/
def isNull : Value → Bool
  | .null => true
  | _ => false

/-- Whether a value is a mapping. -/
def isMap : Value → Bool
  | .map _ => true
  | _ => false

mutual

/-- Whether a value may be the key of a mapping: it is not a collection that can change,
and no part of it is. -/
def isKey : Value → Bool
  | .list _ | .set _ | .map _ => false
  | .tuple items => areKeys items
  | _ => true

/-- Whether every value of a list may be a key. -/
def areKeys : List Value → Bool
  | [] => true
  | item :: items => item.isKey && areKeys items

end

/-- The exact number that a truth value, a whole number or a finite number stands for. -/
def rational? : Value → Option Rat
  | .bool value => some (if value then 1 else 0)
  | .int value => some value
  | .float value => value.toRat?
  | _ => none

/-- The first of two values that counts as present, or else the second. -/
def orElse (value other : Value) : Value := if value.isTruthy then value else other

/-- The value of an absent member is null. -/
def ofOption : Option Value → Value
  | some value => value
  | none => .null

@[simp] theorem isTruthy_null : Value.null.isTruthy = false := rfl

@[simp] theorem isTruthy_text (value : String) :
    (Value.text value).isTruthy = !value.isEmpty := rfl

@[simp] theorem isTruthy_map (members : Members) :
    (Value.map members).isTruthy = !members.isEmpty := rfl

@[simp] theorem ofOption_some (value : Value) : ofOption (some value) = value := rfl

@[simp] theorem ofOption_none : ofOption none = .null := rfl

end Value

end Reconciler
