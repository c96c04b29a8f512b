import Reconciler.Value.Basic

/-!
# Equality of values

Numbers are equal if they stand for the same exact number, whatever their type, and the
truth values count as one and zero. Mappings and sets are equal if each part of one equals
a part of the other, in whatever order. A number that is no number equals nothing.

One refinement is needed inside collections: two values read by one reader share the
number that is no number, and a collection holds a shared part to be equal to itself. The
parameter `shared` says whether this applies; for all other values it makes no difference.
-/

namespace Reconciler.Value

/-- Equality of values that are not collections. -/
def scalarEqual (shared : Bool) : Value → Value → Bool
  | .null, .null => true
  | .text x, .text y => x == y
  | .date x, .date y => x == y
  | .moment x, .moment y => x.same y
  | .bytes x, .bytes y => x == y
  | .float .nan, .float .nan => shared
  | .float (.infinite x), .float (.infinite y) => x == y
  | x, y => match x.rational?, y.rational? with
    | some a, some b => a == b
    | _, _ => false

mutual

/-- Equality of parts of a collection. -/
def equalWithin (shared : Bool) : Value → Value → Bool
  | .list xs, .list ys => listsEqual shared xs ys
  | .tuple xs, .tuple ys => listsEqual shared xs ys
  | .set xs, .set ys =>
    xs.length == ys.length && allIn shared xs ys && ys.all fun y => someIs shared xs y
  | .map xs, .map ys =>
    xs.length == ys.length && membersIn shared xs ys && ys.all fun y => someMemberIs shared xs y
  | x, y => scalarEqual shared x y
termination_by structural x => x

/-- Equality of lists, item by item. -/
def listsEqual (shared : Bool) : List Value → List Value → Bool
  | [], [] => true
  | x :: xs, y :: ys => equalWithin shared x y && listsEqual shared xs ys
  | _, _ => false
termination_by structural xs => xs

/-- Whether each item of the first list equals some item of the second. -/
def allIn (shared : Bool) : List Value → List Value → Bool
  | [], _ => true
  | x :: xs, ys => ys.any (fun y => equalWithin shared x y) && allIn shared xs ys
termination_by structural xs => xs

/-- Whether some item of a list equals a value. -/
def someIs (shared : Bool) : List Value → Value → Bool
  | [], _ => false
  | x :: xs, y => equalWithin shared x y || someIs shared xs y
termination_by structural xs => xs

/-- Whether the second mapping has an equal value at every key of the first. -/
def membersIn (shared : Bool) : Members → Members → Bool
  | [], _ => true
  | (key, value) :: rest, ys =>
    ys.any (fun other => equalWithin shared key other.1 && equalWithin shared value other.2) &&
      membersIn shared rest ys
termination_by structural xs => xs

/-- Whether some member of a mapping equals a member. -/
def someMemberIs (shared : Bool) : Members → Value × Value → Bool
  | [], _ => false
  | (key, value) :: rest, other =>
    (equalWithin shared key other.1 && equalWithin shared value other.2) ||
      someMemberIs shared rest other
termination_by structural xs => xs

end

/-- Equality of two values. -/
def equal (shared : Bool) (x y : Value) : Bool :=
  match x with
  | .float .nan => false
  | x => equalWithin shared x y

/-- Two keys of a mapping are the same if they are equal. -/
def sameKey (x y : Value) : Bool := equal false x y

@[simp] theorem equalWithin_text (shared : Bool) (x y : String) :
    equalWithin shared (.text x) (.text y) = (x == y) := by
  simp [equalWithin, scalarEqual]

@[simp] theorem sameKey_text (x y : String) : sameKey (.text x) (.text y) = (x == y) := by
  simp [sameKey, equal]

@[simp] theorem listsEqual_nil (shared : Bool) : listsEqual shared [] [] = true := by
  simp [listsEqual]

@[simp] theorem listsEqual_cons (shared : Bool) (x y : Value) (xs ys : List Value) :
    listsEqual shared (x :: xs) (y :: ys) =
      (equalWithin shared x y && listsEqual shared xs ys) := by
  simp [listsEqual]

end Reconciler.Value
