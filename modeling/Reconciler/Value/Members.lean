import Reconciler.Fault
import Reconciler.Value.Equality

/-!
# Members of a mapping

A mapping has at most one member for each key. Writing to a key that is there keeps the
member's place and its key; writing to a new key adds a member at the end. Main statements:
what a read sees after a write.
-/

namespace Reconciler

namespace Members

/-- The value at a key. -/
def at? (members : Members) (key : Value) : Option Value :=
  (members.find? fun member => Value.sameKey key member.1).map (·.2)

/-- The value at a key that is text. -/
def field? (members : Members) (name : String) : Option Value := members.at? (.text name)

/-- Whether a key has a member. -/
def has (members : Members) (key : Value) : Bool :=
  members.any fun member => Value.sameKey key member.1

/-- Write a value at a key. -/
def put : Members → Value → Value → Members
  | [], key, value => [(key, value)]
  | (other, old) :: rest, key, value =>
    if Value.sameKey key other then (other, value) :: rest else (other, old) :: put rest key value

/-- Remove the member at a key, if there is one. -/
def without (members : Members) (key : Value) : Members :=
  members.filter fun member => !Value.sameKey key member.1

/-- The mapping that writing pairs one after another gives. -/
def ofPairs (pairs : List (Value × Value)) : Members :=
  pairs.foldl (fun members pair => put members pair.1 pair.2) []

/-- The keys in order. -/
def keys (members : Members) : List Value := members.map (·.1)

@[simp] theorem at?_nil (key : Value) : at? [] key = none := rfl

theorem at?_cons (key other value : Value) (rest : Members) :
    at? ((other, value) :: rest) key =
      if Value.sameKey key other then some value else at? rest key := by
  by_cases h : Value.sameKey key other <;> simp [at?, h]

@[simp] theorem has_nil (key : Value) : has [] key = false := rfl

@[simp] theorem has_cons (key other value : Value) (rest : Members) :
    has ((other, value) :: rest) key = (Value.sameKey key other || has rest key) := rfl

theorem isSome_at? (members : Members) (key : Value) :
    (members.at? key).isSome = members.has key := by
  induction members with
  | nil => rfl
  | cons member rest ih =>
    obtain ⟨other, value⟩ := member
    rw [at?_cons, has_cons]
    by_cases h : Value.sameKey key other <;> simp [h, ih]

@[simp] theorem keys_nil : keys [] = [] := rfl

@[simp] theorem keys_cons (member : Value × Value) (rest : Members) :
    keys (member :: rest) = member.1 :: keys rest := rfl

/-- A text key reads back what was written to it. -/
theorem field?_put_self (members : Members) (name : String) (value : Value) :
    (members.put (.text name) value).field? name = some value := by
  induction members with
  | nil => simp [put, field?, at?_cons]
  | cons member rest ih =>
    obtain ⟨other, old⟩ := member
    by_cases h : Value.sameKey (.text name) other
    · simp [put, h, field?, at?_cons]
    · simpa [put, h, field?, at?_cons] using ih

end Members

namespace Value

/-- The member of a mapping at a text key, or null; a fault for anything but a mapping. -/
def get : Value → String → Except Fault Value
  | .map members, name => .ok (ofOption (Members.field? members name))
  | _, _ => .error .noMember

/-- The member of a mapping at a text key if there is one; a fault for anything but a
mapping. -/
def get? : Value → String → Except Fault (Option Value)
  | .map members, name => .ok (Members.field? members name)
  | _, _ => .error .noMember

/-- A value, or the empty mapping in place of one that does not count as present. -/
def orEmpty (value : Value) : Value := value.orElse (.map [])

/-- The members of a mapping, and none for any other value. -/
def members : Value → Members
  | .map members => members
  | _ => []

@[simp] theorem get_map (members : Members) (name : String) :
    (Value.map members).get name = .ok (ofOption (Members.field? members name)) := rfl

@[simp] theorem get?_map (members : Members) (name : String) :
    (Value.map members).get? name = .ok (Members.field? members name) := rfl

@[simp] theorem members_map (members : Members) : (Value.map members).members = members := rfl

end Value

end Reconciler
