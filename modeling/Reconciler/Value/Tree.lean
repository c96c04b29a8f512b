import Reconciler.Value.Members

/-!
# Values with shared parts

One mapping of a document may stand at several places, and a member written at one of them
is then seen at all of them. A tree is a value in which such mappings carry a mark: places
with the same mark are one mapping. What has been written to marked mappings is kept in a
list beside the trees, so a tree itself never changes; a mapping without a mark stands at
one place only and is written directly.
-/

namespace Reconciler

/-- A value whose mappings may stand at several places. -/
inductive Tree where
  | leaf (value : Value)
  | list (items : List Tree)
  | tuple (items : List Tree)
  | map (mark : Option Nat) (members : List (Value × Tree))
  deriving Inhabited

/-- A member written to the mapping with a mark. -/
structure Write where
  mark : Nat
  name : String
  value : Value
  deriving Inhabited

/-- What has been written to marked mappings, the earliest first. -/
abbrev Writes := List Write

namespace Writes

/-- The last value written to a member of the mapping with a mark. -/
def last? (writes : Writes) (mark : Nat) (name : String) : Option Value :=
  (writes.reverse.find? fun write => write.mark == mark && write.name == name).map Write.value

/-- The members of the mapping with a mark after all that has been written. -/
def apply (writes : Writes) (mark : Nat) (members : Members) : Members :=
  writes.foldl
    (fun members write =>
      if write.mark == mark then Members.put members (.text write.name) write.value else members)
    members

@[simp] theorem last?_nil (mark : Nat) (name : String) : last? [] mark name = none := rfl

@[simp] theorem apply_nil (mark : Nat) (members : Members) : apply [] mark members = members := rfl

end Writes

namespace Tree

mutual

/-- The value that a tree stands for. -/
def value (writes : Writes) : Tree → Value
  | .leaf value => value
  | .list items => .list (values writes items)
  | .tuple items => .tuple (values writes items)
  | .map none members => .map (memberValues writes members)
  | .map (some mark) members => .map (writes.apply mark (memberValues writes members))

/-- The values of trees. -/
def values (writes : Writes) : List Tree → List Value
  | [] => []
  | tree :: rest => value writes tree :: values writes rest

/-- Members with the values of their trees. -/
def memberValues (writes : Writes) : List (Value × Tree) → Members
  | [] => []
  | (key, tree) :: rest => (key, value writes tree) :: memberValues writes rest

end

mutual

/-- The tree of a value of which no part is shared. -/
def ofValue : Value → Tree
  | .list items => .list (ofValues items)
  | .tuple items => .tuple (ofValues items)
  | .map members => .map none (ofMembers members)
  | value => .leaf value

/-- The trees of values. -/
def ofValues : List Value → List Tree
  | [] => []
  | value :: rest => ofValue value :: ofValues rest

/-- Members with trees in place of their values. -/
def ofMembers : Members → List (Value × Tree)
  | [] => []
  | (key, value) :: rest => (key, ofValue value) :: ofMembers rest

end

/-- The name by which messages call the type of a tree. -/
def typeName : Tree → String
  | .leaf value => value.typeName
  | .list _ => "list"
  | .tuple _ => "tuple"
  | .map _ _ => "dict"

/-- The member with a given name among members that have trees. -/
def find? (members : List (Value × Tree)) (name : String) : Option Tree :=
  (members.find? fun member => Value.sameKey (.text name) member.1).map (·.2)

/-- Members with one of them replaced, or added at the end. -/
def put : List (Value × Tree) → Value → Tree → List (Value × Tree)
  | [], key, tree => [(key, tree)]
  | (other, old) :: rest, key, tree =>
    if Value.sameKey key other then (other, tree) :: rest else (other, old) :: put rest key tree

/-- The members that writing pairs one after another gives. -/
def ofPairs (pairs : List (Value × Tree)) : List (Value × Tree) :=
  pairs.foldl (fun members pair => put members pair.1 pair.2) []

/-- The member of a mapping with a given name, if there is one. -/
def member? (writes : Writes) (name : String) : Tree → Option Tree
  | .map none members => find? members name
  | .map (some mark) members =>
    match writes.last? mark name with
    | some value => some (.leaf value)
    | none => find? members name
  | _ => none

/-- Write a member of a mapping. -/
def write (writes : Writes) (name : String) (value : Value) : Tree → Tree × Writes
  | .map none members => (.map none (put members (.text name) (.leaf value)), writes)
  | .map (some mark) members => (.map (some mark) members, writes ++ [⟨mark, name, value⟩])
  | tree => (tree, writes)

/-- Write a member of a mapping unless there is one. -/
def writeDefault (writes : Writes) (name : String) (value : Value) (tree : Tree) :
    Tree × Writes :=
  if (tree.member? writes name).isSome then (tree, writes) else tree.write writes name value

/-- A member of a mapping as a value, or null. -/
def get (writes : Writes) (name : String) (tree : Tree) : Value :=
  Value.ofOption ((tree.member? writes name).map (Tree.value writes))

/-- Whether a tree is a mapping. -/
def isMap : Tree → Bool
  | .map _ _ => true
  | _ => false

mutual

/-- The tree of a value stands for that value. -/
@[simp] theorem value_ofValue (writes : Writes) (v : Value) : value writes (ofValue v) = v := by
  cases v with
  | list items => simp [ofValue, value, values_ofValues]
  | tuple items => simp [ofValue, value, values_ofValues]
  | map members => simp [ofValue, value, memberValues_ofMembers]
  | _ => simp [ofValue, value]

@[simp] theorem values_ofValues (writes : Writes) (vs : List Value) :
    values writes (ofValues vs) = vs := by
  cases vs with
  | nil => simp [ofValues, values]
  | cons v vs => simp [ofValues, values, value_ofValue, values_ofValues]

@[simp] theorem memberValues_ofMembers (writes : Writes) (members : Members) :
    memberValues writes (ofMembers members) = members := by
  cases members with
  | nil => simp [ofMembers, memberValues]
  | cons member rest =>
    obtain ⟨key, v⟩ := member
    simp [ofMembers, memberValues, value_ofValue, memberValues_ofMembers]

end

end Tree

end Reconciler
