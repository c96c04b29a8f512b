import Reconciler.Value.Tree
import Reconciler.Yaml.Node
import Reconciler.Yaml.Scalar

/-!
# Values of documents

The value of a node is made from the values of its parts. The members of other mappings may
be included in a mapping under the merge key: they come first, so that the mapping's own
members take precedence.

A document may have several flaws, and the one nearest to its root is the one reported; of
flaws at the same depth it is the first in the order of the document. So the values of all
parts are made before one flaw is chosen.
-/

namespace Reconciler.Yaml

/-- A flaw and how deep within the document it lies. -/
structure Trouble where
  depth : Nat
  flaw : Flaw
  deriving Inhabited

/-- A part of a document, or the flaw to be reported for it. -/
abbrev Built := Except Trouble

namespace Built

/-- Two parts: the flaw of the first one counts unless that of the second is less deep. -/
def both : Built α → Built β → Built (α × β)
  | .ok a, .ok b => .ok (a, b)
  | .ok _, .error trouble => .error trouble
  | .error trouble, .ok _ => .error trouble
  | .error first, .error second => .error (if second.depth < first.depth then second else first)

/-- All parts of a list. -/
def all : List (Built α) → Built (List α)
  | [] => .ok []
  | part :: parts => (both part (all parts)).map fun (a, as) => a :: as

/-- A flaw in the form of a document. -/
def flawed (depth : Nat) : Built α := .error ⟨depth, .form⟩

/-- The result of reading a text at a given depth. -/
def reading (depth : Nat) (result : Except Flaw α) : Built α :=
  result.mapError fun flaw => ⟨depth, flaw⟩

end Built

/-- A member of a mapping, built from its key and its value. -/
abbrev BuiltMember := Built (Value × Tree)

/-- The members of a mapping: those included under the merge key, and its own. -/
structure BuiltMembers where
  included : List BuiltMember := []
  own : List BuiltMember := []

/-- All members of a mapping in order. -/
def BuiltMembers.all (members : BuiltMembers) : List BuiltMember :=
  members.included ++ members.own

/-- The key that a tree stands for: it must be one that cannot change. -/
def keyOf (depth : Nat) : Built Tree → Built Value
  | .ok (.leaf value) => if value.isKey then .ok value else Built.flawed depth
  | .ok _ => Built.flawed depth
  | .error trouble => if depth < trouble.depth then Built.flawed depth else .error trouble

/-- A member from its key and its value. -/
def memberOf (depth : Nat) (key value : Built Tree) : BuiltMember :=
  Built.both (keyOf depth key) value

/-- Whether a tag is one of those of texts. -/
def Tag.isOfText : Tag → Bool
  | .null | .bool | .int | .float | .binary | .timestamp | .text => true
  | _ => false

mutual

/-- The tree of a node at a given depth. -/
def construct (depth : Nat) : Node → Built Tree
  | .scalar tag text =>
    match tag with
    | .sequence | .mapping | .set | .orderedMapping | .pairs => Built.flawed (depth + 1)
    | tag => (Built.reading depth (Scalar.value tag text)).map Tree.leaf
  | .sequence tag items =>
    match tag with
    | .sequence => (Built.all (constructAll (depth + 1) items)).map Tree.list
    | .orderedMapping | .pairs => (Built.all (constructPairs (depth + 1) items)).map Tree.list
    | .mapping | .set => Built.flawed (depth + 1)
    | _ => Built.flawed depth
  | .mapping tag mark members =>
    match tag with
    | .mapping =>
      match membersOf (depth + 1) members with
      | some built => (Built.all built.all).map fun pairs => .map mark (Tree.ofPairs pairs)
      | none => Built.flawed (depth + 1)
    | .set =>
      match membersOf (depth + 1) members with
      | some built => (Built.all built.all).map fun pairs =>
          .leaf (.set ((Tree.ofPairs pairs).map (·.1)))
      | none => Built.flawed (depth + 1)
    | .sequence | .orderedMapping | .pairs => Built.flawed (depth + 1)
    | tag =>
      if tag.isOfText then
        match defaultText members with
        | some text => (Built.reading depth (Scalar.value tag text)).map Tree.leaf
        | none => Built.flawed depth
      else Built.flawed depth

/-- The trees of nodes. -/
def constructAll (depth : Nat) : List Node → List (Built Tree)
  | [] => []
  | node :: nodes => construct depth node :: constructAll depth nodes

/-- The pairs of a list whose items are mappings of one member. -/
def constructPairs (depth : Nat) : List Node → List (Built Tree)
  | [] => []
  | .mapping _ _ [(key, value)] :: nodes =>
    (Built.both (construct depth key) (construct depth value)).map
      (fun (k, v) => Tree.tuple [k, v]) :: constructPairs depth nodes
  | _ :: nodes => Built.flawed depth :: constructPairs depth nodes

/-- The members of a mapping; nothing if something other than mappings is to be included. -/
def membersOf (depth : Nat) : List (Node × Node) → Option BuiltMembers
  | [] => some {}
  | (key, value) :: rest =>
    match key.tag with
    | .merge => do
      let included ← includedFrom depth value
      let members ← membersOf depth rest
      return { members with included := included ++ members.included }
    | .default => do
      let members ← membersOf depth rest
      let name := (textOf key).elim (Built.flawed depth) fun text => .ok (.leaf (.text text))
      let member := memberOf depth name (construct depth value)
      return { members with own := member :: members.own }
    | _ => do
      let members ← membersOf depth rest
      let member := memberOf depth (construct depth key) (construct depth value)
      return { members with own := member :: members.own }

/-- The members to be included from a mapping or from a list of mappings, of which the first
takes precedence over those after it. -/
def includedFrom (depth : Nat) : Node → Option (List BuiltMember)
  | .mapping _ _ members => (membersOf depth members).map BuiltMembers.all
  | .sequence _ items => includedFromAll depth items
  | .scalar _ _ => none

/-- The members to be included from mappings, those of the last one first. -/
def includedFromAll (depth : Nat) : List Node → Option (List BuiltMember)
  | [] => some []
  | .mapping _ _ members :: items => do
    let own ← membersOf depth members
    let rest ← includedFromAll depth items
    return rest ++ own.all
  | _ :: _ => none

/-- The text that a mapping stands for where text is needed: the value of its first member
under the default key. -/
def defaultText : List (Node × Node) → Option String
  | [] => none
  | (key, value) :: rest =>
    match key.tag with
    | .default => textOf value
    | _ => defaultText rest

/-- The text of a node. -/
def textOf : Node → Option String
  | .scalar _ text => some text
  | .mapping _ _ members => defaultText members
  | .sequence _ _ => none

end

end Reconciler.Yaml
