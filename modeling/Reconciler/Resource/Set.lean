import Reconciler.Resource.Ref

/-!
# Sets of references

A set keeps references in the order of the manifest from which they came. Membership is by
identity; the operations on two sets keep the order of the first.
-/

namespace Reconciler

/-- References in manifest order. -/
abbrev RefSet := List Ref

namespace RefSet

/-- The reference with the same identity as a given one. -/
def get? (refs : RefSet) (ref : Ref) : Option Ref :=
  refs.find? fun candidate => candidate.sameIdentity ref

/-- Whether a reference with the same identity is in the set. -/
def contains (refs : RefSet) (ref : Ref) : Bool := (get? refs ref).isSome

/-- The references whose identity the other set does not have. -/
def difference (refs others : RefSet) : RefSet := refs.filter fun ref => !contains others ref

/-- The references of a given kind. -/
def ofKind (refs : RefSet) (kind : Value) : RefSet :=
  refs.filter fun ref => ref.kind.equal false kind

/-- The position that an index names; negative ones count from the end. -/
def position? (refs : RefSet) (index : Int) : Option Nat :=
  let place := if index < 0 then index + refs.length else index
  if 0 ≤ place && place < refs.length then some place.toNat else none

/-- The reference at an index. -/
def at? (refs : RefSet) (index : Int) : Option Ref :=
  (position? refs index).bind fun place => refs[place]?

/-- How a set is shown. -/
def shown (refs : RefSet) : String :=
  "ResourceSet([" ++ String.intercalate ", " (refs.map Ref.shown) ++ "])"

@[simp] theorem contains_nil (ref : Ref) : contains [] ref = false := rfl

theorem contains_iff (refs : RefSet) (ref : Ref) :
    contains refs ref ↔ ∃ candidate ∈ refs, candidate.sameIdentity ref := by
  simp [contains, get?, List.find?_isSome]

theorem mem_difference (refs others : RefSet) (ref : Ref) :
    ref ∈ difference refs others ↔ ref ∈ refs ∧ contains others ref = false := by
  simp [difference]

end RefSet

end Reconciler
