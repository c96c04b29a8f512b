import Reconciler.Proofs.Value.Names
import Reconciler.Schema.MergeKey

/-!
# When two values say the same

A server that is asked for an object need not answer with the very value that it was sent. A
member that is null says no more than a member that is not there, and the elements of a list
that is merged by a key have no order. `Alike` is equality up to these two differences,
where the schema says which lists are merged; everything else has to be equal.
-/

namespace Reconciler

namespace Schema

/-- What the schema says of the value at a place of a document: the model of a mapping
there, and of a list that is merged the key and the model of its elements. -/
structure Place where
  model : Option String := none
  merge : Option (String × Option String) := none
  deriving Inhabited

/-- The place of the value at a key of a mapping that a model types. -/
def Place.below (model : Option String) (key : Value) : Place where
  model := builtin.modelOf (typeAt model key)
  merge := (mergeKeyAt model key).map fun mergeKey =>
    (mergeKey, builtin.modelOf (elementType (typeAt model key)))

theorem Place.merge_below {model : Option String} {key : Value} {mergeKey : String}
    (h : mergeKeyAt model key = some mergeKey) :
    (Place.below model key).merge =
      some (mergeKey, builtin.modelOf (elementType (typeAt model key))) := by
  rw [Place.below, h]
  rfl

theorem Place.merge_below_none {model : Option String} {key : Value}
    (h : mergeKeyAt model key = none) : (Place.below model key).merge = none := by
  rw [Place.below, h]
  rfl

/-- Nothing is typed below a mapping without a model. -/
@[simp] theorem Place.below_none (key : Value) : Place.below none key = {} := by
  cases key <;> rfl

end Schema

/-- The value at a key, if it is there and not null. -/
def Members.stated? (members : Members) (key : Value) : Option Value :=
  (members.at? key).filter fun value => !value.isNull

namespace Patch

open Schema (Place)

/-- Two values at a place say the same: they are equal, or they are mappings whose members
that are not null say the same, or they are lists that are merged by a key whose elements
say the same in some order. -/
inductive Alike : Place → Value → Value → Prop
  | equal {place : Place} {x y : Value} (h : x.equal false y = true) : Alike place x y
  | map {place : Place} {xs ys : Members}
      (keys : ∀ key, (xs.stated? key).isSome = (ys.stated? key).isSome)
      (values : ∀ key x y, xs.stated? key = some x → ys.stated? key = some y →
        Alike (Place.below place.model key) x y) : Alike place (.map xs) (.map ys)
  | list {place : Place} {mergeKey : String} {model : Option String} {xs ys zs : List Value}
      (merge : place.merge = some (mergeKey, model)) (order : zs.Perm xs)
      (length : zs.length = ys.length)
      (items : ∀ (i : Nat) z y, zs[i]? = some z → ys[i]? = some y → Alike { model } z y) :
      Alike place (.list xs) (.list ys)

theorem Alike.refl {value : Value} (place : Place) (h : value.isJson) :
    Alike place value value := .equal (Value.equal_self false h)

/-- What says the same as something says something. -/
theorem Alike.isNull_eq {place : Place} {x y : Value} (h : Alike place x y) :
    x.isNull = y.isNull := by
  cases h with
  | equal h => exact Value.isNull_eq_of_equal h
  | map => rfl
  | list => rfl

/-- What two mappings have at a key says the same. -/
def AlikeAt (place : Place) (x y : Option Value) : Prop :=
  Option.Rel (Alike place) (x.filter fun value => !value.isNull)
    (y.filter fun value => !value.isNull)

theorem Alike.at_some {place : Place} {x y : Value} (h : Alike place x y) :
    AlikeAt place (some x) (some y) := by
  unfold AlikeAt
  by_cases hnull : y.isNull
  · rw [Option.filter_some_neg (by simp [h.isNull_eq, hnull]),
      Option.filter_some_neg (by simp [hnull])]
    exact .none
  · rw [Option.filter_some_pos (by simp [h.isNull_eq, hnull]),
      Option.filter_some_pos (by simp [hnull])]
    exact .some h

/-- A key that is absent is like one with a null. -/
theorem AlikeAt.none_left {place : Place} {y : Option Value} (h : y.all Value.isNull) :
    AlikeAt place none y := by
  have absent : y.filter (fun value => !value.isNull) = none := by
    cases y with
    | none => rfl
    | some y => exact Option.filter_some_neg (by simpa using h)
  rw [AlikeAt, absent]
  exact .none

/-- To compare mappings with text keys it is enough to look at names. -/
theorem Alike.of_names {place : Place} {xs ys : Members} (hx : xs.isNamed) (hy : ys.isNamed)
    (h : ∀ name, AlikeAt (Place.below place.model (.text name)) (xs.field? name)
      (ys.field? name)) : Alike place (.map xs) (.map ys) := by
  have stated : ∀ key, Option.Rel (Alike (Place.below place.model key)) (xs.stated? key)
      (ys.stated? key) := by
    intro key
    by_cases htext : ∃ name, key = .text name
    · obtain ⟨name, rfl⟩ := htext
      exact h name
    · have other : ∀ name, key ≠ .text name := fun name hname => htext ⟨name, hname⟩
      simp only [Members.stated?, Members.at?_of_not_isText hx other,
        Members.at?_of_not_isText hy other]
      exact .none
  exact .map (fun key => (rel_iff.mp (stated key)).1)
    fun key x y => (rel_iff.mp (stated key)).2 x y

end Patch

end Reconciler
