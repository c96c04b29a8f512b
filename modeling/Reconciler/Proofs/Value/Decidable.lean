import Reconciler.Proofs.Value.Equality
import Reconciler.Resource.Ref

/-!
# Deciding equality

Two values count as equal in documents if they stand for the same thing, which is less than
being the same value: a whole number equals a truth value, and objects equal each other in any
order. Here values are compared part by part, so that being the same value can be decided, and
with it being the same reference.
-/

namespace Reconciler

namespace Value

mutual

/-- Whether two values are the same in every part. -/
def isIdentical : Value → Value → Bool
  | .null, .null => true
  | .bool x, .bool y => x == y
  | .int x, .int y => x == y
  | .float x, .float y => x == y
  | .text x, .text y => x == y
  | .date x, .date y => x == y
  | .moment x, .moment y => x == y
  | .bytes x, .bytes y => x == y
  | .list xs, .list ys => areIdentical xs ys
  | .tuple xs, .tuple ys => areIdentical xs ys
  | .set xs, .set ys => areIdentical xs ys
  | .map xs, .map ys => membersIdentical xs ys
  | _, _ => false
termination_by structural x => x

/-- Whether two lists have the same items in the same order. -/
def areIdentical : List Value → List Value → Bool
  | [], [] => true
  | x :: xs, y :: ys => isIdentical x y && areIdentical xs ys
  | _, _ => false
termination_by structural xs => xs

/-- Whether two objects have the same members in the same order. -/
def membersIdentical : Members → Members → Bool
  | [], [] => true
  | (key, x) :: xs, (other, y) :: ys =>
    isIdentical key other && isIdentical x y && membersIdentical xs ys
  | _, _ => false
termination_by structural xs => xs

end

theorem areIdentical_iff {xs ys : List Value}
    (items : ∀ x ∈ xs, ∀ y, isIdentical x y ↔ x = y) : areIdentical xs ys ↔ xs = ys := by
  induction xs generalizing ys with
  | nil => cases ys <;> simp [areIdentical]
  | cons x xs ih =>
    obtain ⟨first, others⟩ := List.forall_mem_cons.mp items
    cases ys with
    | nil => simp [areIdentical]
    | cons y ys => rw [areIdentical, Bool.and_eq_true, first, ih others, List.cons.injEq]

theorem membersIdentical_iff {xs ys : Members}
    (members : ∀ member ∈ xs, (∀ key, isIdentical member.1 key ↔ member.1 = key) ∧
      ∀ value, isIdentical member.2 value ↔ member.2 = value) :
    membersIdentical xs ys ↔ xs = ys := by
  induction xs generalizing ys with
  | nil => cases ys <;> simp [membersIdentical]
  | cons member xs ih =>
    obtain ⟨⟨keys, values⟩, others⟩ := List.forall_mem_cons.mp members
    cases ys with
    | nil => simp [membersIdentical]
    | cons other ys =>
      rw [membersIdentical, Bool.and_eq_true, Bool.and_eq_true, keys, values, ih others,
        List.cons.injEq, Prod.ext_iff]

theorem isIdentical_iff {x y : Value} : isIdentical x y ↔ x = y := by
  induction x using Value.induction generalizing y with
  | leaf x hleaf =>
    cases x with
    | list | tuple | set | map => cases hleaf
    | _ => cases y <;> simp [isIdentical]
  | list xs ih =>
    cases y with
    | list ys => rw [isIdentical, areIdentical_iff fun x hx y => ih x hx, list.injEq]
    | _ => simp [isIdentical]
  | tuple xs ih =>
    cases y with
    | tuple ys => rw [isIdentical, areIdentical_iff fun x hx y => ih x hx, tuple.injEq]
    | _ => simp [isIdentical]
  | set xs ih =>
    cases y with
    | set ys => rw [isIdentical, areIdentical_iff fun x hx y => ih x hx, set.injEq]
    | _ => simp [isIdentical]
  | map xs ih =>
    cases y with
    | map ys =>
      rw [isIdentical, map.injEq]
      exact membersIdentical_iff fun member hmem =>
        ⟨fun _ => (ih member hmem).1, fun _ => (ih member hmem).2⟩
    | _ => simp [isIdentical]

instance : DecidableEq Value := fun _ _ => decidable_of_iff _ isIdentical_iff

end Value

/-- References are the same if they are the same in every part. -/
theorem Ref.eq_iff {x y : Ref} : (x.name = y.name ∧ x.space = y.space ∧ x.kind = y.kind ∧
    x.apiVersion = y.apiVersion ∧ x.body = y.body) ↔ x = y := by
  cases x
  cases y
  simp

instance : DecidableEq Ref := fun _ _ => decidable_of_iff _ Ref.eq_iff

end Reconciler
