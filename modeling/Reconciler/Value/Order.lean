import Reconciler.Value.Equality

/-!
# Order of values

Sorting needs to know which of two values comes first, and not every two values can be
compared: numbers compare with numbers, text with text by code point, and moments only if
both or neither have an offset. Lists are ordered by their first unequal items.
-/

namespace Reconciler

namespace Value

/-- Order of values that are not collections; `none` if the two cannot be compared. -/
def scalarLess? : Value → Value → Option Bool
  | .text x, .text y => some (decide (x < y))
  | .date x, .date y => some (decide (x.ordinal < y.ordinal))
  | .moment x, .moment y =>
    if x.offset.isSome == y.offset.isSome then some (decide (x.instant < y.instant)) else none
  | .bytes x, .bytes y => some (decide (x < y))
  | x, y => match x.rational?, y.rational? with
    | some a, some b => some (decide (a < b))
    | a, b => match x, y with
      | .float .nan, _ => if b.isSome || y.typeName == "float" then some false else none
      | _, .float .nan => if a.isSome || x.typeName == "float" then some false else none
      | .float (.infinite s), .float (.infinite t) => some (s && !t)
      | .float (.infinite s), _ => if b.isSome then some s else none
      | _, .float (.infinite t) => if a.isSome then some (!t) else none
      | _, _ => none

mutual

/-- Whether the first value comes before the second; `none` if they cannot be compared. -/
def less? : Value → Value → Option Bool
  | .list xs, .list ys => listLess? xs ys
  | .tuple xs, .tuple ys => listLess? xs ys
  | .set xs, .set ys => some (xs.length < ys.length && allIn false xs ys)
  | x, y => scalarLess? x y

/-- Lists are compared at their first unequal items, else by length. -/
def listLess? : List Value → List Value → Option Bool
  | [], ys => some (!ys.isEmpty)
  | _ :: _, [] => some false
  | x :: xs, y :: ys => if equal false x y then listLess? xs ys else less? x y

end

/-- Put an item into a sorted list, after the items that come before it. -/
def insertBy (less : α → α → Bool) (item : α) : List α → List α
  | [] => [item]
  | other :: rest =>
    if less other item then other :: insertBy less item rest else item :: other :: rest

/-- Sort by a given order; items of which neither comes first keep their order. -/
def sortBy (less : α → α → Bool) (items : List α) : List α := items.foldr (insertBy less) []

/-- Whether any two items at different places can be compared. -/
def comparable (less : α → α → Option Bool) : List α → Bool
  | [] => true
  | item :: rest => rest.all (fun other => (less other item).isSome) && comparable less rest

/-- Sort by a partial order; `none` if some two items cannot be compared. -/
def sortBy? (less : α → α → Option Bool) (items : List α) : Option (List α) :=
  if comparable less items then some (sortBy (fun x y => (less x y).getD false) items) else none

theorem insertBy_perm (less : α → α → Bool) (item : α) (items : List α) :
    (insertBy less item items).Perm (item :: items) := by
  induction items with
  | nil => exact .refl _
  | cons other rest ih =>
    rw [insertBy]
    split
    · exact (ih.cons other).trans (.swap item other rest)
    · exact .refl _

theorem sortBy_perm (less : α → α → Bool) (items : List α) : (sortBy less items).Perm items := by
  induction items with
  | nil => exact .nil
  | cons item rest ih => exact (insertBy_perm less item _).trans (ih.cons item)

end Value

end Reconciler
