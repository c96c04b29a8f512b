import Reconciler.Proofs.Patch.Rearranging

/-!
# Lists whose elements have distinct keys

If the elements of all lists that are merged have distinct scalars as their keys, nothing can go
wrong when two objects are compared: a strategic patch between them can always be computed. It is
then empty exactly if one object becomes the other when the elements of these lists are put in
another order, at any depth. Lists of other fields count as they stand, and so do all lists below a
field that is not typed.
-/

namespace Reconciler.Patch

open Schema (Place)
open Value (sameKey)
open Strategic (mergeKeyOf)

/-- Whether all elements of a list are mappings with a scalar at a key, and no two of them have the
same one. -/
def haveScalarKeys (mergeKey : String) (items : List Value) : Bool :=
  items.all (fun item => (item.members.field? mergeKey).any Value.isLeaf) &&
    haveDistinctKeys mergeKey items

variable {place : Place} {mergeKey : String} {xs ys : List Value} {x y : Value}

theorem areKeyed_of_haveScalarKeys (h : haveScalarKeys mergeKey xs) : AreKeyed mergeKey xs := by
  obtain ⟨scalars, distinct⟩ := Bool.and_eq_true_iff.mp h
  refine ⟨fun x hmem => ?_, of_decide_eq_true distinct⟩
  have here := List.all_eq_true.mp scalars x hmem
  rw [Option.any_eq_true] at here
  obtain ⟨key, hkey, scalar⟩ := here
  cases x with
  | map members => exact ⟨members, key, rfl, hkey, scalar⟩
  | _ => cases hkey

/-- A test that is passed wherever another one is holds of all lists of which the other holds. -/
theorem everyMerged_mono {test other : String → List Value → Bool}
    (weaker : ∀ mergeKey items, test mergeKey items → other mergeKey items)
    (h : everyMerged test place x) : everyMerged other place x := by
  induction x using Value.induction generalizing place with
  | leaf value hleaf => cases value <;> first | rfl | cases hleaf
  | list items ih =>
    rw [everyMerged]
    split
    · rename_i merge
      obtain ⟨here, below⟩ := everyMerged_list merge h
      rw [Bool.and_eq_true, allMerged_iff]
      exact ⟨weaker _ _ here, fun item hitem => ih item hitem (below item hitem)⟩
    · rfl
  | map members ih =>
    rw [everyMerged, everyMergedIn_iff] at h ⊢
    exact fun member hmember => (ih member hmember).2 (h member hmember)
  | _ => rfl

/-! ### Elements in another order -/

/-- The only scalars that are equal up to order are equal ones. -/
theorem Reordered.equal_of_isLeaf (h : Reordered place x y) (scalar : x.isLeaf) :
    x.equal false y = true := by
  cases h with
  | equal h => exact h
  | map | list => cases scalar

/-- Elements that are equal up to order have the same key. -/
theorem Reordered.sameKey_mergeKeyOf (h : Reordered place x y) (keyedX : AreKeyed mergeKey xs)
    (keyedY : AreKeyed mergeKey ys) (hx : x ∈ xs) (hy : y ∈ ys) (jsonX : x.isJson)
    (jsonY : y.isJson) : sameKey (mergeKeyOf mergeKey x) (mergeKeyOf mergeKey y) := by
  obtain ⟨before, own, rfl, hown, scalar⟩ := keyedX.keyed x hx
  obtain ⟨after, other, rfl, hother, -⟩ := keyedY.keyed y hy
  rw [mergeKeyOf_map hown, mergeKeyOf_map hother]
  exact (h.at_name mergeKey jsonX jsonY hown hother).equal_of_isLeaf scalar

/-- Values that are equal up to order cannot be told apart by a patch, where keys are distinct. -/
theorem Reordered.indistinct (h : Reordered place x y) (jsonX : x.isJson) (jsonY : y.isJson)
    (keyedX : everyMerged haveScalarKeys place x) (keyedY : everyMerged haveScalarKeys place y) :
    Indistinct place x y := by
  induction h with
  | equal h => exact .equal h
  | map names values ih =>
    refine .map names fun name x y hx hy => ?_
    exact ih name x y hx hy (Value.isJson_of_field? jsonX hx) (Value.isJson_of_field? jsonY hy)
      (everyMerged_of_field? keyedX hx) (everyMerged_of_field? keyedY hy)
  | @list place mergeKey model xs ys zs merge order length items ih =>
    obtain ⟨keysX, belowX⟩ := everyMerged_list merge keyedX
    obtain ⟨keysY, belowY⟩ := everyMerged_list merge keyedY
    rw [Value.isJson_list] at jsonX jsonY
    have hx := areKeyed_of_haveScalarKeys keysX
    have hy := areKeyed_of_haveScalarKeys keysY
    -- The elements that stand at one position after reordering are those with one key.
    have paired : ∀ {key : Value} {i : Nat} {z y : Value}, zs[i]? = some z → ys[i]? = some y →
        (elementAt mergeKey xs key = some z ↔ elementAt mergeKey ys key = some y) := by
      intro key i z y hz hy'
      have memX := order.mem_iff.mp (List.mem_of_getElem? hz)
      have memY := List.mem_of_getElem? hy'
      exact elementAt_iff_of_paired (hx.distinct jsonX) (hy.distinct jsonY) order hz hy'
        ((items i z y hz hy').sameKey_mergeKeyOf hx hy memX memY (jsonX z memX) (jsonY y memY))
    have found : ∀ {key x : Value}, elementAt mergeKey xs key = some x → ∃ (i : Nat) (y : Value),
        zs[i]? = some x ∧ ys[i]? = some y ∧ elementAt mergeKey ys key = some y := by
      intro key x hfound
      obtain ⟨i, hz⟩ := List.mem_iff_getElem?.mp
        (order.mem_iff.mpr (List.mem_of_find?_eq_some hfound))
      obtain ⟨y, hy'⟩ := exists_getElem? length hz
      exact ⟨i, y, hz, hy', (paired hz hy').mp hfound⟩
    refine .list merge (fun key => ?_) fun key x y hfirst hsecond => ?_
    · rw [lastAt_eq_elementAt (hx.distinct jsonX), lastAt_eq_elementAt (hy.distinct jsonY)]
      refine Bool.eq_iff_iff.mpr ⟨fun present => ?_, fun present => ?_⟩
      · obtain ⟨x, hfirst⟩ := Option.isSome_iff_exists.mp present
        obtain ⟨-, y, -, -, hsecond⟩ := found hfirst
        exact Option.isSome_iff_exists.mpr ⟨y, hsecond⟩
      · obtain ⟨y, hsecond⟩ := Option.isSome_iff_exists.mp present
        obtain ⟨i, hy'⟩ := List.mem_iff_getElem?.mp (List.mem_of_find?_eq_some hsecond)
        obtain ⟨z, hz⟩ := exists_getElem? length.symm hy'
        exact Option.isSome_iff_exists.mpr ⟨z, (paired hz hy').mpr hsecond⟩
    · rw [lastAt_eq_elementAt (hx.distinct jsonX)] at hfirst
      rw [lastAt_eq_elementAt (hy.distinct jsonY)] at hsecond
      obtain ⟨i, other, hz, hy', hother⟩ := found hfirst
      obtain rfl := Option.some.inj (hsecond.symm.trans hother)
      have memX := List.mem_of_find?_eq_some hfirst
      have memY := List.mem_of_find?_eq_some hsecond
      exact ih i x y hz hy' (jsonX x memX) (jsonY y memY) (belowX x memX) (belowY y memY)

/-! ### When a strategic patch is empty -/

/-- Elements with scalar keys are never refused. -/
theorem refusedFor_nothing : RefusedFor haveScalarKeys fun _ => False := by
  intro field mergeKey elements failure keyed h
  rw [elementKeys_of_keyed (areKeyed_of_haveScalarKeys keyed)] at h
  cases h

/-- Between two JSON objects in which the elements of lists that are merged have distinct scalars
as keys, a strategic patch can be computed. It is empty exactly if one object becomes the other when
the elements of these lists are put in another order. -/
theorem strategicPatch_empty_iff_reordered (shared : Bool) (model : Option String)
    (before after : Members) (jsonBefore : (Value.map before).isJson)
    (jsonAfter : (Value.map after).isJson)
    (keyedBefore : everyMerged haveScalarKeys { model } (.map before))
    (keyedAfter : everyMerged haveScalarKeys { model } (.map after)) :
    ∃ patch, strategicPatch shared model (.map before) (.map after) = .ok patch ∧
      (patch = [] ↔ Reordered { model } (.map before) (.map after)) := by
  cases h : strategicPatch shared model (.map before) (.map after) with
  | error failure =>
    exact (Strategic.reason_of_diff refusedFor_nothing keyedBefore keyedAfter h).elim
  | ok patch =>
    have distinct : ∀ mergeKey items, haveScalarKeys mergeKey items →
        haveDistinctKeys mergeKey items := fun _ _ keyed => (Bool.and_eq_true_iff.mp keyed).2
    refine ⟨patch, rfl, (strategicPatch_eq_nil_iff jsonBefore jsonAfter h).trans ⟨?_, ?_⟩⟩
    · exact fun same => same.reordered jsonBefore jsonAfter
        (everyMerged_mono distinct keyedBefore) (everyMerged_mono distinct keyedAfter)
    · exact fun reordered => reordered.indistinct jsonBefore jsonAfter keyedBefore keyedAfter

/-- The description of a pod with two containers, of which one has two variables, and the same with
both lists in another order. -/
def podInOrder : Members := [
  (.text "containers", .list [
    .map [(.text "name", .text "app"), (.text "env", .list [
      .map [(.text "name", .text "A"), (.text "value", .text "1")],
      .map [(.text "name", .text "B")]])],
    .map [(.text "name", .text "log"), (.text "args", .list [.text "a", .text "b"])]])]

@[inherit_doc podInOrder]
def podInAnotherOrder : Members := [
  (.text "containers", .list [
    .map [(.text "args", .list [.text "a", .text "b"]), (.text "name", .text "log")],
    .map [(.text "name", .text "app"), (.text "env", .list [
      .map [(.text "name", .text "B")],
      .map [(.text "value", .text "1"), (.text "name", .text "A")]])]])]

/-- Nothing is sent for the pod in another order. -/
theorem podPatch_empty_iff_reordered : ∃ patch,
    strategicPatch true (some "V1PodSpec") (.map podInOrder) (.map podInAnotherOrder) = .ok patch ∧
      (patch = [] ↔
        Reordered { model := some "V1PodSpec" } (.map podInOrder) (.map podInAnotherOrder)) ∧
      patch = [] := by
  obtain ⟨patch, h, empty_iff⟩ := strategicPatch_empty_iff_reordered true (some "V1PodSpec")
    podInOrder podInAnotherOrder (by decide +kernel) (by decide +kernel) (by decide +kernel)
    (by decide +kernel)
  have empty : (strategicPatch true (some "V1PodSpec") (.map podInOrder)
      (.map podInAnotherOrder)).toOption.any List.isEmpty := by decide +kernel
  rw [h] at empty
  exact ⟨patch, h, empty_iff, List.isEmpty_iff.mp empty⟩

end Reconciler.Patch
