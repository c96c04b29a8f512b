import Reconciler.Value.Order
import Reconciler.Value.Shown
import Mathlib.Data.List.Nodup
import Mathlib.Data.List.Perm.Basic
import Mathlib.Data.String.Basic

/-!
# Sorting by keys

Items that are compared by keys are sorted by these keys. If no two of them have the same key
then there is one sorted list of them, whatever order they are given in. The members of an
object with text keys are such items, and so is all that is made of them name by name.
-/

namespace Reconciler.Value

section

variable {κ : Type} [LinearOrder κ] {key : α → κ} {less : α → α → Bool} {item : α} {items : List α}

/-- An item is put behind those with smaller keys and before all others. -/
theorem pairwise_insertBy (h : ∀ other ∈ items, less other item = decide (key other < key item))
    (sorted : items.Pairwise fun x y => key x ≤ key y) :
    (insertBy less item items).Pairwise fun x y => key x ≤ key y := by
  induction items with
  | nil => exact List.pairwise_singleton _ _
  | cons other rest ih =>
    obtain ⟨here, later⟩ := List.forall_mem_cons.mp h
    obtain ⟨first, rest⟩ := List.pairwise_cons.mp sorted
    rw [insertBy, here]
    split
    · rename_i smaller
      refine List.pairwise_cons.mpr ⟨fun found hmem => ?_, ih later rest⟩
      apply (List.mem_cons.mp ((insertBy_perm less item _).mem_iff.mp hmem)).elim
      · rintro rfl
        exact (of_decide_eq_true smaller).le
      · exact first found
    · rename_i smaller
      have le : key item ≤ key other := not_lt.mp (by simpa using smaller)
      refine List.pairwise_cons.mpr ⟨fun found hmem => ?_, sorted⟩
      apply (List.mem_cons.mp hmem).elim
      · rintro rfl
        exact le
      · exact fun hmem => le.trans (first found hmem)

/-- Items that are compared by keys are sorted by these keys. -/
theorem pairwise_sortBy (h : ∀ x ∈ items, ∀ y ∈ items, less x y = decide (key x < key y)) :
    (sortBy less items).Pairwise fun x y => key x ≤ key y := by
  induction items with
  | nil => exact .nil
  | cons item rest ih =>
    refine pairwise_insertBy (fun other hmem => ?_) (ih fun x hx y hy =>
      h x (List.mem_cons_of_mem _ hx) y (List.mem_cons_of_mem _ hy))
    have kept : other ∈ rest := (sortBy_perm less rest).mem_iff.mp hmem
    exact h other (List.mem_cons_of_mem _ kept) item (List.mem_cons_self ..)

/-- Items with different keys are sorted in one way. -/
theorem sortBy_eq_of_perm (h : ∀ x ∈ items, ∀ y ∈ items, less x y = decide (key x < key y))
    (apart : ∀ x ∈ items, ∀ y ∈ items, key x = key y → x = y) {others : List α}
    (perm : others.Perm items) : sortBy less others = sortBy less items := by
  have same {x : α} : x ∈ others ↔ x ∈ items := perm.mem_iff
  have sortedOthers := pairwise_sortBy fun x hx y hy => h x (same.mp hx) y (same.mp hy)
  have reordered := (sortBy_perm less others).trans (perm.trans (sortBy_perm less items).symm)
  refine reordered.eq_of_pairwise (fun x y hx hy le ge => ?_) sortedOthers (pairwise_sortBy h)
  exact apart x (same.mp ((sortBy_perm less others).mem_iff.mp hx)) y
    ((sortBy_perm less items).mem_iff.mp hy) (le_antisymm le ge)

end

/-- Items that can all be compared can be sorted. -/
theorem sortBy?_eq_some {less : α → α → Option Bool} {items : List α}
    (h : ∀ x ∈ items, ∀ y ∈ items, (less x y).isSome) :
    sortBy? less items = some (sortBy (fun x y => (less x y).getD false) items) := by
  refine if_pos ?_
  induction items with
  | nil => rfl
  | cons item rest ih =>
    rw [comparable, Bool.and_eq_true, List.all_eq_true]
    refine ⟨fun other hmem => ?_, ?_⟩
    · exact h other (List.mem_cons_of_mem _ hmem) item (List.mem_cons_self ..)
    · exact ih fun x hx y hy => h x (List.mem_cons_of_mem _ hx) y (List.mem_cons_of_mem _ hy)

/-- Entries with different text keys, and an order of them that goes by these keys. -/
structure IsSortable (less : Value × β → Value × β → Option Bool) (entries : List (Value × β)) :
    Prop where
  distinct : (entries.map (·.1)).Nodup
  text : ∀ entry ∈ entries, ∃ name, entry.1 = .text name
  less : ∀ x ∈ entries, ∀ y ∈ entries, less x y = some (decide (x.1.plain < y.1.plain))

namespace IsSortable

variable {less : Value × β → Value × β → Option Bool} {entries others : List (Value × β)}

/-- Entries with different text keys are sorted in one way. -/
theorem sortBy_eq (h : IsSortable less entries) (perm : others.Perm entries) :
    sortBy (fun x y => (less x y).getD false) others =
      sortBy (fun x y => (less x y).getD false) entries := by
  have byName : ∀ x ∈ entries, ∀ y ∈ entries,
      (less x y).getD false = decide (x.1.plain < y.1.plain) := by
    intro x hx y hy
    rw [h.less x hx y hy]
    rfl
  refine sortBy_eq_of_perm byName (fun x hx y hy same => ?_) perm
  obtain ⟨name, hname⟩ := h.text x hx
  obtain ⟨other, hother⟩ := h.text y hy
  rw [hname, hother, plain_text, plain_text] at same
  refine List.inj_on_of_nodup_map h.distinct hx hy ?_
  rw [hname, hother, same]

/-- Entries with different text keys can be sorted, whatever order they are in. -/
theorem sortBy?_eq (h : IsSortable less entries) (perm : others.Perm entries) :
    sortBy? less others = some (sortBy (fun x y => (less x y).getD false) entries) := by
  rw [← h.sortBy_eq perm]
  refine sortBy?_eq_some fun x hx y hy => ?_
  rw [h.less x (perm.mem_iff.mp hx) y (perm.mem_iff.mp hy)]
  rfl

end IsSortable

end Reconciler.Value
