import Reconciler.Proofs.Patch.Members

/-!
# Lists whose elements have keys

In a list that is merged by a key each element is known by the value of one of its members.
As long as these values are scalars and no two are the same, the list is known by which
element it has at each key, and what a strategic patch makes of it can be said in these
terms. The order of the elements then follows up to a permutation.
-/

namespace Reconciler

namespace Value

/-- Whether a value is a truth value, a number or text. -/
def isScalar : Value → Bool
  | .bool _ | .int _ | .float _ | .text _ => true
  | _ => false

/-- A value by which an element can be known: a scalar that equals itself. -/
structure IsMark (key : Value) : Prop where
  scalar : key.isScalar
  self : sameKey key key

theorem IsMark.of_isJson {key : Value} (scalar : key.isScalar) (json : key.isJson) :
    key.IsMark := ⟨scalar, equal_self false json⟩

theorem IsMark.isNull_eq {key : Value} (h : key.IsMark) : key.isNull = false := by
  have scalar := h.scalar
  cases key <;> first | rfl | simp [isScalar] at scalar

end Value

namespace Patch

open Value (sameKey)
open Strategic (mergeKeyOf putElement isDeletion)

/-- No two elements of a list have the same key. -/
structure Distinct (mergeKey : String) (elements : List Value) : Prop where
  selves : ∀ element ∈ elements,
    sameKey (mergeKeyOf mergeKey element) (mergeKeyOf mergeKey element)
  apart : elements.Pairwise fun x y =>
    sameKey (mergeKeyOf mergeKey x) (mergeKeyOf mergeKey y) = false

/-- The elements of a list are known by their keys. -/
structure Marked (mergeKey : String) (elements : List Value) : Prop where
  marks : ∀ element ∈ elements, (mergeKeyOf mergeKey element).IsMark
  apart : elements.Pairwise fun x y =>
    sameKey (mergeKeyOf mergeKey x) (mergeKeyOf mergeKey y) = false

/-- The element of a list at a key. -/
def elementAt (mergeKey : String) (elements : List Value) (key : Value) : Option Value :=
  elements.find? fun element => sameKey key (mergeKeyOf mergeKey element)

variable {mergeKey : String} {elements : List Value} {key : Value}

theorem Marked.nil : Marked mergeKey [] := ⟨by simp, .nil⟩

theorem Marked.of_cons {element : Value} (h : Marked mergeKey (element :: elements)) :
    Marked mergeKey elements :=
  ⟨fun x hx => h.marks x (List.mem_cons_of_mem _ hx), (List.pairwise_cons.mp h.apart).2⟩

theorem Marked.distinct (h : Marked mergeKey elements) : Distinct mergeKey elements :=
  ⟨fun element hmem => (h.marks element hmem).self, h.apart⟩

theorem Distinct.of_cons {element : Value} (h : Distinct mergeKey (element :: elements)) :
    Distinct mergeKey elements :=
  ⟨fun x hx => h.selves x (List.mem_cons_of_mem _ hx), (List.pairwise_cons.mp h.apart).2⟩

theorem elementAt_eq_some_iff (h : Distinct mergeKey elements) (element : Value) :
    elementAt mergeKey elements key = some element ↔
      element ∈ elements ∧ sameKey key (mergeKeyOf mergeKey element) = true := by
  constructor
  · intro found
    exact ⟨List.mem_of_find?_eq_some found, List.find?_some (p := fun element =>
      sameKey key (mergeKeyOf mergeKey element)) found⟩
  · rintro ⟨hmem, hkey⟩
    induction elements with
    | nil => cases hmem
    | cons first rest ih =>
      rcases List.mem_cons.mp hmem with rfl | hrest
      · exact List.find?_cons_of_pos (p := fun element =>
          sameKey key (mergeKeyOf mergeKey element)) hkey
      · rw [elementAt, List.find?_cons_of_neg, ← elementAt, ih h.of_cons hrest]
        intro hfirst
        -- Both elements would have the key, and so each the key of the other.
        have back := Value.sameKey_symm hfirst
        have same := Value.sameKey_trans back hkey
        simp [(List.pairwise_cons.mp h.apart).1 element hrest] at same

theorem elementAt_nil : elementAt mergeKey [] key = none := rfl

theorem elementAt_cons (element : Value) :
    elementAt mergeKey (element :: elements) key =
      if sameKey key (mergeKeyOf mergeKey element) then some element
      else elementAt mergeKey elements key := by
  rw [elementAt, List.find?_cons]
  split <;> simp_all [elementAt]

theorem elementAt_congr {other : Value} (h : sameKey key other) :
    elementAt mergeKey elements key = elementAt mergeKey elements other := by
  rw [elementAt, elementAt]
  congr 1
  funext element
  exact Value.sameKey_congr_left h _

/-- The key of the first element is the key of no other. -/
theorem Marked.elementAt_of_cons {element : Value} (h : Marked mergeKey (element :: elements))
    (same : sameKey key (mergeKeyOf mergeKey element)) :
    elementAt mergeKey elements key = none := by
  rw [elementAt_congr same]
  exact List.find?_eq_none.mpr fun other hmem =>
    Bool.eq_false_iff.mp ((List.pairwise_cons.mp h.apart).1 other hmem)

theorem elementAt_self (h : Distinct mergeKey elements) {element : Value}
    (hmem : element ∈ elements) :
    elementAt mergeKey elements (mergeKeyOf mergeKey element) = some element :=
  (elementAt_eq_some_iff h element).mpr ⟨hmem, h.selves element hmem⟩

/-! ### Lists that say something of elements -/

/-- What is said of an element is known by the same key as the element. -/
def AtKeyOf (mergeKey : String) (elements : List Value) (said : Value → Option Value) : Prop :=
  ∀ element ∈ elements, ∀ item, said element = some item →
    mergeKeyOf mergeKey item = mergeKeyOf mergeKey element

theorem Marked.filterMap {said : Value → Option Value} (h : Marked mergeKey elements)
    (hsaid : AtKeyOf mergeKey elements said) : Marked mergeKey (elements.filterMap said) := by
  refine ⟨fun item hitem => ?_, ?_⟩
  · obtain ⟨element, hmem, heq⟩ := List.mem_filterMap.mp hitem
    exact hsaid element hmem item heq ▸ h.marks element hmem
  · refine List.pairwise_filterMap.mpr (h.apart.imp_of_mem fun hx hy apart item hitem => ?_)
    intro other hother
    rw [hsaid _ hx item hitem, hsaid _ hy other hother]
    exact apart

theorem elementAt_filterMap {said : Value → Option Value} (h : Marked mergeKey elements)
    (hsaid : AtKeyOf mergeKey elements said) (key : Value) :
    elementAt mergeKey (elements.filterMap said) key =
      (elementAt mergeKey elements key).bind said := by
  induction elements with
  | nil => rfl
  | cons element rest ih =>
    have later := ih h.of_cons fun x hx => hsaid x (List.mem_cons_of_mem _ hx)
    rw [elementAt_cons]
    cases heq : said element with
    | some item =>
      rw [List.filterMap_cons_some heq, elementAt_cons, hsaid element (by simp) item heq, later]
      split
      · exact heq.symm
      · rfl
    | none =>
      rw [List.filterMap_cons_none heq, later]
      split
      · -- No other element has the key, so nothing is said at it.
        rename_i same
        rw [h.elementAt_of_cons same, Option.bind_none, Option.bind_some, heq]
      · rfl

theorem elementAt_append (xs ys : List Value) (key : Value) :
    elementAt mergeKey (xs ++ ys) key =
      (elementAt mergeKey xs key).or (elementAt mergeKey ys key) :=
  List.find?_append

theorem Marked.append {xs ys : List Value} (hx : Marked mergeKey xs) (hy : Marked mergeKey ys)
    (apart : ∀ y ∈ ys, elementAt mergeKey xs (mergeKeyOf mergeKey y) = none) :
    Marked mergeKey (xs ++ ys) := by
  refine ⟨fun element hmem => ?_, List.pairwise_append.mpr ⟨hx.apart, hy.apart, ?_⟩⟩
  · exact (List.mem_append.mp hmem).elim (hx.marks element) (hy.marks element)
  · intro x hmem y hmem'
    refine Bool.eq_false_iff.mpr fun same => ?_
    have back := Value.sameKey_symm same
    exact List.find?_eq_none.mp (apart y hmem') x hmem back

/-! ### Removing elements -/

theorem Marked.filter (h : Marked mergeKey elements) (keep : Value → Bool) :
    Marked mergeKey (elements.filter keep) :=
  ⟨fun element hmem => h.marks element (List.mem_filter.mp hmem).1, h.apart.filter keep⟩

theorem elementAt_filter (elements : List Value) (key other : Value) :
    elementAt mergeKey
        (elements.filter fun element => !sameKey key (mergeKeyOf mergeKey element)) other =
      if sameKey other key then none else elementAt mergeKey elements other := by
  induction elements with
  | nil => simp [elementAt_nil]
  | cons element rest ih =>
    by_cases hmatch : sameKey key (mergeKeyOf mergeKey element)
    · rw [List.filter_cons_of_neg (by simpa using hmatch), ih, elementAt_cons,
        ← Value.sameKey_congr_right hmatch other]
      split <;> rfl
    · rw [List.filter_cons_of_pos (by simpa using hmatch), elementAt_cons, elementAt_cons,
        ih]
      by_cases hother : sameKey other key
      · rw [Value.sameKey_congr_left hother, if_neg hmatch, if_pos hother, if_pos hother]
      · rw [if_neg hother]
        split <;> rfl

/-! ### Changing and adding elements -/

/-- A change of the elements with a key leaves them with that key. -/
structure KeepsKey (mergeKey : String) (key : Value) (change : Value → Value) : Prop where
  mark : key.IsMark
  kept : ∀ element, mergeKeyOf mergeKey (change element) = key

variable {new : Value} {change : Value → Value}

theorem elementAt_putElement (hchange : KeepsKey mergeKey key change)
    (hnew : mergeKeyOf mergeKey new = key) (other : Value) :
    elementAt mergeKey (putElement mergeKey key new change elements) other =
      if sameKey other key then some ((elementAt mergeKey elements key).elim new change)
      else elementAt mergeKey elements other := by
  induction elements with
  | nil => rw [putElement, elementAt_cons, hnew, elementAt_nil, elementAt_nil, Option.elim_none]
  | cons element rest ih =>
    rw [putElement]
    by_cases hmatch : sameKey key (mergeKeyOf mergeKey element)
    · rw [if_pos hmatch, elementAt_cons, hchange.kept, elementAt_cons, if_pos hmatch,
        Option.elim_some, elementAt_cons, ← Value.sameKey_congr_right hmatch other]
      split <;> rfl
    · rw [if_neg hmatch, elementAt_cons, ih, elementAt_cons, if_neg hmatch,
        elementAt_cons]
      by_cases hother : sameKey other key
      · rw [Value.sameKey_congr_left hother, if_neg hmatch, if_pos hother,
          if_pos hother]
      · rw [if_neg hother, if_neg hother]

theorem mem_putElement {element : Value}
    (hmem : element ∈ putElement mergeKey key new change elements)
    (hchange : KeepsKey mergeKey key change) (hnew : mergeKeyOf mergeKey new = key) :
    element ∈ elements ∨ mergeKeyOf mergeKey element = key := by
  induction elements with
  | nil =>
    rw [putElement, List.mem_singleton] at hmem
    exact .inr (hmem ▸ hnew)
  | cons first rest ih =>
    rw [putElement] at hmem
    split at hmem
    · rcases List.mem_cons.mp hmem with rfl | hrest
      · exact .inr (hchange.kept first)
      · exact .inl (List.mem_cons_of_mem _ hrest)
    · rcases List.mem_cons.mp hmem with rfl | hrest
      · exact .inl (List.mem_cons_self ..)
      · exact (ih hrest).imp_left (List.mem_cons_of_mem _)

theorem Marked.putElement (h : Marked mergeKey elements)
    (hchange : KeepsKey mergeKey key change) (hnew : mergeKeyOf mergeKey new = key) :
    Marked mergeKey (putElement mergeKey key new change elements) := by
  refine ⟨fun element hmem => ?_, ?_⟩
  · rcases mem_putElement hmem hchange hnew with hold | hkey
    · exact h.marks element hold
    · exact hkey ▸ hchange.mark
  · induction elements with
    | nil => exact List.pairwise_singleton _ _
    | cons first rest ih =>
      have firstApart := (List.pairwise_cons.mp h.apart).1
      rw [Strategic.putElement]
      by_cases hmatch : sameKey key (mergeKeyOf mergeKey first)
      · rw [if_pos hmatch]
        refine List.pairwise_cons.mpr ⟨fun element hmem => ?_, h.of_cons.apart⟩
        rw [hchange.kept, Value.sameKey_congr_left hmatch]
        exact firstApart element hmem
      · rw [if_neg hmatch]
        refine List.pairwise_cons.mpr ⟨fun element hmem => ?_, ih h.of_cons⟩
        rcases mem_putElement hmem hchange hnew with hold | hkey
        · exact firstApart element hold
        · rw [hkey]
          exact Bool.eq_false_iff.mpr fun same =>
            hmatch (Value.sameKey_symm same)

/-! ### Applying the patch of a list -/

theorem strategic_applyMembers_eq (model : Option String) (target patch : Members) :
    Strategic.applyMembers model target patch =
      patchWith (Strategic.applyAt model) target patch := by
  induction patch generalizing target with
  | nil => rw [Strategic.applyMembers_nil, patchWith]
  | cons member rest ih =>
    obtain ⟨key, value⟩ := member
    rw [Strategic.applyMembers, patchWith, ih]

theorem applyAt_of_isScalar (model : Option String) (key old : Value) {value : Value}
    (h : value.isScalar) : Strategic.applyAt model key old value = value := by
  rw [Strategic.applyAt] <;> rintro _ rfl <;> simp [Value.isScalar] at h

/-- An element of a patch that says what becomes of one element of a list. -/
structure IsItem (mergeKey : String) (item : Value) (patch : Members) (key : Value) : Prop where
  eq : item = .map patch
  named : patch.isNamed
  keyed : patch.field? mergeKey = some key
  mark : key.IsMark

theorem IsItem.mergeKeyOf_eq {item : Value} {patch : Members}
    (h : IsItem mergeKey item patch key) : mergeKeyOf mergeKey item = key := by
  rw [h.eq, mergeKeyOf, Value.members_map, h.keyed, Value.ofOption_some]

/-- What an element of a patch makes of an element with its key. -/
def patchedElement (model : Option String) (item element : Value) : Value :=
  .map (Strategic.applyMembers model element.members item.members)

theorem IsItem.keepsKey {item : Value} {patch : Members} (h : IsItem mergeKey item patch key)
    (model : Option String) : KeepsKey mergeKey key (patchedElement model item) := by
  refine ⟨h.mark, fun element => ?_⟩
  rw [patchedElement, mergeKeyOf, Value.members_map, h.eq, Value.members_map,
    strategic_applyMembers_eq, field?_patchWith h.named, h.keyed, patchedAt,
    if_neg (by simp [h.mark.isNull_eq]), applyAt_of_isScalar _ _ _ h.mark.scalar,
    Value.ofOption_some]

/-- What an element of a patch makes of a list. -/
def patchElements (model : Option String) (mergeKey : String) (target : List Value)
    (item : Value) : List Value :=
  if isDeletion item.members then
    target.filter fun element =>
      !sameKey (mergeKeyOf mergeKey item) (mergeKeyOf mergeKey element)
  else
    putElement mergeKey (mergeKeyOf mergeKey item) item (patchedElement model item) target

variable {model : Option String} {target items : List Value} {item : Value} {patch : Members}

theorem applyElements_cons (h : IsItem mergeKey item patch key) :
    Strategic.applyElements model mergeKey target (item :: items) =
      Strategic.applyElements model mergeKey (patchElements model mergeKey target item) items := by
  obtain rfl := h.eq
  rw [Strategic.applyElements]
  rfl

theorem Marked.patchElements (ht : Marked mergeKey target) (model : Option String)
    (h : IsItem mergeKey item patch key) :
    Marked mergeKey (patchElements model mergeKey target item) := by
  rw [Patch.patchElements, h.mergeKeyOf_eq]
  split
  · exact ht.filter _
  · exact ht.putElement (h.keepsKey model) h.mergeKeyOf_eq

/-- What the patch of a list makes of the element at a key. -/
def patchedElementAt (model : Option String) (item : Option Value) (old : Option Value) :
    Option Value :=
  match item with
  | none => old
  | some item =>
    if isDeletion item.members then none
    else some (old.elim item (patchedElement model item))

theorem elementAt_patchElements (h : IsItem mergeKey item patch key) (other : Value) :
    elementAt mergeKey (patchElements model mergeKey target item) other =
      if sameKey other key then patchedElementAt model (some item) (elementAt mergeKey target key)
      else elementAt mergeKey target other := by
  rw [patchElements, patchedElementAt, h.mergeKeyOf_eq]
  by_cases hdelete : isDeletion item.members
  · rw [if_pos hdelete, if_pos hdelete, elementAt_filter]
  · rw [if_neg hdelete, if_neg hdelete,
      elementAt_putElement (h.keepsKey model) h.mergeKeyOf_eq]

/-- A patched list is marked, and it has at each key what the patch makes of the element
there. -/
theorem elementAt_applyElements (model : Option String) (ht : Marked mergeKey target)
    (hitems : Marked mergeKey items)
    (h : ∀ item ∈ items, ∃ patch key, IsItem mergeKey item patch key) :
    Marked mergeKey (Strategic.applyElements model mergeKey target items) ∧
      ∀ other : Value,
        elementAt mergeKey (Strategic.applyElements model mergeKey target items) other =
          patchedElementAt model (elementAt mergeKey items other)
            (elementAt mergeKey target other) := by
  induction items generalizing target with
  | nil =>
    rw [Strategic.applyElements_nil]
    exact ⟨ht, fun other => rfl⟩
  | cons item rest ih =>
    obtain ⟨patch, key, hitem⟩ := h item (by simp)
    obtain ⟨marked, found⟩ := ih (ht.patchElements model hitem) hitems.of_cons
      fun item hmem => h item (List.mem_cons_of_mem _ hmem)
    rw [applyElements_cons hitem]
    refine ⟨marked, fun other => ?_⟩
    rw [found other, elementAt_patchElements hitem, elementAt_cons, hitem.mergeKeyOf_eq]
    by_cases same : sameKey other key
    · have later : elementAt mergeKey rest other = none :=
        hitems.elementAt_of_cons (hitem.mergeKeyOf_eq.symm ▸ same)
      rw [if_pos same, if_pos same, later, elementAt_congr same]
      rfl
    · rw [if_neg same, if_neg same]

/-! ### Elements in some order -/

/-- If each item of two lists matches one of the other list and no two items match the same
one, the first list can be put in such an order that the items match one by one. -/
theorem exists_perm_of_matching {R : α → β → Prop} {xs : List α} {ys : List β}
    (hx : ∀ x ∈ xs, ∃ y ∈ ys, R x y) (hy : ∀ y ∈ ys, ∃ x ∈ xs, R x y)
    (apart : xs.Pairwise fun x x' => ∀ y, R x y → ¬ R x' y)
    (apart' : ys.Pairwise fun y y' => ∀ x, R x y → ¬ R x y') :
    ∃ zs : List α, zs.Perm xs ∧ zs.length = ys.length ∧
      ∀ (i : Nat) z y, zs[i]? = some z → ys[i]? = some y → R z y := by
  induction ys generalizing xs with
  | nil =>
    cases xs with
    | nil => exact ⟨[], .nil, rfl, by simp⟩
    | cons x _ => simpa using hx x (by simp)
  | cons y ys ih =>
    obtain ⟨x, hmem, hxy⟩ := hy y (by simp)
    obtain ⟨front, back, rfl⟩ := List.append_of_mem hmem
    obtain ⟨yApart, ysApart⟩ := List.pairwise_cons.mp apart'
    have moved : (front ++ x :: back).Perm (x :: (front ++ back)) := List.perm_middle
    have apartFrom : ∀ other ∈ front ++ back, ¬ R other y := by
      intro other hother hR
      rw [List.pairwise_append] at apart
      obtain ⟨-, hback, hfront⟩ := apart
      rcases List.mem_append.mp hother with hmem | hmem
      · exact hfront other hmem x (by simp) y hR hxy
      · exact (List.pairwise_cons.mp hback).1 other hmem y hxy hR
    obtain ⟨zs, order, length, items⟩ := @ih (front ++ back)
      (fun other hother => by
        obtain ⟨y', hy', hR⟩ := hx other (moved.symm.subset (List.mem_cons_of_mem _ hother))
        rcases List.mem_cons.mp hy' with rfl | hrest
        · exact (apartFrom other hother hR).elim
        · exact ⟨y', hrest, hR⟩)
      (fun y' hy' => by
        obtain ⟨other, hother, hR⟩ := hy y' (List.mem_cons_of_mem _ hy')
        rcases List.mem_cons.mp (moved.subset hother) with rfl | hrest
        · exact (yApart y' hy' other hxy hR).elim
        · exact ⟨other, hrest, hR⟩)
      (apart.sublist (List.Sublist.append_left (List.sublist_cons_self ..) front)) ysApart
    refine ⟨x :: zs, (order.cons x).trans moved.symm, by simp [length], ?_⟩
    intro i z y' hz hy'
    cases i with
    | zero =>
      simp only [List.getElem?_cons_zero, Option.some.injEq] at hz hy'
      exact hz ▸ hy' ▸ hxy
    | succ i => exact items i z y' hz hy'

/-- If two lists have the same keys, the first can be put in such an order that the elements
have the same keys one by one. -/
theorem exists_perm_of_distinct {xs ys : List Value} (hx : Distinct mergeKey xs)
    (hy : Distinct mergeKey ys)
    (found : ∀ y ∈ ys, (elementAt mergeKey xs (mergeKeyOf mergeKey y)).isSome)
    (covered : ∀ x ∈ xs, (elementAt mergeKey ys (mergeKeyOf mergeKey x)).isSome) :
    ∃ zs : List Value, zs.Perm xs ∧ zs.length = ys.length ∧
      ∀ (i : Nat) z y, zs[i]? = some z → ys[i]? = some y →
        y ∈ ys ∧ elementAt mergeKey xs (mergeKeyOf mergeKey y) = some z := by
  have matches_iff : ∀ x y, elementAt mergeKey xs (mergeKeyOf mergeKey y) = some x ↔
      x ∈ xs ∧ sameKey (mergeKeyOf mergeKey y) (mergeKeyOf mergeKey x) = true :=
    fun x y => elementAt_eq_some_iff hx x
  have forward : ∀ x ∈ xs, ∃ y ∈ ys,
      y ∈ ys ∧ elementAt mergeKey xs (mergeKeyOf mergeKey y) = some x := by
    intro x hmem
    obtain ⟨y, hfound⟩ := Option.isSome_iff_exists.mp (covered x hmem)
    obtain ⟨hy', same⟩ := (elementAt_eq_some_iff hy y).mp hfound
    exact ⟨y, hy', hy', (matches_iff x y).mpr ⟨hmem, Value.sameKey_symm same⟩⟩
  have backward : ∀ y ∈ ys, ∃ x ∈ xs,
      y ∈ ys ∧ elementAt mergeKey xs (mergeKeyOf mergeKey y) = some x := by
    intro y hmem
    obtain ⟨x, hfound⟩ := Option.isSome_iff_exists.mp (found y hmem)
    exact ⟨x, ((matches_iff x y).mp hfound).1, hmem, hfound⟩
  refine exists_perm_of_matching forward backward ?_ ?_
  · refine hx.apart.imp_of_mem fun {x x'} hmem hmem' apart y h h' => ?_
    obtain rfl := Option.some.inj (h.2.symm.trans h'.2)
    simp [hx.selves x hmem] at apart
  · refine hy.apart.imp_of_mem fun {y y'} hmem hmem' apart x h h' => ?_
    obtain ⟨hmem, same⟩ := (matches_iff x y).mp h.2
    obtain ⟨-, same'⟩ := (matches_iff x y').mp h'.2
    simp [Value.sameKey_trans same (Value.sameKey_symm same')] at apart

open Schema (Place)

/-- Marked lists say the same if they have the same keys, and at each key an element that
says the same. -/
theorem Alike.of_marked {place : Place} {xs ys : List Value}
    (merge : place.merge = some (mergeKey, model)) (hx : Marked mergeKey xs)
    (hy : Marked mergeKey ys)
    (found : ∀ y ∈ ys, ∃ x, elementAt mergeKey xs (mergeKeyOf mergeKey y) = some x ∧
      Alike { model } x y)
    (covered : ∀ x ∈ xs, (elementAt mergeKey ys (mergeKeyOf mergeKey x)).isSome) :
    Alike place (.list xs) (.list ys) := by
  have there : ∀ y ∈ ys, (elementAt mergeKey xs (mergeKeyOf mergeKey y)).isSome := by
    intro y hmem
    obtain ⟨x, hfound, -⟩ := found y hmem
    exact Option.isSome_iff_exists.mpr ⟨x, hfound⟩
  obtain ⟨zs, order, length, items⟩ :=
    exists_perm_of_distinct hx.distinct hy.distinct there covered
  refine .list merge order length fun i z y hz hy => ?_
  obtain ⟨hmem, hz⟩ := items i z y hz hy
  obtain ⟨x, hx, alike⟩ := found y hmem
  rw [hz] at hx
  exact Option.some.inj hx ▸ alike

end Patch

end Reconciler
