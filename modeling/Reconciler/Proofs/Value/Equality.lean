import Reconciler.Value.Members

/-!
# Laws of equality

Equality of values is symmetric and transitive, whatever the values are. Transitivity holds
also when the two comparisons differ on whether a shared part equals itself.
-/

namespace Reconciler.Value

/-- Whether a value is no collection. -/
def isLeaf : Value → Bool
  | .list _ | .tuple _ | .set _ | .map _ => false
  | _ => true

/-- A property of all values may be proved for each one from its parts. -/
theorem induction {motive : Value → Prop}
    (leaf : ∀ value : Value, value.isLeaf → motive value)
    (list : ∀ items, (∀ item ∈ items, motive item) → motive (.list items))
    (tuple : ∀ items, (∀ item ∈ items, motive item) → motive (.tuple items))
    (set : ∀ items, (∀ item ∈ items, motive item) → motive (.set items))
    (map : ∀ members : Members, (∀ member ∈ members, motive member.1 ∧ motive member.2) →
      motive (.map members)) (value : Value) : motive value := by
  refine Value.rec (motive_1 := motive) (motive_2 := fun items => ∀ item ∈ items, motive item)
    (motive_3 := fun members => ∀ member ∈ members, motive member.1 ∧ motive member.2)
    (motive_4 := fun member => motive member.1 ∧ motive member.2)
    (leaf _ rfl) (fun _ => leaf _ rfl) (fun _ => leaf _ rfl) (fun _ => leaf _ rfl)
    (fun _ => leaf _ rfl) (fun _ => leaf _ rfl) (fun _ => leaf _ rfl) (fun _ => leaf _ rfl)
    list tuple set map ?_ ?_ ?_ ?_ ?_ value
  · simp
  · intro item items here others
    simpa using ⟨here, others⟩
  · simp
  · intro member members here others
    exact List.forall_mem_cons.mpr ⟨here, others⟩
  · intro key value hkey hvalue
    exact ⟨hkey, hvalue⟩

/-! ### Values that are no collections -/

/-- The ways in which two values that are no collections can be equal. -/
inductive ScalarSame (shared : Bool) : Value → Value → Prop
  | null : ScalarSame shared .null .null
  | text (value : String) : ScalarSame shared (.text value) (.text value)
  | date (value : Date) : ScalarSame shared (.date value) (.date value)
  | moment {x y : Moment} (offset : x.offset.isSome = y.offset.isSome)
      (instant : x.instant = y.instant) : ScalarSame shared (.moment x) (.moment y)
  | bytes (value : List UInt8) : ScalarSame shared (.bytes value) (.bytes value)
  | nan (h : shared = true) : ScalarSame shared (.float .nan) (.float .nan)
  | infinite (negative : Bool) :
      ScalarSame shared (.float (.infinite negative)) (.float (.infinite negative))
  | number {x y : Value} {q : Rat} (hx : x.rational? = some q) (hy : y.rational? = some q) :
      ScalarSame shared x y

theorem scalarEqual_of_rational (shared : Bool) {x y : Value} {a b : Rat}
    (hx : x.rational? = some a) (hy : y.rational? = some b) :
    scalarEqual shared x y = (a == b) := by
  unfold scalarEqual
  split
  case h_8 => simp only [hx, hy]
  all_goals simp [rational?, Double.toRat?] at hx

theorem scalarEqual_iff (shared : Bool) (x y : Value) :
    scalarEqual shared x y = true ↔ ScalarSame shared x y := by
  constructor
  · intro h
    unfold scalarEqual at h
    split at h
    · exact .null
    · exact (beq_iff_eq.mp h) ▸ .text _
    · exact (beq_iff_eq.mp h) ▸ .date _
    · obtain ⟨offset, instant⟩ := Bool.and_eq_true_iff.mp h
      exact .moment (beq_iff_eq.mp offset) (beq_iff_eq.mp instant)
    · exact (beq_iff_eq.mp h) ▸ .bytes _
    · exact .nan h
    · exact (beq_iff_eq.mp h) ▸ .infinite _
    · split at h
      · rename_i hx hy
        exact .number hx ((beq_iff_eq.mp h) ▸ hy)
      · cases h
  · intro h
    cases h with
    | number hx hy => simp [scalarEqual_of_rational shared hx hy]
    | moment offset instant => simp [scalarEqual, Moment.same, offset, instant]
    | nan h => exact h
    | _ => simp [scalarEqual]

theorem ScalarSame.trans {a b : Bool} {x y z : Value} (h : ScalarSame a x y)
    (k : ScalarSame b y z) : ScalarSame (a && b) x z := by
  cases h with
  | number hx hy =>
    cases k with
    | number hy' hz => exact .number hx ((Option.some.inj (hy'.symm.trans hy)) ▸ hz)
    | _ => simp [rational?, Double.toRat?] at hy
  | moment offset instant =>
    cases k with
    | moment offset' instant' => exact .moment (offset.trans offset') (instant.trans instant')
    | number hy _ => simp [rational?] at hy
  | nan ha =>
    cases k with
    | nan hb => exact .nan (by simp [ha, hb])
    | number hy _ => simp [rational?, Double.toRat?] at hy
  | _ =>
    cases k with
    | number hy _ => simp [rational?, Double.toRat?] at hy
    | _ => constructor

theorem ScalarSame.symm {shared : Bool} {x y : Value} (h : ScalarSame shared x y) :
    ScalarSame shared y x := by
  cases h with
  | number hx hy => exact .number hy hx
  | moment offset instant => exact .moment offset.symm instant.symm
  | nan h => exact .nan h
  | _ => constructor

theorem ScalarSame.shared {x y : Value} (h : ScalarSame false x y) (shared : Bool) :
    ScalarSame shared x y := by
  cases h with
  | number hx hy => exact .number hx hy
  | moment offset instant => exact .moment offset instant
  | nan h => cases h
  | _ => constructor

/-- Only values that are no collections are equal as such. -/
theorem ScalarSame.isLeaf {shared : Bool} {x y : Value} (h : ScalarSame shared x y) :
    x.isLeaf ∧ y.isLeaf := by
  cases h with
  | @number x y q hx hy => cases x <;> cases y <;> simp_all [rational?, Value.isLeaf]
  | _ => exact ⟨rfl, rfl⟩

/-! ### Collections -/

theorem equalWithin_of_isLeaf (shared : Bool) {x : Value} (h : x.isLeaf) (y : Value) :
    equalWithin shared x y = scalarEqual shared x y := by
  rw [equalWithin] <;> rintro _ _ rfl <;> cases h

theorem equalWithin_of_isLeaf_right (shared : Bool) (x : Value) {y : Value} (h : y.isLeaf) :
    equalWithin shared x y = scalarEqual shared x y := by
  rw [equalWithin] <;> rintro _ _ - rfl <;> cases h

/-- A collection equals only collections of its own type. -/
theorem scalarEqual_of_not_isLeaf (shared : Bool) {x : Value} (h : x.isLeaf = false)
    (y : Value) : scalarEqual shared x y = false := by
  refine Bool.eq_false_iff.mpr fun hxy => ?_
  have hsame := (scalarEqual_iff shared x y).mp hxy
  simp [hsame.isLeaf.1] at h

theorem listsEqual_iff (shared : Bool) (xs ys : List Value) :
    listsEqual shared xs ys = true ↔ xs.length = ys.length ∧
      ∀ (i : Nat) x y, xs[i]? = some x → ys[i]? = some y → equalWithin shared x y = true := by
  induction xs generalizing ys with
  | nil => cases ys <;> simp [listsEqual]
  | cons x xs ih =>
    cases ys with
    | nil => simp [listsEqual]
    | cons y ys =>
      rw [listsEqual_cons, Bool.and_eq_true, ih, List.length_cons, List.length_cons,
        Nat.add_right_cancel_iff]
      constructor
      · rintro ⟨here, length, later⟩
        refine ⟨length, fun i x' y' hx hy => ?_⟩
        cases i with
        | zero =>
          cases hx
          cases hy
          exact here
        | succ i => exact later i x' y' hx hy
      · rintro ⟨length, items⟩
        exact ⟨items 0 x y rfl rfl, length, fun i => items (i + 1)⟩

/-- Lists are equal if they have as many items and the items at each place are equal. -/
theorem equalWithin_list (shared : Bool) (xs ys : List Value) :
    equalWithin shared (.list xs) (.list ys) = true ↔ xs.length = ys.length ∧
      ∀ (i : Nat) x y, xs[i]? = some x → ys[i]? = some y → equalWithin shared x y = true := by
  rw [equalWithin, listsEqual_iff]

theorem equalWithin_tuple (shared : Bool) (xs ys : List Value) :
    equalWithin shared (.tuple xs) (.tuple ys) = true ↔ xs.length = ys.length ∧
      ∀ (i : Nat) x y, xs[i]? = some x → ys[i]? = some y → equalWithin shared x y = true := by
  rw [equalWithin, listsEqual_iff]

theorem allIn_iff (shared : Bool) (xs ys : List Value) :
    allIn shared xs ys = true ↔ ∀ x ∈ xs, ∃ y ∈ ys, equalWithin shared x y = true := by
  induction xs with
  | nil => simp [allIn]
  | cons x xs ih => simp [allIn, ih]

theorem someIs_iff (shared : Bool) (xs : List Value) (y : Value) :
    someIs shared xs y = true ↔ ∃ x ∈ xs, equalWithin shared x y = true := by
  induction xs with
  | nil => simp [someIs]
  | cons x xs ih => simp [someIs, ih]

/-- Sets are equal if they have as many items and each item of one has an equal one. -/
theorem equalWithin_set (shared : Bool) (xs ys : List Value) :
    equalWithin shared (.set xs) (.set ys) = true ↔ xs.length = ys.length ∧
      (∀ x ∈ xs, ∃ y ∈ ys, equalWithin shared x y = true) ∧
      ∀ y ∈ ys, ∃ x ∈ xs, equalWithin shared x y = true := by
  rw [equalWithin, Bool.and_eq_true, Bool.and_eq_true, beq_iff_eq, allIn_iff, List.all_eq_true,
    and_assoc]
  simp only [someIs_iff]

/-- Whether two members have equal keys and equal values. -/
def sameMember (shared : Bool) (x y : Value × Value) : Prop :=
  equalWithin shared x.1 y.1 = true ∧ equalWithin shared x.2 y.2 = true

theorem membersIn_iff (shared : Bool) (xs ys : Members) :
    membersIn shared xs ys = true ↔ ∀ x ∈ xs, ∃ y ∈ ys, sameMember shared x y := by
  induction xs with
  | nil => simp [membersIn]
  | cons x xs ih =>
    obtain ⟨key, value⟩ := x
    simp [membersIn, ih, sameMember]

theorem someMemberIs_iff (shared : Bool) (xs : Members) (y : Value × Value) :
    someMemberIs shared xs y = true ↔ ∃ x ∈ xs, sameMember shared x y := by
  induction xs with
  | nil => simp [someMemberIs]
  | cons x xs ih =>
    obtain ⟨key, value⟩ := x
    simp [someMemberIs, ih, sameMember]

/-- Mappings are equal if they have as many members and each member of one has an equal
one. -/
theorem equalWithin_map (shared : Bool) (xs ys : Members) :
    equalWithin shared (.map xs) (.map ys) = true ↔ xs.length = ys.length ∧
      (∀ x ∈ xs, ∃ y ∈ ys, sameMember shared x y) ∧
      ∀ y ∈ ys, ∃ x ∈ xs, sameMember shared x y := by
  rw [equalWithin, Bool.and_eq_true, Bool.and_eq_true, beq_iff_eq, membersIn_iff,
    List.all_eq_true, and_assoc]
  simp only [someMemberIs_iff]

/-- What equals a list is a list. -/
theorem equalWithin_list_left {shared : Bool} {xs : List Value} {y : Value}
    (h : equalWithin shared (.list xs) y = true) : ∃ ys, y = .list ys := by
  have unequal := scalarEqual_of_not_isLeaf shared (x := .list xs) rfl
  cases y <;> simp_all [equalWithin]

theorem equalWithin_tuple_left {shared : Bool} {xs : List Value} {y : Value}
    (h : equalWithin shared (.tuple xs) y = true) : ∃ ys, y = .tuple ys := by
  have unequal := scalarEqual_of_not_isLeaf shared (x := .tuple xs) rfl
  cases y <;> simp_all [equalWithin]

theorem equalWithin_set_left {shared : Bool} {xs : List Value} {y : Value}
    (h : equalWithin shared (.set xs) y = true) : ∃ ys, y = .set ys := by
  have unequal := scalarEqual_of_not_isLeaf shared (x := .set xs) rfl
  cases y <;> simp_all [equalWithin]

theorem equalWithin_map_left {shared : Bool} {xs : Members} {y : Value}
    (h : equalWithin shared (.map xs) y = true) : ∃ ys : Members, y = .map ys := by
  have unequal := scalarEqual_of_not_isLeaf shared (x := .map xs) rfl
  cases y <;> simp_all [equalWithin]

/-! ### Symmetry and transitivity -/

theorem equalWithin_symm {shared : Bool} {x y : Value} (h : equalWithin shared x y = true) :
    equalWithin shared y x = true := by
  induction x using Value.induction generalizing y with
  | leaf x hx =>
    rw [equalWithin_of_isLeaf shared hx, scalarEqual_iff] at h
    rw [equalWithin_of_isLeaf_right shared y hx, scalarEqual_iff]
    exact h.symm
  | list xs ih =>
    obtain ⟨ys, rfl⟩ := equalWithin_list_left h
    obtain ⟨length, items⟩ := (equalWithin_list shared xs ys).mp h
    refine (equalWithin_list shared ys xs).mpr ⟨length.symm, fun i y x hy hx => ?_⟩
    exact ih x (List.mem_of_getElem? hx) (items i x y hx hy)
  | tuple xs ih =>
    obtain ⟨ys, rfl⟩ := equalWithin_tuple_left h
    obtain ⟨length, items⟩ := (equalWithin_tuple shared xs ys).mp h
    refine (equalWithin_tuple shared ys xs).mpr ⟨length.symm, fun i y x hy hx => ?_⟩
    exact ih x (List.mem_of_getElem? hx) (items i x y hx hy)
  | set xs ih =>
    obtain ⟨ys, rfl⟩ := equalWithin_set_left h
    obtain ⟨length, forward, backward⟩ := (equalWithin_set shared xs ys).mp h
    refine (equalWithin_set shared ys xs).mpr ⟨length.symm, fun y hy => ?_, fun x hx => ?_⟩
    · obtain ⟨x, hx, hxy⟩ := backward y hy
      exact ⟨x, hx, ih x hx hxy⟩
    · obtain ⟨y, hy, hxy⟩ := forward x hx
      exact ⟨y, hy, ih x hx hxy⟩
  | map xs ih =>
    obtain ⟨ys, rfl⟩ := equalWithin_map_left h
    obtain ⟨length, forward, backward⟩ := (equalWithin_map shared xs ys).mp h
    refine (equalWithin_map shared ys xs).mpr ⟨length.symm, fun y hy => ?_, fun x hx => ?_⟩
    · obtain ⟨x, hx, hkey, hvalue⟩ := backward y hy
      exact ⟨x, hx, (ih x hx).1 hkey, (ih x hx).2 hvalue⟩
    · obtain ⟨y, hy, hkey, hvalue⟩ := forward x hx
      exact ⟨y, hy, (ih x hx).1 hkey, (ih x hx).2 hvalue⟩

/-- Equality is transitive. A part that equals itself only by being shared counts where both
comparisons let it count. -/
theorem equalWithin_trans {a b : Bool} {x y z : Value} (h : equalWithin a x y = true)
    (k : equalWithin b y z = true) : equalWithin (a && b) x z = true := by
  induction x using Value.induction generalizing y z with
  | leaf x hx =>
    rw [equalWithin_of_isLeaf a hx, scalarEqual_iff] at h
    rw [equalWithin_of_isLeaf b h.isLeaf.2, scalarEqual_iff] at k
    rw [equalWithin_of_isLeaf _ hx, scalarEqual_iff]
    exact h.trans k
  | list xs ih =>
    obtain ⟨ys, rfl⟩ := equalWithin_list_left h
    obtain ⟨zs, rfl⟩ := equalWithin_list_left k
    obtain ⟨length, items⟩ := (equalWithin_list a xs ys).mp h
    obtain ⟨length', items'⟩ := (equalWithin_list b ys zs).mp k
    refine (equalWithin_list _ xs zs).mpr ⟨length.trans length', fun i x z hx hz => ?_⟩
    obtain ⟨y, hy⟩ := exists_item_at hx length
    exact ih x (List.mem_of_getElem? hx) (items i x y hx hy) (items' i y z hy hz)
  | tuple xs ih =>
    obtain ⟨ys, rfl⟩ := equalWithin_tuple_left h
    obtain ⟨zs, rfl⟩ := equalWithin_tuple_left k
    obtain ⟨length, items⟩ := (equalWithin_tuple a xs ys).mp h
    obtain ⟨length', items'⟩ := (equalWithin_tuple b ys zs).mp k
    refine (equalWithin_tuple _ xs zs).mpr ⟨length.trans length', fun i x z hx hz => ?_⟩
    obtain ⟨y, hy⟩ := exists_item_at hx length
    exact ih x (List.mem_of_getElem? hx) (items i x y hx hy) (items' i y z hy hz)
  | set xs ih =>
    obtain ⟨ys, rfl⟩ := equalWithin_set_left h
    obtain ⟨zs, rfl⟩ := equalWithin_set_left k
    obtain ⟨length, forward, backward⟩ := (equalWithin_set a xs ys).mp h
    obtain ⟨length', forward', backward'⟩ := (equalWithin_set b ys zs).mp k
    refine (equalWithin_set _ xs zs).mpr ⟨length.trans length', fun x hx => ?_, fun z hz => ?_⟩
    · obtain ⟨y, hy, hxy⟩ := forward x hx
      obtain ⟨z, hz, hyz⟩ := forward' y hy
      exact ⟨z, hz, ih x hx hxy hyz⟩
    · obtain ⟨y, hy, hyz⟩ := backward' z hz
      obtain ⟨x, hx, hxy⟩ := backward y hy
      exact ⟨x, hx, ih x hx hxy hyz⟩
  | map xs ih =>
    obtain ⟨ys, rfl⟩ := equalWithin_map_left h
    obtain ⟨zs, rfl⟩ := equalWithin_map_left k
    obtain ⟨length, forward, backward⟩ := (equalWithin_map a xs ys).mp h
    obtain ⟨length', forward', backward'⟩ := (equalWithin_map b ys zs).mp k
    refine (equalWithin_map _ xs zs).mpr ⟨length.trans length', fun x hx => ?_, fun z hz => ?_⟩
    · obtain ⟨y, hy, hkey, hvalue⟩ := forward x hx
      obtain ⟨z, hz, hkey', hvalue'⟩ := forward' y hy
      exact ⟨z, hz, (ih x hx).1 hkey hkey', (ih x hx).2 hvalue hvalue'⟩
    · obtain ⟨y, hy, hkey', hvalue'⟩ := backward' z hz
      obtain ⟨x, hx, hkey, hvalue⟩ := backward y hy
      exact ⟨x, hx, (ih x hx).1 hkey hkey', (ih x hx).2 hvalue hvalue'⟩
where
  /-- A list has an item at each place at which a list as long has one. -/
  exists_item_at {xs ys : List Value} {i : Nat} {x : Value} (hx : xs[i]? = some x)
      (length : xs.length = ys.length) : ∃ y, ys[i]? = some y := by
    obtain ⟨hi, -⟩ := List.getElem?_eq_some_iff.mp hx
    exact ⟨ys[i], List.getElem?_eq_getElem (length ▸ hi)⟩

/-- What is equal without the help of shared parts is equal with it. -/
theorem equalWithin_shared {x y : Value} (h : equalWithin false x y = true) (shared : Bool) :
    equalWithin shared x y = true := by
  induction x using Value.induction generalizing y with
  | leaf x hx =>
    rw [equalWithin_of_isLeaf false hx, scalarEqual_iff] at h
    rw [equalWithin_of_isLeaf shared hx, scalarEqual_iff]
    exact h.shared shared
  | list xs ih =>
    obtain ⟨ys, rfl⟩ := equalWithin_list_left h
    obtain ⟨length, items⟩ := (equalWithin_list false xs ys).mp h
    refine (equalWithin_list shared xs ys).mpr ⟨length, fun i x y hx hy => ?_⟩
    exact ih x (List.mem_of_getElem? hx) (items i x y hx hy)
  | tuple xs ih =>
    obtain ⟨ys, rfl⟩ := equalWithin_tuple_left h
    obtain ⟨length, items⟩ := (equalWithin_tuple false xs ys).mp h
    refine (equalWithin_tuple shared xs ys).mpr ⟨length, fun i x y hx hy => ?_⟩
    exact ih x (List.mem_of_getElem? hx) (items i x y hx hy)
  | set xs ih =>
    obtain ⟨ys, rfl⟩ := equalWithin_set_left h
    obtain ⟨length, forward, backward⟩ := (equalWithin_set false xs ys).mp h
    refine (equalWithin_set shared xs ys).mpr ⟨length, fun x hx => ?_, fun y hy => ?_⟩
    · obtain ⟨y, hy, hxy⟩ := forward x hx
      exact ⟨y, hy, ih x hx hxy⟩
    · obtain ⟨x, hx, hxy⟩ := backward y hy
      exact ⟨x, hx, ih x hx hxy⟩
  | map xs ih =>
    obtain ⟨ys, rfl⟩ := equalWithin_map_left h
    obtain ⟨length, forward, backward⟩ := (equalWithin_map false xs ys).mp h
    refine (equalWithin_map shared xs ys).mpr ⟨length, fun x hx => ?_, fun y hy => ?_⟩
    · obtain ⟨y, hy, hkey, hvalue⟩ := forward x hx
      exact ⟨y, hy, (ih x hx).1 hkey, (ih x hx).2 hvalue⟩
    · obtain ⟨x, hx, hkey, hvalue⟩ := backward y hy
      exact ⟨x, hx, (ih x hx).1 hkey, (ih x hx).2 hvalue⟩

/-- What is equal to anything is equal to it also as a part of a collection. -/
theorem equalWithin_of_equal {shared : Bool} {x y : Value} (h : equal shared x y = true) :
    equalWithin shared x y = true := by
  unfold equal at h
  split at h
  · cases h
  · exact h

/-- The number that is no number equals nothing, and nothing equals it. -/
theorem equal_nan (shared : Bool) (x : Value) : equal shared x (.float .nan) = false := by
  refine Bool.eq_false_iff.mpr fun h => ?_
  unfold equal at h
  split at h
  · cases h
  · rename_i hx
    rw [equalWithin_of_isLeaf_right shared x rfl, scalarEqual_iff] at h
    cases h with
    | nan => exact hx rfl
    | number _ h => simp [rational?, Double.toRat?] at h

theorem equal_symm {shared : Bool} {x y : Value} (h : equal shared x y = true) :
    equal shared y x = true := by
  have back := equalWithin_symm (equalWithin_of_equal h)
  by_cases hy : y = .float .nan
  · subst hy
    rw [equal_nan] at h
    cases h
  · unfold equal
    split
    · exact (hy rfl).elim
    · exact back

theorem equal_shared {x y : Value} (h : equal false x y = true) (shared : Bool) :
    equal shared x y = true := by
  unfold equal at h ⊢
  split at h
  · cases h
  · exact equalWithin_shared h shared

/-- Two comparisons of values one after the other make one of the outer two. -/
theorem equal_trans {a b : Bool} {x y z : Value} (h : equal a x y = true)
    (k : equal b y z = true) : equal (a && b) x z = true := by
  unfold equal at h k ⊢
  split at h
  · cases h
  · split at k
    · cases k
    · exact equalWithin_trans h k

theorem isNull_eq_false {value : Value} (h : value ≠ .null) : value.isNull = false := by
  cases value <;> first | rfl | contradiction

/-- Only null is equal to null. -/
theorem isNull_eq_of_equal {shared : Bool} {x y : Value} (h : equal shared x y = true) :
    x.isNull = y.isNull := by
  have within := equalWithin_of_equal h
  by_cases hx : x = .null
  · subst hx
    rw [equalWithin_of_isLeaf shared rfl, scalarEqual_iff] at within
    cases within with
    | null => rfl
    | number h _ => simp [rational?] at h
  · by_cases hy : y = .null
    · subst hy
      rw [equalWithin_of_isLeaf_right shared x rfl, scalarEqual_iff] at within
      cases within with
      | null => rfl
      | number _ h => simp [rational?] at h
    · rw [isNull_eq_false hx, isNull_eq_false hy]

/-! ### Keys -/

theorem sameKey_trans {x y z : Value} (h : sameKey x y) (k : sameKey y z) : sameKey x z :=
  equal_trans h k

theorem sameKey_symm {x y : Value} (h : sameKey x y) : sameKey y x := equal_symm h

theorem sameKey_congr_right {x y : Value} (h : sameKey x y) (key : Value) :
    sameKey key x = sameKey key y :=
  Bool.eq_iff_iff.mpr ⟨fun k => sameKey_trans k h, fun k => sameKey_trans k (sameKey_symm h)⟩

theorem sameKey_congr_left {x y : Value} (h : sameKey x y) (key : Value) :
    sameKey x key = sameKey y key :=
  Bool.eq_iff_iff.mpr ⟨fun k => sameKey_trans (sameKey_symm h) k, fun k => sameKey_trans h k⟩

/-! ### Values that equal themselves -/

mutual

/-- Whether every number in a value is a number. -/
def isDefinite : Value → Bool
  | .float value => value != .nan
  | .list items | .tuple items | .set items => areDefinite items
  | .map members => membersDefinite members
  | _ => true

/-- Whether every number in every item is a number. -/
def areDefinite : List Value → Bool
  | [] => true
  | item :: items => isDefinite item && areDefinite items

/-- Whether every number in the keys and the values of members is a number. -/
def membersDefinite : Members → Bool
  | [] => true
  | (key, value) :: rest => isDefinite key && isDefinite value && membersDefinite rest

end

theorem areDefinite_iff {items : List Value} :
    areDefinite items ↔ ∀ item ∈ items, item.isDefinite := by
  induction items with
  | nil => simp [areDefinite]
  | cons item rest ih => rw [areDefinite, Bool.and_eq_true, ih, List.forall_mem_cons]

theorem membersDefinite_iff {members : Members} : membersDefinite members ↔
    ∀ member ∈ members, member.1.isDefinite ∧ member.2.isDefinite := by
  induction members with
  | nil => simp [membersDefinite]
  | cons member rest ih =>
    rw [membersDefinite, Bool.and_eq_true, Bool.and_eq_true, ih, List.forall_mem_cons]

theorem scalarEqual_self (shared : Bool) {value : Value} (hleaf : value.isLeaf)
    (h : value.isDefinite) : scalarEqual shared value value = true := by
  rw [scalarEqual_iff]
  cases value with
  | null => exact .null
  | bool => exact .number rfl rfl
  | int => exact .number rfl rfl
  | text value => exact .text value
  | float value =>
    cases value with
    | nan => simp [isDefinite] at h
    | infinite negative => exact .infinite negative
    | finite => exact .number rfl rfl
  | date value => exact .date value
  | moment value => exact .moment rfl rfl
  | bytes value => exact .bytes value
  | _ => cases hleaf

/-- A value in which every number is a number equals itself. -/
theorem equalWithin_self_of_isDefinite (shared : Bool) {value : Value} (h : value.isDefinite) :
    equalWithin shared value value = true := by
  have selves {xs : List Value} {x y : Value} {i : Nat} (hx : xs[i]? = some x)
      (hy : xs[i]? = some y) : y = x := Option.some.inj (hy.symm.trans hx)
  induction value using Value.induction with
  | leaf value hleaf =>
    rw [equalWithin_of_isLeaf shared hleaf]
    exact scalarEqual_self shared hleaf h
  | list items ih =>
    rw [isDefinite, areDefinite_iff] at h
    refine (equalWithin_list shared items items).mpr ⟨rfl, fun i x y hx hy => ?_⟩
    rw [selves hx hy]
    exact ih x (List.mem_of_getElem? hx) (h x (List.mem_of_getElem? hx))
  | tuple items ih =>
    rw [isDefinite, areDefinite_iff] at h
    refine (equalWithin_tuple shared items items).mpr ⟨rfl, fun i x y hx hy => ?_⟩
    rw [selves hx hy]
    exact ih x (List.mem_of_getElem? hx) (h x (List.mem_of_getElem? hx))
  | set items ih =>
    rw [isDefinite, areDefinite_iff] at h
    have self (x : Value) (hx : x ∈ items) := ih x hx (h x hx)
    exact (equalWithin_set shared items items).mpr
      ⟨rfl, fun x hx => ⟨x, hx, self x hx⟩, fun x hx => ⟨x, hx, self x hx⟩⟩
  | map members ih =>
    rw [isDefinite, membersDefinite_iff] at h
    have self (x : Value × Value) (hx : x ∈ members) : sameMember shared x x :=
      ⟨(ih x hx).1 (h x hx).1, (ih x hx).2 (h x hx).2⟩
    exact (equalWithin_map shared members members).mpr
      ⟨rfl, fun x hx => ⟨x, hx, self x hx⟩, fun x hx => ⟨x, hx, self x hx⟩⟩

end Reconciler.Value
