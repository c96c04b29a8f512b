import Reconciler.Cluster.Store
import Reconciler.Proofs.Value.Json

/-!
# Reading and writing the store

Being the same place is symmetric and transitive, so a write at one place is seen exactly at
the places that are the same. Nothing else is asked of the parts of a place: one that is not
even the same as itself is never found in the store.
-/

namespace Reconciler.Cluster

namespace Key

variable {x y z : Key}

theorem same_symm (h : x.same y) : y.same x := by
  simp only [same, Bool.and_eq_true] at h ⊢
  exact ⟨⟨Value.equal_symm h.1.1, Value.equal_symm h.1.2⟩, Value.equal_symm h.2⟩

theorem same_trans (h : x.same y) (k : y.same z) : x.same z := by
  simp only [same, Bool.and_eq_true] at h k ⊢
  exact ⟨⟨Value.equal_trans h.1.1 k.1.1, Value.equal_trans h.1.2 k.1.2⟩,
    Value.equal_trans h.2 k.2⟩

theorem same_comm (x y : Key) : x.same y = y.same x :=
  Bool.eq_iff_iff.mpr ⟨same_symm, same_symm⟩

/-- A place that is given by texts can be found. -/
theorem same_texts (kind space name : String) :
    Key.same ⟨.text kind, .text space, .text name⟩ ⟨.text kind, .text space, .text name⟩ := by
  have equal (text : String) : (Value.text text).equal false (.text text) :=
    (Value.sameKey_text_left text _).mpr rfl
  rw [same, equal, equal, equal]
  rfl

/-- Places that differ are not the same as one third place. -/
theorem not_same_of_same (h : x.same y = false) (k : x.same z) : y.same z = false := by
  refine Bool.eq_false_iff.mpr fun hyz => Bool.eq_false_iff.mp h ?_
  exact same_trans k (same_symm hyz)

/-- The places of references with different identities differ. -/
theorem sameIdentity_of_same {x y : Ref} (h : (Key.ofRef x).same (Key.ofRef y)) :
    x.sameIdentity y := by
  simp only [same, ofRef, Bool.and_eq_true] at h
  rw [Ref.sameIdentity, Bool.and_eq_true, Bool.and_eq_true]
  exact ⟨⟨Value.equal_shared h.1.2 true, Value.equal_shared h.2 true⟩,
    Value.equal_shared h.1.1 true⟩

/-- References with one identity are at the same places. -/
theorem same_of_sameIdentity {x y : Ref} (h : x.sameIdentity y) (k : (Key.ofRef y).same z) :
    (Key.ofRef x).same z := by
  rw [Ref.sameIdentity, Bool.and_eq_true, Bool.and_eq_true] at h
  simp only [same, ofRef, Bool.and_eq_true] at k ⊢
  exact ⟨⟨Value.equal_trans h.2 k.1.1, Value.equal_trans h.1.1 k.1.2⟩,
    Value.equal_trans h.1.2 k.2⟩

end Key

namespace Store

variable {store : Store} {key other : Key}

/-- What is stored at a place that is not written stays where it is. -/
theorem mem_put {entry : Key × Value} (hmem : entry ∈ store) (h : key.same entry.1 = false)
    (object : Value) : entry ∈ store.put key object := by
  induction store with
  | nil => cases hmem
  | cons first rest ih =>
    obtain ⟨place, old⟩ := first
    rw [put]
    rcases List.mem_cons.mp hmem with rfl | hrest
    · rw [if_neg (by simpa using h)]
      exact List.mem_cons_self ..
    · split
      · exact List.mem_cons_of_mem _ hrest
      · exact List.mem_cons_of_mem _ (ih hrest)

theorem mem_remove {entry : Key × Value} (hmem : entry ∈ store)
    (h : key.same entry.1 = false) : entry ∈ store.remove key :=
  List.mem_filter.mpr ⟨hmem, by simpa using h⟩

/-- An object that is not found has no entry. -/
theorem not_same_of_get? (h : store.get? key = none) {entry : Key × Value}
    (hmem : entry ∈ store) : key.same entry.1 = false := by
  rw [get?, Option.map_eq_none_iff] at h
  exact Bool.eq_false_iff.mpr (List.find?_eq_none.mp h entry hmem)

/-- A write is not seen at another place. -/
theorem get?_put_of_not_same (h : key.same other = false) (object : Value) :
    (store.put key object).get? other = store.get? other := by
  have apart : ∀ place : Key, key.same place → other.same place = false :=
    fun place hplace => Key.not_same_of_same h hplace
  induction store with
  | nil => rw [put, get?_cons, Key.same_comm, h]; rfl
  | cons first rest ih =>
    obtain ⟨place, old⟩ := first
    rw [put]
    split
    · rename_i hplace
      simp [get?_cons, apart place hplace]
    · rw [get?_cons, get?_cons, ih]

theorem get?_remove_of_not_same (h : key.same other = false) :
    (store.remove key).get? other = store.get? other := by
  induction store with
  | nil => rfl
  | cons first rest ih =>
    obtain ⟨place, old⟩ := first
    rw [remove] at ih ⊢
    by_cases hplace : key.same place
    · rw [List.filter_cons_of_neg (by simpa using hplace), ih, get?_cons,
        Key.not_same_of_same h hplace]
      rfl
    · rw [List.filter_cons_of_pos (by simpa using hplace), get?_cons, get?_cons, ih]

/-- An object that is replaced is found with its new body. -/
theorem get?_put_of_isSome (h : (store.get? key).isSome) (object : Value) :
    (store.put key object).get? key = some object := by
  induction store with
  | nil => cases h
  | cons first rest ih =>
    obtain ⟨place, old⟩ := first
    rw [get?_cons] at h
    rw [put]
    split
    · rename_i hplace
      rw [get?_cons, if_pos hplace]
    · rename_i hplace
      rw [if_neg hplace] at h
      rw [get?_cons, if_neg hplace, ih h]

/-- An object that is added is found if its place is one that can be found. -/
theorem get?_put_of_none (h : store.get? key = none) (object : Value) :
    (store.put key object).get? key = if key.same key then some object else none := by
  induction store with
  | nil => rw [put, get?_cons, get?_nil]
  | cons first rest ih =>
    obtain ⟨place, old⟩ := first
    rw [get?_cons] at h
    rw [put]
    split
    · rename_i hplace
      simp [hplace] at h
    · rename_i hplace
      rw [if_neg hplace] at h
      rw [get?_cons, if_neg hplace, ih h]

/-- An object that is added comes last. -/
theorem put_of_none (h : store.get? key = none) (object : Value) :
    store.put key object = store ++ [(key, object)] := by
  induction store with
  | nil => rfl
  | cons first rest ih =>
    obtain ⟨place, old⟩ := first
    rw [get?_cons] at h
    split at h
    · cases h
    · rename_i hplace
      rw [put, if_neg hplace, ih h, List.cons_append]

theorem remove_of_none (h : store.get? key = none) : store.remove key = store := by
  refine List.filter_eq_self.mpr fun entry hmem => ?_
  rw [not_same_of_get? h hmem, Bool.not_false]

theorem get?_remove_self (store : Store) (key : Key) : (store.remove key).get? key = none := by
  rw [get?, Option.map_eq_none_iff, remove]
  refine List.find?_eq_none.mpr fun entry hmem => ?_
  simpa using (List.mem_filter.mp hmem).2

/-! ### Lists of objects -/

theorem mem_list {kind : String} {space object : Value} : object ∈ store.list kind space ↔
    ∃ entry ∈ store, entry.1.kind = .text kind ∧ entry.1.space.equal false space ∧
      entry.2 = object := by
  simp only [list, List.mem_map, List.mem_filter, Bool.and_eq_true]
  constructor
  · rintro ⟨entry, ⟨hmem, hkind, hspace⟩, rfl⟩
    exact ⟨entry, hmem, Value.eq_text_of_sameKey hkind, hspace, rfl⟩
  · rintro ⟨entry, hmem, hkind, hspace, rfl⟩
    exact ⟨entry, ⟨hmem, hkind ▸ (Value.sameKey_text_left kind _).mpr rfl, hspace⟩,
      rfl⟩

theorem mem_select {kind selector : String} {space object : Value} :
    object ∈ store.select kind space selector ↔
      object ∈ store.list kind space ∧ selects selector object := by
  rw [Store.select, byName, (Value.sortBy_perm _ _).mem_iff, List.mem_filter]

end Store

end Reconciler.Cluster
