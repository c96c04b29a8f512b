import Reconciler.Proofs.Patch.Keyed

/-!
# Lists in which keys repeat

The patch between two lists that are merged first reads each of them as a mapping from keys to
elements. If a key repeats, the mapping has the last element with it, so of the elements that
share a key all but the last are never looked at. This module says what the patch is in terms
of these last elements, whether or not the keys of a list tell its elements apart.
-/

namespace Reconciler.Patch

open Value (sameKey)
open Strategic (mergeKeyOf)

/-! ### Pairs as a mapping -/

/-- The value at a key. -/
def valueAt (entries : List (Value × α)) (key : Value) : Option α :=
  (entries.find? fun entry => sameKey key entry.1).map (·.2)

variable {entries pairs : List (Value × α)} {key : Value}

theorem valueAt_cons (entry : Value × α) (key : Value) :
    valueAt (entry :: entries) key =
      if sameKey key entry.1 then some entry.2 else valueAt entries key := by
  rw [valueAt, List.find?_cons]
  cases sameKey key entry.1 <;> rfl

theorem find?_congr {other : Value} (h : sameKey key other) :
    (entries.find? fun entry => sameKey key entry.1) =
      entries.find? fun entry => sameKey other entry.1 := by
  congr 1
  funext entry
  exact Value.sameKey_congr_left h _

theorem valueAt_congr {other : Value} (h : sameKey key other) :
    valueAt entries key = valueAt entries other := by
  rw [valueAt, find?_congr h, valueAt]

theorem isSome_valueAt :
    (valueAt entries key).isSome ↔ ∃ entry ∈ entries, sameKey key entry.1 := by
  rw [valueAt, Option.isSome_map, List.find?_isSome]

theorem valueAt_append (xs ys : List (Value × α)) (key : Value) :
    valueAt (xs ++ ys) key = (valueAt xs key).or (valueAt ys key) := by
  rw [valueAt, valueAt, valueAt, List.find?_append]
  cases xs.find? fun entry => sameKey key entry.1 <;> rfl

/-- Writing a value at a key changes what is at that key and nothing else. -/
theorem valueAt_put (entries : List (Value × α)) (pair : Value × α) (key : Value) :
    valueAt (keyed.put entries pair) key =
      if sameKey key pair.1 then some pair.2 else valueAt entries key := by
  rw [keyed.put]
  split
  · rename_i known
    -- The place that is written to is the one where the key is found.
    have kept : ((fun entry => sameKey key entry.1) ∘ fun entry : Value × α =>
        if sameKey pair.1 entry.1 then (entry.1, pair.2) else entry) =
          fun entry => sameKey key entry.1 := by
      funext entry
      simp only [Function.comp_apply]
      split <;> rfl
    rw [valueAt, List.find?_map, kept, Option.map_map]
    by_cases hkey : sameKey key pair.1
    · obtain ⟨entry, hfound⟩ := Option.isSome_iff_exists.mp (List.find?_isSome.mpr
        (List.any_eq_true.mp known))
      have same := List.find?_some (p := fun entry : Value × α => sameKey pair.1 entry.1) hfound
      rw [if_pos hkey, find?_congr hkey, hfound, Option.map_some, Function.comp_apply,
        if_pos same]
    · rw [if_neg hkey, valueAt]
      refine Option.map_congr fun entry hfound => ?_
      have same := List.find?_some (p := fun entry : Value × α => sameKey key entry.1) hfound
      rw [Function.comp_apply, if_neg]
      exact fun own => hkey (Value.sameKey_trans same (Value.sameKey_symm own))
  · rename_i new
    rw [valueAt_append, valueAt_cons]
    by_cases hkey : sameKey key pair.1
    · have absent : valueAt entries key = none := by
        rw [← Option.not_isSome_iff_eq_none, valueAt_congr hkey, isSome_valueAt]
        simpa using new
      rw [absent, if_pos hkey, if_pos hkey, Option.none_or]
    · rw [if_neg hkey, if_neg hkey]
      exact Option.or_none

/-- The value of the last pair with a key. -/
def lastOf (pairs : List (Value × α)) (key : Value) : Option α := valueAt pairs.reverse key

theorem lastOf_concat (pairs : List (Value × α)) (pair : Value × α) (key : Value) :
    lastOf (pairs ++ [pair]) key =
      if sameKey key pair.1 then some pair.2 else lastOf pairs key := by
  rw [lastOf, List.reverse_concat, valueAt_cons]
  rfl

/-- A mapping that is made of pairs has at each key the value of the last pair with it. -/
theorem valueAt_keyed (pairs : List (Value × α)) (key : Value) :
    valueAt (keyed pairs) key = lastOf pairs key := by
  induction pairs using List.reverseRecOn with
  | nil => rfl
  | append_singleton pairs pair ih => rw [keyed_concat, valueAt_put, lastOf_concat, ih]

/-- Each entry of the mapping is what the last pair with its key says. -/
theorem lastOf_of_mem_keyed {entry : Value × α} (h : entry ∈ keyed pairs)
    (selves : ∀ pair ∈ pairs, sameKey pair.1 pair.1) :
    lastOf pairs entry.1 = some entry.2 := by
  -- A write keeps what the entries say of other keys, so the pairs are taken from the end.
  induction pairs using List.reverseRecOn generalizing entry with
  | nil => cases h
  | append_singleton pairs pair ih =>
    rw [keyed_concat] at h
    rw [lastOf_concat]
    rcases mem_put h with ⟨hmem, differ⟩ | rfl | ⟨heq, same, -⟩
    · rw [if_neg, ih hmem fun other hother => selves other (List.mem_append_left _ hother)]
      intro same
      simp [Value.sameKey_symm same] at differ
    · rw [if_pos (selves entry (by simp))]
    · rw [if_pos (Value.sameKey_symm same), heq]

/-- What holds of all entries of the mapping holds of what the last pairs say. -/
theorem forall_keyed_iff {P : α → Prop} (selves : ∀ pair ∈ pairs, sameKey pair.1 pair.1) :
    (∀ entry ∈ keyed pairs, P entry.2) ↔
      ∀ key value, lastOf pairs key = some value → P value := by
  constructor
  · intro h key value hlast
    rw [← valueAt_keyed, valueAt, Option.map_eq_some_iff] at hlast
    obtain ⟨entry, hfound, rfl⟩ := hlast
    exact h entry (List.mem_of_find?_eq_some hfound)
  · intro h entry hmem
    exact h _ _ (lastOf_of_mem_keyed hmem selves)

/-! ### The last element with a key -/

/-- The last element of a list with a key. -/
def lastAt (mergeKey : String) (elements : List Value) (key : Value) : Option Value :=
  elementAt mergeKey elements.reverse key

variable {mergeKey : String} {elements before after : List Value}

theorem lastOf_map (elements : List Value) (f : Value → α) (key : Value) :
    lastOf (elements.map fun element => (mergeKeyOf mergeKey element, f element)) key =
      (lastAt mergeKey elements key).map f := by
  rw [lastOf, ← List.map_reverse, valueAt, List.find?_map, Option.map_map]
  rfl

theorem mem_of_lastAt {element : Value} (h : lastAt mergeKey elements key = some element) :
    element ∈ elements := List.mem_reverse.mp (List.mem_of_find?_eq_some h)

theorem sameKey_of_lastAt {element : Value} (h : lastAt mergeKey elements key = some element) :
    sameKey key (mergeKeyOf mergeKey element) :=
  List.find?_some (p := fun element => sameKey key (mergeKeyOf mergeKey element)) h

theorem lastAt_congr {other : Value} (h : sameKey key other) :
    lastAt mergeKey elements key = lastAt mergeKey elements other := elementAt_congr h

/-- The key of a JSON element is a JSON value, so it is the same as itself. -/
theorem sameKey_mergeKeyOf {element : Value} (json : element.isJson) :
    sameKey (mergeKeyOf mergeKey element) (mergeKeyOf mergeKey element) := by
  refine Value.equal_self false ?_
  rw [mergeKeyOf]
  cases hfield : element.members.field? mergeKey with
  | none => rfl
  | some key =>
    cases element with
    | map members => exact Value.isJson_of_field? json hfield
    | _ => cases hfield

/-! ### What the patch of a list says -/

/-- Nothing is sent for an element that is as it was. -/
def IsSilent (change : Except Failure Change) : Prop :=
  change = .ok .keep ∨ change = .ok (.merge [])

theorem elementPatch?_eq_none_iff {change : Change} :
    elementPatch? mergeKey key change = none ↔ IsSilent (.ok change) := by
  unfold elementPatch?
  split <;> simp_all [IsSilent]

theorem elementPatches_eq_nil_iff {news : List (Value × Except Failure Change)}
    {patches : List Value} (h : elementPatches mergeKey news = .ok patches) :
    (∀ entry ∈ news, ∃ change, entry.2 = .ok change) ∧
      (patches = [] ↔ ∀ entry ∈ news, IsSilent entry.2) := by
  induction news generalizing patches with
  | nil =>
    cases h
    simp
  | cons entry rest ih =>
    obtain ⟨key, change⟩ := entry
    rw [elementPatches] at h
    obtain ⟨changed, hchanged, h⟩ := bind_eq_ok.mp h
    obtain ⟨others, hothers, h⟩ := bind_eq_ok.mp h
    cases h
    obtain ⟨each, silent⟩ := ih hothers
    refine ⟨List.forall_mem_cons.mpr ⟨⟨changed, hchanged⟩, each⟩, ?_⟩
    rw [List.forall_mem_cons, List.append_eq_nil_iff, silent, Option.toList_eq_nil_iff,
      elementPatch?_eq_none_iff, hchanged]

theorem elementRemovals_eq_nil_iff {old new : List Value} :
    elementRemovals mergeKey old new = [] ↔
      ∀ key ∈ old, ∃ other ∈ new, sameKey key other := by
  rw [elementRemovals, List.map_eq_nil_iff, List.filter_eq_nil_iff]
  simp

theorem valueAt_atKeys (f : Value → α) (elements : List Value) (key : Value) :
    valueAt (atKeys mergeKey f elements) key = (lastAt mergeKey elements key).map f := by
  rw [atKeys, valueAt_keyed, lastOf_map]

theorem exists_key_atKeys (f : Value → α) :
    (∃ other ∈ (atKeys mergeKey f elements).map (·.1), sameKey key other) ↔
      (lastAt mergeKey elements key).isSome := by
  have found : (valueAt (atKeys mergeKey f elements) key).isSome ↔
      ∃ entry ∈ atKeys mergeKey f elements, sameKey key entry.1 := isSome_valueAt
  rw [valueAt_atKeys, Option.isSome_map] at found
  rw [found]
  simp

theorem selves_atKeys (f : Value → α) (json : ∀ element ∈ elements, element.isJson) :
    ∀ pair ∈ elements.map fun element => (mergeKeyOf mergeKey element, f element),
      sameKey pair.1 pair.1 := by
  intro pair hpair
  obtain ⟨element, hmem, rfl⟩ := List.mem_map.mp hpair
  exact sameKey_mergeKeyOf (json element hmem)

theorem forall_atKeys_iff {P : α → Prop} (f : Value → α)
    (json : ∀ element ∈ elements, element.isJson) :
    (∀ entry ∈ atKeys mergeKey f elements, P entry.2) ↔
      ∀ key element, lastAt mergeKey elements key = some element → P (f element) := by
  rw [atKeys, forall_keyed_iff (selves_atKeys f json)]
  simp only [lastOf_map, Option.map_eq_some_iff]
  constructor
  · exact fun h key element hlast => h key _ ⟨element, hlast, rfl⟩
  · rintro h key _ ⟨element, hlast, rfl⟩
    exact h key element hlast

/-- Nothing is removed if the second list has every key of the first. -/
theorem elementRemovals_atKeys_eq_nil_iff (f : Value → α)
    (json : ∀ element ∈ before, element.isJson) :
    elementRemovals mergeKey (Members.keys (atKeys mergeKey id before))
        ((atKeys mergeKey f after).map (·.1)) = [] ↔
      ∀ key, (lastAt mergeKey before key).isSome → (lastAt mergeKey after key).isSome := by
  rw [elementRemovals_eq_nil_iff]
  simp only [exists_key_atKeys]
  constructor
  · intro h key present
    obtain ⟨other, hmem, same⟩ := (exists_key_atKeys id).mpr present
    rw [lastAt_congr same]
    exact h other hmem
  · intro h key hmem
    refine h key ((exists_key_atKeys id).mp ⟨key, hmem, ?_⟩)
    obtain ⟨entry, hentry, rfl⟩ := List.mem_map.mp hmem
    obtain ⟨⟨pair, hpair, hkey⟩, -⟩ := mem_keyed hentry
    exact hkey ▸ selves_atKeys id json pair hpair

variable {shared : Bool} {model : Option String} {field : Value} {said : Option Value}

/-- What can be told of a patch between two lists from the last elements with each key. -/
structure Compared (shared : Bool) (model : Option String) (mergeKey : String)
    (before after : List Value) (said : Option Value) : Prop where
  mapBefore : ∀ element ∈ before, ∃ members : Members, element = .map members
  mapAfter : ∀ element ∈ after, ∃ members : Members, element = .map members
  changed : ∀ key new, lastAt mergeKey after key = some new →
    ∃ change, elementChange shared model (lastAt mergeKey before key) new = .ok change
  silent : said = none ↔
    (∀ key, (lastAt mergeKey before key).isSome → (lastAt mergeKey after key).isSome) ∧
    ∀ key new, lastAt mergeKey after key = some new →
      IsSilent (elementChange shared model (lastAt mergeKey before key) new)

theorem compared_of_listPatch
    (h : Strategic.listPatch field mergeKey before after
      (fun olds => Strategic.elementChanges shared model mergeKey olds after) = .ok said)
    (jsonBefore : ∀ element ∈ before, element.isJson)
    (jsonAfter : ∀ element ∈ after, element.isJson) :
    Compared shared model mergeKey before after said := by
  obtain ⟨eachOld, eachNew, olds, news, patches, rfl, rfl, hpatches, rfl⟩ :=
    exists_elementPatches h
  obtain ⟨each, silent⟩ := elementPatches_eq_nil_iff hpatches
  have change_at : ∀ key new, lastAt mergeKey after key = some new →
      elementChange shared model
          (Members.at? (atKeys mergeKey id before) (mergeKeyOf mergeKey new)) new =
        elementChange shared model (lastAt mergeKey before key) new := by
    intro key new hfound
    have found : valueAt (atKeys mergeKey id before) (mergeKeyOf mergeKey new) =
        lastAt mergeKey before key := by
      rw [valueAt_atKeys, Option.map_id, id, lastAt_congr (sameKey_of_lastAt hfound)]
    exact congrArg (elementChange shared model · new) found
  refine ⟨fun element hmem => ?_, fun element hmem => ?_, fun key new hfound => ?_, ?_⟩
  · obtain ⟨members, -, heq, -⟩ := eachOld element hmem
    exact ⟨members, heq⟩
  · obtain ⟨members, -, heq, -⟩ := eachNew element hmem
    exact ⟨members, heq⟩
  · rw [← change_at key new hfound]
    exact (forall_atKeys_iff (P := fun result : Except Failure Change =>
      ∃ change, result = .ok change) _ jsonAfter).mp each key new hfound
  · have none_iff : ∀ {empty : Bool} {value : Value},
        (if empty then none else some value) = none ↔ empty = true := by simp
    rw [none_iff, List.isEmpty_iff, List.append_eq_nil_iff, silent, and_comm,
      elementRemovals_atKeys_eq_nil_iff _ jsonBefore, forall_atKeys_iff _ jsonAfter]
    refine and_congr_right fun _ => forall₃_congr fun key new hfound => ?_
    rw [change_at key new hfound]

end Reconciler.Patch
