import Reconciler.Proofs.Patch.Reordering

/-!
# Nothing is sent for objects in another order

A manifest can be written again with its members and the elements of its lists in another order.
This module says which lists may be put in another order without anything being sent: those that
are merged by a key, if their elements have distinct scalars at it, as long as each list around
them is such a list, too.

A list that is not merged is compared as a whole, and a list whose elements lack keys is not
compared at all. So it makes a difference whether elements may be rearranged inside of such a
list; `Rearranged` has a parameter for that.
-/

namespace Reconciler

namespace Schema

/-- What the schema says of a value at some place: the type that is declared for it, and of a
list that is merged the field that identifies its elements. -/
structure Slot where
  type : Option String := none
  mergeKey : Option String := none
  deriving Inhabited

/-- The model of a mapping. -/
def Slot.model (slot : Slot) : Option String := builtin.modelOf slot.type

/-- The member at a name of a mapping that a model types. -/
def Slot.member (model : Option String) (name : String) : Slot where
  type := builtin.fieldType model name
  mergeKey := mergeKey? model name

/-- The elements of a list. -/
def Slot.element (slot : Slot) : Slot where
  type := elementType slot.type

theorem modelOf_eq_self {name : Option String} (h : (builtin.modelOf name).isSome) :
    builtin.modelOf name = name := by
  unfold Table.modelOf at h ⊢
  split at h
  · rename_i known
    exact if_pos known
  · cases h

end Schema

namespace Patch

open Schema (Slot)
open Value (sameKey)
open Strategic (mergeKeyOf)

/-- The elements of a list have distinct scalars at a key. -/
structure AreKeyed (mergeKey : String) (items : List Value) : Prop where
  keyed : ∀ item ∈ items, ∃ (members : Members) (key : Value),
    item = .map members ∧ members.field? mergeKey = some key ∧ key.isLeaf
  apart : items.Pairwise fun x y =>
    sameKey (mergeKeyOf mergeKey x) (mergeKeyOf mergeKey y) = false

/-- Two values that differ only in the order of members and of the elements of lists that are
merged and keyed. If `inside` holds, they may also differ so inside of the elements of any other
list, each of which stays at its position. -/
inductive Rearranged (inside : Bool) : Slot → Value → Value → Prop
  | equal {slot : Slot} {x y : Value} (h : x.equal false y = true) : Rearranged inside slot x y
  | map {slot : Slot} {xs ys : Members}
      (names : ∀ name, (xs.field? name).isSome = (ys.field? name).isSome)
      (values : ∀ name x y, xs.field? name = some x → ys.field? name = some y →
        Rearranged inside (Slot.member slot.model name) x y) :
      Rearranged inside slot (.map xs) (.map ys)
  | list {slot : Slot} {mergeKey : String} {xs ys zs : List Value}
      (merged : slot.mergeKey = some mergeKey) (keyedX : AreKeyed mergeKey xs)
      (keyedY : AreKeyed mergeKey ys) (order : zs.Perm xs) (length : zs.length = ys.length)
      (items : ∀ (i : Nat) z y, zs[i]? = some z → ys[i]? = some y →
        Rearranged inside slot.element z y) :
      Rearranged inside slot (.list xs) (.list ys)
  | items {slot : Slot} {xs ys : List Value} (h : inside = true) (length : xs.length = ys.length)
      (items : ∀ (i : Nat) x y, xs[i]? = some x → ys[i]? = some y →
        Rearranged inside slot.element x y) :
      Rearranged inside slot (.list xs) (.list ys)

variable {inside : Bool} {slot : Slot} {mergeKey : String} {xs ys : List Value} {x y : Value}

/-- A mapping is rearranged if one of its members is. -/
theorem Rearranged.at_member {front back : Members} {name : String}
    (json : (Value.map (front ++ (.text name, x) :: back)).isJson)
    (h : Rearranged inside (Slot.member slot.model name) x y) :
    Rearranged inside slot (.map (front ++ (.text name, x) :: back))
      (.map (front ++ (.text name, y) :: back)) := by
  have found : ∀ other value, Members.field? (front ++ (.text name, value) :: back) other =
      (front.field? other).or (if name = other then some value else back.field? other) := by
    intro other value
    rw [Members.field?_append, Members.field?_cons_text]
  refine .map (fun other => ?_) fun other u v hu hv => ?_
  · rw [found, found]
    cases front.field? other with
    | some _ => rfl
    | none => by_cases here : name = other <;> simp [here]
  · have own := Value.isJson_of_field? json hu
    rw [found] at hu hv
    cases hfront : front.field? other with
    | some _ =>
      rw [hfront] at hu hv
      cases hu
      cases hv
      exact .equal (Value.equal_self false own)
    | none =>
      rw [hfront, Option.none_or] at hu hv
      split at hu
      · rename_i here
        rw [if_pos here] at hv
        cases hu
        cases hv
        exact here ▸ h
      · rename_i other
        rw [if_neg other, hu] at hv
        cases hv
        exact .equal (Value.equal_self false own)

/-- A keyed list may be put in any order. -/
theorem Rearranged.of_perm (merged : slot.mergeKey = some mergeKey)
    (keyedX : AreKeyed mergeKey xs) (keyedY : AreKeyed mergeKey ys) (order : ys.Perm xs)
    (json : ∀ y ∈ ys, y.isJson) : Rearranged inside slot (.list xs) (.list ys) := by
  refine .list merged keyedX keyedY order rfl fun i z y hz hy => ?_
  obtain rfl := Option.some.inj (hz.symm.trans hy)
  exact .equal (Value.equal_self false (json z (List.mem_of_getElem? hz)))

/-! ### Keys of elements -/

theorem AreKeyed.distinct (h : AreKeyed mergeKey xs) (json : ∀ x ∈ xs, x.isJson) :
    Distinct mergeKey xs :=
  ⟨fun x hmem => sameKey_mergeKeyOf (json x hmem), h.apart⟩

theorem AreKeyed.exists_map (h : AreKeyed mergeKey xs) : ∀ x ∈ xs,
    ∃ (members : Members) (key : Value), x = .map members ∧
      members.field? mergeKey = some key := by
  intro x hmem
  obtain ⟨members, key, heq, hkey, -⟩ := h.keyed x hmem
  exact ⟨members, key, heq, hkey⟩

theorem isKey_of_isLeaf {value : Value} (h : value.isLeaf) : value.isKey := by
  cases value with
  | list | tuple | set | map => cases h
  | _ => rfl

/-- Every element has a usable key. -/
theorem elementKeys_of_keyed (h : AreKeyed mergeKey xs) (field : Value) :
    elementKeys field mergeKey xs = .ok (xs.map (mergeKeyOf mergeKey)) := by
  have keyed := h.keyed
  clear h
  induction xs with
  | nil => rfl
  | cons x rest ih =>
    obtain ⟨⟨members, key, rfl, hkey, scalar⟩, others⟩ := List.forall_mem_cons.mp keyed
    rw [elementKeys, elementKey, hkey, ih others]
    dsimp only
    rw [if_pos (isKey_of_isLeaf scalar), List.map_cons, mergeKeyOf_map hkey]
    rfl

/-! ### Lists for which nothing is sent -/

variable {shared : Bool} {model : Option String}

/-- Changes of which nothing is sent make no patch. -/
theorem elementPatches_of_silent {news : List (Value × Except Failure Change)}
    (h : ∀ entry ∈ news, IsSilent entry.2) : elementPatches mergeKey news = .ok [] := by
  induction news with
  | nil => rfl
  | cons entry rest ih =>
    obtain ⟨silent, others⟩ := List.forall_mem_cons.mp h
    obtain ⟨key, change⟩ := entry
    rw [elementPatches, ih others]
    obtain rfl | rfl := silent <;> rfl

/-- Nothing is sent for two lists with usable keys if no key is of the first one alone and
nothing is sent for an element of the second one. -/
theorem listPatch_eq_none (field : Value) (keyedX : AreKeyed mergeKey xs)
    (keyedY : AreKeyed mergeKey ys) (jsonX : ∀ x ∈ xs, x.isJson) (jsonY : ∀ y ∈ ys, y.isJson)
    (kept : ∀ key, (lastAt mergeKey xs key).isSome → (lastAt mergeKey ys key).isSome)
    (silent : ∀ key y, lastAt mergeKey ys key = some y →
      IsSilent (elementChange shared model (lastAt mergeKey xs key) y)) :
    Strategic.listPatch field mergeKey xs ys
      (fun olds => Strategic.elementChanges shared model mergeKey olds ys) = .ok none := by
  have olds : keyed ((xs.map (mergeKeyOf mergeKey)).zip xs) = atKeys mergeKey id xs := by
    rw [atKeys, ← List.zip_map', List.map_id]
  have isMap : ∀ key old, Members.at? (atKeys mergeKey id xs) key = some old →
      ∃ members, old = .map members := by
    intro key old hfound
    obtain ⟨x, hx, rfl⟩ := Option.map_eq_some_iff.mp ((valueAt_atKeys id xs key).symm.trans hfound)
    obtain ⟨members, -, heq, -⟩ := keyedX.keyed x (mem_of_lastAt hx)
    exact ⟨members, heq⟩
  have silentAt : ∀ entry ∈ atKeys mergeKey (fun element => elementChange shared model
      (Members.at? (atKeys mergeKey id xs) (mergeKeyOf mergeKey element)) element) ys,
      IsSilent entry.2 := by
    refine (forall_atKeys_iff _ jsonY).mpr fun key y hy => ?_
    have found : Members.at? (atKeys mergeKey id xs) (mergeKeyOf mergeKey y) =
        lastAt mergeKey xs key := by
      refine (valueAt_atKeys id xs (mergeKeyOf mergeKey y)).trans ?_
      rw [Option.map_id, id, lastAt_congr (sameKey_of_lastAt hy)]
    rw [found]
    exact silent key y hy
  have removed := (elementRemovals_atKeys_eq_nil_iff (fun element => elementChange shared model
    (Members.at? (atKeys mergeKey id xs) (mergeKeyOf mergeKey element)) element) jsonX).mpr kept
  rw [Strategic.listPatch, elementKeys_of_keyed keyedX, elementKeys_of_keyed keyedY]
  refine bind_eq_ok.mpr ⟨_, rfl, bind_eq_ok.mpr ⟨_, rfl, bind_eq_ok.mpr ⟨[], ?_, ?_⟩⟩⟩
  · rw [olds, elementChanges_eq_map isMap keyedY.exists_map, List.zip_map']
    exact elementPatches_of_silent silentAt
  · rw [olds, elementChanges_eq_map isMap keyedY.exists_map, List.zip_map', List.nil_append]
    dsimp only
    rw [← atKeys, removed]
    rfl

/-! ### Values for which nothing is sent -/

variable {before after : Members}

/-- Nothing is written to a mapping if nothing is said at any of the names. -/
theorem additions_of_silent {rest : Members} (h : ∀ member ∈ rest, ∃ old,
      before.at? member.1 = some old ∧
        Strategic.change shared model member.1 old member.2 = .ok none) :
    Strategic.additions shared model before rest = .ok [] := by
  induction rest with
  | nil => rw [Strategic.additions]
  | cons member rest ih =>
    obtain ⟨⟨old, hold, silent⟩, others⟩ := List.forall_mem_cons.mp h
    obtain ⟨key, value⟩ := member
    rw [Strategic.additions, hold, ih others]
    exact bind_eq_ok.mpr ⟨none, silent, rfl⟩

/-- The patch between two mappings is empty if they have the same names and nothing is said at
any of them. -/
theorem diff_of_silent (hb : before.isNamed) (ha : after.isNamed)
    (names : ∀ name, (before.field? name).isSome = (after.field? name).isSome)
    (silent : ∀ name old value, before.field? name = some old → after.field? name = some value →
      Strategic.change shared model (.text name) old value = .ok none) :
    Strategic.diff shared model before after = .ok [] := by
  have written : Strategic.additions shared model before after = .ok [] := by
    refine additions_of_silent fun (key, value) hmem => ?_
    obtain ⟨name, rfl⟩ := Members.key_of_mem ha hmem
    have hvalue := (Members.field?_eq_some_iff ha).mpr hmem
    obtain ⟨old, hold⟩ := Option.isSome_iff_exists.mp ((names name).trans (by rw [hvalue]; rfl))
    exact ⟨old, hold, silent name old value hold hvalue⟩
  have removed : removals before after = [] := by
    refine List.map_eq_nil_iff.mpr (List.filter_eq_nil_iff.mpr fun (key, old) hmem => ?_)
    obtain ⟨name, rfl⟩ := Members.key_of_mem hb hmem
    have hold := (Members.field?_eq_some_iff hb).mpr hmem
    simp [Members.has_text, ← names, hold]
  rw [Strategic.diff, written]
  exact congrArg Except.ok removed

/-- Nothing is said of a value that is equal to what was there. -/
theorem change_of_equal (key : Value) (h : x.equal false y = true) :
    Strategic.change shared model key x y = .ok none := by
  have same := Value.equal_shared h shared
  have within := Value.equalWithin_of_equal h
  cases y with
  | map after =>
    obtain ⟨before, rfl⟩ := Value.equalWithin_map_left (Value.equalWithin_symm within)
    rw [Strategic.change]
    exact if_pos same
  | list items =>
    obtain ⟨olds, rfl⟩ := Value.equalWithin_list_left (Value.equalWithin_symm within)
    rw [Strategic.change]
    exact if_pos same
  | _ =>
    rw [Strategic.change, if_pos same]
    · intro after other
      cases other
    · intro items other
      cases other

/-- The scalars that two mappings have at a name are the same if one is rearranged to the
other. -/
theorem Rearranged.sameKey_of_isLeaf
    (h : Rearranged inside slot (.map before) (.map after))
    (hb : (Value.map before).isJson) (ha : (Value.map after).isJson) {name : String}
    (hx : before.field? name = some x) (hy : after.field? name = some y) (scalar : x.isLeaf) :
    sameKey x y := by
  cases h with
  | equal h => exact (rel_iff.mp (rel_equal_of_equal hb ha h name)).2 x y hx hy
  | map names values =>
    cases values name x y hx hy with
    | equal h => exact h
    | map | list | items => cases scalar

/-- What two keyed lists have at a key is found at the same positions, after the first of them
has been put in another order. -/
theorem elementAt_of_rearranged {zs : List Value} (keyedX : AreKeyed mergeKey xs)
    (keyedY : AreKeyed mergeKey ys) (jsonX : ∀ x ∈ xs, x.isJson) (jsonY : ∀ y ∈ ys, y.isJson)
    (order : zs.Perm xs) (items : ∀ (i : Nat) z y, zs[i]? = some z → ys[i]? = some y →
      Rearranged inside slot z y) {i : Nat} {z y : Value} (hz : zs[i]? = some z)
    (hy : ys[i]? = some y) {key : Value} :
    elementAt mergeKey xs key = some z ↔ elementAt mergeKey ys key = some y := by
  have memX := order.mem_iff.mp (List.mem_of_getElem? hz)
  have memY := List.mem_of_getElem? hy
  obtain ⟨before, own, rfl, hown, scalar⟩ := keyedX.keyed z memX
  obtain ⟨after, other, rfl, hother, -⟩ := keyedY.keyed y memY
  refine elementAt_iff_of_paired (keyedX.distinct jsonX) (keyedY.distinct jsonY) order hz hy ?_
  rw [mergeKeyOf_map hown, mergeKeyOf_map hother]
  exact (items i _ _ hz hy).sameKey_of_isLeaf (jsonX _ memX) (jsonY _ memY) hown hother scalar

/-- There is something at each position of a list that a list of the same length has. -/
theorem exists_getElem? {α β : Type} {as : List α} {bs : List β} {i : Nat} {a : α}
    (length : as.length = bs.length) (ha : as[i]? = some a) : ∃ b, bs[i]? = some b := by
  obtain ⟨bound, -⟩ := List.getElem?_eq_some_iff.mp ha
  exact ⟨_, List.getElem?_eq_getElem (length ▸ bound)⟩

/-- Nothing is sent for two keyed lists if nothing is sent for their elements, after the first of
them has been put in another order. -/
theorem listPatch_of_rearranged (field : Value) {zs : List Value} (keyedX : AreKeyed mergeKey xs)
    (keyedY : AreKeyed mergeKey ys) (jsonX : ∀ x ∈ xs, x.isJson) (jsonY : ∀ y ∈ ys, y.isJson)
    (order : zs.Perm xs) (length : zs.length = ys.length)
    (items : ∀ (i : Nat) z y, zs[i]? = some z → ys[i]? = some y → Rearranged inside slot z y)
    (silent : ∀ (i : Nat) (before after : Members), zs[i]? = some (.map before) →
      ys[i]? = some (.map after) → Strategic.diff shared model before after = .ok []) :
    Strategic.listPatch field mergeKey xs ys
      (fun olds => Strategic.elementChanges shared model mergeKey olds ys) = .ok none := by
  have paired : ∀ {key : Value} {i : Nat} {z y : Value}, zs[i]? = some z → ys[i]? = some y →
      (elementAt mergeKey xs key = some z ↔ elementAt mergeKey ys key = some y) :=
    fun hz hy => elementAt_of_rearranged keyedX keyedY jsonX jsonY order items hz hy
  refine listPatch_eq_none field keyedX keyedY jsonX jsonY (fun key present => ?_) ?_
  · rw [lastAt_eq_elementAt (keyedX.distinct jsonX)] at present
    rw [lastAt_eq_elementAt (keyedY.distinct jsonY)]
    obtain ⟨z, found⟩ := Option.isSome_iff_exists.mp present
    obtain ⟨i, hz⟩ := List.mem_iff_getElem?.mp
      (order.mem_iff.mpr (List.mem_of_find?_eq_some found))
    obtain ⟨y, hy⟩ := exists_getElem? length hz
    rw [(paired hz hy).mp found]
    rfl
  · intro key y found
    rw [lastAt_eq_elementAt (keyedY.distinct jsonY)] at found
    obtain ⟨i, hy⟩ := List.mem_iff_getElem?.mp (List.mem_of_find?_eq_some found)
    obtain ⟨z, hz⟩ := exists_getElem? length.symm hy
    have memZ := order.mem_iff.mp (List.mem_of_getElem? hz)
    obtain ⟨before, -, rfl, -⟩ := keyedX.keyed z memZ
    obtain ⟨after, -, rfl, -⟩ := keyedY.keyed y (List.mem_of_getElem? hy)
    rw [lastAt_eq_elementAt (keyedX.distinct jsonX), (paired hz hy).mpr found, elementChange]
    split
    · exact .inl rfl
    · apply Or.inr
      rw [Value.members_map, Value.members_map]
      exact bind_eq_ok.mpr ⟨[], silent i before after hz hy, rfl⟩

/-- Nothing is sent for values one of which is rearranged to the other, wherever they are compared:
as the values of a member, or as two objects. -/
theorem silent_of_rearranged (shared : Bool) (h : Rearranged false slot x y) (jsonX : x.isJson)
    (jsonY : y.isJson) :
    (∀ model name, slot = Slot.member model name →
      Strategic.change shared model (.text name) x y = .ok none) ∧
    ∀ before after : Members, x = .map before → y = .map after →
      Strategic.diff shared slot.model before after = .ok [] := by
  -- Elements of lists need the second part, since they are compared as objects.
  induction h with
  | equal h =>
    refine ⟨fun model name _ => change_of_equal _ h, fun before after heq heq' => ?_⟩
    subst heq heq'
    refine diff_of_silent (Value.isJson_map.mp jsonX).1 (Value.isJson_map.mp jsonY).1
      (fun name => (rel_iff.mp (rel_equal_of_equal jsonX jsonY h name)).1) fun name old value => ?_
    intro hold hvalue
    exact change_of_equal _ ((rel_iff.mp (rel_equal_of_equal jsonX jsonY h name)).2 _ _ hold hvalue)
  | @map slot xs ys names values ih =>
    have empty : Strategic.diff shared slot.model xs ys = .ok [] := by
      refine diff_of_silent (Value.isJson_map.mp jsonX).1 (Value.isJson_map.mp jsonY).1 names ?_
      intro name old value hold hvalue
      exact (ih name old value hold hvalue (Value.isJson_of_field? jsonX hold)
        (Value.isJson_of_field? jsonY hvalue)).1 _ name rfl
    refine ⟨fun model name heq => ?_, fun before after heq heq' => ?_⟩
    · subst heq
      obtain ⟨written, hwritten, hdone⟩ := bind_eq_ok.mp empty
      rw [Strategic.change]
      split
      · rfl
      · exact bind_eq_ok.mpr ⟨written, hwritten, by rw [Except.ok.inj hdone]; rfl⟩
    · cases heq
      cases heq'
      exact empty
  | @list slot mergeKey xs ys zs merged keyedX keyedY order length items ih =>
    rw [Value.isJson_list] at jsonX jsonY
    constructor
    · intro model name heq
      subst heq
      have key : Schema.mergeKeyAt model (.text name) = some mergeKey := merged
      rw [Strategic.change]
      dsimp only
      split
      · rfl
      · rw [key]
        refine listPatch_of_rearranged _ keyedX keyedY jsonX jsonY order length items ?_
        intro i before after hz hy
        have memZ := order.mem_iff.mp (List.mem_of_getElem? hz)
        have memY := List.mem_of_getElem? hy
        exact (ih i _ _ hz hy (jsonX _ memZ) (jsonY _ memY)).2 before after rfl rfl
    · intro before after other
      cases other
  | items h => cases h

/-- Nothing can be rearranged where the schema says nothing. -/
theorem equal_of_rearranged (h : Rearranged false slot x y) (jsonX : x.isJson) (jsonY : y.isJson)
    (unmodelled : slot.model = none) (unmerged : slot.mergeKey = none) :
    x.equal false y = true := by
  induction h with
  | equal h => exact h
  | @map slot xs ys names values ih =>
    have untyped : ∀ name, Slot.member slot.model name = {} := by
      intro name
      rw [unmodelled]
      rfl
    rw [Value.equal_eq_equalWithin false jsonX, Value.equalWithin_map_iff
      (Value.isJson_map.mp jsonX).1 (Value.isJson_map.mp jsonY).1]
    refine fun name => rel_iff.mpr ⟨names name, fun x y hx hy => Value.equalWithin_of_equal ?_⟩
    exact ih name x y hx hy (Value.isJson_of_field? jsonX hx) (Value.isJson_of_field? jsonY hy)
      (by rw [untyped]; rfl) (by rw [untyped])
  | list merged =>
    rw [unmerged] at merged
    cases merged
  | items h => cases h

/-! ### What is decided -/

variable {current desired : Members} {textBefore textAfter : List Char} {info : Schema.KindInfo}

/-- Nothing is sent between two objects if what one of them is on the wire is rearranged to what
the other one is. -/
theorem exists_between_of_rearranged (regularBefore : (Value.map current).isRegular)
    (regularAfter : (Value.map desired).isRegular)
    (encodedBefore : Json.encode (.map current) = .ok textBefore)
    (encodedAfter : Json.encode (.map desired) = .ok textAfter)
    (lookup : Schema.lookupObject (.map desired) = .ok info)
    (h : Rearranged false { type := info.model } (Json.wire (.map current))
      (Json.wire (.map desired))) :
    ∃ decision, Decision.between (.map current) (.map desired) = .ok decision ∧
      decision.patch = none := by
  have jsonBefore := Json.isJson_wire regularBefore encodedBefore
  have jsonAfter := Json.isJson_wire regularAfter encodedAfter
  cases modelled : (Schema.builtin.modelOf info.model).isSome with
  | false =>
    have unmodelled := Option.not_isSome_iff_eq_none.mp (Bool.eq_false_iff.mp modelled)
    obtain ⟨decision, hdecision, empty⟩ := exists_between regularBefore regularAfter encodedBefore
      encodedAfter lookup unmodelled
    have equal := equal_of_rearranged h jsonBefore jsonAfter unmodelled rfl
    exact ⟨decision, hdecision, Option.isNone_iff_eq_none.mp (empty.mpr equal)⟩
  | true =>
    by_cases same : textBefore = textAfter
    · subst same
      rw [between_eq encodedBefore encodedAfter lookup, if_pos (beq_self_eq_true textBefore)]
      exact ⟨_, rfl, rfl⟩
    · have silent := (silent_of_rearranged true h jsonBefore jsonAfter).2
      rw [between_of_modelled encodedBefore encodedAfter lookup modelled same]
      rw [Json.wire_map] at silent ⊢
      rw [Json.wire_map] at silent ⊢
      have empty := silent _ _ rfl rfl
      rw [Slot.model, Schema.modelOf_eq_self modelled] at empty
      refine ⟨{ patch := none, strategy := .strategic }, bind_eq_ok.mpr ⟨[], empty, ?_⟩, rfl⟩
      rfl

end Patch

end Reconciler
