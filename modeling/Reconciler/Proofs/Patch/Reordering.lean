import Reconciler.Proofs.Patch.Failing
import Reconciler.Proofs.Patch.Latest
import Reconciler.Proofs.Patch.Strategic
import Reconciler.Proofs.Patch.Unchanged

/-!
# When nothing is sent for an object of a built-in kind

A strategic patch between two objects is empty exactly if they are indistinct: equal but for
the lists that are merged by a key, of which only the last element with each key counts.

If the keys of each such list are distinct, this means that one object becomes the other when
the elements of these lists are put in another order. If keys repeat it does not: an element
before another one with its key can be taken away, or can be put there, and nothing is sent.
-/

namespace Reconciler.Patch

open Schema (Place)
open Value (sameKey)
open Strategic (mergeKeyOf)

/-- Two values that a strategic patch cannot tell apart: they are equal, or they are mappings
with the same names and indistinct values at them, or they are lists that are merged by a key
and whose last elements with each key are indistinct. -/
inductive Indistinct : Place → Value → Value → Prop
  | equal {place : Place} {x y : Value} (h : x.equal false y = true) : Indistinct place x y
  | map {place : Place} {xs ys : Members}
      (names : ∀ name, (xs.field? name).isSome = (ys.field? name).isSome)
      (values : ∀ name x y, xs.field? name = some x → ys.field? name = some y →
        Indistinct (Place.below place.model (.text name)) x y) :
      Indistinct place (.map xs) (.map ys)
  | list {place : Place} {mergeKey : String} {model : Option String} {xs ys : List Value}
      (merge : place.merge = some (mergeKey, model))
      (keys : ∀ key, (lastAt mergeKey xs key).isSome = (lastAt mergeKey ys key).isSome)
      (elements : ∀ key x y, lastAt mergeKey xs key = some x → lastAt mergeKey ys key = some y →
        Indistinct { model } x y) : Indistinct place (.list xs) (.list ys)

/-- Two values of which one becomes the other when the elements of the lists that are merged
by a key are put in another order, at any depth. Every element is kept. -/
inductive Reordered : Place → Value → Value → Prop
  | equal {place : Place} {x y : Value} (h : x.equal false y = true) : Reordered place x y
  | map {place : Place} {xs ys : Members}
      (names : ∀ name, (xs.field? name).isSome = (ys.field? name).isSome)
      (values : ∀ name x y, xs.field? name = some x → ys.field? name = some y →
        Reordered (Place.below place.model (.text name)) x y) :
      Reordered place (.map xs) (.map ys)
  | list {place : Place} {mergeKey : String} {model : Option String} {xs ys zs : List Value}
      (merge : place.merge = some (mergeKey, model)) (order : zs.Perm xs)
      (length : zs.length = ys.length)
      (items : ∀ (i : Nat) z y, zs[i]? = some z → ys[i]? = some y → Reordered { model } z y) :
      Reordered place (.list xs) (.list ys)

/-! ### Distinct keys -/

/-- Whether no two elements of a list have the same key. -/
def haveDistinctKeys (mergeKey : String) (items : List Value) : Bool :=
  decide (items.Pairwise fun x y =>
    sameKey (mergeKeyOf mergeKey x) (mergeKeyOf mergeKey y) = false)

variable {place : Place} {mergeKey : String} {xs ys : List Value}

theorem distinct_of_haveDistinctKeys (h : haveDistinctKeys mergeKey xs)
    (json : ∀ x ∈ xs, x.isJson) : Distinct mergeKey xs :=
  ⟨fun x hmem => sameKey_mergeKeyOf (json x hmem), of_decide_eq_true h⟩

/-- If no key repeats, the last element with a key is the only one. -/
theorem lastAt_eq_elementAt (h : Distinct mergeKey xs) (key : Value) :
    lastAt mergeKey xs key = elementAt mergeKey xs key := by
  have reversed : Distinct mergeKey xs.reverse := by
    refine ⟨fun x hmem => h.selves x (List.mem_reverse.mp hmem), ?_⟩
    refine List.pairwise_reverse.mpr (h.apart.imp fun {x y} apart => ?_)
    exact Bool.eq_false_iff.mpr fun same => by simp [Value.sameKey_symm same] at apart
  ext element
  rw [lastAt, elementAt_eq_some_iff reversed, elementAt_eq_some_iff h, List.mem_reverse]

/-- Elements that stand at one position of two lists, one of which has been put in another order,
are those with one key, if no key repeats and they have the same key. -/
theorem elementAt_iff_of_paired {zs : List Value} (hx : Distinct mergeKey xs)
    (hy : Distinct mergeKey ys) (order : zs.Perm xs) {i : Nat} {z y : Value}
    (hz : zs[i]? = some z) (hy' : ys[i]? = some y)
    (same : sameKey (mergeKeyOf mergeKey z) (mergeKeyOf mergeKey y)) {key : Value} :
    elementAt mergeKey xs key = some z ↔ elementAt mergeKey ys key = some y := by
  rw [elementAt_eq_some_iff hx, elementAt_eq_some_iff hy]
  constructor
  · exact fun ⟨_, found⟩ => ⟨List.mem_of_getElem? hy', Value.sameKey_trans found same⟩
  · exact fun ⟨_, found⟩ => ⟨order.mem_iff.mp (List.mem_of_getElem? hz),
      Value.sameKey_trans found (Value.sameKey_symm same)⟩

/-- Where no key repeats, values are indistinct only if they are equal up to order. -/
theorem Indistinct.reordered {x y : Value} (h : Indistinct place x y) (jsonX : x.isJson)
    (jsonY : y.isJson) (distinctX : everyMerged haveDistinctKeys place x)
    (distinctY : everyMerged haveDistinctKeys place y) : Reordered place x y := by
  induction h with
  | equal h => exact .equal h
  | map names values ih =>
    refine .map names fun name x y hx hy => ?_
    exact ih name x y hx hy (Value.isJson_of_field? jsonX hx) (Value.isJson_of_field? jsonY hy)
      (everyMerged_of_field? distinctX hx) (everyMerged_of_field? distinctY hy)
  | @list place mergeKey model xs ys merge keys elements ih =>
    obtain ⟨keysX, belowX⟩ := everyMerged_list merge distinctX
    obtain ⟨keysY, belowY⟩ := everyMerged_list merge distinctY
    rw [Value.isJson_list] at jsonX jsonY
    have hx := distinct_of_haveDistinctKeys keysX jsonX
    have hy := distinct_of_haveDistinctKeys keysY jsonY
    simp only [lastAt_eq_elementAt hx, lastAt_eq_elementAt hy] at keys ih
    have foundX : ∀ y ∈ ys, (elementAt mergeKey xs (mergeKeyOf mergeKey y)).isSome := by
      intro y hmem
      rw [keys, elementAt_self hy hmem]
      rfl
    have foundY : ∀ x ∈ xs, (elementAt mergeKey ys (mergeKeyOf mergeKey x)).isSome := by
      intro x hmem
      rw [← keys, elementAt_self hx hmem]
      rfl
    -- The keys pair the elements of the two lists, so one list can follow the other's order.
    obtain ⟨zs, order, length, items⟩ := exists_perm_of_distinct hx hy foundX foundY
    refine .list merge order length fun i z y hz hy' => ?_
    obtain ⟨hmem, hfound⟩ := items i z y hz hy'
    have hmem' := List.mem_of_find?_eq_some hfound
    exact ih _ z y hfound (elementAt_self hy hmem) (jsonX z hmem') (jsonY y hmem)
      (belowX z hmem') (belowY y hmem)

/-! ### When a patch is empty -/

/-- Equal JSON objects have equal values at each name. -/
theorem rel_equal_of_equal {before after : Members} (hb : (Value.map before).isJson)
    (ha : (Value.map after).isJson) (h : (Value.map before).equal false (.map after) = true)
    (name : String) :
    Option.Rel (fun x y => x.equal false y = true) (before.field? name) (after.field? name) := by
  rw [Value.equal_eq_equalWithin false hb, Value.equalWithin_map_iff
    (Value.isJson_map.mp hb).1 (Value.isJson_map.mp ha).1] at h
  obtain ⟨names, values⟩ := rel_iff.mp (h name)
  refine rel_iff.mpr ⟨names, fun x y hx hy => ?_⟩
  rw [Value.equal_eq_equalWithin false (Value.isJson_of_field? hb hx)]
  exact values x y hx hy

/-- JSON objects are indistinct if what they have at each name is. -/
theorem indistinct_map_iff {before after : Members} (hb : (Value.map before).isJson)
    (ha : (Value.map after).isJson) : Indistinct place (.map before) (.map after) ↔
      ∀ name, Option.Rel (Indistinct (Place.below place.model (.text name)))
        (before.field? name) (after.field? name) := by
  simp only [rel_iff]
  constructor
  · intro h
    cases h with
    | equal h =>
      intro name
      obtain ⟨names, values⟩ := rel_iff.mp (rel_equal_of_equal hb ha h name)
      exact ⟨names, fun x y hx hy => .equal (values x y hx hy)⟩
    | map names values => exact fun name => ⟨names name, values name⟩
  · exact fun h => .map (fun name => (h name).1) fun name => (h name).2

/-- What two objects have at a name is equal up to order if they are. -/
theorem Reordered.at_name {before after : Members}
    (h : Reordered place (.map before) (.map after)) (name : String)
    (hb : (Value.map before).isJson) (ha : (Value.map after).isJson) {x y : Value}
    (hx : before.field? name = some x) (hy : after.field? name = some y) :
    Reordered (Place.below place.model (.text name)) x y := by
  cases h with
  | equal h => exact .equal ((rel_iff.mp (rel_equal_of_equal hb ha h name)).2 x y hx hy)
  | map names values => exact values name x y hx hy

/-- No element is dropped when a list is put in another order. -/
theorem Reordered.length_eq (h : Reordered place (.list xs) (.list ys)) :
    xs.length = ys.length := by
  cases h with
  | equal h =>
    have within := Value.equalWithin_of_equal h
    rw [Value.equalWithin_list] at within
    exact within.1
  | list merge order length items => exact order.length_eq.symm.trans length

variable {shared : Bool} {model : Option String} {before after patch : Members} {name : String}
  {old value : Value} {said : Option Value}

/-- A patch between two objects is empty if nothing is said at a name that both have, and no
name is one of one object only. -/
theorem strategicDiff_eq_nil_iff (hb : (Value.map before).isJson) (ha : (Value.map after).isJson)
    (h : Strategic.diff shared model before after = .ok patch)
    (common : ∀ name old value said, before.field? name = some old →
      after.field? name = some value →
      Strategic.change shared model (.text name) old value = .ok said →
      (said = none ↔ Indistinct (Place.below model (.text name)) old value)) :
    patch = [] ↔ Indistinct { model } (.map before) (.map after) := by
  obtain ⟨named, removed, spoken⟩ :=
    Strategic.diff_eq_ok (Value.isJson_map.mp hb).1 (Value.isJson_map.mp ha).1 h
  rw [Members.eq_nil_iff named, indistinct_map_iff hb ha]
  refine forall_congr' fun name => ?_
  cases hafter : after.field? name with
  | none =>
    rw [removed name hafter]
    cases before.field? name <;> simp
  | some value =>
    have saying := spoken name value hafter
    unfold Strategic.written at saying
    cases hbefore : before.field? name with
    | none =>
      rw [hbefore] at saying
      rw [← Except.ok.inj saying]
      simp
    | some old =>
      rw [hbefore] at saying
      rw [Option.rel_some_some]
      exact common name old value _ hbefore hafter saying

/-- Nothing is sent for an element exactly if it is indistinct from the one with its key. -/
theorem isSilent_elementChange_iff {old : Option Value}
    (isMap : ∀ element, old = some element → ∃ members : Members, element = .map members)
    (json : ∀ element, old = some element → element.isJson)
    (changed : ∃ change, elementChange shared model old (.map after) = .ok change)
    (below : ∀ before patch, old = some (.map before) →
      Strategic.diff shared model before after = .ok patch →
      (patch = [] ↔ Indistinct { model } (.map before) (.map after))) :
    IsSilent (elementChange shared model old (.map after)) ↔
      ∃ element, old = some element ∧ Indistinct { model } element (.map after) := by
  obtain ⟨change, hchange⟩ := changed
  cases old with
  | none => simp [elementChange, IsSilent]
  | some element =>
    obtain ⟨before, rfl⟩ := isMap element rfl
    rw [elementChange] at hchange ⊢
    split at hchange
    · rename_i same
      rw [if_pos same]
      have equal := Value.equal_of_equal_shared (json _ rfl) same
      exact iff_of_true (.inl rfl) ⟨_, rfl, .equal equal⟩
    · rename_i differ
      obtain ⟨patch, hpatch, hchange⟩ := bind_eq_ok.mp hchange
      rw [if_neg differ]
      have said : IsSilent (.ok (.merge patch)) ↔ patch = [] := by simp [IsSilent]
      rw [Value.members_map, Value.members_map] at hpatch ⊢
      rw [hpatch]
      refine said.trans ((below before patch rfl hpatch).trans ?_)
      simp

/-- Nothing is sent for two lists that are merged exactly if they are indistinct. -/
theorem listPatch_eq_none_iff {olds news : List Value} {field : Value}
    (merge : place.merge = some (mergeKey, model)) (differ : ¬ (Value.list olds).equal false
      (.list news)) (jsonOlds : ∀ old ∈ olds, old.isJson) (jsonNews : ∀ new ∈ news, new.isJson)
    (below : ∀ before after patch, Value.map before ∈ olds → Value.map after ∈ news →
      Strategic.diff shared model before after = .ok patch →
      (patch = [] ↔ Indistinct { model } (.map before) (.map after)))
    (h : Strategic.listPatch field mergeKey olds news
      (fun entries => Strategic.elementChanges shared model mergeKey entries news) = .ok said) :
    said = none ↔ Indistinct place (.list olds) (.list news) := by
  obtain ⟨mapOlds, mapNews, changed, silent⟩ := compared_of_listPatch h jsonOlds jsonNews
  have silent_iff : ∀ key new, lastAt mergeKey news key = some new →
      (IsSilent (elementChange shared model (lastAt mergeKey olds key) new) ↔
        ∃ old, lastAt mergeKey olds key = some old ∧ Indistinct { model } old new) := by
    intro key new hnew
    have hmem := mem_of_lastAt hnew
    obtain ⟨after, rfl⟩ := mapNews new hmem
    refine isSilent_elementChange_iff (fun old hold => mapOlds old (mem_of_lastAt hold))
      (fun old hold => jsonOlds old (mem_of_lastAt hold)) (changed key _ hnew) ?_
    exact fun before patch hold => below before after patch (mem_of_lastAt hold) hmem
  rw [silent]
  constructor
  · rintro ⟨kept, silent⟩
    refine .list merge (fun key => ?_) fun key old new hold hnew => ?_
    · refine Bool.eq_iff_iff.mpr ⟨kept key, fun present => ?_⟩
      obtain ⟨new, hnew⟩ := Option.isSome_iff_exists.mp present
      obtain ⟨old, hold, -⟩ := (silent_iff key new hnew).mp (silent key new hnew)
      exact Option.isSome_iff_exists.mpr ⟨old, hold⟩
    · obtain ⟨other, hother, same⟩ := (silent_iff key new hnew).mp (silent key new hnew)
      obtain rfl := Option.some.inj (hold.symm.trans hother)
      exact same
  · intro same
    cases same with
    | equal h => exact (differ h).elim
    | list merge' keys elements =>
      obtain ⟨rfl, rfl⟩ := Prod.mk.inj (Option.some.inj (merge.symm.trans merge'))
      refine ⟨fun key present => keys key ▸ present, fun key new hnew => ?_⟩
      have present : (lastAt mergeKey olds key).isSome := by
        rw [keys, hnew]
        rfl
      obtain ⟨old, hold⟩ := Option.isSome_iff_exists.mp present
      exact (silent_iff key new hnew).mpr ⟨old, hold, elements key old new hold hnew⟩

/-- Only a mapping cannot be told from a mapping. -/
theorem Indistinct.exists_map {x : Value} (h : Indistinct place x (.map after)) :
    ∃ before : Members, x = .map before := by
  cases h with
  | equal h =>
    exact Value.equalWithin_map_left (Value.equalWithin_symm (Value.equalWithin_of_equal h))
  | map => exact ⟨_, rfl⟩

/-- Only a list cannot be told from a list. -/
theorem Indistinct.exists_list {x : Value} (h : Indistinct place x (.list ys)) :
    ∃ xs : List Value, x = .list xs := by
  cases h with
  | equal h =>
    exact Value.equalWithin_list_left (Value.equalWithin_symm (Value.equalWithin_of_equal h))
  | list => exact ⟨_, rfl⟩

/-- Between two lists nothing is said exactly if they are indistinct. -/
theorem change_list_eq_none_iff {olds news : List Value} (hold : (Value.list olds).isJson)
    (hnew : (Value.list news).isJson)
    (below : ∀ element before after patch, Value.map before ∈ olds → Value.map after ∈ news →
      Strategic.diff shared element before after = .ok patch →
      (patch = [] ↔ Indistinct { model := element } (.map before) (.map after)))
    (h : Strategic.change shared model (.text name) (.list olds) (.list news) = .ok said) :
    said = none ↔ Indistinct (Place.below model (.text name)) (.list olds) (.list news) := by
  rw [Strategic.change] at h
  dsimp only at h
  split at h
  · rename_i same
    cases h
    exact iff_of_true rfl (.equal (Value.equal_of_equal_shared hold same))
  · rename_i differ
    have unequal : ¬ (Value.list olds).equal false (.list news) := fun same =>
      differ (Value.equal_shared same shared)
    split at h
    · rename_i unmerged
      cases h
      refine iff_of_false (Option.some_ne_none _) fun same => ?_
      cases same with
      | equal same => exact unequal same
      | list merge =>
        rw [Place.merge_below_none unmerged] at merge
        cases merge
    · rename_i mergeKey merged
      rw [Value.isJson_list] at hold hnew
      exact listPatch_eq_none_iff (Place.merge_below merged) unequal hold hnew (below _) h

/-- Between two objects nothing is said exactly if they are indistinct. -/
theorem change_map_eq_none_iff (hold : (Value.map before).isJson) (hnew : (Value.map after).isJson)
    (below : ∀ (element : Option String) patch,
      Strategic.diff shared element before after = .ok patch →
      (patch = [] ↔ Indistinct { model := element } (.map before) (.map after)))
    (h : Strategic.change shared model (.text name) (.map before) (.map after) = .ok said) :
    said = none ↔ Indistinct (Place.below model (.text name)) (.map before) (.map after) := by
  rw [Strategic.change] at h
  split at h
  · rename_i same
    cases h
    exact iff_of_true rfl (.equal (Value.equal_of_equal_shared hold same))
  · obtain ⟨written, hwritten, h⟩ := bind_eq_ok.mp h
    cases h
    rw [nested?_eq_none_iff, below _ _ (bind_eq_ok.mpr ⟨written, hwritten, rfl⟩),
      indistinct_map_iff hold hnew, indistinct_map_iff hold hnew]
    rfl

/-- Only an equal value is indistinct from one that is no collection. -/
theorem indistinct_leaf_iff (shared : Bool) (hold : old.isJson) (hleaf : value.isLeaf) :
    Indistinct place old value ↔ old.equal shared value = true := by
  refine ⟨fun same => ?_, fun same => .equal (Value.equal_of_equal_shared hold same)⟩
  cases same with
  | equal same => exact Value.equal_shared same shared
  | map | list => cases hleaf

/-- Nothing is said of a member exactly if its values are indistinct; and a patch between two
objects is empty exactly if they are. -/
theorem indistinct_iff (shared : Bool) (value : Value) (json : value.isJson) :
    (∀ (model : Option String) (name : String) (old : Value) (said : Option Value), old.isJson →
      Strategic.change shared model (.text name) old value = .ok said →
      (said = none ↔ Indistinct (Place.below model (.text name)) old value)) ∧
    ∀ after : Members, value = .map after → ∀ (model : Option String) (before patch : Members),
      (Value.map before).isJson → Strategic.diff shared model before after = .ok patch →
      (patch = [] ↔ Indistinct { model } (.map before) (.map after)) := by
  -- The patch recurses on the new value. Elements of lists need the second part, since they are
  -- compared as objects and not as members.
  induction value using Value.induction with
  | leaf value hleaf =>
    refine ⟨fun model name old said hold h => ?_, fun _ heq => by subst heq; cases hleaf⟩
    rw [indistinct_leaf_iff shared hold hleaf]
    rw [Strategic.change] at h
    · cases h
      simp
    all_goals rintro _ rfl; cases hleaf
  | list news ih =>
    refine ⟨fun model name old said hold h => ?_, fun _ heq => by cases heq⟩
    by_cases hlist : ∃ olds, old = .list olds
    · obtain ⟨olds, rfl⟩ := hlist
      rw [Value.isJson_list] at json
      refine change_list_eq_none_iff hold (Value.isJson_list.mpr json) ?_ h
      intro element before after patch hbefore hafter
      exact (ih _ hafter (json _ hafter)).2 after rfl element before patch
        (Value.isJson_list.mp hold _ hbefore)
    · have other : ∀ olds, old ≠ .list olds := fun olds heq => hlist ⟨olds, heq⟩
      rw [Strategic.change] at h
      · cases h
        exact iff_of_false (Option.some_ne_none _) fun same => hlist same.exists_list
      · exact other
  | map after ih =>
    have values := (Value.isJson_map.mp json).2
    have empty_iff : ∀ (model : Option String) (before patch : Members),
        (Value.map before).isJson → Strategic.diff shared model before after = .ok patch →
        (patch = [] ↔ Indistinct { model } (.map before) (.map after)) := by
      intro model before patch hb h
      refine strategicDiff_eq_nil_iff hb json h fun name old value said hold hvalue => ?_
      have hmem := Members.mem_of_field? hvalue
      exact ((ih _ hmem).2 (values _ hmem)).1 model name old said
        (Value.isJson_of_field? hb hold)
    refine ⟨fun model name old said hold h => ?_, fun _ heq => by cases heq; exact empty_iff⟩
    by_cases hmap : ∃ before, old = .map before
    · obtain ⟨before, rfl⟩ := hmap
      exact change_map_eq_none_iff hold json (fun element patch => empty_iff element before patch
        hold) h
    · have other : ∀ before, old ≠ .map before := fun before heq => hmap ⟨before, heq⟩
      rw [Strategic.change] at h
      · cases h
        exact iff_of_false (Option.some_ne_none _) fun same => hmap same.exists_map
      · exact other
  | tuple items => exact (Value.not_isJson_tuple json).elim
  | set items => exact (Value.not_isJson_set json).elim

/-- The strategic patch between two JSON objects is empty exactly if they are indistinct. -/
theorem strategicPatch_eq_nil_iff (hb : (Value.map before).isJson) (ha : (Value.map after).isJson)
    (h : strategicPatch shared model (.map before) (.map after) = .ok patch) :
    patch = [] ↔ Indistinct { model } (.map before) (.map after) :=
  (indistinct_iff shared (.map after) ha).2 after rfl model before patch hb h

/-! ### What is decided -/

variable {current desired : Members} {textBefore textAfter : List Char} {info : Schema.KindInfo}
  {decision : Decision}

/-- What is recorded if the texts of two objects of a kind with a model differ is the strategic
patch between what they are on the wire. -/
theorem between_of_modelled (encodedBefore : Json.encode (.map current) = .ok textBefore)
    (encodedAfter : Json.encode (.map desired) = .ok textAfter)
    (lookup : Schema.lookupObject (.map desired) = .ok info)
    (modelled : (Schema.builtin.modelOf info.model).isSome) (differ : textBefore ≠ textAfter) :
    Decision.between (.map current) (.map desired) = do
      let patch ← strategicPatch true info.model (Json.wire (.map current))
        (Json.wire (.map desired))
      let patch ← record patch
      return { patch, strategy := .strategic } := by
  have strategic : strategyFor info.model = .strategic := if_pos modelled
  rw [between_eq encodedBefore encodedAfter lookup, if_neg (by simpa using differ), strategic]

/-- If a decision is reached between two objects of a kind with a model, it is empty exactly if
the objects are indistinct on the wire. -/
theorem isEmpty_iff_indistinct_wire (regularBefore : (Value.map current).isRegular)
    (regularAfter : (Value.map desired).isRegular)
    (encodedBefore : Json.encode (.map current) = .ok textBefore)
    (encodedAfter : Json.encode (.map desired) = .ok textAfter)
    (lookup : Schema.lookupObject (.map desired) = .ok info)
    (modelled : (Schema.builtin.modelOf info.model).isSome)
    (h : Decision.between (.map current) (.map desired) = .ok decision) :
    decision.isEmpty = true ↔ Indistinct { model := info.model } (Json.wire (.map current))
      (Json.wire (.map desired)) := by
  have jsonBefore := Json.isJson_wire regularBefore encodedBefore
  have jsonAfter := Json.isJson_wire regularAfter encodedAfter
  by_cases same : textBefore = textAfter
  · subst same
    rw [between_eq encodedBefore encodedAfter lookup, if_pos (beq_self_eq_true textBefore)] at h
    cases h
    rw [Json.wire_eq_of_encode_eq regularBefore regularAfter encodedBefore encodedAfter]
    exact iff_of_true rfl (.equal (Value.equal_self false jsonAfter))
  · rw [between_of_modelled encodedBefore encodedAfter lookup modelled same] at h
    rw [Json.wire_map] at jsonBefore jsonAfter h ⊢
    rw [Json.wire_map] at h ⊢
    obtain ⟨patch, hpatch, h⟩ := bind_eq_ok.mp h
    obtain ⟨recorded, hrecord, h⟩ := bind_eq_ok.mp h
    cases h
    obtain ⟨named, -⟩ := Strategic.diff_eq_ok (Value.isJson_map.mp jsonBefore).1
      (Value.isJson_map.mp jsonAfter).1 hpatch
    obtain ⟨found, hfound, none_iff⟩ := exists_record named
    obtain rfl := Except.ok.inj (hrecord.symm.trans hfound)
    exact none_iff.trans (strategicPatch_eq_nil_iff jsonBefore jsonAfter hpatch)

/-- If no decision is reached between two objects of a kind with a model, that is because of an
element without a usable key. -/
theorem unkeyable_of_between {failure : Failure} (regularBefore : (Value.map current).isRegular)
    (regularAfter : (Value.map desired).isRegular)
    (encodedBefore : Json.encode (.map current) = .ok textBefore)
    (encodedAfter : Json.encode (.map desired) = .ok textAfter)
    (lookup : Schema.lookupObject (.map desired) = .ok info)
    (modelled : (Schema.builtin.modelOf info.model).isSome)
    (h : Decision.between (.map current) (.map desired) = .error failure) :
    Unkeyable failure := by
  have jsonBefore := Json.isJson_wire regularBefore encodedBefore
  have jsonAfter := Json.isJson_wire regularAfter encodedAfter
  by_cases same : textBefore = textAfter
  · subst same
    rw [between_eq encodedBefore encodedAfter lookup, if_pos (beq_self_eq_true textBefore)] at h
    cases h
  · rw [between_of_modelled encodedBefore encodedAfter lookup modelled same] at h
    rw [Json.wire_map] at jsonBefore jsonAfter h
    rw [Json.wire_map] at h
    rcases bind_eq_error.mp h with hpatch | ⟨patch, hpatch, h⟩
    · exact Strategic.unkeyable_of_diff hpatch
    · obtain ⟨named, -⟩ := Strategic.diff_eq_ok (Value.isJson_map.mp jsonBefore).1
        (Value.isJson_map.mp jsonAfter).1 hpatch
      obtain ⟨recorded, hrecord, -⟩ := exists_record named
      rw [hrecord] at h
      cases h

/-- Between two objects of a kind with a model a decision is reached, unless an element of a
list that is merged has no usable key. It is empty exactly if what their canonical texts spell
is indistinct. Where no key repeats, the objects then are equal but for the order of elements. -/
theorem isEmpty_between_iff_indistinct (regularBefore : (Value.map current).isRegular)
    (regularAfter : (Value.map desired).isRegular)
    (encodedBefore : Json.encode (.map current) = .ok textBefore)
    (encodedAfter : Json.encode (.map desired) = .ok textAfter)
    (lookup : Schema.lookupObject (.map desired) = .ok info)
    (modelled : (Schema.builtin.modelOf info.model).isSome) :
    ∃ old new, Json.decode textBefore = some old ∧ Json.decode textAfter = some new ∧
      (∀ failure, Decision.between (.map current) (.map desired) = .error failure →
        Unkeyable failure) ∧
      ∀ decision, Decision.between (.map current) (.map desired) = .ok decision →
        (decision.isEmpty = true ↔ Indistinct { model := info.model } old new) ∧
        (everyMerged haveDistinctKeys { model := info.model } old →
          everyMerged haveDistinctKeys { model := info.model } new →
          decision.isEmpty = true → Reordered { model := info.model } old new) := by
  refine ⟨_, _, Json.decode_encode regularBefore encodedBefore,
    Json.decode_encode regularAfter encodedAfter, fun failure h => ?_, fun decision h => ?_⟩
  · exact unkeyable_of_between regularBefore regularAfter encodedBefore encodedAfter lookup
      modelled h
  · have empty_iff := isEmpty_iff_indistinct_wire regularBefore regularAfter encodedBefore
      encodedAfter lookup modelled h
    refine ⟨empty_iff, fun distinctOld distinctNew empty => ?_⟩
    exact (empty_iff.mp empty).reordered (Json.isJson_wire regularBefore encodedBefore)
      (Json.isJson_wire regularAfter encodedAfter) distinctOld distinctNew

/-- A service with some ports, each with its protocol. -/
def service (ports : List (Int × String)) : Members := [
  (.text "apiVersion", .text "v1"),
  (.text "kind", .text "Service"),
  (.text "metadata", .map [(.text "name", .text "dns")]),
  (.text "spec", .map [(.text "ports", .list (ports.map fun port =>
    .map [(.text "port", .int port.1), (.text "protocol", .text port.2)]))])]

/-- Two services whose ports stand in another order. -/
theorem isEmpty_between_services : ∃ textBefore textAfter old new decision,
    Json.encode (.map (service [(53, "UDP"), (80, "TCP")])) = .ok textBefore ∧
    Json.encode (.map (service [(80, "TCP"), (53, "UDP")])) = .ok textAfter ∧
    Json.decode textBefore = some old ∧ Json.decode textAfter = some new ∧
    Decision.between (.map (service [(53, "UDP"), (80, "TCP")]))
      (.map (service [(80, "TCP"), (53, "UDP")])) = .ok decision ∧
    (decision.isEmpty = true ↔ Indistinct { model := some "V1Service" } old new) ∧
    (decision.isEmpty = true → Reordered { model := some "V1Service" } old new) := by
  obtain ⟨textBefore, hbefore⟩ := exists_of_isOk (by decide +kernel :
    (Json.encode (.map (service [(53, "UDP"), (80, "TCP")]))).isOk)
  obtain ⟨textAfter, hafter⟩ := exists_of_isOk (by decide +kernel :
    (Json.encode (.map (service [(80, "TCP"), (53, "UDP")]))).isOk)
  obtain ⟨decision, hdecision⟩ := exists_of_isOk (by decide +kernel :
    (Decision.between (.map (service [(53, "UDP"), (80, "TCP")]))
      (.map (service [(80, "TCP"), (53, "UDP")]))).isOk)
  have regularBefore : (Value.map (service [(53, "UDP"), (80, "TCP")])).isRegular := by
    decide +kernel
  have regularAfter : (Value.map (service [(80, "TCP"), (53, "UDP")])).isRegular := by
    decide +kernel
  obtain ⟨old, new, hold, hnew, -, decided⟩ := isEmpty_between_iff_indistinct
    regularBefore regularAfter hbefore hafter rfl (by decide +kernel)
  obtain ⟨empty_iff, reordered⟩ := decided decision hdecision
  have wireBefore := Json.decode_encode regularBefore hbefore
  have wireAfter := Json.decode_encode regularAfter hafter
  obtain rfl := Option.some.inj (hold.symm.trans wireBefore)
  obtain rfl := Option.some.inj (hnew.symm.trans wireAfter)
  refine ⟨textBefore, textAfter, _, _, decision, hbefore, hafter, hold, hnew, hdecision,
    empty_iff, reordered ?_ ?_⟩
  · decide +kernel
  · decide +kernel

/-- A port is taken away from a service, and nothing is sent: the port that is left has the
same number and another protocol. -/
theorem shared_number_hides_port : ∃ textBefore textAfter old new decision,
    Json.encode (.map (service [(53, "TCP"), (53, "UDP")])) = .ok textBefore ∧
    Json.encode (.map (service [(53, "UDP")])) = .ok textAfter ∧
    Json.decode textBefore = some old ∧ Json.decode textAfter = some new ∧
    Decision.between (.map (service [(53, "TCP"), (53, "UDP")])) (.map (service [(53, "UDP")])) =
      .ok decision ∧
    decision.isEmpty = true ∧ ¬ Reordered { model := some "V1Service" } old new := by
  obtain ⟨textBefore, hbefore⟩ := exists_of_isOk (by decide +kernel :
    (Json.encode (.map (service [(53, "TCP"), (53, "UDP")]))).isOk)
  obtain ⟨textAfter, hafter⟩ := exists_of_isOk (by decide +kernel :
    (Json.encode (.map (service [(53, "UDP")]))).isOk)
  obtain ⟨decision, hdecision, empty⟩ := exists_of_any (by decide +kernel :
    (Decision.between (.map (service [(53, "TCP"), (53, "UDP")]))
      (.map (service [(53, "UDP")]))).toOption.any Decision.isEmpty)
  have regularBefore : (Value.map (service [(53, "TCP"), (53, "UDP")])).isRegular := by
    decide +kernel
  have regularAfter : (Value.map (service [(53, "UDP")])).isRegular := by decide +kernel
  refine ⟨textBefore, textAfter, _, _, decision, hbefore, hafter,
    Json.decode_encode regularBefore hbefore, Json.decode_encode regularAfter hafter, hdecision,
    empty, fun reordered => ?_⟩
  -- The two lists of ports would be of one length.
  have specs := reordered.at_name "spec" (by decide +kernel) (by decide +kernel) rfl rfl
  have ports := specs.at_name "ports" (by decide +kernel) (by decide +kernel) rfl rfl
  exact absurd ports.length_eq (by decide)

end Reconciler.Patch
