import Reconciler.Proofs.Patch.Keyed

/-!
# Strategic patches and what they make

Whenever the strategic patch between two JSON objects can be computed, it makes of the first
an object that says the same as the second. What is asked of the two objects is that in
every list that is merged by a key the elements can be told apart by their keys and none of
them looks like an instruction to the server.

The recursion goes down the second object. At a mapping the patch is read name by name, and
at a list that is merged key by key, since the elements of the patched list stand in another
order.
-/

namespace Reconciler.Patch.Strategic

open Schema (Place)

variable {shared : Bool} {model : Option String} {before after patch : Members}

/-! ### What a patch says -/

/-- What a patch writes at a name at which the second mapping has a value. -/
def written (shared : Bool) (model : Option String) (before : Members) (name : String)
    (value : Value) : Except Failure (Option Value) :=
  match before.field? name with
  | none => .ok (some value)
  | some old => change shared model (.text name) old value

theorem additions_cons (name : String) (value : Value) (rest : Members) :
    additions shared model before ((.text name, value) :: rest) = (do
      let here ← written shared model before name value
      let others ← additions shared model before rest
      return (here.elim [] fun value => [(.text name, value)]) ++ others) := by
  rw [additions, written, Members.field?]
  cases before.at? (.text name) <;> rfl

/-- The written members have text keys and no others than the second mapping. -/
theorem additions_eq_ok {out : Members} (ha : after.isNamed)
    (h : additions shared model before after = .ok out) :
    out.isNamed ∧ (∀ name, after.field? name = none → out.field? name = none) ∧
      ∀ name value, after.field? name = some value →
        written shared model before name value = .ok (out.field? name) := by
  induction after generalizing out with
  | nil =>
    rw [additions] at h
    cases h
    exact ⟨rfl, fun _ _ => rfl, nofun⟩
  | cons member rest ih =>
    obtain ⟨key, value⟩ := member
    obtain ⟨own, rfl, fresh, named⟩ := Members.isNamed_cons.mp ha
    rw [additions_cons] at h
    obtain ⟨here, hhere, h⟩ := bind_eq_ok.mp h
    obtain ⟨others, hothers, h⟩ := bind_eq_ok.mp h
    cases h
    obtain ⟨othersNamed, silent, spoken⟩ := ih named hothers
    refine ⟨isNamed_elim_append here (silent own fresh) othersNamed, fun name hname => ?_,
      fun name other hname => ?_⟩
    · rw [Members.field?_cons_text] at hname
      rw [field?_elim_append here (silent own fresh)]
      split at hname
      · cases hname
      · rename_i hne
        rw [if_neg hne, silent name hname]
    · rw [Members.field?_cons_text] at hname
      rw [field?_elim_append here (silent own fresh)]
      split at hname
      · rename_i heq
        cases hname
        rw [if_pos heq, ← heq, hhere]
      · rename_i hne
        rw [if_neg hne, spoken name other hname]

/-- What the patch between two mappings says at each name, if it can be computed. -/
theorem diff_eq_ok (hb : before.isNamed) (ha : after.isNamed)
    (h : diff shared model before after = .ok patch) :
    patch.isNamed ∧
      (∀ name, after.field? name = none →
        patch.field? name = if (before.field? name).isSome then some .null else none) ∧
      ∀ name value, after.field? name = some value →
        written shared model before name value = .ok (patch.field? name) := by
  obtain ⟨out, hout, h⟩ := bind_eq_ok.mp h
  cases h
  obtain ⟨named, silent, spoken⟩ := additions_eq_ok ha hout
  refine ⟨isNamed_append_removals hb named silent, fun name hname => ?_,
    fun name value hname => ?_⟩
  · rw [field?_append_removals silent, hname]
  · rw [field?_append_removals silent, hname]
    exact spoken name value hname

/-! ### What a patch makes of a mapping -/

/-- A patch makes of one mapping, typed by a model, one that says the same as another. -/
structure Brings (model : Option String) (before patch after : Members) : Prop where
  named : patch.isNamed
  silent : ∀ name, before.field? name = none → after.field? name = none →
    patch.field? name = none
  alike : ∀ name, AlikeAt (Place.below model (.text name))
    (patchedAt (applyAt model) name (before.field? name) (patch.field? name)) (after.field? name)

theorem Brings.alike_applyMembers (h : Brings model before patch after) (hb : before.isNamed)
    (ha : after.isNamed) {place : Place} (hplace : place.model = model) :
    Alike place (.map (applyMembers model before patch)) (.map after) := by
  subst hplace
  rw [strategic_applyMembers_eq]
  exact alike_patchWith hb h.named ha h.alike

/-- A patch may also state the key by which an element is merged. -/
theorem Brings.put {mergeKey : String} {key : Value} (h : Brings model before patch after)
    (keyed : after.field? mergeKey = some key) (scalar : key.isScalar) (json : key.isJson) :
    Brings model before (patch.put (.text mergeKey) key) after := by
  refine ⟨Members.isNamed_put h.named _ _, fun name hbefore hafter => ?_, fun name => ?_⟩
  · rw [Members.field?_put, if_neg, h.silent name hbefore hafter]
    rintro rfl
    cases keyed.symm.trans hafter
  · rw [Members.field?_put]
    split
    · rename_i heq
      have present := (Value.IsMark.of_isJson scalar json).isNull_eq
      rw [patchedAt, if_neg (by simp [present]), applyAt_of_isScalar _ _ _ scalar, ← heq, keyed]
      exact Alike.at_some (.refl _ json)
    · exact h.alike name

/-- A value is kept where there is nothing to merge it with. -/
theorem applyAt_null (key value : Value) : applyAt model key .null value = value := by
  cases value <;> rw [applyAt] <;> intros <;> contradiction

/-- The patch between two mappings brings one to the other if it does so at each name that
both of them have. -/
theorem brings_diff (hb : before.isNamed) (ha : (Value.map after).isJson)
    (h : diff shared model before after = .ok patch)
    (common : ∀ name old value said, before.field? name = some old →
      after.field? name = some value → change shared model (.text name) old value = .ok said →
      AlikeAt (Place.below model (.text name)) (patchedAt (applyAt model) name (some old) said)
        (some value)) : Brings model before patch after := by
  obtain ⟨named, values⟩ := Value.isJson_map.mp ha
  obtain ⟨patchNamed, removed, spoken⟩ := diff_eq_ok hb named h
  refine ⟨patchNamed, fun name hbefore hafter => ?_, fun name => ?_⟩
  · rw [removed name hafter, hbefore]
    rfl
  · cases hafter : after.field? name with
    | none =>
      rw [removed name hafter]
      cases before.field? name <;> exact .none_left rfl
    | some value =>
      have said := spoken name value hafter
      unfold written at said
      cases hbefore : before.field? name with
      | some old =>
        rw [hbefore] at said
        exact common name old value _ hbefore hafter said
      | none =>
        rw [hbefore] at said
        rw [← Except.ok.inj said, patchedAt]
        split
        · rename_i hnull
          exact .none_left hnull
        · rw [Value.ofOption_none, applyAt_null]
          exact Alike.at_some (.refl _ (values _ (Members.mem_of_field? hafter)))

/-! ### What a patch makes of a list -/

variable {mergeKey : String} {olds news : List Value}

/-- What the patch says of an element of the second list names that element, does not remove
it, and makes an element that says the same. -/
theorem patchedElementAt_elementPatch? {element key : Value} {members : Members}
    {changed : Change} (hb : IsListing mergeKey olds) (jsonOlds : ∀ old ∈ olds, old.isJson)
    (helement : IsElement mergeKey element members key) (json : element.isJson)
    (hchanged : changeFrom shared model mergeKey olds element = .ok changed)
    (brings : ∀ old patch, Value.map old ∈ olds → diff shared model old members = .ok patch →
      Brings model old patch members) :
    (∀ item, elementPatch? mergeKey key changed = some item →
      ∃ patch, IsItem mergeKey item patch key ∧ isDeletion patch = false) ∧
    ∃ result, patchedElementAt model (elementPatch? mergeKey key changed)
        (elementAt mergeKey olds key) = some result ∧ Alike { model } result element := by
  have hkey := helement.mergeKeyOf_eq
  obtain ⟨rfl, keyed, mark, free⟩ := helement
  have named := (Value.isJson_map.mp json).1
  rw [changeFrom, hkey] at hchanged
  unfold elementChange at hchanged
  split at hchanged
  · rename_i old hold
    have hmem := List.mem_of_find?_eq_some hold
    obtain ⟨oldMembers, oldKey, rfl, oldKeyed, oldMark, oldFree⟩ := hb.isElement old hmem
    rw [hold]
    split at hchanged
    · rename_i heq
      cases hchanged
      have same := Value.equal_of_equal_shared (jsonOlds _ hmem) heq
      exact ⟨fun _ heq => (by cases heq), _, rfl, .equal same⟩
    · obtain ⟨patch, hpatch, hchanged⟩ := bind_eq_ok.mp hchanged
      cases hchanged
      have brought := brings oldMembers patch hmem hpatch
      have oldNamed := (Value.isJson_map.mp (jsonOlds _ hmem)).1
      cases patch with
      | nil =>
        refine ⟨fun _ heq => (by cases heq), _, rfl, ?_⟩
        simpa using brought.alike_applyMembers oldNamed named rfl
      | cons member rest =>
        have stated := brought.put keyed mark.scalar (Value.isJson_of_field? json keyed)
        have kept : isDeletion (Members.put (member :: rest) (.text mergeKey) key) = false :=
          isDeletion_of_free (stated.silent directive oldFree free)
        refine ⟨fun item hitem => ?_, _, if_neg (by simp [kept]), ?_⟩
        · cases hitem
          exact ⟨_, ⟨rfl, stated.named, by rw [Members.field?_put, if_pos rfl], mark⟩, kept⟩
        · exact stated.alike_applyMembers oldNamed named rfl
  · rename_i hold
    cases hchanged
    rw [hold]
    refine ⟨fun item hitem => ?_, .map members, ?_, .refl _ json⟩
    · cases hitem
      exact ⟨members, ⟨rfl, named, keyed, mark⟩, isDeletion_of_free free⟩
    · exact if_neg (by simp [isDeletion_of_free free])

/-- The patch between two lists makes of the first one that says the same as the second, if
that holds of the mappings in them. -/
theorem alike_applyElements {place : Place} (merge : place.merge = some (mergeKey, model))
    (hdirective : mergeKey ≠ directive) (hb : IsListing mergeKey olds)
    (ha : IsListing mergeKey news) (jsonOlds : ∀ old ∈ olds, old.isJson)
    (jsonNews : ∀ new ∈ news, new.isJson)
    (changed : ∀ element ∈ news, ∃ changed,
      changeFrom shared model mergeKey olds element = .ok changed)
    (brings : ∀ old new patch, Value.map old ∈ olds → Value.map new ∈ news →
      diff shared model old new = .ok patch → Brings model old patch new) :
    Alike place
      (.list (applyElements model mergeKey olds (itemsBetween shared model mergeKey olds news)))
      (.list news) := by
  have said : ∀ element ∈ news,
      (∀ item, saidOf mergeKey (changeFrom shared model mergeKey olds) element = some item →
        ∃ patch, IsItem mergeKey item patch (mergeKeyOf mergeKey element)) ∧
      ∃ result, patchedElementAt model
          (saidOf mergeKey (changeFrom shared model mergeKey olds) element)
          (elementAt mergeKey olds (mergeKeyOf mergeKey element)) = some result ∧
        Alike { model } result element := by
    intro element hmem
    obtain ⟨members, key, helement⟩ := ha.isElement element hmem
    obtain ⟨change, hchange⟩ := changed element hmem
    rw [saidOf, hchange, helement.mergeKeyOf_eq]
    obtain ⟨items, result⟩ := patchedElementAt_elementPatch? hb jsonOlds helement
      (jsonNews element hmem) hchange fun old patch hold hpatch =>
        brings old members patch hold (helement.eq ▸ hmem) hpatch
    exact ⟨fun item hitem => (items item hitem).imp fun _ => And.left, result⟩
  have atKey : AtKeyOf mergeKey news
      (saidOf mergeKey (changeFrom shared model mergeKey olds)) := by
    intro element hmem item hitem
    obtain ⟨patch, hpatch⟩ := (said element hmem).1 item hitem
    exact hpatch.mergeKeyOf_eq
  have isItem : ∀ item ∈ itemsBetween shared model mergeKey olds news,
      ∃ patch key, IsItem mergeKey item patch key := by
    intro item hitem
    rcases List.mem_append.mp hitem with hitem | hitem
    · obtain ⟨element, hmem, heq⟩ := List.mem_filterMap.mp hitem
      obtain ⟨patch, hpatch⟩ := (said element hmem).1 item heq
      exact ⟨patch, _, hpatch⟩
    · obtain ⟨old, hmem, heq⟩ := List.mem_filterMap.mp hitem
      unfold removalOf at heq
      split at heq
      · cases heq
      · cases heq
        exact ⟨_, _, isItem_deletion hdirective (hb.marks old hmem)⟩
  obtain ⟨marked, found⟩ := elementAt_applyElements model hb.toMarked
    (marked_items hdirective hb.toMarked ha.toMarked atKey) isItem
  have items := elementAt_items hdirective hb.toMarked ha.toMarked atKey
  refine .of_marked merge marked ha.toMarked (fun element hmem => ?_) fun x hmem => ?_
  · have self := elementAt_self ha.toMarked.distinct hmem
    obtain ⟨result, hresult, alike⟩ := (said element hmem).2
    refine ⟨result, ?_, alike⟩
    rw [itemsBetween, found, items, self]
    exact hresult
  · -- An element that the second list does not have has been removed.
    have here := elementAt_self marked.distinct hmem
    by_cases known : (elementAt mergeKey news (mergeKeyOf mergeKey x)).isSome
    · exact known
    · rw [Option.not_isSome_iff_eq_none] at known
      rw [found, items, known] at here
      cases hold : elementAt mergeKey olds (mergeKeyOf mergeKey x) with
      | none =>
        rw [hold] at here
        cases here
      | some old =>
        rw [hold, Option.map_some, patchedElementAt, Value.members_map,
          isDeletion_deletion, if_pos rfl] at here
        cases here

/-! ### What a patch makes of a value -/

theorem applyAt_list (key : Value) (target patch : List Value) :
    applyAt model key (.list target) (.list patch) =
      match Schema.mergeKeyAt model key with
      | some mergeKey => .list (applyElements
          (Schema.builtin.modelOf (Schema.elementType (Schema.typeAt model key)))
          mergeKey target patch)
      | none => .list patch := by
  cases h : Schema.mergeKeyAt model key <;> simp [applyAt, h]

variable {name : String} {old value : Value} {said : Option Value}

/-- The values below two objects that can be patched: both are JSON, and the elements of
their lists can be told apart. -/
structure IsPair (place : Place) (old value : Value) : Prop where
  jsonOld : old.isJson
  jsonValue : value.isJson
  mergeableOld : isMergeable place old
  mergeableValue : isMergeable place value

theorem IsPair.at_name {place : Place} (h : IsPair place (.map before) (.map after))
    (hold : before.field? name = some old) (hvalue : after.field? name = some value) :
    IsPair (Place.below place.model (.text name)) old value where
  jsonOld := Value.isJson_of_field? h.jsonOld hold
  jsonValue := Value.isJson_of_field? h.jsonValue hvalue
  mergeableOld := isMergeable_of_field? h.mergeableOld hold
  mergeableValue := isMergeable_of_field? h.mergeableValue hvalue

/-- The place of a mapping matters only for its model. -/
theorem IsPair.of_map {place : Place} (h : IsPair place (.map before) (.map after)) :
    IsPair { model := place.model } (.map before) (.map after) where
  jsonOld := h.jsonOld
  jsonValue := h.jsonValue
  mergeableOld := by simpa [isMergeable] using h.mergeableOld
  mergeableValue := by simpa [isMergeable] using h.mergeableValue

theorem alikeAt_kept {place : Place} (hold : old.isJson) (h : old.equal shared value) :
    AlikeAt place (patchedAt (applyAt model) name (some old) none) (some value) :=
  Alike.at_some (.equal (Value.equal_of_equal_shared hold h))

theorem alikeAt_replaced {place : Place} (json : value.isJson)
    (h : applyAt model (.text name) old value = value) :
    AlikeAt place (patchedAt (applyAt model) name (some old) (some value)) (some value) := by
  rw [patchedAt]
  split
  · rename_i hnull
    exact .none_left hnull
  · rw [Value.ofOption_some, h]
    exact Alike.at_some (.refl _ json)

/-- What the patch says at a name where both sides have lists. -/
theorem alikeAt_change_list {olds news : List Value}
    (pair : IsPair (Place.below model (.text name)) (.list olds) (.list news))
    (brings : ∀ element old new patch, Value.map new ∈ news →
      IsPair { model := element } (.map old) (.map new) →
      diff shared element old new = .ok patch → Brings element old patch new)
    (h : change shared model (.text name) (.list olds) (.list news) = .ok said) :
    AlikeAt (Place.below model (.text name))
      (patchedAt (applyAt model) name (some (.list olds)) said) (some (.list news)) := by
  rw [change] at h
  dsimp only at h
  split at h
  · rename_i heq
    cases h
    exact alikeAt_kept pair.jsonOld heq
  · split at h
    · rename_i unmerged
      cases h
      refine alikeAt_replaced pair.jsonValue ?_
      rw [applyAt_list, unmerged]
    · rename_i mergeKey merged
      have merge := Place.merge_below merged
      obtain ⟨apartOlds, mergeableOlds⟩ := isMergeable_list merge pair.mergeableOld
      obtain ⟨apartNews, mergeableNews⟩ := isMergeable_list merge pair.mergeableValue
      have jsonOlds := Value.isJson_list.mp pair.jsonOld
      have jsonNews := Value.isJson_list.mp pair.jsonValue
      obtain ⟨hb, ha, changed, rfl⟩ := listPatch_eq_ok h apartOlds jsonOlds apartNews jsonNews
      have patched := alike_applyElements merge (mergeKey_ne_directive merged) hb ha jsonOlds
        jsonNews changed fun old new patch hold hnew => brings _ old new patch hnew
          ⟨jsonOlds _ hold, jsonNews _ hnew, mergeableOlds _ hold, mergeableNews _ hnew⟩
      split
      · rename_i hempty
        rw [List.isEmpty_iff.mp hempty, applyElements_nil] at patched
        exact Alike.at_some patched
      · rw [patchedAt, if_neg (by simp [Value.isNull]), Value.ofOption_some, applyAt_list, merged]
        exact Alike.at_some patched

/-- What the patch says at a name where both sides have mappings. -/
theorem alikeAt_change_map (pair : IsPair (Place.below model (.text name)) (.map before)
      (.map after))
    (brings : ∀ patch, diff shared (Place.below model (.text name)).model before after =
      .ok patch → Brings (Place.below model (.text name)).model before patch after)
    (h : change shared model (.text name) (.map before) (.map after) = .ok said) :
    AlikeAt (Place.below model (.text name))
      (patchedAt (applyAt model) name (some (.map before)) said) (some (.map after)) := by
  rw [change] at h
  split at h
  · rename_i heq
    cases h
    exact alikeAt_kept pair.jsonOld heq
  · obtain ⟨out, hout, h⟩ := bind_eq_ok.mp h
    cases h
    have patched := (brings _ (bind_eq_ok.mpr ⟨out, hout, rfl⟩)).alike_applyMembers
      (Value.isJson_map.mp pair.jsonOld).1 (Value.isJson_map.mp pair.jsonValue).1 rfl
    rw [patchedAt_nested?]
    split
    · rename_i hempty
      rw [List.isEmpty_iff.mp hempty, applyMembers_nil] at patched
      exact Alike.at_some patched
    · rw [Value.ofOption_some, applyAt]
      exact Alike.at_some patched

/-- A value is brought to every value below which the patch can be computed; and so are the
members of a mapping. -/
theorem brought (shared : Bool) (value : Value) :
    (∀ (model : Option String) (name : String) (old : Value) (said : Option Value),
      IsPair (Place.below model (.text name)) old value →
      change shared model (.text name) old value = .ok said →
      AlikeAt (Place.below model (.text name)) (patchedAt (applyAt model) name (some old) said)
        (some value)) ∧
    ∀ (after : Members), value = .map after → ∀ (model : Option String) (before patch : Members),
      IsPair { model } (.map before) (.map after) → diff shared model before after = .ok patch →
      Brings model before patch after := by
  induction value using Value.induction with
  | leaf value hleaf =>
    refine ⟨fun model name old said pair h => ?_, ?_⟩
    · have kept : applyAt model (.text name) old value = value := by
        rw [applyAt] <;> rintro _ rfl <;> cases hleaf
      rw [change] at h
      · cases h
        split
        · exact alikeAt_kept pair.jsonOld ‹_›
        · exact alikeAt_replaced pair.jsonValue kept
      all_goals rintro _ rfl; cases hleaf
    · rintro _ rfl
      cases hleaf
  | list items ih =>
    refine ⟨fun model name old said pair h => ?_, fun _ heq => by cases heq⟩
    by_cases hlist : ∃ olds, old = .list olds
    · obtain ⟨olds, rfl⟩ := hlist
      exact alikeAt_change_list pair
        (fun element old new patch hnew => (ih _ hnew).2 new rfl element old patch) h
    · have other : ∀ olds, old ≠ .list olds := fun olds hold => hlist ⟨olds, hold⟩
      rw [change] at h
      · cases h
        refine alikeAt_replaced pair.jsonValue ?_
        rw [applyAt]
        exact fun olds _ hold => (other olds hold).elim
      · exact other
  | map after ih =>
    have brings : ∀ (model : Option String) (before patch : Members),
        IsPair { model } (.map before) (.map after) → diff shared model before after = .ok patch →
        Brings model before patch after := by
      intro model before patch pair h
      refine brings_diff (Value.isJson_map.mp pair.jsonOld).1 pair.jsonValue h ?_
      intro name old value said hold hvalue
      exact (ih _ (Members.mem_of_field? hvalue)).2.1 model name old said (pair.at_name hold hvalue)
    refine ⟨fun model name old said pair h => ?_, fun _ heq => ?_⟩
    · by_cases hmap : ∃ before, old = .map before
      · obtain ⟨before, rfl⟩ := hmap
        exact alikeAt_change_map pair (fun patch => brings _ before patch pair.of_map) h
      · have other : ∀ before, old ≠ .map before := fun before hold => hmap ⟨before, hold⟩
        rw [change] at h
        · cases h
          refine alikeAt_replaced pair.jsonValue ?_
          rw [applyAt]
          exact other
        · exact other
    · cases heq
      exact brings
  | tuple items =>
    exact ⟨fun _ _ _ _ pair => (Value.not_isJson_tuple pair.jsonValue).elim,
      fun _ heq => by cases heq⟩
  | set items =>
    exact ⟨fun _ _ _ _ pair => (Value.not_isJson_set pair.jsonValue).elim,
      fun _ heq => by cases heq⟩

/-- The strategic patch between two JSON objects whose elements can be told apart makes of
the first an object that says the same as the second. -/
theorem alike_apply_strategicPatch (shared : Bool) (model : Option String)
    (before after : Members) (jsonBefore : (Value.map before).isJson)
    (jsonAfter : (Value.map after).isJson) (apartBefore : isMergeable { model } (.map before))
    (apartAfter : isMergeable { model } (.map after)) (patch : Members)
    (h : strategicPatch shared model (.map before) (.map after) = .ok patch) :
    Alike { model } (Strategy.strategic.apply model (.map before) patch) (.map after) := by
  have brings := (brought shared (.map after)).2 after rfl model before patch
    ⟨jsonBefore, jsonAfter, apartBefore, apartAfter⟩ h
  exact brings.alike_applyMembers (Value.isJson_map.mp jsonBefore).1
    (Value.isJson_map.mp jsonAfter).1 rfl

/-- The description of a pod before and after a change that adds, patches, removes and moves
containers and variables, and that meets nulls. -/
def podBefore : Members := [
  (.text "containers", .list [
    .map [(.text "name", .text "app"), (.text "image", .text "app:1"),
      (.text "env", .list [.map [(.text "name", .text "A"), (.text "value", .text "1")],
        .map [(.text "name", .text "B"), (.text "value", .null)]])],
    .map [(.text "name", .text "log")]]),
  (.text "nodeSelector", .map [(.text "disk", .text "ssd"), (.text "zone", .null)]),
  (.text "hostname", .text "old")]

@[inherit_doc podBefore]
def podAfter : Members := [
  (.text "nodeSelector", .map [(.text "zone", .text "east"), (.text "rack", .null)]),
  (.text "containers", .list [
    .map [(.text "name", .text "proxy")],
    .map [(.text "env", .list [.map [(.text "name", .text "C")],
        .map [(.text "name", .text "A"), (.text "value", .text "2")]]),
      (.text "name", .text "app"), (.text "image", .text "app:1")]])]

theorem alike_apply_podPatch : ∃ patch,
    strategicPatch true (some "V1PodSpec") (.map podBefore) (.map podAfter) = .ok patch ∧
      Alike { model := some "V1PodSpec" }
        (Strategy.strategic.apply (some "V1PodSpec") (.map podBefore) patch) (.map podAfter) := by
  obtain ⟨patch, h⟩ := exists_of_isOk (by decide +kernel :
    (strategicPatch true (some "V1PodSpec") (.map podBefore) (.map podAfter)).isOk)
  exact ⟨patch, h, alike_apply_strategicPatch true (some "V1PodSpec") podBefore podAfter
    (by decide +kernel) (by decide +kernel) (by decide +kernel) (by decide +kernel) patch h⟩

end Reconciler.Patch.Strategic
