import Reconciler.Proofs.Patch.Elements
import Mathlib.Data.List.Induction

/-!
# The patch between two lists that are merged

A list can be merged by a key if its elements can be told apart by it and none of them looks
like an instruction to the server. The patch between two such lists then consists of at most
one item for each element of either list, and the item is known by the key of the element.
-/

namespace Reconciler.Patch

open Schema (Place)
open Value (sameKey)
open Strategic (mergeKeyOf isDeletion)

/-! ### Objects whose elements can be told apart -/

/-- Whether the elements of a list can be told apart: those that have a key have a scalar that
no other element has, and no element has a directive. -/
def areApart (mergeKey : String) : List Value → Bool
  | [] => true
  | element :: rest =>
    (element.members.field? mergeKey).all (fun key =>
      key.isScalar && rest.all fun other => !sameKey key (mergeKeyOf mergeKey other)) &&
    (element.members.field? directive).isNone && areApart mergeKey rest

mutual

/-- Whether in a value the elements of all lists that are merged can be told apart. -/
def isMergeable (place : Place) : Value → Bool
  | .map members => areMergeableMembers place.model members
  | .list items =>
    match place.merge with
    | some (mergeKey, model) => areApart mergeKey items && areMergeable { model } items
    | none => true
  | _ => true

/-- Whether this holds in all items of a list. -/
def areMergeable (place : Place) : List Value → Bool
  | [] => true
  | item :: items => isMergeable place item && areMergeable place items

/-- Whether this holds in the values of all members of a mapping that a model types. -/
def areMergeableMembers (model : Option String) : Members → Bool
  | [] => true
  | (key, value) :: rest =>
    isMergeable (Place.below model key) value && areMergeableMembers model rest

end

mutual

/-- Whether a test of a key and a list holds of every list in a value that is merged. -/
def everyMerged (test : String → List Value → Bool) (place : Place) : Value → Bool
  | .map members => everyMergedIn test place.model members
  | .list items =>
    match place.merge with
    | some (mergeKey, model) => test mergeKey items && allMerged test { model } items
    | none => true
  | _ => true

/-- Whether the test holds in all items of a list. -/
def allMerged (test : String → List Value → Bool) (place : Place) : List Value → Bool
  | [] => true
  | item :: items => everyMerged test place item && allMerged test place items

/-- Whether the test holds in the values of all members of a mapping that a model types. -/
def everyMergedIn (test : String → List Value → Bool) (model : Option String) : Members → Bool
  | [] => true
  | (key, value) :: rest =>
    everyMerged test (Place.below model key) value && everyMergedIn test model rest

end

section everyMerged

variable {test : String → List Value → Bool} {place : Place}

theorem allMerged_iff {items : List Value} :
    allMerged test place items ↔ ∀ item ∈ items, everyMerged test place item := by
  induction items with
  | nil => simp [allMerged]
  | cons item items ih => rw [allMerged, Bool.and_eq_true, ih, List.forall_mem_cons]

theorem everyMergedIn_iff {model : Option String} {members : Members} :
    everyMergedIn test model members ↔
      ∀ member ∈ members, everyMerged test (Place.below model member.1) member.2 := by
  induction members with
  | nil => simp [everyMergedIn]
  | cons member rest ih =>
    obtain ⟨key, value⟩ := member
    rw [everyMergedIn, Bool.and_eq_true, ih, List.forall_mem_cons]

theorem everyMerged_of_field? {members : Members} {name : String} {value : Value}
    (h : everyMerged test place (.map members)) (hvalue : members.field? name = some value) :
    everyMerged test (Place.below place.model (.text name)) value := by
  rw [everyMerged, everyMergedIn_iff] at h
  exact h _ (Members.mem_of_field? hvalue)

theorem everyMerged_list {mergeKey : String} {model : Option String}
    (merge : place.merge = some (mergeKey, model)) {items : List Value}
    (h : everyMerged test place (.list items)) :
    test mergeKey items ∧ ∀ item ∈ items, everyMerged test { model } item := by
  rw [everyMerged, merge] at h
  obtain ⟨here, below⟩ := Bool.and_eq_true_iff.mp h
  exact ⟨here, allMerged_iff.mp below⟩

end everyMerged

mutual

theorem isMergeable_eq (place : Place) :
    (value : Value) → isMergeable place value = everyMerged areApart place value
  | .map members => by rw [isMergeable, everyMerged, areMergeableMembers_eq]
  | .list items => by
    rw [isMergeable, everyMerged]
    split
    · rw [areMergeable_eq]
    · rfl
  | .null | .bool _ | .int _ | .float _ | .text _ | .date _ | .moment _ | .bytes _
  | .tuple _ | .set _ => rfl

theorem areMergeable_eq (place : Place) :
    (items : List Value) → areMergeable place items = allMerged areApart place items
  | [] => rfl
  | item :: items => by
    rw [areMergeable, allMerged, isMergeable_eq, areMergeable_eq]

theorem areMergeableMembers_eq (model : Option String) :
    (members : Members) → areMergeableMembers model members = everyMergedIn areApart model members
  | [] => rfl
  | (key, value) :: rest => by
    rw [areMergeableMembers, everyMergedIn, isMergeable_eq, areMergeableMembers_eq]

end

theorem isMergeable_of_field? {place : Place} {members : Members} {name : String} {value : Value}
    (h : isMergeable place (.map members)) (hvalue : members.field? name = some value) :
    isMergeable (Place.below place.model (.text name)) value := by
  rw [isMergeable_eq] at h ⊢
  exact everyMerged_of_field? h hvalue

theorem isMergeable_list {place : Place} {mergeKey : String} {model : Option String}
    (merge : place.merge = some (mergeKey, model)) {items : List Value}
    (h : isMergeable place (.list items)) :
    areApart mergeKey items ∧ ∀ item ∈ items, isMergeable { model } item := by
  simp only [isMergeable_eq] at h ⊢
  exact everyMerged_list merge h

/-- An element that a list can be merged by. -/
structure IsElement (mergeKey : String) (element : Value) (members : Members) (key : Value) :
    Prop where
  eq : element = .map members
  keyed : members.field? mergeKey = some key
  mark : key.IsMark
  free : members.field? directive = none

theorem mergeKeyOf_map {mergeKey : String} {members : Members} {key : Value}
    (h : members.field? mergeKey = some key) : mergeKeyOf mergeKey (.map members) = key := by
  rw [mergeKeyOf, Value.members_map, h, Value.ofOption_some]

theorem IsElement.mergeKeyOf_eq {mergeKey : String} {element : Value} {members : Members}
    {key : Value} (h : IsElement mergeKey element members key) :
    mergeKeyOf mergeKey element = key := by
  rw [h.eq, mergeKeyOf_map h.keyed]

theorem elementKey_eq_ok {field : Value} {mergeKey : String} {element key : Value}
    (h : elementKey field mergeKey element = .ok key) :
    ∃ members : Members, element = .map members ∧ members.field? mergeKey = some key := by
  unfold elementKey at h
  split at h
  · rename_i members
    split at h
    · rename_i found hfound
      split at h
      · cases h
        exact ⟨members, rfl, hfound⟩
      · cases h
    · cases h
  · cases h

/-- If the keys of all elements can be read, each element is a mapping that has its key. -/
theorem elementKeys_eq_ok {mergeKey : String} {field : Value} {elements keys : List Value}
    (h : elementKeys field mergeKey elements = .ok keys) :
    keys = elements.map (mergeKeyOf mergeKey) ∧ ∀ element ∈ elements,
      ∃ (members : Members) (key : Value),
        element = .map members ∧ members.field? mergeKey = some key := by
  induction elements generalizing keys with
  | nil =>
    cases h
    exact ⟨rfl, by simp⟩
  | cons element rest ih =>
    rw [elementKeys] at h
    obtain ⟨key, hkey, h⟩ := bind_eq_ok.mp h
    obtain ⟨others, hothers, h⟩ := bind_eq_ok.mp h
    cases h
    obtain ⟨rfl, each⟩ := ih hothers
    obtain ⟨members, rfl, hfield⟩ := elementKey_eq_ok hkey
    refine ⟨?_, List.forall_mem_cons.mpr ⟨⟨members, key, rfl, hfield⟩, each⟩⟩
    rw [List.map_cons, mergeKeyOf_map hfield]

/-- A list of elements that it can be merged by. -/
structure IsListing (mergeKey : String) (elements : List Value) : Prop
    extends Marked mergeKey elements where
  isElement : ∀ element ∈ elements, ∃ members key, IsElement mergeKey element members key

/-- If each element has a key and the keys tell them apart, the list can be merged. -/
theorem isListing_of_keyed {mergeKey : String} {elements : List Value}
    (keyed : ∀ element ∈ elements, ∃ (members : Members) (key : Value),
      element = .map members ∧ members.field? mergeKey = some key)
    (apart : areApart mergeKey elements) (json : ∀ element ∈ elements, element.isJson) :
    IsListing mergeKey elements := by
  induction elements with
  | nil => exact ⟨.nil, by simp⟩
  | cons element rest ih =>
    rw [areApart, Bool.and_eq_true, Bool.and_eq_true] at apart
    obtain ⟨⟨hall, hfree⟩, hrest⟩ := apart
    obtain ⟨marked, isElement⟩ := ih (fun x hx => keyed x (List.mem_cons_of_mem _ hx)) hrest
      fun x hx => json x (List.mem_cons_of_mem _ hx)
    obtain ⟨members, key, rfl, hfield⟩ := keyed element (by simp)
    rw [Value.members_map, hfield, Option.all_some, Bool.and_eq_true] at hall
    have jsonKey := Value.isJson_of_field? (json _ (List.mem_cons_self ..)) hfield
    have here : IsElement mergeKey (.map members) members key :=
      ⟨rfl, hfield, .of_isJson hall.1 jsonKey, Option.isNone_iff_eq_none.mp hfree⟩
    refine ⟨⟨?_, ?_⟩, ?_⟩
    · exact List.forall_mem_cons.mpr ⟨here.mergeKeyOf_eq ▸ here.mark, marked.marks⟩
    · refine List.pairwise_cons.mpr ⟨fun other hother => ?_, marked.apart⟩
      rw [here.mergeKeyOf_eq]
      simpa using List.all_eq_true.mp hall.2 other hother
    · exact List.forall_mem_cons.mpr ⟨⟨members, key, here⟩, isElement⟩

/-! ### Lists as mappings from keys -/

theorem keyed_concat (pairs : List (Value × α)) (pair : Value × α) :
    keyed (pairs ++ [pair]) = keyed.put (keyed pairs) pair := by
  rw [keyed, List.foldl_append]
  rfl

/-- What is in a mapping after a write was there before, or has the value that was written. -/
theorem mem_put {entries : List (Value × α)} {entry pair : Value × α}
    (h : entry ∈ keyed.put entries pair) :
    (entry ∈ entries ∧ sameKey pair.1 entry.1 = false) ∨ entry = pair ∨
      (entry.2 = pair.2 ∧ sameKey pair.1 entry.1 ∧ ∃ old ∈ entries, old.1 = entry.1) := by
  rw [keyed.put] at h
  split at h
  · obtain ⟨old, hold, rfl⟩ := List.mem_map.mp h
    split
    · rename_i same
      exact .inr (.inr ⟨rfl, same, old, hold, rfl⟩)
    · rename_i differ
      exact .inl ⟨hold, by simpa using differ⟩
  · rename_i new
    rcases List.mem_append.mp h with hold | hpair
    · refine .inl ⟨hold, Bool.eq_false_iff.mpr fun same => new ?_⟩
      exact List.any_eq_true.mpr ⟨entry, hold, same⟩
    · exact .inr (.inl (List.mem_singleton.mp hpair))

/-- Reading pairs as a mapping makes up neither keys nor values. -/
theorem mem_keyed {pairs : List (Value × α)} {entry : Value × α} (h : entry ∈ keyed pairs) :
    (∃ pair ∈ pairs, pair.1 = entry.1) ∧ ∃ pair ∈ pairs, pair.2 = entry.2 := by
  induction pairs using List.reverseRecOn generalizing entry with
  | nil => cases h
  | append_singleton pairs pair ih =>
    have weaken : ∀ {P : Value × α → Prop}, (∃ other ∈ pairs, P other) →
        ∃ other ∈ pairs ++ [pair], P other :=
      fun ⟨other, hmem, hother⟩ => ⟨other, List.mem_append_left _ hmem, hother⟩
    rw [keyed_concat] at h
    rcases mem_put h with ⟨hmem, -⟩ | rfl | ⟨hvalue, -, old, hold, hkey⟩
    · exact (ih hmem).imp weaken weaken
    · exact ⟨⟨entry, by simp, rfl⟩, entry, by simp, rfl⟩
    · refine ⟨weaken ?_, pair, by simp, hvalue.symm⟩
      exact (ih hold).1.imp fun _ => And.imp_right fun heq => heq.trans hkey

theorem keyed_eq_self {pairs : List (Value × α)}
    (h : pairs.Pairwise fun x y => sameKey y.1 x.1 = false) : keyed pairs = pairs := by
  have step : ∀ entries, (entries ++ pairs).Pairwise (fun x y => sameKey y.1 x.1 = false) →
      pairs.foldl keyed.put entries = entries ++ pairs := by
    clear h
    induction pairs with
    | nil => simp
    | cons pair rest ih =>
      intro entries hall
      have fresh : entries.any (fun entry => sameKey pair.1 entry.1) = false := by
        refine List.any_eq_false.mpr fun entry hentry => Bool.eq_false_iff.mp ?_
        exact (List.pairwise_append.mp hall).2.2 entry hentry pair (by simp)
      rw [List.foldl_cons, keyed.put, fresh, if_neg (by simp), ih _ (by simpa using hall)]
      simp
  exact step [] h

theorem Marked.pairwise_symm {mergeKey : String} {elements : List Value}
    (h : Marked mergeKey elements) : elements.Pairwise fun x y =>
      sameKey (mergeKeyOf mergeKey y) (mergeKeyOf mergeKey x) = false := by
  refine h.apart.imp_of_mem fun {x y} hx _ apart => Bool.eq_false_iff.mpr fun same => ?_
  simp [Value.sameKey_symm same] at apart

/-- The elements of a list at their keys, each with what is to be said of it. -/
def atKeys (mergeKey : String) (f : Value → α) (elements : List Value) : List (Value × α) :=
  keyed (elements.map fun element => (mergeKeyOf mergeKey element, f element))

/-- Reading marked elements as a mapping from their keys loses none of them. -/
theorem atKeys_eq_map {mergeKey : String} {elements : List Value} (h : Marked mergeKey elements)
    (f : Value → α) : atKeys mergeKey f elements =
      elements.map fun element => (mergeKeyOf mergeKey element, f element) :=
  keyed_eq_self (List.pairwise_map.mpr h.pairwise_symm)

/-- The elements of a list, each at its key. -/
def byKey (mergeKey : String) (elements : List Value) : Members :=
  elements.map fun element => (mergeKeyOf mergeKey element, element)

theorem at?_byKey (mergeKey : String) (elements : List Value) (key : Value) :
    (byKey mergeKey elements).at? key = elementAt mergeKey elements key := by
  rw [Members.at?, byKey, elementAt, List.find?_map, Option.map_map]
  exact Option.map_id'

theorem keys_byKey (mergeKey : String) (elements : List Value) :
    (byKey mergeKey elements).keys = elements.map (mergeKeyOf mergeKey) := by
  rw [Members.keys, byKey, List.map_map]
  rfl

/-- How an element of the second list differs from the one of the first with its key. -/
def elementChange (shared : Bool) (model : Option String) (old : Option Value)
    (element : Value) : Except Failure Change :=
  match old with
  | some old =>
    if old.equal shared element then .ok .keep
    else do
      let patch ← Strategic.diff shared model old.members element.members
      return .merge patch
  | none => .ok (.add element)

theorem elementChanges_eq_map {shared : Bool} {model : Option String} {mergeKey : String}
    {olds : Members} {elements : List Value}
    (hold : ∀ key old, olds.at? key = some old → ∃ members, old = .map members)
    (h : ∀ element ∈ elements, ∃ (members : Members) (key : Value),
      element = .map members ∧ members.field? mergeKey = some key) :
    Strategic.elementChanges shared model mergeKey olds elements =
      elements.map fun element =>
        elementChange shared model (olds.at? (mergeKeyOf mergeKey element)) element := by
  induction elements with
  | nil => rw [Strategic.elementChanges, List.map_nil]
  | cons element rest ih =>
    obtain ⟨members, key, rfl, hfield⟩ := h element (by simp)
    rw [Strategic.elementChanges, List.map_cons, ih fun x hx => h x (List.mem_cons_of_mem _ hx),
      mergeKeyOf_map hfield, hfield, Option.bind_some]
    congr 1
    unfold elementChange
    cases hfound : olds.at? key with
    | none => rfl
    | some old =>
      obtain ⟨oldMembers, rfl⟩ := hold key old hfound
      simp only [Value.members_map, Strategic.diff]
      split
      · rfl
      · cases Strategic.additions shared model oldMembers members <;> rfl

/-! ### What the patch of a list says at a key -/

/-- No list is merged by the member that holds directives. -/
theorem mergeKey_ne_directive {model : Option String} {key : Value} {mergeKey : String}
    (h : Schema.mergeKeyAt model key = some mergeKey) : mergeKey ≠ directive := by
  have table : ∀ entry ∈ Schema.mergeKeys, entry.2 ≠ directive := by decide
  unfold Schema.mergeKeyAt at h
  split at h
  · obtain ⟨name, -, h⟩ := Option.bind_eq_some_iff.mp h
    obtain ⟨entry, hfound, rfl⟩ := Option.map_eq_some_iff.mp h
    exact table entry (List.mem_of_find?_eq_some hfound)
  · cases h

/-- What the patch says of an element of the second list. -/
def saidOf (mergeKey : String) (change : Value → Except Failure Change) (element : Value) :
    Option Value :=
  (change element).toOption.bind (elementPatch? mergeKey (mergeKeyOf mergeKey element))

/-- The element of a patch that removes the element with a key. -/
def deletion (mergeKey : String) (key : Value) : Members :=
  [(.text directive, .text "delete"), (.text mergeKey, key)]

/-- What the patch says of an element of the first list. -/
def removalOf (mergeKey : String) (after : List Value) (element : Value) : Option Value :=
  if (elementAt mergeKey after (mergeKeyOf mergeKey element)).isSome then none
  else some (.map (deletion mergeKey (mergeKeyOf mergeKey element)))

theorem elementPatches_eq_ok {mergeKey : String} {change : Value → Except Failure Change}
    {after patches : List Value}
    (h : elementPatches mergeKey
      (after.map fun element => (mergeKeyOf mergeKey element, change element)) = .ok patches) :
    patches = after.filterMap (saidOf mergeKey change) ∧
      ∀ element ∈ after, ∃ changed, change element = .ok changed := by
  induction after generalizing patches with
  | nil =>
    cases h
    exact ⟨rfl, by simp⟩
  | cons element rest ih =>
    rw [List.map_cons, elementPatches] at h
    obtain ⟨changed, hchanged, h⟩ := bind_eq_ok.mp h
    obtain ⟨others, hothers, h⟩ := bind_eq_ok.mp h
    cases h
    obtain ⟨rfl, below⟩ := ih hothers
    refine ⟨?_, List.forall_mem_cons.mpr ⟨⟨changed, hchanged⟩, below⟩⟩
    have said : saidOf mergeKey change element =
        elementPatch? mergeKey (mergeKeyOf mergeKey element) changed := by
      rw [saidOf, hchanged]
      rfl
    rw [List.filterMap_cons, said]
    cases elementPatch? mergeKey (mergeKeyOf mergeKey element) changed <;> rfl

theorem elementRemovals_eq (mergeKey : String) (before after : List Value) :
    elementRemovals mergeKey (before.map (mergeKeyOf mergeKey)) (after.map (mergeKeyOf mergeKey)) =
      before.filterMap (removalOf mergeKey after) := by
  induction before with
  | nil => rfl
  | cons element rest ih =>
    have known : (after.map (mergeKeyOf mergeKey)).any
        (fun other => sameKey (mergeKeyOf mergeKey element) other) =
          (elementAt mergeKey after (mergeKeyOf mergeKey element)).isSome := by
      rw [List.any_map, elementAt, List.isSome_find?]
      rfl
    rw [elementRemovals] at ih ⊢
    rw [List.map_cons, List.filter_cons, List.filterMap_cons, removalOf, known]
    cases (elementAt mergeKey after (mergeKeyOf mergeKey element)).isSome with
    | true => exact ih
    | false => exact congrArg _ ih

variable {mergeKey : String} {before after : List Value}

theorem mergeKeyOf_deletion (h : mergeKey ≠ directive) (key : Value) :
    mergeKeyOf mergeKey (.map (deletion mergeKey key)) = key := by
  rw [mergeKeyOf, Value.members_map, deletion, Members.field?_cons_text, if_neg h.symm,
    Members.field?_cons_self, Value.ofOption_some]

theorem isItem_deletion (h : mergeKey ≠ directive) {key : Value} (mark : key.IsMark) :
    IsItem mergeKey (.map (deletion mergeKey key)) (deletion mergeKey key) key := by
  refine ⟨rfl, ?_, ?_, mark⟩
  · refine Members.isNamed_cons.mpr ⟨directive, rfl, ?_, Members.isNamed_cons.mpr ?_⟩
    · rw [Members.field?_cons_text, if_neg h, Members.field?_nil]
    · exact ⟨mergeKey, rfl, rfl, rfl⟩
  · rw [deletion, Members.field?_cons_text, if_neg h.symm, Members.field?_cons_self]

theorem isDeletion_deletion (mergeKey : String) (key : Value) :
    isDeletion (deletion mergeKey key) = true := by
  rw [isDeletion, deletion, Members.field?_cons_self, Value.ofOption_some]
  decide +kernel

theorem isDeletion_of_free {members : Members} (h : members.field? directive = none) :
    isDeletion members = false := by
  rw [isDeletion, h]
  decide +kernel

theorem atKeyOf_removalOf (h : mergeKey ≠ directive) :
    AtKeyOf mergeKey before (removalOf mergeKey after) := by
  intro element _ item hitem
  unfold removalOf at hitem
  split at hitem
  · cases hitem
  · cases hitem
    exact mergeKeyOf_deletion h _

/-- What the elements of a patch say at a key: of an element of the second list what has
become of it, of any other that it is removed. -/
theorem elementAt_items {said : Value → Option Value} (h : mergeKey ≠ directive)
    (hb : Marked mergeKey before) (ha : Marked mergeKey after)
    (hsaid : AtKeyOf mergeKey after said) (key : Value) :
    elementAt mergeKey (after.filterMap said ++ before.filterMap (removalOf mergeKey after)) key =
      match elementAt mergeKey after key with
      | some element => said element
      | none => (elementAt mergeKey before key).map fun element =>
          .map (deletion mergeKey (mergeKeyOf mergeKey element)) := by
  rw [elementAt_append, elementAt_filterMap ha hsaid,
    elementAt_filterMap hb (atKeyOf_removalOf h)]
  cases hbefore : elementAt mergeKey before key with
  | none => cases elementAt mergeKey after key <;> simp
  | some old =>
    obtain ⟨hmem, same⟩ := (elementAt_eq_some_iff hb.distinct old).mp hbefore
    rw [Option.bind_some, removalOf, ← elementAt_congr same]
    cases elementAt mergeKey after key <;> simp

theorem marked_items {said : Value → Option Value} (h : mergeKey ≠ directive)
    (hb : Marked mergeKey before) (ha : Marked mergeKey after)
    (hsaid : AtKeyOf mergeKey after said) :
    Marked mergeKey (after.filterMap said ++ before.filterMap (removalOf mergeKey after)) := by
  refine (ha.filterMap hsaid).append (hb.filterMap (atKeyOf_removalOf h)) fun item hitem => ?_
  obtain ⟨old, hmem, heq⟩ := List.mem_filterMap.mp hitem
  rw [elementAt_filterMap ha hsaid, atKeyOf_removalOf h old hmem item heq]
  unfold removalOf at heq
  split at heq
  · cases heq
  · rename_i absent
    rw [Option.not_isSome_iff_eq_none.mp absent, Option.bind_none]

/-! ### The patch of a list -/

/-- How an element differs from the one with its key in a list. -/
def changeFrom (shared : Bool) (model : Option String) (mergeKey : String) (before : List Value)
    (element : Value) : Except Failure Change :=
  elementChange shared model (elementAt mergeKey before (mergeKeyOf mergeKey element)) element

/-- The elements of the patch between two lists. -/
def itemsBetween (shared : Bool) (model : Option String) (mergeKey : String)
    (before after : List Value) : List Value :=
  after.filterMap (saidOf mergeKey (changeFrom shared model mergeKey before)) ++
    before.filterMap (removalOf mergeKey after)

/-- If there is a patch between two lists, all their elements have keys, and it is made from
the elements at these keys. -/
theorem exists_elementPatches {shared : Bool} {model : Option String} {field : Value}
    {said : Option Value}
    (h : Strategic.listPatch field mergeKey before after
      (fun olds => Strategic.elementChanges shared model mergeKey olds after) = .ok said) :
    (∀ element ∈ before, ∃ (members : Members) (key : Value),
      element = .map members ∧ members.field? mergeKey = some key) ∧
    (∀ element ∈ after, ∃ (members : Members) (key : Value),
      element = .map members ∧ members.field? mergeKey = some key) ∧
    ∃ olds news patches, olds = atKeys mergeKey id before ∧
      news = atKeys mergeKey (fun element => elementChange shared model
        (Members.at? olds (mergeKeyOf mergeKey element)) element) after ∧
      elementPatches mergeKey news = .ok patches ∧
      said = if (patches ++ elementRemovals mergeKey (Members.keys olds)
          (news.map (·.1))).isEmpty then none
        else some (.list (patches ++ elementRemovals mergeKey (Members.keys olds)
          (news.map (·.1)))) := by
  unfold Strategic.listPatch at h
  obtain ⟨oldKeys, hold, h⟩ := bind_eq_ok.mp h
  obtain ⟨newKeys, hnew, h⟩ := bind_eq_ok.mp h
  obtain ⟨patches, hpatches, h⟩ := bind_eq_ok.mp h
  obtain ⟨rfl, eachOld⟩ := elementKeys_eq_ok hold
  obtain ⟨rfl, eachNew⟩ := elementKeys_eq_ok hnew
  have olds : keyed ((before.map (mergeKeyOf mergeKey)).zip before) =
      atKeys mergeKey id before := by
    rw [atKeys, ← List.zip_map', List.map_id]
  have isMap : ∀ key old, Members.at? (atKeys mergeKey id before) key = some old →
      ∃ members, old = .map members := by
    intro key old hfound
    obtain ⟨entry, hentry, rfl⟩ := Option.map_eq_some_iff.mp hfound
    obtain ⟨-, pair, hpair, heq⟩ := mem_keyed (List.mem_of_find?_eq_some hentry)
    obtain ⟨element, hmem, rfl⟩ := List.mem_map.mp hpair
    obtain ⟨members, -, hmap, -⟩ := eachOld element hmem
    exact ⟨members, heq.symm.trans hmap⟩
  dsimp only at hpatches h
  rw [olds, elementChanges_eq_map isMap eachNew, List.zip_map'] at hpatches h
  exact ⟨eachOld, eachNew, _, _, patches, rfl, rfl, hpatches, (Except.ok.inj h).symm⟩

/-- If there is a patch between two lists whose elements can be told apart, it consists of
what is said of the elements of both. -/
theorem listPatch_eq_ok {shared : Bool} {model : Option String} {field : Value}
    {said : Option Value}
    (h : Strategic.listPatch field mergeKey before after
      (fun olds => Strategic.elementChanges shared model mergeKey olds after) = .ok said)
    (hb : areApart mergeKey before) (jsonBefore : ∀ element ∈ before, element.isJson)
    (ha : areApart mergeKey after) (jsonAfter : ∀ element ∈ after, element.isJson) :
    IsListing mergeKey before ∧ IsListing mergeKey after ∧
      (∀ element ∈ after, ∃ changed,
        changeFrom shared model mergeKey before element = .ok changed) ∧
      said = if (itemsBetween shared model mergeKey before after).isEmpty then none
        else some (.list (itemsBetween shared model mergeKey before after)) := by
  obtain ⟨eachOld, eachNew, olds, news, patches, rfl, rfl, hpatches, rfl⟩ :=
    exists_elementPatches h
  have listed := isListing_of_keyed eachOld hb jsonBefore
  have listed' := isListing_of_keyed eachNew ha jsonAfter
  have olds : atKeys mergeKey id before = byKey mergeKey before := atKeys_eq_map listed.toMarked id
  have news : atKeys mergeKey (fun element => elementChange shared model
      (Members.at? (atKeys mergeKey id before) (mergeKeyOf mergeKey element)) element) after =
      after.map fun element =>
        (mergeKeyOf mergeKey element, changeFrom shared model mergeKey before element) := by
    rw [atKeys_eq_map listed'.toMarked, olds]
    refine List.map_congr_left fun element _ => ?_
    rw [at?_byKey, changeFrom]
  rw [news] at hpatches ⊢
  obtain ⟨rfl, changed⟩ := elementPatches_eq_ok hpatches
  have newKeys : (after.map fun element => (mergeKeyOf mergeKey element,
      changeFrom shared model mergeKey before element)).map (·.1) =
        after.map (mergeKeyOf mergeKey) := by
    rw [List.map_map]
    rfl
  rw [olds, keys_byKey, newKeys, elementRemovals_eq]
  exact ⟨listed, listed', changed, rfl⟩

end Reconciler.Patch
