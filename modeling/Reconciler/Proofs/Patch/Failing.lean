import Reconciler.Patch.Decision
import Reconciler.Proofs.Patch.Keyed

/-!
# How comparing two bodies can fail

A strategic patch fails only at a list that is merged by a key, and only because of an element
that has no key or a key that cannot be one. So what is known of how all such lists in two bodies
can be refused is known of the patch between them. Everything else about a comparison fails with
a fault or with a single problem, never with the problems of a whole update.
-/

namespace Reconciler.Patch

open Schema (Place)

/-- An element of a list that is merged has no key, or one that cannot be a key. -/
inductive Unkeyable : Failure → Prop
  | absent (field element : Value) (mergeKey : String) :
      Unkeyable (Failure.ofCause (.unkeyed field element mergeKey))
  | refused : Unkeyable (.fault .wrongType)

variable {shared : Bool} {failure : Failure}

theorem unkeyable_of_elementKey {field element : Value} {mergeKey : String}
    (h : elementKey field mergeKey element = .error failure) : Unkeyable failure := by
  unfold elementKey at h
  split at h
  · split at h
    · split at h
      · cases h
      · cases h
        exact .refused
    · cases h
      exact .absent _ _ _
  · cases h
    exact .absent _ _ _

theorem unkeyable_of_elementKeys {field : Value} {mergeKey : String} {elements : List Value}
    (h : elementKeys field mergeKey elements = .error failure) : Unkeyable failure := by
  induction elements with
  | nil => cases h
  | cons element rest ih =>
    rw [elementKeys] at h
    rcases bind_eq_error.mp h with hkey | ⟨key, -, h⟩
    · exact unkeyable_of_elementKey hkey
    · rcases bind_eq_error.mp h with hrest | ⟨keys, -, h⟩
      · exact ih hrest
      · cases h

/-- The elements of a patch fail as the change of one of them does. -/
theorem mem_of_elementPatches {mergeKey : String} {news : List (Value × Except Failure Change)}
    (h : elementPatches mergeKey news = .error failure) :
    ∃ entry ∈ news, entry.2 = .error failure := by
  induction news with
  | nil => cases h
  | cons entry rest ih =>
    obtain ⟨key, change⟩ := entry
    rw [elementPatches] at h
    rcases bind_eq_error.mp h with hchange | ⟨changed, -, h⟩
    · exact ⟨_, List.mem_cons_self .., hchange⟩
    · rcases bind_eq_error.mp h with hrest | ⟨patches, -, h⟩
      · obtain ⟨other, hmem, herror⟩ := ih hrest
        exact ⟨other, List.mem_cons_of_mem _ hmem, herror⟩
      · cases h

/-- Lists that pass a test are only refused for some reasons, because of the keys of their
elements. -/
def RefusedFor (test : String → List Value → Bool) (reason : Failure → Prop) : Prop :=
  ∀ field mergeKey elements failure, test mergeKey elements →
    elementKeys field mergeKey elements = .error failure → reason failure

theorem refusedFor_unkeyable : RefusedFor (fun _ _ => true) Unkeyable :=
  fun _ _ _ _ _ h => unkeyable_of_elementKeys h

/-- A test that every list passes holds of all that are merged in a value. -/
theorem everyMerged_of_always (value : Value) (place : Place) :
    everyMerged (fun _ _ => true) place value := by
  induction value using Value.induction generalizing place with
  | leaf value hleaf => cases value <;> first | rfl | cases hleaf
  | list items ih =>
    rw [everyMerged]
    split
    · exact allMerged_iff.mpr fun item hitem => ih item hitem _
    · rfl
  | map members ih =>
    rw [everyMerged, everyMergedIn_iff]
    exact fun member hmember => (ih member hmember).2 _
  | _ => rfl

/-- What holds of the lists at the members of a mapping holds of those at any key that reads one. -/
theorem everyMerged_of_at? {test : String → List Value → Bool} {model : Option String}
    {members : Members} {key value : Value} (h : everyMergedIn test model members)
    (found : members.at? key = some value) :
    everyMerged test (Place.below model key) value := by
  obtain ⟨⟨other, old⟩, hfind, rfl⟩ := Option.map_eq_some_iff.mp found
  have same := List.find?_some hfind
  have each := everyMergedIn_iff.mp h _ (List.mem_of_find?_eq_some hfind)
  -- Keys that are the same name the same place: only text names one that is typed.
  have places : Place.below model other = Place.below model key := by
    by_cases text : ∃ name, key = .text name
    · obtain ⟨name, rfl⟩ := text
      rw [(Value.sameKey_text_left name other).mp same]
    · have plain : ∀ name, other ≠ .text name := fun name heq =>
        text ⟨name, Value.eq_text_of_sameKey (heq ▸ same)⟩
      have untyped (key : Value) (h : ∀ name, key ≠ .text name) : Place.below model key = {} := by
        cases key with
        | text name => exact absurd rfl (h name)
        | _ => rfl
      rw [untyped other plain, untyped key fun name heq => text ⟨name, heq⟩]
  rw [places] at each
  exact each

namespace Strategic

variable {model : Option String} {test : String → List Value → Bool} {reason : Failure → Prop}

/-- The patch of a list fails because of its elements, or as the change of one of them does. -/
theorem reason_of_listPatch (refused : RefusedFor test reason) {field : Value} {mergeKey : String}
    {before after : List Value} {changes : Members → List (Except Failure Change)}
    (old : test mergeKey before) (new : test mergeKey after)
    (h : listPatch field mergeKey before after changes = .error failure)
    (below : ∀ olds : Members, (∀ entry ∈ olds, entry.2 ∈ before) →
      ∀ change ∈ changes olds, change = .error failure → reason failure) : reason failure := by
  unfold listPatch at h
  rcases bind_eq_error.mp h with hold | ⟨oldKeys, -, h⟩
  · exact refused _ _ _ _ old hold
  rcases bind_eq_error.mp h with hnew | ⟨newKeys, -, h⟩
  · exact refused _ _ _ _ new hnew
  rcases bind_eq_error.mp h with hpatches | ⟨patches, -, h⟩
  · obtain ⟨entry, hmem, herror⟩ := mem_of_elementPatches hpatches
    obtain ⟨-, pair, hpair, hsame⟩ := mem_keyed hmem
    refine below _ (fun entry hentry => ?_) pair.2 (List.of_mem_zip hpair).2 (hsame.trans herror)
    obtain ⟨-, pair, hpair, hsame⟩ := mem_keyed hentry
    exact hsame ▸ (List.of_mem_zip hpair).2
  · cases h

/-- The members that a patch writes fail only where the change of a value does. -/
theorem reason_of_additions {before after : Members} (old : everyMergedIn test model before)
    (below : ∀ member ∈ after, ∀ old, everyMerged test (Place.below model member.1) old →
      change shared model member.1 old member.2 = .error failure → reason failure)
    (h : additions shared model before after = .error failure) : reason failure := by
  induction after with
  | nil =>
    rw [additions] at h
    cases h
  | cons member rest ih =>
    obtain ⟨key, value⟩ := member
    have joined : ∀ said : Option Value, (do
        let others ← additions shared model before rest
        return (said.elim [] fun value => [(key, value)]) ++ others : Except Failure Members) =
          .error failure → reason failure := by
      intro said h
      rcases bind_eq_error.mp h with hothers | ⟨others, -, h⟩
      · exact ih (fun member hmem => below member (List.mem_cons_of_mem _ hmem)) hothers
      · cases h
    rw [additions] at h
    split at h
    · exact joined _ h
    · rename_i found hfound
      rcases bind_eq_error.mp h with here | ⟨said, -, h⟩
      · exact below _ (List.mem_cons_self ..) found (everyMerged_of_at? old hfound) here
      · exact joined _ h

theorem reason_of_elementChanges {mergeKey : String} {olds : Members} {elements : List Value}
    (below : ∀ element : Members, Value.map element ∈ elements → ∀ key (old : Members),
      (key, Value.map old) ∈ olds →
      additions shared model old element = .error failure → reason failure)
    (h : .error failure ∈ elementChanges shared model mergeKey olds elements) :
    reason failure := by
  induction elements with
  | nil => simp [elementChanges] at h
  | cons element rest ih =>
    have later : .error failure ∈ elementChanges shared model mergeKey olds rest →
        reason failure :=
      ih fun element hmem => below element (List.mem_cons_of_mem _ hmem)
    unfold elementChanges at h
    split at h
    · rename_i heq
      cases heq
    · rename_i members others heq
      obtain ⟨rfl, rfl⟩ := List.cons.inj heq
      rcases List.mem_cons.mp h with here | hrest
      · split at here
        · rename_i old found
          obtain ⟨own, -, found⟩ := Option.bind_eq_some_iff.mp found
          obtain ⟨⟨key, other⟩, hfind, rfl⟩ := Option.map_eq_some_iff.mp found
          split at here
          · cases here
          · rcases bind_eq_error.mp here.symm with hwritten | ⟨written, -, hdone⟩
            · exact below members (List.mem_cons_self ..) key _ (List.mem_of_find?_eq_some hfind)
                hwritten
            · cases hdone
        · cases here
      · exact later hrest
    · rename_i other others _ heq
      obtain ⟨rfl, rfl⟩ := List.cons.inj heq
      rcases List.mem_cons.mp h with here | hrest
      · cases here
      · exact later hrest

/-- The change of a value, and the members written below a mapping, fail only because of
elements of lists that are merged. -/
theorem reason_of_change (refused : RefusedFor test reason) (value : Value) :
    (∀ (model : Option String) (key old : Value), everyMerged test (Place.below model key) old →
      everyMerged test (Place.below model key) value →
      change shared model key old value = .error failure → reason failure) ∧
    ∀ after : Members, value = .map after → ∀ (model : Option String) (before : Members),
      everyMergedIn test model before → everyMergedIn test model after →
      additions shared model before after = .error failure → reason failure := by
  induction value using Value.induction with
  | leaf value hleaf =>
    refine ⟨fun model key old _ _ h => ?_, fun _ heq => by subst heq; cases hleaf⟩
    rw [change] at h
    · cases h
    all_goals rintro _ rfl; cases hleaf
  | list after ih =>
    refine ⟨fun model key old olds news h => ?_, nofun⟩
    rw [change.eq_def] at h
    dsimp only at h
    split at h
    · rename_i before
      split at h
      · cases h
      · split at h
        · cases h
        · rename_i mergeKey hkey
          have merge := Place.merge_below hkey
          obtain ⟨oldTest, oldItems⟩ := everyMerged_list merge olds
          obtain ⟨newTest, newItems⟩ := everyMerged_list merge news
          refine reason_of_listPatch refused oldTest newTest h
            fun entries within change hmem herror => ?_
          refine reason_of_elementChanges (fun element helement key old hold => ?_)
            (herror ▸ hmem)
          exact (ih _ helement).2 element rfl _ old (oldItems _ (within _ hold))
            (newItems _ helement)
    · cases h
  | map after ih =>
    have written : ∀ (model : Option String) (before : Members),
        everyMergedIn test model before → everyMergedIn test model after →
        additions shared model before after = .error failure → reason failure :=
      fun model before olds news => reason_of_additions olds fun member hmem old hold =>
        (ih member hmem).2.1 model member.1 old hold (everyMergedIn_iff.mp news member hmem)
    refine ⟨fun model key old olds news h => ?_, fun _ heq => by cases heq; exact written⟩
    rw [change.eq_def] at h
    dsimp only at h
    split at h
    · split at h
      · cases h
      · rcases bind_eq_error.mp h with hwritten | ⟨_, -, h⟩
        · exact written _ _ olds news hwritten
        · cases h
    · cases h
  | tuple items =>
    refine ⟨fun model key old _ _ h => ?_, nofun⟩
    rw [change] at h <;> cases h
  | set items =>
    refine ⟨fun model key old _ _ h => ?_, nofun⟩
    rw [change] at h <;> cases h

/-- A strategic patch between two mappings fails only because of elements of lists that are
merged. -/
theorem reason_of_diff (refused : RefusedFor test reason) {before after : Members}
    (old : everyMergedIn test model before) (new : everyMergedIn test model after)
    (h : diff shared model before after = .error failure) : reason failure := by
  rcases bind_eq_error.mp h with hwritten | ⟨written, -, h⟩
  · exact (reason_of_change refused (.map after)).2 after rfl model before old new hwritten
  · cases h

/-- A strategic patch between two mappings fails only because of elements without a usable
key. -/
theorem unkeyable_of_diff {before after : Members}
    (h : diff shared model before after = .error failure) : Unkeyable failure := by
  have always (members : Members) : everyMergedIn (fun _ _ => true) model members :=
    everyMergedIn_iff.mpr fun member _ => everyMerged_of_always member.2 _
  exact reason_of_diff refusedFor_unkeyable (always before) (always after) h

end Strategic

/-! ### Comparing whole bodies -/

theorem Unkeyable.isSingle (h : Unkeyable failure) : failure.IsSingle := by
  cases h <;> exact nofun

theorem isSingle_of_canonicalText {value : Value} (h : canonicalText value = .error failure) :
    failure.IsSingle := by
  unfold canonicalText at h
  cases hencode : Json.encode value with
  | ok text =>
    rw [hencode] at h
    cases h
  | error refusal =>
    rw [hencode] at h
    cases h
    exact nofun

theorem isSingle_of_strategicPatch {model : Option String} {before after : Value}
    (h : strategicPatch shared model before after = .error failure) : failure.IsSingle := by
  unfold strategicPatch at h
  split at h
  · exact (Strategic.unkeyable_of_diff h).isSingle
  · exact isSingle_of_liftFault h
  · cases h
    exact nofun

theorem isSingle_of_record {patch : Members} (h : record patch = .error failure) :
    failure.IsSingle := by
  unfold record at h
  split at h
  · cases h
  · split at h
    · cases h
    · cases h
      exact nofun

/-- If two bodies cannot be compared, that is a fault or one problem. -/
theorem isSingle_of_between {current desired : Value}
    (h : Decision.between current desired = .error failure) : failure.IsSingle := by
  unfold Decision.between at h
  rcases bind_eq_error.mp h with hcurrent | ⟨currentText, -, h⟩
  · exact isSingle_of_canonicalText hcurrent
  rcases bind_eq_error.mp h with hdesired | ⟨desiredText, -, h⟩
  · exact isSingle_of_canonicalText hdesired
  rcases bind_eq_error.mp h with hinfo | ⟨info, -, h⟩
  · exact isSingle_of_liftFault hinfo
  dsimp only at h
  split at h
  · cases h
  · have recorded : ∀ patch, (do
        let patch ← record patch
        return { patch, strategy := strategyFor info.model } : Except Failure Decision) =
          .error failure → failure.IsSingle := by
      intro patch h
      rcases bind_eq_error.mp h with hrecord | ⟨patch, -, h⟩
      · exact isSingle_of_record hrecord
      · cases h
    split at h
    · rcases bind_eq_error.mp h with hpatch | ⟨patch, -, h⟩
      · exact isSingle_of_liftFault hpatch
      · exact recorded patch h
    · rcases bind_eq_error.mp h with hpatch | ⟨patch, -, h⟩
      · exact isSingle_of_strategicPatch hpatch
      · exact recorded patch h

end Reconciler.Patch
