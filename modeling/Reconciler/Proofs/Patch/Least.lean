import Reconciler.Proofs.Patch.Unchanged

/-!
# Merge patches say no more than they have to

A key that a merge patch names is written or removed on the server, where others may own it. The
patch between two JSON objects names just the keys at which they differ, and so do the patches to
which it leads where both objects have mappings. None of these is empty, since mappings without a
difference below them are not mentioned at all.
-/

namespace Reconciler.Patch.Merge

/-- Two objects have equal values at a name, or neither has one. -/
def AgreeAt (before after : Members) (name : String) : Prop :=
  Option.Rel (fun old new => old.equal false new = true) (before.field? name) (after.field? name)

/-- A patch between two objects has each name at which they differ as a key, and no other key. If
both have mappings there, it has a patch of this kind between them, which is not empty. -/
inductive IsLeast : (before after patch : Members) → Prop
  | intro {before after patch : Members} (once : patch.keys.Nodup)
      (keys : ∀ key, key ∈ patch.keys ↔ ∃ name, key = .text name ∧ ¬AgreeAt before after name)
      (filled : ∀ name old new said, before.field? name = some (.map old) →
        after.field? name = some (.map new) → patch.field? name = some said →
        ∃ nested : Members, said = .map nested ∧ nested ≠ [])
      (below : ∀ name old new nested, before.field? name = some (.map old) →
        after.field? name = some (.map new) → patch.field? name = some (.map nested) →
        IsLeast old new nested) : IsLeast before after patch

variable {shared : Bool} {before after : Members}

/-- The patch is silent at a name exactly if the objects agree there. -/
theorem field?_diff_eq_none_iff (hb : (Value.map before).isJson) (ha : (Value.map after).isJson)
    (name : String) :
    (diff shared before after).field? name = none ↔ AgreeAt before after name := by
  rw [field?_diff (Value.isJson_map.mp ha).1, AgreeAt]
  cases hbefore : before.field? name with
  | none => cases after.field? name <;> simp
  | some old =>
    have json := Value.isJson_of_field? hb hbefore
    cases hafter : after.field? name with
    | none => simp
    | some new =>
      rw [Option.rel_some_some]
      refine (change_eq_none_iff json (Value.isJson_of_field? ha hafter)).trans ?_
      exact ⟨Value.equal_of_equal_shared json, fun h => Value.equal_shared h shared⟩

/-- Where both objects have mappings, the patch is the one between these. -/
theorem field?_diff_of_maps (ha : after.isNamed) {name : String} {old new : Members}
    (hold : before.field? name = some (.map old)) (hnew : after.field? name = some (.map new)) :
    (diff shared before after).field? name = nested? (diff shared old new) := by
  rw [field?_diff ha, hold, hnew]
  dsimp only
  rw [change, diff]

theorem isLeast_diff (hb : (Value.map before).isJson) (ha : (Value.map after).isJson) :
    IsLeast before after (diff shared before after) := by
  -- The patch recurses on the second object, so that is what the induction is on.
  generalize hvalue : Value.map after = value at ha
  induction value using Value.induction generalizing before after with
  | map members ih =>
    obtain rfl := Value.map.inj hvalue
    have namedAfter := (Value.isJson_map.mp ha).1
    have named : (diff shared before after).isNamed :=
      isNamed_diff (Value.isJson_map.mp hb).1 namedAfter
    have silent : ∀ name, (diff shared before after).field? name = none ↔
        AgreeAt before after name := field?_diff_eq_none_iff hb ha
    refine .intro (Members.nodup_keys named) (fun key => ?_)
      (fun name old new said hold hnew h => ?_) fun name old new nested hold hnew h => ?_
    · rw [Members.mem_keys_iff named]
      refine exists_congr fun name => and_congr_right fun _ => ?_
      rw [← silent, Option.isSome_iff_ne_none]
    · rw [field?_diff_of_maps namedAfter hold hnew, nested?] at h
      split at h
      · cases h
      · rename_i some
        exact ⟨_, (Option.some.inj h).symm, fun none => some (List.isEmpty_iff.mpr none)⟩
    · rw [field?_diff_of_maps namedAfter hold hnew, nested?] at h
      split at h
      · cases h
      · obtain rfl := Value.map.inj (Option.some.inj h)
        exact (ih _ (Members.mem_of_field? hnew)).2 (Value.isJson_of_field? hb hold) rfl
          (Value.isJson_of_field? ha hnew)
  | leaf value hleaf =>
    subst hvalue
    cases hleaf
  | _ => cases hvalue

/-- The merge patch between two JSON objects can always be computed. It names just the keys at
which they differ, at each level to which it goes down, so it is empty exactly if they are equal. -/
theorem mergePatch_is_least (shared : Bool) (before after : Members)
    (hb : (Value.map before).isJson) (ha : (Value.map after).isJson) :
    ∃ patch, mergePatch shared (.map before) (.map after) = .ok patch ∧
      IsLeast before after patch ∧
      (patch = [] ↔ (Value.map before).equal false (.map after) = true) ∧
      ∀ name, AgreeAt before after name → patch.field? name = none := by
  refine ⟨diff shared before after, rfl, isLeast_diff hb ha, ?_, fun name agree => ?_⟩
  · rw [diff_eq_nil_iff hb ha]
    exact ⟨Value.equal_of_equal_shared hb, fun h => Value.equal_shared h shared⟩
  · exact (field?_diff_eq_none_iff hb ha name).mpr agree

/-- Of an object with many members only some are mentioned. -/
theorem objectPatch_is_least : ∃ patch,
    mergePatch true (.map objectBefore) (.map objectAfter) = .ok patch ∧
      IsLeast objectBefore objectAfter patch ∧
      (patch = [] ↔ (Value.map objectBefore).equal false (.map objectAfter) = true) ∧
      ∀ name, AgreeAt objectBefore objectAfter name → patch.field? name = none :=
  mergePatch_is_least true objectBefore objectAfter (by decide +kernel) (by decide +kernel)

end Reconciler.Patch.Merge
