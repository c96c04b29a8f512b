import Reconciler.Proofs.Patch.Members

/-!
# Merge patches and what they make

The merge patch between two JSON objects, applied to the first of them, makes an object that
says the same as the second, whatever nulls the two have. No list is merged here, so the
elements of lists are compared in order and with all of their nulls.
-/

namespace Reconciler.Patch.Merge

open Schema (Place)

variable {shared : Bool} {before after : Members}

/-! ### What a patch says -/

theorem applyMembers_eq (target patch : Members) :
    applyMembers target patch = patchWith (fun _ old value => apply old value) target patch := by
  induction patch generalizing target with
  | nil => rw [applyMembers_nil, patchWith]
  | cons member rest ih =>
    obtain ⟨key, value⟩ := member
    rw [applyMembers, patchWith, ih]

/-- What a patch writes at a name at which the second mapping has a value. -/
def written (shared : Bool) (before : Members) (name : String) (value : Value) : Option Value :=
  (before.field? name).elim (some value) fun old => change shared old value

theorem additions_cons (name : String) (value : Value) (rest : Members) :
    additions shared before ((.text name, value) :: rest) =
      ((written shared before name value).elim [] fun value => [(.text name, value)]) ++
        additions shared before rest := by
  rw [additions, written, Members.field?]
  cases before.at? (.text name) <;> rfl

theorem field?_additions (ha : after.isNamed) (name : String) :
    (additions shared before after).field? name =
      (after.field? name).bind (written shared before name) := by
  induction after generalizing name with
  | nil => simp [additions]
  | cons member rest ih =>
    obtain ⟨key, value⟩ := member
    obtain ⟨own, rfl, fresh, named⟩ := Members.isNamed_cons.mp ha
    have later : (additions shared before rest).field? own = none := by
      rw [ih named, fresh, Option.bind_none]
    rw [additions_cons, field?_elim_append _ later, Members.field?_cons_text]
    split
    · rename_i h
      rw [h, Option.bind_some]
    · exact ih named name

theorem isNamed_additions (ha : after.isNamed) : (additions shared before after).isNamed := by
  induction after with
  | nil => simp [additions, Members.isNamed]
  | cons member rest ih =>
    obtain ⟨key, value⟩ := member
    obtain ⟨own, rfl, fresh, named⟩ := Members.isNamed_cons.mp ha
    rw [additions_cons]
    refine isNamed_elim_append _ ?_ (ih named)
    rw [field?_additions named, fresh, Option.bind_none]

theorem field?_additions_of_none (ha : after.isNamed) (name : String)
    (h : after.field? name = none) : (additions shared before after).field? name = none := by
  rw [field?_additions ha, h, Option.bind_none]

/-- What the patch between two mappings says at a name. -/
theorem field?_diff (ha : after.isNamed) (name : String) :
    (diff shared before after).field? name =
      match after.field? name, before.field? name with
      | some value, none => some value
      | some value, some old => change shared old value
      | none, some _ => some .null
      | none, none => none := by
  rw [diff, field?_append_removals (field?_additions_of_none ha), field?_additions ha]
  cases after.field? name <;> cases hb : before.field? name <;> simp [written, hb]

theorem isNamed_diff (hb : before.isNamed) (ha : after.isNamed) :
    (diff shared before after).isNamed :=
  isNamed_append_removals hb (isNamed_additions ha) (field?_additions_of_none ha)

/-! ### What a patch makes -/

/-- A value that does not patch a mapping keeps what it says. -/
theorem alike_apply_of_members_nil {target value : Value} (ht : target.members = [])
    (h : value.isJson) : Alike {} (apply target value) value := by
  induction value using Value.induction generalizing target with
  | map members ih =>
    obtain ⟨named, values⟩ := Value.isJson_map.mp h
    rw [apply, ht, applyMembers_eq]
    refine alike_patchWith rfl named named fun name => ?_
    rw [Place.below_none, Members.field?_nil]
    cases hname : members.field? name with
    | none => exact .none_left rfl
    | some value =>
      have hmem := Members.mem_of_field? hname
      rw [patchedAt]
      split
      · rename_i hnull
        exact .none_left hnull
      · exact Alike.at_some ((ih _ hmem).2 rfl (values _ hmem))
  | leaf value hleaf =>
    rw [apply]
    · exact .refl _ h
    · rintro _ rfl
      cases hleaf
  | list items =>
    rw [apply]
    · exact .refl _ h
    · intro _ heq
      cases heq
  | tuple items => exact (Value.not_isJson_tuple h).elim
  | set items => exact (Value.not_isJson_set h).elim

/-- Two mappings are brought to say the same if that holds of the values at each name that
both of them have. -/
theorem alike_applyMembers_diff (hb : before.isNamed) (ha : (Value.map after).isJson)
    (common : ∀ name old value, before.field? name = some old → after.field? name = some value →
      AlikeAt {} (patchedAt (fun _ old value => apply old value) name (some old)
        (change shared old value)) (some value)) :
    Alike {} (.map (applyMembers before (diff shared before after))) (.map after) := by
  obtain ⟨named, values⟩ := Value.isJson_map.mp ha
  rw [applyMembers_eq]
  refine alike_patchWith hb (isNamed_diff hb named) named fun name => ?_
  rw [Place.below_none, field?_diff named]
  cases hafter : after.field? name with
  | none => cases before.field? name <;> exact .none_left rfl
  | some value =>
    cases hbefore : before.field? name with
    | some old => exact common name old value hbefore hafter
    | none =>
      rw [patchedAt]
      split
      · rename_i hnull
        exact .none_left hnull
      · exact Alike.at_some (alike_apply_of_members_nil rfl
          (values _ (Members.mem_of_field? hafter)))

/-- A value other than a mapping is kept where it is equal and otherwise replaced. -/
theorem alike_patchedAt_change_of_not_map (name : String) {old value : Value}
    (hold : old.isJson) (h : value.isJson) (hmap : ∀ members, value ≠ .map members) :
    AlikeAt {} (patchedAt (fun _ old value => apply old value) name (some old)
      (change shared old value)) (some value) := by
  rw [change]
  · split
    · rename_i heq
      exact Alike.at_some (.equal (Value.equal_of_equal_shared hold heq))
    · rw [patchedAt]
      split
      · rename_i hnull
        exact .none_left hnull
      · rw [apply]
        · exact Alike.at_some (.refl _ h)
        · exact hmap
  · exact hmap

/-- What the patch says at a name that both mappings have brings one value to the other. -/
theorem alike_patchedAt_change (name : String) {old value : Value} (hold : old.isJson)
    (h : value.isJson) :
    AlikeAt {} (patchedAt (fun _ old value => apply old value) name (some old)
      (change shared old value)) (some value) := by
  induction value using Value.induction generalizing name old with
  | map after ih =>
    by_cases hmap : ∃ before, old = .map before
    · obtain ⟨before, rfl⟩ := hmap
      have patched : Alike {} (.map (applyMembers before (diff shared before after)))
          (.map after) := by
        refine alike_applyMembers_diff (Value.isJson_map.mp hold).1 h fun name old value ho hv => ?_
        exact (ih _ (Members.mem_of_field? hv)).2 name (Value.isJson_of_field? hold ho)
          (Value.isJson_of_field? h hv)
      rw [change, ← diff, patchedAt_nested?]
      split
      · rename_i hempty
        rw [List.isEmpty_iff.mp hempty, applyMembers_nil] at patched
        exact Alike.at_some patched
      · rw [Value.ofOption_some, apply]
        exact Alike.at_some patched
    · have members : old.members = [] := by
        cases old <;> first | rfl | exact (hmap ⟨_, rfl⟩).elim
      rw [change]
      · exact Alike.at_some (alike_apply_of_members_nil members h)
      · exact fun before hold => hmap ⟨before, hold⟩
  | leaf value hleaf =>
    refine alike_patchedAt_change_of_not_map name hold h ?_
    rintro _ rfl
    cases hleaf
  | list items => exact alike_patchedAt_change_of_not_map name hold h nofun
  | tuple items => exact (Value.not_isJson_tuple h).elim
  | set items => exact (Value.not_isJson_set h).elim

/-- The merge patch between two JSON objects, applied to the first one, makes an object that
says the same as the second. -/
theorem alike_apply_mergePatch (shared : Bool) (before after : Members)
    (hb : (Value.map before).isJson) (ha : (Value.map after).isJson) :
    ∃ patch, mergePatch shared (.map before) (.map after) = .ok patch ∧
      Alike {} (apply (.map before) (.map patch)) (.map after) := by
  refine ⟨diff shared before after, rfl, ?_⟩
  rw [apply]
  refine alike_applyMembers_diff (Value.isJson_map.mp hb).1 ha fun name old value hold h => ?_
  exact alike_patchedAt_change name (Value.isJson_of_field? hb hold)
    (Value.isJson_of_field? ha h)

/-- An object before and after a change that adds, replaces and removes members below other
members, and that meets nulls and lists with nulls. -/
def objectBefore : Members := [
  (.text "a", .map [(.text "x", .int 1), (.text "y", .null), (.text "z", .map [])]),
  (.text "b", .list [.int 1, .null]),
  (.text "c", .text "gone")]

@[inherit_doc objectBefore]
def objectAfter : Members := [
  (.text "d", .map [(.text "v", .map [(.text "w", .null)])]),
  (.text "b", .list [.null, .map [(.text "u", .null)]]),
  (.text "a", .map [(.text "x", .bool true), (.text "y", .int 2), (.text "z", .null)])]

theorem alike_apply_objectPatch : ∃ patch,
    mergePatch true (.map objectBefore) (.map objectAfter) = .ok patch ∧
      Alike {} (apply (.map objectBefore) (.map patch)) (.map objectAfter) :=
  alike_apply_mergePatch true objectBefore objectAfter (by decide +kernel) (by decide +kernel)

end Reconciler.Patch.Merge
