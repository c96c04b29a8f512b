import Reconciler.Patch.Apply
import Reconciler.Proofs.Patch.Alike

/-!
# Patching the members of a mapping

Both kinds of patches are applied member by member: a null removes the member of its name,
and any other value changes what is there. `patchWith` is this walk for any way of changing a
value. A patched mapping is known by what it has at each name, and so is the patch itself.
-/

namespace Reconciler.Patch

open Schema (Place)

/-- The members that a patch makes of a mapping, where `change` says what becomes of the
value at a key. -/
def patchWith (change : (key old value : Value) → Value) (target : Members) : Members → Members
  | [] => target
  | (key, value) :: rest =>
    patchWith change
      (if value.isNull then target.without key
        else target.put key (change key (Value.ofOption (target.at? key)) value)) rest

/-- What a patched mapping has at a name, by what it had there and what the patch says. -/
def patchedAt (change : (key old value : Value) → Value) (name : String)
    (old said : Option Value) : Option Value :=
  match said with
  | none => old
  | some value =>
    if value.isNull then none else some (change (.text name) (Value.ofOption old) value)

/-- An empty patch below a name says nothing. -/
theorem patchedAt_nested? (change : (key old value : Value) → Value) (name : String)
    (old : Option Value) (patch : Members) :
    patchedAt change name old (nested? patch) =
      if patch.isEmpty then old
      else some (change (.text name) (Value.ofOption old) (.map patch)) := by
  unfold nested?
  split <;> rfl

variable {change : (key old value : Value) → Value} {target patch before after : Members}

theorem isNamed_patchWith (ht : target.isNamed) (hp : patch.isNamed) :
    (patchWith change target patch).isNamed := by
  induction patch generalizing target with
  | nil => exact ht
  | cons member rest ih =>
    obtain ⟨key, value⟩ := member
    obtain ⟨name, rfl, -, named⟩ := Members.isNamed_cons.mp hp
    refine ih ?_ named
    split
    · exact Members.isNamed_without ht name
    · exact Members.isNamed_put ht name _

theorem field?_patchWith (hp : patch.isNamed) (name : String) :
    (patchWith change target patch).field? name =
      patchedAt change name (target.field? name) (patch.field? name) := by
  induction patch generalizing target with
  | nil => rfl
  | cons member rest ih =>
    obtain ⟨key, value⟩ := member
    obtain ⟨own, rfl, fresh, named⟩ := Members.isNamed_cons.mp hp
    rw [patchWith, ih named]
    by_cases h : own = name
    · subst h
      rw [fresh, Members.field?_cons_self]
      by_cases hnull : value.isNull
      · simp [patchedAt, hnull]
      · rw [if_neg hnull, Members.field?_put, if_pos rfl, patchedAt, patchedAt, if_neg hnull]
        rfl
    · rw [Members.field?_cons_text, if_neg h]
      by_cases hnull : value.isNull <;> simp [hnull, h]

/-- Two mappings say the same if they do so at each name. -/
theorem alike_patchWith {place : Place} (ht : target.isNamed) (hp : patch.isNamed)
    (ha : after.isNamed)
    (h : ∀ name, AlikeAt (Place.below place.model (.text name))
      (patchedAt change name (target.field? name) (patch.field? name)) (after.field? name)) :
    Alike place (.map (patchWith change target patch)) (.map after) := by
  refine .of_names (isNamed_patchWith ht hp) ha fun name => ?_
  rw [field?_patchWith hp]
  exact h name

/-! ### The members that a patch writes -/

/-- What a patch says at a name that it may leave out, before what it says at other names. -/
theorem field?_elim_append (said : Option Value) {own : String} {rest : Members}
    (fresh : rest.field? own = none) (name : String) :
    ((said.elim [] fun value => [(.text own, value)]) ++ rest : Members).field? name =
      if own = name then said else rest.field? name := by
  cases said with
  | none =>
    split
    · rename_i h
      exact h ▸ fresh
    · rfl
  | some value => exact Members.field?_cons_text own name value rest

theorem isNamed_elim_append (said : Option Value) {own : String} {rest : Members}
    (fresh : rest.field? own = none) (named : rest.isNamed) :
    Members.isNamed ((said.elim [] fun value => [(.text own, value)]) ++ rest) := by
  cases said with
  | none => exact named
  | some value => exact Members.isNamed_cons.mpr ⟨own, rfl, fresh, named⟩

/-! ### The members that a patch removes -/

theorem field?_removals (before after : Members) (name : String) :
    (removals before after).field? name =
      if (before.field? name).isSome && (after.field? name).isNone then some .null else none := by
  induction before with
  | nil => rfl
  | cons member rest ih =>
    obtain ⟨key, value⟩ := member
    by_cases hkey : key = .text name
    · subst hkey
      by_cases kept : (after.field? name).isSome
      · simp_all [removals, Members.has_text, Option.isSome_iff_ne_none]
      · simp_all [removals, Members.has_text]
    · rw [Members.field?_cons_of_ne hkey, ← ih]
      by_cases kept : after.has key
      · simp [removals, kept]
      · simp [removals, kept, Members.field?_cons_of_ne hkey]

theorem isNamed_removals (named : before.isNamed) (after : Members) :
    (removals before after).isNamed := by
  induction before with
  | nil => rfl
  | cons member rest ih =>
    obtain ⟨key, value⟩ := member
    obtain ⟨name, rfl, fresh, named⟩ := Members.isNamed_cons.mp named
    by_cases kept : after.has (.text name)
    · simpa [removals, kept] using ih named
    · have here : removals ((.text name, value) :: rest) after =
          (.text name, .null) :: removals rest after := by simp [removals, kept]
      rw [here]
      exact Members.isNamed_cons.mpr ⟨name, rfl, by simp [field?_removals, fresh], ih named⟩

/-- A patch that writes only names of the second mapping and removes all others says at a
name what it writes there. -/
theorem field?_append_removals {written : Members}
    (h : ∀ name, after.field? name = none → written.field? name = none) (name : String) :
    (written ++ removals before after).field? name =
      match after.field? name with
      | some _ => written.field? name
      | none => if (before.field? name).isSome then some .null else none := by
  rw [Members.field?_append, field?_removals]
  cases hname : after.field? name with
  | none => simp [h name hname]
  | some value => simp

theorem isNamed_append_removals {written : Members} (hb : before.isNamed)
    (hw : written.isNamed) (h : ∀ name, after.field? name = none → written.field? name = none) :
    Members.isNamed (written ++ removals before after) := by
  refine Members.isNamed_append hw (isNamed_removals hb after) fun name hname => ?_
  rw [field?_removals, if_neg]
  cases hafter : after.field? name with
  | none => simp [h name hafter] at hname
  | some value => simp

end Reconciler.Patch
