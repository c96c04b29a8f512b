import Reconciler.Value.Parts

/-!
# Merge patches

A merge patch on a mapping names the members to write, the members to remove, by a null,
and the members to patch further down, by a mapping. It is the least such description: a
member on which the two sides agree is left out.

`Merge.diff` computes the patch between two mappings. Equality of members is that of the
document values, where `shared` is explained in `Value.equal`.
-/

namespace Reconciler.Patch

/-- The members of the first mapping that the second lacks, each with null as its value. -/
def removals (before after : Members) : Members :=
  (before.filter fun member => !Members.has after member.1).map fun member =>
    (member.1, .null)

/-- A patch below a member; an empty one says nothing. -/
def nested? (patch : Members) : Option Value :=
  if patch.isEmpty then none else some (.map patch)

namespace Merge

mutual

/-- The members to write or patch so that the first mapping has all members of the second. -/
def additions (shared : Bool) (before : Members) : Members → Members
  | [] => []
  | (key, value) :: rest =>
    let here := match Members.at? before key with
      | none => some value
      | some old => change shared old value
    (here.elim [] fun value => [(key, value)]) ++ additions shared before rest

/-- What a patch says at a member that both sides have; `none` if they agree. -/
def change (shared : Bool) (old : Value) : Value → Option Value
  | .map after =>
    match old with
    | .map before => nested? (additions shared before after ++ removals before after)
    | _ => some (.map after)
  | value => if old.equal shared value then none else some value

end

/-- The merge patch that turns the first mapping into the second. -/
def diff (shared : Bool) (before after : Members) : Members :=
  additions shared before after ++ removals before after

end Merge

/-- Members of a mapping that patch a value other than a mapping. A key that occurs among
the value's parts cannot be looked up in it. -/
def writeAll (before : Value) : Members → Except Fault Members
  | [] => .ok []
  | (key, value) :: rest => do
    if ← before.hasPart key then throw .wrongType
    let written ← writeAll before rest
    return (key, value) :: written

/-- The parts of a value other than a mapping that are no keys of the second mapping, as
members to remove. -/
def removeParts (after : Members) : List Value → Members → Except Fault Members
  | [], patch => .ok patch
  | part :: rest, patch =>
    if part.isKey then
      removeParts after rest (if Members.has after part then patch else patch.put part .null)
    else .error .wrongType

/-- The patch from a value other than a mapping to a mapping. -/
def diffOther (before : Value) (after : Members) : Except Fault Members := do
  let written ← writeAll before after
  let parts ← before.parts
  removeParts after parts written

/-- The merge patch between two values; the second one must be a mapping. -/
def mergePatch (shared : Bool) (before after : Value) : Except Fault Members :=
  match before, after with
  | .map before, .map after => .ok (Merge.diff shared before after)
  | before, .map after => diffOther before after
  | _, _ => .error .noMember

end Reconciler.Patch
