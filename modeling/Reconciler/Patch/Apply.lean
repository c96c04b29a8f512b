import Reconciler.Patch.Decision

/-!
# Applying patches

What a server makes of an object and a patch. A null removes a member and a mapping patches
the mapping that it meets; anything else replaces what is there. In a strategic patch a list
that is merged by a key patches the elements that it names and leaves the others.
-/

namespace Reconciler.Patch

namespace Merge

mutual

/-- The value that a merge patch makes of a value. -/
def apply (target : Value) : Value → Value
  | .map patch => .map (applyMembers target.members patch)
  | patch => patch

/-- The members that the members of a merge patch make of a mapping. -/
def applyMembers (target : Members) : Members → Members
  | [] => target
  | (key, value) :: rest =>
    let patched := apply (Value.ofOption (Members.at? target key)) value
    applyMembers
      (if value.isNull then Members.without target key else Members.put target key patched) rest

end

@[simp] theorem applyMembers_nil (target : Members) : applyMembers target [] = target := by
  simp [applyMembers]

end Merge

namespace Strategic

/-- The key by which an element of a list is merged; null if it has none. -/
def mergeKeyOf (mergeKey : String) (element : Value) : Value :=
  Value.ofOption (Members.field? element.members mergeKey)

/-- Whether an element of a patch removes the element with its key. -/
def isDeletion (element : Members) : Bool :=
  (Value.ofOption (Members.field? element directive)).equal false (.text "delete")

/-- Change the first element that has a key; if none has it, add a new one. -/
def putElement (mergeKey : String) (key new : Value) (change : Value → Value) :
    List Value → List Value
  | [] => [new]
  | element :: rest =>
    if Value.sameKey key (mergeKeyOf mergeKey element) then change element :: rest
    else element :: putElement mergeKey key new change rest

mutual

/-- The members that the members of a strategic patch make of a mapping typed by a model. -/
def applyMembers (model : Option String) (target : Members) : Members → Members
  | [] => target
  | (key, value) :: rest =>
    let patched := applyAt model key (Value.ofOption (Members.at? target key)) value
    applyMembers model
      (if value.isNull then Members.without target key else Members.put target key patched) rest
termination_by structural patch => patch

/-- The value that a strategic patch makes of the value at a key. -/
def applyAt (model : Option String) (key target : Value) : Value → Value
  | .map patch =>
    match target with
    | .map members =>
      .map (applyMembers (Schema.builtin.modelOf (Schema.typeAt model key)) members patch)
    | _ => .map patch
  | .list patch =>
    match target, Schema.mergeKeyAt model key with
    | .list elements, some mergeKey =>
      .list (applyElements (Schema.builtin.modelOf (Schema.elementType (Schema.typeAt model key)))
        mergeKey elements patch)
    | _, _ => .list patch
  | patch => patch
termination_by structural patch => patch

/-- The list that the elements of a patch make of a list that is merged by a key. -/
def applyElements (model : Option String) (mergeKey : String) (target : List Value) :
    List Value → List Value
  | [] => target
  | .map patch :: rest =>
    let key := mergeKeyOf mergeKey (.map patch)
    let patched :=
      if isDeletion patch then
        target.filter fun element => !Value.sameKey key (mergeKeyOf mergeKey element)
      else
        putElement mergeKey key (.map patch)
          (fun element => .map (applyMembers model element.members patch)) target
    applyElements model mergeKey patched rest
  | element :: rest => applyElements model mergeKey (target ++ [element]) rest
termination_by structural patch => patch

end

@[simp] theorem applyMembers_nil (model : Option String) (target : Members) :
    applyMembers model target [] = target := by
  simp [applyMembers]

@[simp] theorem applyElements_nil (model : Option String) (mergeKey : String)
    (target : List Value) : applyElements model mergeKey target [] = target := by
  simp [applyElements]

end Strategic

/-- The object that a patch makes of an object. -/
def Strategy.apply (strategy : Strategy) (model : Option String) (target : Value)
    (patch : Members) : Value :=
  match strategy with
  | .merge => Merge.apply target (.map patch)
  | .strategic => .map (Strategic.applyMembers model target.members patch)

end Reconciler.Patch
