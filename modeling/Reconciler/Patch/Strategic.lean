import Reconciler.Patch.Merge
import Reconciler.Problem
import Reconciler.Schema.MergeKey

/-!
# Strategic merge patches

A strategic patch is a merge patch that knows the models of built-in types. A list whose
elements a field identifies is patched element by element: an element that was added or has
changed is named by its key, and one that was removed by its key and a delete directive.
All other lists are replaced whole.

Elements are compared after each list is read as a mapping from keys to elements, so of
several elements with one key the last one counts, at the place of the first.
-/

namespace Reconciler.Patch

/-- The member by which a patch says what to do with an element. -/
def directive : String := "$patch"

/-- What a patch has to say about one element of the second list. -/
inductive Change where
  /-- The element is as it was. -/
  | keep
  /-- The element is new. -/
  | add (element : Value)
  /-- The element is patched by these members and its key. -/
  | merge (patch : Members)
  deriving Inhabited

/-- Pairs as a mapping: the last value of a key, at the place of its first. -/
def keyed : List (Value × α) → List (Value × α)
  | pairs => pairs.foldl put []
where
  /-- Write a value at a key. -/
  put (entries : List (Value × α)) (pair : Value × α) : List (Value × α) :=
    if entries.any fun entry => Value.sameKey pair.1 entry.1 then
      entries.map fun entry => if Value.sameKey pair.1 entry.1 then (entry.1, pair.2) else entry
    else entries ++ [pair]

/-- The key of an element of the list at a field. -/
def elementKey (field : Value) (mergeKey : String) (element : Value) : Except Failure Value :=
  match element with
  | .map members => match Members.field? members mergeKey with
    | some key => if key.isKey then .ok key else .error (.fault .wrongType)
    | none => .error (Failure.ofCause (.unkeyed field element mergeKey))
  | _ => .error (Failure.ofCause (.unkeyed field element mergeKey))

/-- The keys of all elements of a list. -/
def elementKeys (field : Value) (mergeKey : String) : List Value → Except Failure (List Value)
  | [] => .ok []
  | element :: rest => do
    let key ← elementKey field mergeKey element
    let keys ← elementKeys field mergeKey rest
    return key :: keys

/-- An element of the patch of a list; `none` for an element that is kept. -/
def elementPatch? (mergeKey : String) (key : Value) : Change → Option Value
  | .keep => none
  | .add element => some element
  | .merge [] => none
  | .merge patch => some (.map (Members.put patch (.text mergeKey) key))

/-- The elements of the patch of a list that name elements of the second list, by key. -/
def elementPatches (mergeKey : String) :
    List (Value × Except Failure Change) → Except Failure (List Value)
  | [] => .ok []
  | (key, change) :: rest => do
    let change ← change
    let patches ← elementPatches mergeKey rest
    return (elementPatch? mergeKey key change).toList ++ patches

/-- The elements of the patch of a list that remove elements. -/
def elementRemovals (mergeKey : String) (old new : List Value) : List Value :=
  (old.filter fun key => !new.any fun other => Value.sameKey key other).map fun key =>
    .map [(.text directive, .text "delete"), (.text mergeKey, key)]

namespace Strategic

/-- The patch of a list that is merged by a key, from the changes of its elements. -/
def listPatch (field : Value) (mergeKey : String) (before after : List Value)
    (changes : Members → List (Except Failure Change)) : Except Failure (Option Value) := do
  let oldKeys ← elementKeys field mergeKey before
  let olds := keyed (oldKeys.zip before)
  let newKeys ← elementKeys field mergeKey after
  let news := keyed (newKeys.zip (changes olds))
  let patches ← elementPatches mergeKey news
  let items := patches ++ elementRemovals mergeKey (Members.keys olds) (news.map (·.1))
  return if items.isEmpty then none else some (.list items)

mutual

/-- The members to write or patch so that the first mapping, typed by a model, has all
members of the second. -/
def additions (shared : Bool) (model : Option String) (before : Members) :
    Members → Except Failure Members
  | [] => .ok []
  | (key, value) :: rest => do
    let here ← match Members.at? before key with
      | none => pure (some value)
      | some old => change shared model key old value
    let others ← additions shared model before rest
    return (here.elim [] fun value => [(key, value)]) ++ others
termination_by structural after => after

/-- What a patch says at a member that both sides have; `none` if they agree. -/
def change (shared : Bool) (model : Option String) (key old : Value) :
    Value → Except Failure (Option Value)
  | .map after =>
    match old with
    | .map before =>
      if old.equal shared (.map after) then .ok none
      else do
        let inner := Schema.builtin.modelOf (Schema.typeAt model key)
        let written ← additions shared inner before after
        return nested? (written ++ removals before after)
    | _ => .ok (some (.map after))
  | .list after =>
    match old with
    | .list before =>
      if old.equal shared (.list after) then .ok none
      else match Schema.mergeKeyAt model key with
        | none => .ok (some (.list after))
        | some mergeKey =>
          let element := Schema.builtin.modelOf (Schema.elementType (Schema.typeAt model key))
          listPatch key mergeKey before after fun olds =>
            elementChanges shared element mergeKey olds after
    | _ => .ok (some (.list after))
  | value => .ok (if old.equal shared value then none else some value)
termination_by structural value => value

/-- How each element of the second list differs from the element of the first with its key. -/
def elementChanges (shared : Bool) (model : Option String) (mergeKey : String) (olds : Members) :
    List Value → List (Except Failure Change)
  | [] => []
  | .map element :: rest =>
    let here : Except Failure Change :=
      match (Members.field? element mergeKey).bind (Members.at? olds) with
      | some (.map old) =>
        if (Value.map old).equal shared (.map element) then .ok .keep
        else do
          let written ← additions shared model old element
          return .merge (written ++ removals old element)
      | _ => .ok (.add (.map element))
    here :: elementChanges shared model mergeKey olds rest
  | element :: rest => .ok (.add element) :: elementChanges shared model mergeKey olds rest
termination_by structural elements => elements

end

/-- The strategic patch that turns the first mapping, typed by a model, into the second. -/
def diff (shared : Bool) (model : Option String) (before after : Members) :
    Except Failure Members := do
  let written ← additions shared model before after
  return written ++ removals before after

end Strategic

/-- The strategic patch between two values; the second one must be a mapping. -/
def strategicPatch (shared : Bool) (model : Option String) (before after : Value) :
    Except Failure Members :=
  match before, after with
  | .map before, .map after => Strategic.diff shared model before after
  | before, .map after => liftFault (diffOther before after)
  | _, _ => .error (.fault .noMember)

end Reconciler.Patch
