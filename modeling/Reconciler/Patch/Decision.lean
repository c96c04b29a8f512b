import Reconciler.Json.Encode
import Reconciler.Patch.Strategic

/-!
# Deciding what to send

An object is patched when the canonical texts of its last applied and its desired body
differ. A built-in kind takes a strategic patch along its model, any other kind a merge
patch. The patch is computed on the bodies as the server would read them; if it turns out
empty, nothing is sent.
-/

namespace Reconciler.Patch

/-- How the server is to apply a patch. -/
inductive Strategy where
  | strategic
  | merge
  deriving DecidableEq, Inhabited

/-- The name of a strategy. -/
def Strategy.name : Strategy → String
  | .strategic => "strategic"
  | .merge => "merge"

/-- The content type that announces a patch of this strategy to the server. -/
def Strategy.contentType : Strategy → String
  | .strategic => "application/strategic-merge-patch+json"
  | .merge => "application/merge-patch+json"

/-- The outcome of comparing two bodies: no patch if there is nothing to change. -/
structure Decision where
  patch : Option Members
  strategy : Strategy
  deriving Inhabited

/-- Whether there is nothing to change. -/
def Decision.isEmpty (decision : Decision) : Bool := decision.patch.isNone

/-- The text of the patch, if there is one. -/
def Decision.body? (decision : Decision) : Option String :=
  decision.patch.bind fun patch =>
    (Json.encode (.map patch)).toOption.map String.ofList

/-- The canonical text of a value, or the problem of having none. -/
def canonicalText (value : Value) : Except Failure (List Char) :=
  (Json.encode value).mapError fun refusal => Failure.ofCause (.unserializable refusal)

/-- The strategy for objects of a kind. -/
def strategyFor (model : Option String) : Strategy :=
  if (Schema.builtin.modelOf model).isSome then .strategic else .merge

/-- A patch as it is recorded: an empty one is none, and its keys must be text. -/
def record (patch : Members) : Except Failure (Option Members) :=
  if patch.isEmpty then .ok none
  else if patch.all fun member => member.1.typeName == "str" then .ok (some patch)
  else .error (.fault .refusedField)

/-- Compare the last applied body of an object with the desired one. -/
def Decision.between (current desired : Value) : Except Failure Decision := do
  let currentText ← canonicalText current
  let desiredText ← canonicalText desired
  let info ← liftFault (Schema.lookupObject desired)
  let strategy := strategyFor info.model
  if currentText == desiredText then return { patch := none, strategy }
  let old := Json.wire current
  let new := Json.wire desired
  let patch ← match strategy with
    | .merge => liftFault (mergePatch true old new)
    | .strategic => strategicPatch true info.model old new
  let patch ← record patch
  return { patch, strategy }

end Reconciler.Patch
