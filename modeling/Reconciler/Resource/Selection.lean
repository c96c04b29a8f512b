import Reconciler.Problem
import Reconciler.Schema.Selector

/-!
# Finding the pods of an object

The labels by which an object's pods are found come from the object itself, by the rule of
its kind. A kind without a rule is a problem that concerns the object.
-/

namespace Reconciler.Schema.KindInfo

/-- The labels of the pods that an object of this kind manages. -/
def podLabels (info : KindInfo) (object : Value) : Except Failure Members := do
  let metadata ← liftFault (object.get "metadata")
  match info.selector with
  | some rule => liftFault (rule.labels object)
  | none =>
    let kind ← liftFault (object.get "kind")
    let name ← liftFault (metadata.orEmpty.get "name")
    let space ← liftFault (metadata.orEmpty.get "namespace")
    throw (.problem { cause := .noSelectorRule, subject := { kind, name, space } })

end Reconciler.Schema.KindInfo
