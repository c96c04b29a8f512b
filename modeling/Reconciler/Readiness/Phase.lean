import Reconciler.Value.Basic

/-!
# Phases of a pod

A pod goes through a few phases that have names. Anything else that stands for a phase is
the unknown one.
-/

namespace Reconciler

/-- Where a pod is in its life. -/
inductive PodPhase where
  | pending
  | running
  | succeeded
  | failed
  | unknown
  deriving DecidableEq, Inhabited

namespace PodPhase

/-- The name of a phase. -/
def name : PodPhase → String
  | .pending => "Pending"
  | .running => "Running"
  | .succeeded => "Succeeded"
  | .failed => "Failed"
  | .unknown => "Unknown"

/-- All phases. -/
def all : List PodPhase := [.pending, .running, .succeeded, .failed, .unknown]

/-- The phase of a given name. -/
def ofValue : Value → PodPhase
  | .text name => (all.find? fun phase => phase.name == name).getD .unknown
  | _ => .unknown

/-- Whether a pod in this phase has come to its end. -/
def isFinal : PodPhase → Bool
  | .succeeded | .failed => true
  | _ => false

end PodPhase

end Reconciler
