import Reconciler.Cluster.Api
import Reconciler.Value.Portable

/-!
# Sessions with a cluster

Work with a cluster makes calls and may fail. What was done before a failure stays done, so
a session keeps the state of the cluster also when it fails.
-/

namespace Reconciler

/-- Work with a cluster that may fail. -/
abbrev Session (α : Type) := ExceptT Failure (StateM Cluster.State) α

namespace Session

/-- Run a session on a cluster. -/
def on (work : Session α) (s : Cluster.State) : Except Failure α × Cluster.State :=
  StateT.run (ExceptT.run work) s

/-- A result that does not depend on the cluster. -/
def ofExcept (result : Except Failure α) : Session α := ExceptT.mk (pure result)

/-- A result that may be a fault. -/
def ofFault (result : Except Fault α) : Session α := ofExcept (liftFault result)

/-- The cluster as it is now. -/
def state : Session Cluster.State := ExceptT.mk fun s => (.ok s, s)

/-- Change the cluster. -/
def change (f : Cluster.State → Cluster.State) : Session Unit :=
  ExceptT.mk fun s => (.ok (), f s)

/-- The answer to a call, or the failure that a refusal makes. -/
def call (api : Cluster.Api α) (failure : ApiRefusal → Failure) : Session α := do
  match ← api with
  | .ok answer => return answer
  | .error refusal => throw (failure refusal)

/-- Do something to the cluster after a session, whether it fails or not. -/
def thenAlways (work : Session α) (f : Cluster.State → Cluster.State) : Session α :=
  ExceptT.mk fun s => match work.on s with
    | (result, s) => (result, f s)

/-- Take a problem as a result. Faults remain failures. -/
def recorded (work : Session α) : Session (Except Problem α) := ExceptT.mk fun s =>
  match work.on s with
  | (.ok a, s) => (.ok (.ok a), s)
  | (.error (.problem problem), s) => (.ok (.error problem), s)
  | (.error failure, s) => (.error failure, s)

/-- Visit references in order, up to the first failure. -/
def visit (act : Ref → Session α) : RefSet → Session (List α)
  | [] => pure []
  | ref :: rest => do
    let a ← act ref
    let more ← visit act rest
    return a :: more

/-- An object of a typed interface as a value. -/
def serialized (object : Value) : Session Value :=
  if object.hasSet then throw (.fault .noMember) else return object.portable

/-- Objects of a typed interface as values. -/
def serializedAll : List Value → Session (List Value)
  | [] => pure []
  | object :: rest => do
    let value ← serialized object
    let values ← serializedAll rest
    return value :: values

@[simp] theorem on_pure (a : α) (s : Cluster.State) : (pure a : Session α).on s = (.ok a, s) :=
  rfl

@[simp] theorem on_throw (failure : Failure) (s : Cluster.State) :
    (throw failure : Session α).on s = (.error failure, s) := rfl

@[simp] theorem on_ofExcept (result : Except Failure α) (s : Cluster.State) :
    (ofExcept result).on s = (result, s) := rfl

@[simp] theorem on_state (s : Cluster.State) : state.on s = (.ok s, s) := rfl

@[simp] theorem on_change (f : Cluster.State → Cluster.State) (s : Cluster.State) :
    (change f).on s = (.ok (), f s) := rfl

/-- A session goes on where the one before it succeeded, with the state that it left. -/
theorem on_bind (work : Session α) (next : α → Session β) (s : Cluster.State) :
    (work >>= next).on s =
      match work.on s with
      | (.ok a, s) => (next a).on s
      | (.error failure, s) => (.error failure, s) := by
  simp only [on, ExceptT.run_bind, StateT.run_bind]
  rcases h : StateT.run (ExceptT.run work) s with ⟨_ | _, _⟩ <;> rfl

/-- The answer to a call never fails by itself. -/
theorem on_lift (api : StateM Cluster.State α) (s : Cluster.State) :
    (liftM api : Session α).on s = (.ok (api s).1, (api s).2) := rfl

theorem on_call (api : Cluster.Api α) (failure : ApiRefusal → Failure) (s : Cluster.State) :
    (call api failure).on s = ((api s).1.mapError failure, (api s).2) := by
  rw [call, on_bind, on_lift]
  rcases (api s).1 with _ | _ <;> rfl

theorem on_thenAlways (work : Session α) (f : Cluster.State → Cluster.State)
    (s : Cluster.State) : (thenAlways work f).on s = ((work.on s).1, f (work.on s).2) := rfl

theorem on_recorded (work : Session α) (s : Cluster.State) :
    (recorded work).on s =
      match work.on s with
      | (.ok a, s) => (.ok (.ok a), s)
      | (.error (.problem problem), s) => (.ok (.error problem), s)
      | (.error failure, s) => (.error failure, s) := rfl

@[simp] theorem visit_nil (act : Ref → Session α) : visit act [] = pure [] := rfl

theorem visit_cons (act : Ref → Session α) (ref : Ref) (rest : RefSet) :
    visit act (ref :: rest) = do
      let a ← act ref
      let more ← visit act rest
      return a :: more := rfl

end Session

end Reconciler
