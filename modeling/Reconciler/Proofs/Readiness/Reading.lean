import Reconciler.Client.Basic
import Reconciler.Proofs.Cluster.Calls
import Reconciler.Proofs.Session

/-!
# Waiting only reads

A wait for readiness gets objects, lists them and sleeps. It writes nothing, so in a cluster
in which no other client acts the store stays as it is, however the wait ends; the default
namespace stays what it is in any case. And a wait never fails in the way in which an update
reports its problems. A single check does not sleep either, so it moves no clock, and it never
fails in the way in which a wait reports that its time is over.
-/

namespace Reconciler

open Cluster (State Call NoWrite Called)

/-- No other client is going to change the cluster. -/
def Cluster.State.IsQuiet (s : State) : Prop := ∀ changes ∈ s.ticks, changes = []

/-- Whether a call writes nothing. -/
def Cluster.Call.isReading : Call → Bool
  | .get _ | .listPods _ _ | .readDeployment _ _ | .listReplicaSets _ _ | .sleep _ => true
  | _ => false

/-- Whether a failure may be that of a check: one on its own, and no timeout. -/
def Failure.IsImmediate : Failure → Prop
  | .fault _ => True
  | .problem single => single.category ≠ .readinessTimeout
  | .update _ => False

theorem Failure.IsImmediate.isSingle {failure : Failure} (h : failure.IsImmediate) :
    failure.IsSingle := by
  rintro problems rfl
  exact h

/-- Whether a failure reports that a time is over. -/
def Failure.IsTimeout (failure : Failure) : Prop :=
  ∃ single, failure = .problem single ∧ single.category = .readinessTimeout

theorem Failure.IsImmediate.not_isTimeout {failure : Failure} (h : failure.IsImmediate) :
    ¬failure.IsTimeout := by
  rintro ⟨single, rfl, timeout⟩
  exact h timeout

theorem isImmediate_of_liftFault {result : Except Fault α} {failure : Failure}
    (h : liftFault result = .error failure) : failure.IsImmediate := by
  cases result with
  | ok a => cases h
  | error fault =>
    cases h
    trivial

namespace Contract

/-- A contract that a check for readiness meets. -/
structure PermitsChecks (contract : Contract) : Prop where
  reads : ∀ {call s s'}, Called call NoWrite s s' → call.isReading → contract.allows s s'
  fails : ∀ {failure}, failure.IsImmediate → contract.fails failure

/-- A contract that a wait meets: it may also sleep, and report that its time is over. -/
structure PermitsWaits (contract : Contract) : Prop extends contract.PermitsChecks where
  sleeps : ∀ s seconds, contract.allows s (s.sleep seconds)
  expires : ∀ timeout names, contract.fails (.ofCause (.notReady timeout names))

/-- Work that only reads. -/
def reading : Contract where
  allows s s' :=
    (∃ new, s'.calls = s.calls ++ new ∧ ∀ call ∈ new, call.isReading) ∧
      (s.IsQuiet → s'.IsQuiet ∧ s'.store = s.store)
  fails failure := ∀ problems, failure ≠ .update problems
  refl s := ⟨⟨[], by simp⟩, fun quiet => ⟨quiet, rfl⟩⟩
  trans := by
    rintro s t u ⟨⟨new, hnew, reads⟩, kept⟩ ⟨⟨later, hlater, readsLater⟩, keptLater⟩
    refine ⟨⟨new ++ later, by rw [hlater, hnew, List.append_assoc], fun call hcall => ?_⟩,
      fun quiet => ?_⟩
    · exact (List.mem_append.mp hcall).elim (reads call) (readsLater call)
    · obtain ⟨quiet, store⟩ := kept quiet
      obtain ⟨quiet, storeLater⟩ := keptLater quiet
      exact ⟨quiet, storeLater.trans store⟩

theorem reading_of_called {call : Call} {s s' : State} (h : Called call NoWrite s s')
    (reads : call.isReading) : reading.allows s s' := by
  refine ⟨⟨[call], h.calls, by simpa using reads⟩, fun quiet => ⟨?_, h.store_eq⟩⟩
  intro changes hmem
  exact quiet changes (h.ticks ▸ hmem)

theorem permitsChecks_reading : reading.PermitsChecks where
  reads := reading_of_called
  fails := Failure.IsImmediate.isSingle

/-- Work that leaves the store and the clock as they are, and whatever is going to happen. -/
def checking : Contract where
  allows s s' := s'.store = s.store ∧ s'.clock = s.clock ∧ s'.ticks = s.ticks
  fails := Failure.IsImmediate
  refl _ := ⟨rfl, rfl, rfl⟩
  trans := fun ⟨store, clock, ticks⟩ ⟨store', clock', ticks'⟩ =>
    ⟨store'.trans store, clock'.trans clock, ticks'.trans ticks⟩

theorem permitsChecks_checking : checking.PermitsChecks where
  reads h _ := ⟨h.store_eq, h.clock, h.ticks⟩
  fails := id

/-- What other clients do is no call of this one, and takes no time. -/
theorem calls_applyAll (s : State) (changes : List Cluster.Change) :
    (s.applyAll changes).calls = s.calls ∧ (s.applyAll changes).ticks = s.ticks ∧
      (s.applyAll changes).clock = s.clock := by
  induction changes generalizing s with
  | nil => exact ⟨rfl, rfl, rfl⟩
  | cons change rest ih =>
    have here : (s.apply change).calls = s.calls ∧ (s.apply change).ticks = s.ticks ∧
        (s.apply change).clock = s.clock := by
      cases change with
      | put object =>
        rw [State.apply]
        split <;> exact ⟨rfl, rfl, rfl⟩
      | remove key => exact ⟨rfl, rfl, rfl⟩
    obtain ⟨calls, ticks, clock⟩ := ih (s.apply change)
    rw [State.applyAll, List.foldl_cons, ← State.applyAll]
    exact ⟨calls.trans here.1, ticks.trans here.2.1, clock.trans here.2.2⟩

theorem reading_sleep (s : State) (seconds : Double) : reading.allows s (s.sleep seconds) := by
  rw [State.sleep]
  refine ⟨⟨[.sleep seconds], (calls_applyAll _ _).1, by simp [Call.isReading]⟩, fun quiet => ?_⟩
  have now : s.ticks.head?.getD [] = [] := by
    cases hticks : s.ticks with
    | nil => rfl
    | cons changes rest => exact quiet changes (hticks ▸ List.mem_cons_self ..)
  rw [now]
  exact ⟨fun changes hmem => quiet changes (List.mem_of_mem_tail hmem), rfl⟩

theorem permitsWaits_reading : reading.PermitsWaits where
  toPermitsChecks := permitsChecks_reading
  sleeps := reading_sleep
  expires _ _ := nofun

/-- Work that leaves the default namespace as it is. -/
def settled : Contract where
  allows s s' := s'.discovery = s.discovery
  fails _ := True
  refl _ := rfl
  trans h k := k.trans h

theorem settled_apply (s : State) (change : Cluster.Change) :
    settled.allows s (s.apply change) := by
  cases change with
  | put object =>
    rw [State.apply]
    split <;> rfl
  | remove key => rfl

theorem settled_applyAll (s : State) (changes : List Cluster.Change) :
    settled.allows s (s.applyAll changes) := by
  induction changes generalizing s with
  | nil => rfl
  | cons change rest ih => exact settled.trans (settled_apply s change) (ih (s.apply change))

theorem permitsWaits_settled : settled.PermitsWaits where
  reads h _ := h.discovery
  fails _ := trivial
  sleeps _ _ := settled_applyAll _ _
  expires _ _ := trivial

end Contract

namespace Readiness

open Contract (reading PermitsChecks)
open Session

variable {contract : Contract}

theorem meets_checked (permits : contract.PermitsChecks) (result : Except Fault α) :
    (ofFault result).Meets contract :=
  meets_ofFault fun _ => permits.fails trivial

theorem meets_serialized (permits : contract.PermitsChecks) (object : Value) :
    (serialized object).Meets contract := by
  unfold serialized
  split
  · exact meets_throw (permits.fails trivial)
  · exact meets_pure _

theorem meets_serializedAll (permits : contract.PermitsChecks) (objects : List Value) :
    (serializedAll objects).Meets contract := by
  induction objects with
  | nil => exact meets_pure []
  | cons object rest ih =>
    refine meets_bind (meets_serialized permits object) fun _ => ?_
    exact meets_bind ih fun _ => meets_pure _

theorem meets_listed (permits : contract.PermitsChecks) {api : Cluster.Api (List Value)}
    (h : ∀ s, contract.allows s (api s).2) : (listed api).Meets contract := by
  refine meets_bind (meets_lift h) fun reply => ?_
  cases reply with
  | ok objects => exact meets_bind (meets_serializedAll permits objects) fun _ => meets_pure _
  | error refusal => exact meets_pure _

theorem meets_podsWith (permits : contract.PermitsChecks) (space : Value) (labels : Members) :
    (podsWith space labels).Meets contract := by
  refine meets_bind (meets_checked permits _) fun selector => meets_listed permits fun s => ?_
  exact permits.reads (Cluster.called_listPods space selector s) rfl

theorem meets_currentReplicaSet (permits : contract.PermitsChecks) (deployment : Value) :
    (currentReplicaSet deployment).Meets contract := by
  refine meets_bind (meets_checked permits _) fun metadata => ?_
  refine meets_bind (meets_checked permits _) fun space => ?_
  refine meets_bind (meets_checked permits _) fun labels => ?_
  refine meets_bind (meets_checked permits _) fun selector => ?_
  refine meets_bind (meets_listed permits fun s => ?_) fun reply => ?_
  · exact permits.reads (Cluster.called_listReplicaSets space selector s) rfl
  · cases reply with
    | error refusal => exact meets_pure _
    | ok replicaSets =>
      refine meets_bind (meets_checked permits _) fun own => ?_
      exact meets_bind (meets_checked permits _) fun found => meets_pure _

theorem meets_deploymentOf (permits : contract.PermitsChecks) (ref : Ref) :
    (deploymentOf ref).Meets contract := by
  refine meets_bind (meets_lift fun s => ?_) fun reply => ?_
  · exact permits.reads (Cluster.called_readDeployment ref.space ref.name s) rfl
  · cases reply with
    | error refusal => exact meets_pure _
    | ok object =>
      refine meets_bind (meets_serialized permits object) fun deployment => ?_
      refine meets_bind (meets_currentReplicaSet permits deployment) fun reply => ?_
      cases reply <;> exact meets_pure _

/-- Finding the labels of pods fails with a fault or with a single problem, no timeout. -/
theorem isImmediate_of_podLabels {info : Schema.KindInfo} {object : Value} {failure : Failure}
    (h : info.podLabels object = .error failure) : failure.IsImmediate := by
  unfold Schema.KindInfo.podLabels at h
  rcases bind_eq_error.mp h with h | ⟨metadata, -, h⟩
  · exact isImmediate_of_liftFault h
  · split at h
    · exact isImmediate_of_liftFault h
    · rcases bind_eq_error.mp h with h | ⟨kind, -, h⟩
      · exact isImmediate_of_liftFault h
      · rcases bind_eq_error.mp h with h | ⟨name, -, h⟩
        · exact isImmediate_of_liftFault h
        · rcases bind_eq_error.mp h with h | ⟨space, -, h⟩
          · exact isImmediate_of_liftFault h
          · cases h
            exact nofun

theorem isSingle_of_podLabels {info : Schema.KindInfo} {object : Value} {failure : Failure}
    (h : info.podLabels object = .error failure) : failure.IsSingle :=
  (isImmediate_of_podLabels h).isSingle

theorem meets_evidence (permits : contract.PermitsChecks) (ref : Ref) :
    (evidence ref).Meets contract := by
  refine meets_bind (meets_checked permits _) fun info => ?_
  split
  · exact meets_pure _
  · refine meets_bind (meets_ofExcept fun failure h => ?_) fun labels => ?_
    · exact permits.fails (isImmediate_of_podLabels h)
    · exact meets_bind (meets_podsWith permits ref.space labels) fun _ => meets_pure _
  · exact meets_pure _
  · exact meets_pure _
  · exact meets_bind (meets_deploymentOf permits ref) fun _ => meets_pure _
  · exact meets_pure _
  · exact meets_pure _

theorem meets_observe (permits : contract.PermitsChecks) (ref : Ref) :
    (observe ref).Meets contract := by
  refine meets_bind (meets_lift fun s => ?_) fun reply => ?_
  · exact permits.reads (Cluster.called_get (.ofRef ref) s) rfl
  · cases reply with
    | error refusal =>
      dsimp only
      split
      · exact meets_pure _
      · exact meets_throw (permits.fails nofun)
    | ok body =>
      refine meets_bind (meets_evidence permits (ref.refresh body)) fun reply => ?_
      cases reply with
      | ok record => exact meets_pure _
      | error refusal =>
        dsimp only
        split
        · exact meets_pure _
        · exact meets_throw (permits.fails nofun)

theorem meets_pending (permits : contract.PermitsChecks) (refs : RefSet) :
    (pending refs).Meets contract := by
  refine meets_bind ?_ fun observed => meets_bind (meets_checked permits _) fun _ => meets_pure _
  exact meets_bind (meets_visit fun ref _ => meets_observe permits ref) fun _ => meets_pure _

theorem meets_poll (permits : contract.PermitsWaits) (timeout interval : Double) (start : Rat)
    (checks : Nat) (refs : RefSet) :
    (poll timeout interval start checks refs).Meets contract := by
  induction checks generalizing timeout refs with
  | zero => exact meets_pure none
  | succ checks ih =>
    rw [poll]
    refine meets_bind (meets_pending permits.toPermitsChecks refs) fun (checked, names) => ?_
    dsimp only
    split
    · exact meets_pure _
    · refine meets_bind meets_state fun s => ?_
      split
      · exact meets_pure _
      · refine meets_bind (meets_change fun s => permits.sleeps s interval) fun _ => ?_
        exact ih _ checked

theorem meets_wait (permits : contract.PermitsWaits) (refs : RefSet) (timeout interval : Value) :
    (wait refs timeout interval).Meets contract := by
  refine meets_bind (meets_checked permits.toPermitsChecks _) fun seconds => ?_
  refine meets_bind (meets_checked permits.toPermitsChecks _) fun pause => ?_
  refine meets_bind meets_state fun s => ?_
  refine meets_bind (meets_poll permits seconds pause s.clock _ refs) fun found => ?_
  cases found with
  | none => exact meets_throw (permits.fails trivial)
  | some found =>
    rw [finish]
    split
    · exact meets_pure _
    · exact meets_throw (permits.expires _ _)

end Readiness

/-- Where a wait is asked for or not, a contract is met that waits meet. -/
theorem Client.meets_waitIf_of {contract : Contract} (permits : contract.PermitsWaits)
    (client : Client) (isAsked : Bool) (refs : RefSet) (timeout : Value) :
    (client.waitIf isAsked refs timeout).Meets contract := by
  rw [waitIf]
  split
  · exact Readiness.meets_wait permits refs _ _
  · exact Session.meets_pure refs

theorem Client.meets_waitIf (client : Client) (isAsked : Bool) (refs : RefSet)
    (timeout : Value) : (client.waitIf isAsked refs timeout).Meets Contract.reading :=
  meets_waitIf_of Contract.permitsWaits_reading client isAsked refs timeout

end Reconciler
