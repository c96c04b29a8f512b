import Reconciler.Client.Update
import Reconciler.Proofs.Session

/-!
# Contracts of the update of one object

The update of an object makes calls of four kinds on the place of the object, and fails with
problems that concern it. So it meets every contract that allows these calls; patching and
deleting have to be allowed only where the earlier manifest has the object, and the calls
that restart pods only where pods are restarted.
-/

namespace Reconciler

open Cluster (State Key)

/-- A contract under which an object may be looked up and created. -/
structure Contract.Permits (contract : Contract) (target : Ref) : Prop where
  get : ∀ s, contract.allows s (Cluster.get (.ofRef target) s).2
  create : ∀ body s, contract.allows s (Cluster.create (.ofRef target) body s).2
  fails : ∀ cause, contract.fails (.about target cause)

/-- A contract under which an object may also be changed. -/
structure Contract.PermitsWrites (contract : Contract) (target : Ref) : Prop where
  patch : ∀ body contentType s,
    contract.allows s (Cluster.patch (.ofRef target) body contentType s).2
  delete : ∀ propagation s, contract.allows s (Cluster.delete (.ofRef target) propagation s).2

/-- A contract under which pods may be found and deleted. -/
structure Contract.PermitsRestarts (contract : Contract) : Prop where
  list : ∀ space selector s, contract.allows s (Cluster.listPods space selector s).2
  delete : ∀ space name uid s, contract.allows s (Cluster.deletePod space name uid s).2

namespace Client

open Session

variable {contract : Contract} {target : Ref}

theorem meets_createObject (permits : contract.Permits target) (cause : ApiRefusal → Cause) :
    (createObject target cause).Meets contract :=
  meets_bind (meets_call (permits.create _) fun _ => permits.fails _) fun _ => meets_pure _

theorem meets_refresh (permits : contract.Permits target) (cause : ApiRefusal → Cause) :
    (refresh target cause).Meets contract :=
  meets_bind (meets_call permits.get fun _ => permits.fails _) fun _ => meets_pure _

theorem meets_sendPatch (permits : contract.Permits target)
    (writes : contract.PermitsWrites target) (client : Client) (isForced : Bool)
    (patch : Members) (strategy : Patch.Strategy) :
    (client.sendPatch isForced target patch strategy).Meets contract := by
  refine meets_bind (meets_lift (writes.patch _ _)) fun reply => ?_
  cases reply with
  | ok body => exact meets_pure _
  | error refusal =>
    dsimp only
    split
    · refine meets_bind (meets_call (writes.delete _) fun _ => permits.fails _) fun _ => ?_
      exact meets_createObject permits _
    · exact meets_throw (permits.fails _)

theorem meets_deletePods (restarts : contract.PermitsRestarts)
    (fails : ∀ cause, contract.fails (.about target cause)) (pods : List Value) :
    (deletePods target pods).Meets contract := by
  induction pods with
  | nil => exact meets_pure ()
  | cons pod rest ih =>
    exact meets_bind (meets_call (restarts.delete _ _ _) fun _ => fails _) fun _ => ih

theorem meets_restartPods (restarts : contract.PermitsRestarts)
    (fails : ∀ cause, contract.fails (.about target cause))
    (faults : ∀ fault, contract.fails (.fault fault))
    (unlabelled : ∀ (info : Schema.KindInfo) failure,
      info.podLabels target.body = .error failure → contract.fails failure) :
    (restartPods target).Meets contract := by
  refine meets_bind (meets_ofFault faults) fun info => ?_
  refine meets_bind (meets_ofExcept (unlabelled info)) fun labels => ?_
  have found : (do
      let selector ← ofFault (Schema.selectorText labels)
      let pods ← call (Cluster.listPods target.space selector) fun refusal =>
        .about target (.restartRefused refusal.reason)
      deletePods target pods).Meets contract := by
    refine meets_bind (meets_ofFault faults) fun selector => ?_
    refine meets_bind (meets_call (restarts.list _ _) fun _ => fails _) fun pods => ?_
    exact meets_deletePods restarts fails pods
  split
  · exact meets_bind (meets_throw (fails _)) fun _ => found
  · exact found

theorem meets_updateObject (permits : contract.Permits target)
    (writes : contract.PermitsWrites target) (client : Client) (options : UpdateOptions)
    (restarts : options.restartsPods → ∀ sent, (restartPods sent).Meets contract)
    (current : Value)
    (fails : ∀ failure, decisionFor target current = .error failure → contract.fails failure) :
    (client.updateObject options current target).Meets contract := by
  refine meets_bind (meets_ofExcept fails) fun decision => ?_
  have restarted : ∀ sent, (do
      if options.restartsPods then restartPods sent
      return sent).Meets contract := by
    intro sent
    split
    · rename_i asked
      exact meets_bind (restarts asked sent) fun _ => meets_pure sent
    · exact meets_pure sent
  dsimp only
  split
  · exact meets_bind (meets_refresh permits _) restarted
  · exact meets_bind (meets_sendPatch permits writes client _ _ _) restarted

/-- Where pods are kept, nothing is asked of the calls that restart them. -/
theorem meets_updateObject_of_keepsPods (permits : contract.Permits target)
    (writes : contract.PermitsWrites target) (client : Client) {options : UpdateOptions}
    (keepsPods : options.restartsPods = false) (current : Value)
    (fails : ∀ failure, decisionFor target current = .error failure → contract.fails failure) :
    (client.updateObject options current target).Meets contract := by
  refine meets_updateObject permits writes client options (fun asked => ?_) current fails
  rw [keepsPods] at asked
  cases asked

theorem meets_reconcile (permits : contract.Permits target) (client : Client)
    (options : UpdateOptions) (earlier : RefSet)
    (updates : ∀ old, earlier.get? target = some old →
      (client.updateObject options old.body target).Meets contract) :
    (client.reconcile options earlier target).Meets contract := by
  refine meets_bind (meets_lift permits.get) fun reply => ?_
  cases reply with
  | error refusal =>
    rw [settle]
    split
    · exact meets_bind (meets_createObject permits _) fun _ => meets_pure _
    · exact meets_throw (permits.fails _)
  | ok body =>
    rw [settle]
    split
    · exact meets_throw (permits.fails _)
    · rename_i old found
      refine meets_bind (meets_recorded (updates old found)) fun outcome => ?_
      cases outcome <;> exact meets_pure _

theorem meets_deleteAll {refs : RefSet}
    (deletes : ∀ ref ∈ refs, ∀ propagation s,
      contract.allows s (Cluster.delete (.ofRef ref) propagation s).2) (client : Client) :
    (client.deleteAll refs).Meets contract := by
  induction refs with
  | nil => exact meets_pure ()
  | cons ref rest ih =>
    obtain ⟨first, others⟩ := List.forall_mem_cons.mp deletes
    exact meets_bind (meets_lift (first _)) fun _ => ih others

/-- What follows the last target meets a contract that allows the deletions and the wait. -/
theorem meets_conclude {stale : RefSet}
    (deletes : ∀ ref ∈ stale, ∀ propagation s,
      contract.allows s (Cluster.delete (.ofRef ref) propagation s).2)
    (reports : ∀ problems, contract.fails (.update problems)) (client : Client)
    (options : UpdateOptions)
    (waits : ∀ sent, (client.waitIf options.isWaiting sent options.timeout).Meets contract)
    (outcomes : List (Ref × Option Problem)) :
    (client.conclude options stale outcomes).Meets contract := by
  unfold conclude
  dsimp only
  split
  · exact meets_throw (reports _)
  · refine meets_bind (meets_deleteAll deletes client) fun _ => ?_
    split
    · exact waits _
    · exact meets_throw (reports _)

end Client

end Reconciler
