import Reconciler.Proofs.Cluster.Parallel
import Reconciler.Proofs.Readiness.Pending

/-!
# Checks of two clusters

A check only reads, so it finds the same on two clusters that answer its calls alike. Which
parts of the stores must be the same depends on the objects: the object itself, and for a
workload the pods that its selector selects.
-/

namespace Reconciler.Readiness

open Cluster (State LastsWhileRead)
open Session

variable {R : State → State → Prop}

theorem parallel_ofFault (result : Except Fault α) : Parallel R (ofFault result) :=
  parallel_ofExcept _

theorem parallel_serialized (object : Value) : Parallel R (serialized object) := by
  unfold serialized
  split
  · exact parallel_throw _
  · exact parallel_pure _

theorem parallel_serializedAll (objects : List Value) : Parallel R (serializedAll objects) := by
  induction objects with
  | nil => exact parallel_pure []
  | cons object rest ih =>
    refine parallel_bind (parallel_serialized object) fun _ _ => ?_
    exact parallel_bind ih fun _ _ => parallel_pure _

theorem parallel_listed {api : Cluster.Api (List Value)}
    (h : ∀ s t, R s t → (api s).1 = (api t).1 ∧ R (api s).2 (api t).2) :
    Parallel R (listed api) := by
  refine parallel_bind (parallel_lift h) fun reply _ => ?_
  cases reply with
  | ok objects => exact parallel_bind (parallel_serializedAll objects) fun _ _ => parallel_pure _
  | error refusal => exact parallel_pure _

/-- Of the pods only those matter that the labels select. -/
theorem parallel_podsWith (lasts : LastsWhileRead R) {space : Value} {labels : Members}
    (h : ∀ text, Schema.selectorText labels = .ok text → ∀ s t, R s t →
      s.store.select "Pod" space text = t.store.select "Pod" space text) :
    Parallel R (podsWith space labels) := by
  apply parallel_bind (parallel_ofFault _)
  rintro text ⟨_, _, _, htext⟩
  rw [ofFault, on_ofExcept] at htext
  apply parallel_listed
  intro s t related
  apply lasts.perform rfl _ _ _ _ related
  intro s t related
  exact congrArg Except.ok (h text (liftFault_eq_ok.mp htext) s t related)

/-- If an object is the same on both clusters and what decides its readiness is, then it is
observed alike. -/
theorem parallel_observe (lasts : LastsWhileRead R) {ref : Ref}
    (found : ∀ s t, R s t → s.store.get? (.ofRef ref) = t.store.get? (.ofRef ref))
    (h : ∀ body s t, R s t → s.store.get? (.ofRef ref) = some body →
      Parallel R (evidence (ref.refresh body))) : Parallel R (observe ref) := by
  refine parallel_bind (parallel_lift fun s t related => ?_) fun reply ⟨s, t, related, hreply⟩ => ?_
  · refine lasts.perform rfl _ _ _ (fun s t related => ?_) related
    rw [State.find, State.find, found s t related]
  · cases reply with
    | error refusal =>
      dsimp only
      split
      · exact parallel_pure _
      · exact parallel_throw _
    | ok body =>
      rw [on_lift] at hreply
      have stored := Cluster.get_eq_ok (Prod.ext (Except.ok.inj hreply) rfl)
      refine parallel_bind (h body s t related stored) fun reply _ => ?_
      cases reply with
      | ok record => exact parallel_pure _
      | error refusal =>
        dsimp only
        split
        · exact parallel_pure _
        · exact parallel_throw _

theorem parallel_unready {refs : RefSet} (h : ∀ ref ∈ refs, Parallel R (observe ref)) :
    Parallel R (unready refs) := by
  rw [unready_eq]
  exact parallel_bind (parallel_visit h) fun observed _ => parallel_ofFault _

theorem parallel_isReady {refs : RefSet} (h : ∀ ref ∈ refs, Parallel R (observe ref)) :
    Parallel R (isReady refs) := by
  rw [isReady_eq, map_eq_pure_bind]
  exact parallel_bind (parallel_unready h) fun names _ => parallel_pure _

/-! ### Clusters with one store -/

section

variable (lasts : LastsWhileRead R) (same : ∀ s t, R s t → s.store = t.store)

include lasts same

theorem parallel_currentReplicaSet (deployment : Value) :
    Parallel R (currentReplicaSet deployment) := by
  refine parallel_bind (parallel_ofFault _) fun metadata _ => ?_
  refine parallel_bind (parallel_ofFault _) fun space _ => ?_
  refine parallel_bind (parallel_ofFault _) fun labels _ => ?_
  refine parallel_bind (parallel_ofFault _) fun selector _ => ?_
  refine parallel_bind (parallel_listed fun s t related => ?_) fun reply _ => ?_
  · refine lasts.perform rfl _ _ _ (fun s t related => ?_) related
    rw [same s t related]
  · cases reply with
    | error refusal => exact parallel_pure _
    | ok replicaSets =>
      refine parallel_bind (parallel_ofFault _) fun own _ => ?_
      exact parallel_bind (parallel_ofFault _) fun found _ => parallel_pure _

theorem parallel_deploymentOf (ref : Ref) : Parallel R (deploymentOf ref) := by
  refine parallel_bind (parallel_lift fun s t related => ?_) fun reply _ => ?_
  · refine lasts.perform rfl _ _ _ (fun s t related => ?_) related
    rw [State.find, State.find, same s t related]
  · cases reply with
    | error refusal => exact parallel_pure _
    | ok object =>
      refine parallel_bind (parallel_serialized object) fun deployment _ => ?_
      refine parallel_bind (parallel_currentReplicaSet lasts same deployment) fun reply _ => ?_
      cases reply <;> exact parallel_pure _

theorem parallel_evidence (ref : Ref) : Parallel R (evidence ref) := by
  refine parallel_bind (parallel_ofFault _) fun info _ => ?_
  split
  · exact parallel_pure _
  · refine parallel_bind (parallel_ofExcept _) fun labels _ => ?_
    refine parallel_bind (parallel_podsWith lasts fun text _ s t related => ?_) fun _ _ => ?_
    · rw [same s t related]
    · exact parallel_pure _
  · exact parallel_pure _
  · exact parallel_pure _
  · exact parallel_bind (parallel_deploymentOf lasts same ref) fun _ _ => parallel_pure _
  · exact parallel_pure _
  · exact parallel_pure _

theorem parallel_observe_of_same (ref : Ref) : Parallel R (observe ref) :=
  parallel_observe lasts (fun s t related => by rw [same s t related])
    fun _ _ _ _ _ => parallel_evidence lasts same _

end

end Reconciler.Readiness
