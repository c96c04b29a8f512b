import Reconciler.Client.Update
import Reconciler.Proofs.Cluster.Calls
import Reconciler.Proofs.Cluster.Store

/-!
# References that are live

A call that answers with an object answers with what is stored once it is done. A reference that
was refreshed by such an answer is therefore live: its body is the object that the cluster has at
its place.
-/

namespace Reconciler

open Cluster (State Key Reply)

namespace Cluster

variable {key : Key} {s s' : State} {body : Value}

theorem get?_of_get (h : get key s = (.ok body, s')) : s'.store.get? key = some body := by
  obtain ⟨rules, hact⟩ := perform_eq_ok h
  obtain ⟨found, rfl⟩ := Prod.mk.inj hact
  exact find_eq_ok found

theorem get?_of_create {sent : Value} (h : create key sent s = (.ok body, s')) :
    s'.store.get? key = some body := by
  obtain ⟨rules, hact⟩ := perform_eq_ok h
  unfold State.create at hact
  split at hact
  · cases hact
  · obtain ⟨found, rfl⟩ := Prod.mk.inj hact
    exact find_eq_ok found

theorem get?_of_patch {patched : Value} {contentType : String}
    (h : patch key patched contentType s = (.ok body, s')) : s'.store.get? key = some body := by
  obtain ⟨rules, hact⟩ := perform_eq_ok h
  unfold State.patch at hact
  split at hact
  · obtain ⟨found, rfl⟩ := Prod.mk.inj hact
    exact find_eq_ok found
  · cases hact

end Cluster

/-- A reference to the object of another one, with the body that the cluster stores for it. -/
structure Ref.IsLiveOf (sent target : Ref) (s : State) : Prop where
  refreshed : sent = target.refresh sent.body
  stored : s.store.get? (.ofRef target) = some sent.body

namespace Client

open Session

variable {client : Client} {target sent : Ref} {s s' : State}

theorem isLiveOf_refresh {cause : ApiRefusal → Cause}
    (h : (refresh target cause).on s = (.ok sent, s')) : sent.IsLiveOf target s' := by
  rw [refresh, on_bind, on_call] at h
  rcases hget : Cluster.get (.ofRef target) s with ⟨refusal | body, s₁⟩
  · rw [hget] at h
    cases h
  · rw [hget] at h
    cases h
    exact ⟨rfl, Cluster.get?_of_get hget⟩

theorem isLiveOf_createObject {cause : ApiRefusal → Cause}
    (h : (createObject target cause).on s = (.ok sent, s')) : sent.IsLiveOf target s' := by
  rw [createObject, on_bind, on_call] at h
  rcases hcreate : Cluster.create (.ofRef target) target.body s with ⟨refusal | body, s₁⟩
  · rw [hcreate] at h
    cases h
  · rw [hcreate] at h
    cases h
    exact ⟨rfl, Cluster.get?_of_create hcreate⟩

theorem isLiveOf_recreate (h : (client.recreate target).on s = (.ok sent, s')) :
    sent.IsLiveOf target s' := by
  rw [recreate, on_bind, on_call] at h
  rcases hdelete : client.deleteObject target s with ⟨refusal | answer, s₁⟩
  · rw [hdelete] at h
    cases h
  · rw [hdelete] at h
    exact isLiveOf_createObject h

theorem isLiveOf_sendPatch {isForced : Bool} {patch : Members} {strategy : Patch.Strategy}
    (h : (client.sendPatch isForced target patch strategy).on s = (.ok sent, s')) :
    sent.IsLiveOf target s' := by
  rw [sendPatch, on_bind, on_lift] at h
  rcases hpatch : Cluster.patch (.ofRef target) (.map patch) strategy.contentType s with
    ⟨refusal | body, s₁⟩
  · rw [hpatch] at h
    dsimp only at h
    split at h
    · exact isLiveOf_recreate h
    · cases h
  · rw [hpatch] at h
    cases h
    exact ⟨rfl, Cluster.get?_of_patch hpatch⟩

end Client

end Reconciler
