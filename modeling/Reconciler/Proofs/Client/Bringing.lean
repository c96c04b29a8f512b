import Reconciler.Proofs.Client.Restarting

/-!
# How objects are brought up to date

The object of a target is brought up to date by a patch, or by its replacement if the patch is
refused, or by reading it again if there is nothing to send. Whichever of these it was, its pods
are then restarted if that has been asked for. So an update also deletes pods of objects that it
has not changed.
-/

namespace Reconciler.Client

open Cluster (State Call)
open Session
open Contract (keepsPods)

variable {client : Client} {options : UpdateOptions} {target sent : Ref} {s s' : State}

/-! ### Patches, replacements and readings -/

/-- How the object of a target is changed where a decision asks for a patch. -/
inductive Changes (client : Client) (options : UpdateOptions) (target : Ref)
    (decision : Patch.Decision) (s : State) : Ref × State → Prop
  | patched {patch body s'} (sends : decision.patch = some patch)
      (accepted : Cluster.patch (.ofRef target) (.map patch) decision.strategy.contentType s =
        (.ok body, s')) :
      Changes client options target decision s (target.refresh body, s')
  | replaced {patch refusal body s₁ s₂ s'} (sends : decision.patch = some patch)
      (refused : Cluster.patch (.ofRef target) (.map patch) decision.strategy.contentType s =
        (.error refusal, s₁))
      (forced : options.isForced) (deleted : client.deleteObject target s₁ = (.ok (), s₂))
      (created : Cluster.create (.ofRef target) target.body s₂ = (.ok body, s')) :
      Changes client options target decision s (target.refresh body, s')

/-- The object of a target is read again where a decision asks for nothing. -/
inductive Rereads (target : Ref) (decision : Patch.Decision) (s : State) : Ref × State → Prop
  | read {body s'} (silent : decision.patch = none)
      (answer : Cluster.get (.ofRef target) s = (.ok body, s')) :
      Rereads target decision s (target.refresh body, s')

/-- A call gives a result exactly if it is answered. -/
theorem on_call_eq_ok {api : Cluster.Api α} {failure : ApiRefusal → Failure} {a : α} :
    (call api failure).on s = (.ok a, s') ↔ api s = (.ok a, s') := by
  rw [on_call]
  rcases api s with ⟨refusal | answer, s₁⟩
  · exact ⟨nofun, nofun⟩
  · exact ⟨fun h => by cases h; rfl, fun h => by cases h; rfl⟩

/-- A reference is refreshed by the answer to a call. -/
theorem on_call_refresh_eq_ok {api : Cluster.Api Value} {failure : ApiRefusal → Failure} :
    (do return target.refresh (← call api failure) : Session Ref).on s = (.ok sent, s') ↔
      ∃ body, api s = (.ok body, s') ∧ target.refresh body = sent := by
  simp only [on_bind_eq_ok, on_call_eq_ok, on_pure, Prod.mk.injEq, Except.ok.injEq]
  constructor
  · rintro ⟨body, s₁, answer, rfl, rfl⟩
    exact ⟨body, answer, rfl⟩
  · rintro ⟨body, answer, rfl⟩
    exact ⟨body, s', answer, rfl, rfl⟩

theorem on_recreate_eq_ok : (client.recreate target).on s = (.ok sent, s') ↔
    ∃ s₁ body, client.deleteObject target s = (.ok (), s₁) ∧
      Cluster.create (.ofRef target) target.body s₁ = (.ok body, s') ∧
      target.refresh body = sent := by
  rw [recreate, on_bind_eq_ok]
  simp only [on_call_eq_ok, createObject, on_call_refresh_eq_ok]
  constructor
  · rintro ⟨_, s₁, deleted, body, created, refreshed⟩
    exact ⟨s₁, body, deleted, created, refreshed⟩
  · rintro ⟨s₁, body, deleted, created, refreshed⟩
    exact ⟨(), s₁, deleted, body, created, refreshed⟩

/-- A sent patch is accepted, or it is refused and the object is replaced by force. -/
theorem changes_of_sendPatch {decision : Patch.Decision} {patch : Members}
    (sends : decision.patch = some patch)
    (h : (client.sendPatch options.isForced target patch decision.strategy).on s =
      (.ok sent, s')) : client.Changes options target decision s (sent, s') := by
  rw [sendPatch, on_bind, on_lift] at h
  rcases hpatch : Cluster.patch (.ofRef target) (.map patch) decision.strategy.contentType s with
    ⟨refusal | body, s₁⟩
  · rw [hpatch] at h
    dsimp only at h
    split at h
    · rename_i forced
      obtain ⟨s₂, body, deleted, created, rfl⟩ := on_recreate_eq_ok.mp h
      exact .replaced sends hpatch forced deleted created
    · cases h
  · rw [hpatch] at h
    cases h
    exact .patched sends hpatch

/-- An object that has been brought up to date has been changed if there was something to send,
and only read again otherwise. -/
theorem changes_or_rereads_of_bring {current : Value}
    (h : (client.bring options current target).on s = (.ok sent, s')) : ∃ decision,
      decisionFor target current = .ok decision ∧
        (client.Changes options target decision s (sent, s') ∨
          Rereads target decision s (sent, s')) := by
  rw [bring, on_bind_ofExcept_eq_ok] at h
  obtain ⟨decision, hdecision, h⟩ := h
  refine ⟨decision, hdecision, ?_⟩
  cases hpatch : decision.patch with
  | none =>
    rw [hpatch] at h
    obtain ⟨body, answer, rfl⟩ := on_call_refresh_eq_ok.mp h
    exact .inr (.read hpatch answer)
  | some patch =>
    rw [hpatch] at h
    exact .inl (changes_of_sendPatch hpatch h)

/-! ### Restarts -/

/-- Where pods are not to be restarted, none is deleted. -/
theorem updateRefs_keepsPods (client : Client) (spares : options.restartsPods = false)
    (earlier targets : RefSet) : (client.updateRefs options earlier targets).Meets keepsPods := by
  refine meets_bind (meets_visit fun target _ => ?_) fun outcomes =>
    conclude_keepsPods client options _ outcomes
  refine meets_reconcile (permits_keepsPods target) client options earlier fun old _ => ?_
  exact meets_updateObject_of_keepsPods (permits_keepsPods target)
    (permitsWrites_keepsPods target) client spares old.body fun _ _ => trivial

/-- Every pod that an update deletes is deleted for a target whose object has been brought up to
date in this run, and by the reference that this has given. Either a patch of the object was
accepted, or it was refused and the object replaced by force, or there was nothing to send and
the object was read again. -/
theorem update_restarts_brought_pods (client : Client) (space : Value)
    (original target : Manifest.Source) (options : UpdateOptions) (s : State) : ∃ new,
    ((client.update space original target options).on s).2.calls = s.calls ++ new ∧
    ∀ call ∈ new, call.isPodDeletion → options.restartsPods ∧
      ∃ earlier targets turn old found now decision sent listed pod,
        builtOn s space original = .ok earlier ∧ builtOn s space target = .ok targets ∧
        turn ∈ client.turns options earlier targets s ∧ earlier.get? turn.1 = some old ∧
        Cluster.get (.ofRef turn.1) turn.2 = (.ok found, now) ∧
        decisionFor turn.1 old.body = .ok decision ∧
        (client.Changes options turn.1 decision now (sent, listed) ∨
          Rereads turn.1 decision now (sent, listed)) ∧
        sent.Finds listed pod ∧ call = Cluster.deletionOf pod := by
  obtain ⟨first, hfirst, first_iff⟩ := on_buildForUpdate space original s
  obtain ⟨second, hsecond, second_iff⟩ := on_buildForUpdate space target s
  rw [update, on_bind, hfirst]
  cases first with
  | error failure => exact ⟨[], (List.append_nil _).symm, List.forall_mem_nil _⟩
  | ok earlier =>
    dsimp only
    rw [on_bind, hsecond]
    cases second with
    | error failure => exact ⟨[], (List.append_nil _).symm, List.forall_mem_nil _⟩
    | ok targets =>
      dsimp only
      cases asked : options.restartsPods with
      | false =>
        obtain ⟨⟨new, calls, keeps⟩, -⟩ := updateRefs_keepsPods client asked earlier targets s
        refine ⟨new, calls, fun call hcall deletes => ?_⟩
        rw [keeps call hcall] at deletes
        cases deletes
      | true =>
        obtain ⟨new, calls, restarts⟩ := on_updateRefs_restarts client options earlier targets s
        refine ⟨new, calls, fun call hcall deletes => ⟨rfl, ?_⟩⟩
        obtain ⟨turn, hturn, sent, listed, pod, ⟨old, found, now, hold, hget, brought⟩, -, finds,
          heq⟩ := restarts call hcall deletes
        obtain ⟨decision, hdecision, brings⟩ := changes_or_rereads_of_bring brought
        exact ⟨earlier, targets, turn, old, found, now, decision, sent, listed, pod,
          (first_iff earlier).mp rfl, (second_iff targets).mp rfl, hturn, hold, hget, hdecision,
          brings, finds, heq⟩

/-- A manifest with a daemon set. -/
def agentText : String :=
  "apiVersion: apps/v1\nkind: DaemonSet\nmetadata:\n  name: agent\nspec:\n  selector:\n" ++
  "    matchLabels:\n      app: agent\n"

/-- The daemon set as the cluster has it. -/
def agentSet : Value := .map [(.text "apiVersion", .text "apps/v1"),
  (.text "kind", .text "DaemonSet"),
  (.text "metadata", .map [(.text "name", .text "agent"), (.text "namespace", .text "default")]),
  (.text "spec", .map [(.text "selector",
    .map [(.text "matchLabels", .map [(.text "app", .text "agent")])])])]

/-- A pod of the daemon set. -/
def agentPod : Value := .map [(.text "metadata", .map [(.text "name", .text "agent-0"),
  (.text "namespace", .text "default"), (.text "uid", .text "uid-0"),
  (.text "labels", .map [(.text "app", .text "agent")])])]

/-- A cluster with the daemon set and the pod. -/
def agentCluster : State where
  store := [(⟨.text "DaemonSet", .text "default", .text "agent"⟩, agentSet),
    (⟨.text "Pod", .text "default", .text "agent-0"⟩, agentPod)]

/-- A pod is deleted in an update with the manifest that is applied already. The run sends
nothing else that writes, so it has not changed the workload. -/
theorem update_restarts_unchanged :
    (∃ call ∈ ((({} : Client).update .null (.text agentText) (.text agentText)
      { restartsPods := true }).on agentCluster).2.calls, call.isPodDeletion) ∧
    ∀ call ∈ ((({} : Client).update .null (.text agentText) (.text agentText)
      { restartsPods := true }).on agentCluster).2.calls, call.isReading ∨ call.isPodDeletion := by
  decide +kernel

end Reconciler.Client
