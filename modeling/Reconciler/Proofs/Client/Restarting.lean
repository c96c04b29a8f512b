import Reconciler.Proofs.Client.Isolation
import Reconciler.Proofs.Client.Live
import Reconciler.Proofs.Schema.Selecting

/-!
# Pods that an update deletes

Where pods are restarted, an update deletes pods at the turns of its targets. First the object
of a target is brought up to date. Then the pods are listed that have all labels which the object,
as the cluster has it now, requires of its pods, and these are deleted one by one. The
expressions of a label selector are not part of that, so a pod that they exclude is deleted as
well.
-/

namespace Reconciler

open Cluster (State Call Called)

namespace Cluster

/-- Whether a call deletes a pod. -/
def Call.isPodDeletion : Call → Bool
  | .deletePod _ _ _ => true
  | _ => false

/-- The call that deletes a pod. -/
def deletionOf (pod : Value) : Call :=
  .deletePod (metadataField pod "namespace") (metadataField pod "name") (metadataField pod "uid")

end Cluster

/-- Work that deletes no pods. -/
def Contract.keepsPods : Contract where
  allows s s' := ∃ new, s'.calls = s.calls ++ new ∧ ∀ call ∈ new, call.isPodDeletion = false
  fails _ := True
  refl s := ⟨[], by simp, nofun⟩
  trans := by
    rintro s t u ⟨new, hnew, keeps⟩ ⟨later, hlater, keepsLater⟩
    refine ⟨new ++ later, by rw [hlater, hnew, List.append_assoc], fun call hcall => ?_⟩
    exact (List.mem_append.mp hcall).elim (keeps call) (keepsLater call)

/-- A pod in the namespace of a workload has the labels that the workload's object requires. -/
structure Ref.Finds (workload : Ref) (s : State) (pod : Value) : Prop where
  listed : pod ∈ s.store.list "Pod" workload.space
  labelled : ∃ info labels text, workload.info = .ok info ∧
    info.podLabels workload.body = .ok labels ∧ labels ≠ [] ∧
    Schema.selectorText labels = .ok text ∧ Cluster.selects text pod

namespace Client

open Session
open Contract (keepsPods)

variable {client : Client} {options : UpdateOptions} {earlier targets : RefSet} {s : State}

/-! ### Work that deletes no pods -/

theorem keepsPods_of_called {call : Call} {writes : Cluster.Store → Cluster.Store → Prop}
    {s s' : State} (h : Called call writes s s') (other : call.isPodDeletion = false) :
    keepsPods.allows s s' :=
  ⟨[call], h.calls, fun _ hmem => List.mem_singleton.mp hmem ▸ other⟩

theorem permits_keepsPods (target : Ref) : keepsPods.Permits target where
  get s := keepsPods_of_called (Cluster.called_get _ s) rfl
  create body s := keepsPods_of_called (Cluster.called_create _ body s) rfl
  fails _ := trivial

theorem permitsWrites_keepsPods (target : Ref) : keepsPods.PermitsWrites target where
  patch body contentType s := keepsPods_of_called (Cluster.called_patch _ body contentType s) rfl
  delete propagation s := keepsPods_of_called (Cluster.called_delete _ propagation s) rfl

theorem keepsPods_of_reading {work : Session α} (h : work.Meets Contract.reading) :
    work.Meets keepsPods := by
  refine h.weaken (fun s t ⟨⟨new, calls, reads⟩, _⟩ => ⟨new, calls, fun call hcall => ?_⟩)
    fun _ _ => trivial
  have reading := reads call hcall
  cases call with
  | deletePod => cases reading
  | _ => rfl

theorem conclude_keepsPods (client : Client) (options : UpdateOptions) (stale : RefSet)
    (outcomes : List (Ref × Option Problem)) :
    (client.conclude options stale outcomes).Meets keepsPods :=
  meets_conclude
    (fun _ _ propagation s => keepsPods_of_called (Cluster.called_delete _ propagation s) rfl)
    (fun _ => trivial) client options
    (fun _ => keepsPods_of_reading (client.meets_waitIf _ _ _)) outcomes

/-! ### Deleting the pods of a workload -/

/-- Pods are deleted one by one, up to the first refusal. -/
theorem on_deletePods (target : Ref) (pods : List Value) (s : State) : ∃ new,
    ((deletePods target pods).on s).2.calls = s.calls ++ new ∧
      ∀ call ∈ new, ∃ pod ∈ pods, call = Cluster.deletionOf pod := by
  induction pods generalizing s with
  | nil => exact ⟨[], (List.append_nil _).symm, nofun⟩
  | cons pod rest ih =>
    have called := (Cluster.called_deletePod (Cluster.metadataField pod "namespace")
      (Cluster.metadataField pod "name") (Cluster.metadataField pod "uid") s).calls
    rw [deletePods, deletePod, on_bind, on_call]
    generalize Cluster.deletePod _ _ _ s = outcome at called ⊢
    obtain ⟨reply, s₁⟩ := outcome
    cases reply with
    | error refusal =>
      refine ⟨[Cluster.deletionOf pod], called, fun call hcall => ?_⟩
      exact ⟨pod, List.mem_cons_self .., List.mem_singleton.mp hcall⟩
    | ok answer =>
      obtain ⟨new, calls, deleted⟩ := ih s₁
      refine ⟨Cluster.deletionOf pod :: new, ?_, fun call hcall => ?_⟩
      · dsimp only [Except.mapError]
        rw [calls, called, List.append_assoc]
        rfl
      · rcases List.mem_cons.mp hcall with rfl | hcall
        · exact ⟨pod, List.mem_cons_self .., rfl⟩
        · obtain ⟨other, hmem, heq⟩ := deleted call hcall
          exact ⟨other, List.mem_cons_of_mem _ hmem, heq⟩

/-- The pods that are deleted for a workload have the labels that it requires. -/
theorem on_restartPods (sent : Ref) (s : State) : ∃ new,
    ((restartPods sent).on s).2.calls = s.calls ++ new ∧
      ∀ call ∈ new, call.isPodDeletion → ∃ pod, sent.Finds s pod ∧
        call = Cluster.deletionOf pod := by
  have silent : ∃ new, s.calls = s.calls ++ new ∧ ∀ call ∈ new, call.isPodDeletion →
      ∃ pod, sent.Finds s pod ∧ call = Cluster.deletionOf pod :=
    ⟨[], (List.append_nil _).symm, nofun⟩
  rw [restartPods, ofFault, on_bind, on_ofExcept]
  cases hinfo : sent.info with
  | error fault => exact silent
  | ok info =>
    dsimp only [liftFault_ok]
    rw [on_bind, on_ofExcept]
    cases hlabels : info.podLabels sent.body with
    | error failure => exact silent
    | ok labels =>
      dsimp only
      split
      · exact silent
      · rename_i nonempty
        rw [ofFault, on_bind, on_ofExcept]
        cases htext : Schema.selectorText labels with
        | error fault => exact silent
        | ok text =>
          dsimp only [liftFault_ok]
          have listed := (Cluster.called_listPods sent.space text s).calls
          rw [on_bind, on_call]
          rcases hlist : Cluster.listPods sent.space text s with ⟨refusal | pods, s₁⟩
          · rw [hlist] at listed
            refine ⟨[.listPods sent.space text], listed, fun call hcall deletes => ?_⟩
            rw [List.mem_singleton.mp hcall] at deletes
            cases deletes
          · rw [hlist] at listed
            obtain ⟨new, calls, deleted⟩ := on_deletePods sent pods s₁
            refine ⟨.listPods sent.space text :: new, ?_, fun call hcall deletes => ?_⟩
            · dsimp only [Except.mapError]
              rw [calls, listed, List.append_assoc]
              rfl
            · rcases List.mem_cons.mp hcall with rfl | hcall
              · cases deletes
              · obtain ⟨pod, hmem, heq⟩ := deleted call hcall
                rw [Cluster.listPods_eq_ok hlist, Cluster.Store.mem_select] at hmem
                refine ⟨pod, ⟨hmem.1, info, labels, text, hinfo, hlabels, ?_, htext, hmem.2⟩, heq⟩
                rintro rfl
                exact nonempty rfl

/-! ### The turn of one target -/

/-- Bring the object of a target up to date. -/
def bring (client : Client) (options : UpdateOptions) (current : Value) (target : Ref) :
    Session Ref := do
  let decision ← Session.ofExcept (decisionFor target current)
  match decision.patch with
  | none => refresh target .refreshRefused
  | some patch => client.sendPatch options.isForced target patch decision.strategy

/-- To update an object is to bring it up to date and then to restart its pods. -/
theorem updateObject_eq (current : Value) (target : Ref) :
    client.updateObject options current target = (do
      let sent ← client.bring options current target
      if options.restartsPods then restartPods sent
      return sent) := by
  rw [updateObject, bring, bind_assoc]
  congr 1
  funext decision
  cases decision.patch <;> rfl

theorem bring_keepsPods (client : Client) (options : UpdateOptions) (current : Value)
    (target : Ref) : (client.bring options current target).Meets keepsPods := by
  refine meets_bind (meets_ofExcept fun _ _ => trivial) fun decision => ?_
  split
  · exact meets_refresh (permits_keepsPods target) _
  · exact meets_sendPatch (permits_keepsPods target) (permitsWrites_keepsPods target) client _ _ _

theorem isLiveOf_bring {current : Value} {target sent : Ref} {s' : State}
    (h : (client.bring options current target).on s = (.ok sent, s')) :
    sent.IsLiveOf target s' := by
  rw [bring, on_bind, on_ofExcept] at h
  cases hdecision : decisionFor target current with
  | error failure =>
    rw [hdecision] at h
    cases h
  | ok decision =>
    rw [hdecision] at h
    dsimp only at h
    split at h
    · exact isLiveOf_refresh h
    · exact isLiveOf_sendPatch h

/-- At its turn a target is found, and its object is brought up to date. -/
def Brings (client : Client) (options : UpdateOptions) (earlier : RefSet) (turn : Ref × State)
    (sent : Ref) (s : State) : Prop :=
  ∃ old found s', earlier.get? turn.1 = some old ∧
    Cluster.get (.ofRef turn.1) turn.2 = (.ok found, s') ∧
    (client.bring options old.body turn.1).on s' = (.ok sent, s)

/-- At the turn of a target a pod is deleted. The target's object has been brought up to date
by then, and the pod has the labels which the object, as it is stored now, requires. -/
def Restarts (client : Client) (options : UpdateOptions) (earlier : RefSet) (turn : Ref × State)
    (call : Call) : Prop :=
  ∃ sent s pod, client.Brings options earlier turn sent s ∧ sent.IsLiveOf turn.1 s ∧
    sent.Finds s pod ∧ call = Cluster.deletionOf pod

/-- The pods that an update of an object deletes are found after it has been brought up to
date. -/
theorem on_updateObject_restarts (client : Client) (options : UpdateOptions) (current : Value)
    (target : Ref) (s : State) : ∃ new,
    ((client.updateObject options current target).on s).2.calls = s.calls ++ new ∧
      ∀ call ∈ new, call.isPodDeletion → ∃ sent s₁ pod,
        (client.bring options current target).on s = (.ok sent, s₁) ∧ sent.Finds s₁ pod ∧
          call = Cluster.deletionOf pod := by
  obtain ⟨⟨sending, calls, keeps⟩, -⟩ := bring_keepsPods client options current target s
  have spared : ∀ call ∈ sending, call.isPodDeletion → ∃ sent s₁ pod,
      (client.bring options current target).on s = (.ok sent, s₁) ∧ sent.Finds s₁ pod ∧
        call = Cluster.deletionOf pod := by
    intro call hcall deletes
    rw [keeps call hcall] at deletes
    cases deletes
  rw [updateObject_eq, on_bind]
  rcases hbring : (client.bring options current target).on s with ⟨failure | sent, s₁⟩
  · rw [hbring] at calls
    exact ⟨sending, calls, hbring ▸ spared⟩
  · rw [hbring] at calls spared
    dsimp only at calls ⊢
    split
    · obtain ⟨deleting, more, deleted⟩ := on_restartPods sent s₁
      refine ⟨sending ++ deleting, ?_, fun call hcall deletes => ?_⟩
      · rw [on_bind, ← List.append_assoc, ← calls, ← more]
        rcases (restartPods sent).on s₁ with ⟨_ | _, s₂⟩ <;> rfl
      · rcases List.mem_append.mp hcall with hcall | hcall
        · exact spared call hcall deletes
        · obtain ⟨pod, found, heq⟩ := deleted call hcall deletes
          exact ⟨sent, s₁, pod, rfl, found, heq⟩
    · exact ⟨sending, calls, spared⟩

theorem on_reconcile_restarts (client : Client) (options : UpdateOptions) (earlier : RefSet)
    (target : Ref) (s : State) : ∃ new,
      ((client.reconcile options earlier target).on s).2.calls = s.calls ++ new ∧
        ∀ call ∈ new, call.isPodDeletion → client.Restarts options earlier (target, s) call := by
  have looked := (Cluster.called_get (.ofRef target) s).calls
  rw [reconcile, on_bind, on_lift]
  rcases hget : Cluster.get (.ofRef target) s with ⟨refusal | found, s'⟩
  · have settled : (client.settle options earlier target (.error refusal)).Meets keepsPods := by
      rw [settle]
      split
      · exact meets_bind (meets_createObject (permits_keepsPods target) _) fun _ => meets_pure _
      · exact meets_throw trivial
    obtain ⟨⟨new, calls, keeps⟩, -⟩ := settled s'
    rw [hget] at looked
    refine ⟨.get (.ofRef target) :: new, ?_, fun call hcall deletes => ?_⟩
    · rw [calls, looked, List.append_assoc]
      rfl
    · rcases List.mem_cons.mp hcall with rfl | hcall
      · cases deletes
      · rw [keeps call hcall] at deletes
        cases deletes
  · rw [hget] at looked
    cases hold : earlier.get? target with
    | none =>
      simp only [settle, hold]
      refine ⟨[.get (.ofRef target)], looked, fun call hcall deletes => ?_⟩
      rw [List.mem_singleton.mp hcall] at deletes
      cases deletes
    | some old =>
      obtain ⟨new, calls, deleted⟩ :=
        on_updateObject_restarts client options old.body target s'
      simp only [settle, hold]
      refine ⟨.get (.ofRef target) :: new, ?_, fun call hcall deletes => ?_⟩
      · have appended : s'.calls ++ new = s.calls ++ .get (.ofRef target) :: new := by
          rw [looked, List.append_assoc]
          rfl
        rw [on_bind, on_recorded]
        rcases hupdate : (client.updateObject options old.body target).on s' with
          ⟨failure | sent, s₂⟩
        · rw [hupdate] at calls
          cases failure <;> exact calls.trans appended
        · rw [hupdate] at calls
          exact calls.trans appended
      · rcases List.mem_cons.mp hcall with rfl | hcall
        · cases deletes
        · obtain ⟨sent, s₁, pod, hbring, finds, heq⟩ := deleted call hcall deletes
          exact ⟨sent, s₁, pod, ⟨old, found, s', hold, hget, hbring⟩, isLiveOf_bring hbring,
            finds, heq⟩

/-! ### Going through the targets -/

/-- Every pod that is deleted on the way is deleted at the turn of some target. -/
theorem on_visit_restarts (client : Client) (options : UpdateOptions) (earlier targets : RefSet)
    (s : State) : ∃ new,
      ((visit (client.reconcile options earlier) targets).on s).2.calls = s.calls ++ new ∧
        ∀ call ∈ new, call.isPodDeletion → ∃ turn ∈ client.turns options earlier targets s,
          client.Restarts options earlier turn call := by
  induction targets generalizing s with
  | nil => exact ⟨[], (List.append_nil _).symm, nofun⟩
  | cons target rest ih =>
    obtain ⟨new, calls, restarts⟩ := on_reconcile_restarts client options earlier target s
    have here : ∀ call ∈ new, call.isPodDeletion →
        ∃ turn ∈ client.turns options earlier (target :: rest) s,
          client.Restarts options earlier turn call :=
      fun call hcall deletes => ⟨(target, s), List.mem_cons_self .., restarts call hcall deletes⟩
    rw [visit_cons, on_bind]
    rcases hrun : (client.reconcile options earlier target).on s with ⟨failure | outcome, s₁⟩
    · rw [hrun] at calls
      exact ⟨new, calls, here⟩
    · rw [hrun] at calls
      obtain ⟨later, more, restartsLater⟩ := ih s₁
      refine ⟨new ++ later, ?_, fun call hcall deletes => ?_⟩
      · dsimp only at calls ⊢
        rw [on_bind, ← List.append_assoc, ← calls, ← more]
        rcases (visit (client.reconcile options earlier) rest).on s₁ with ⟨_ | _, s₂⟩ <;> rfl
      · rcases List.mem_append.mp hcall with hcall | hcall
        · exact here call hcall deletes
        · obtain ⟨turn, hturn, restarts⟩ := restartsLater call hcall deletes
          refine ⟨turn, ?_, restarts⟩
          rw [turns, hrun]
          exact List.mem_cons_of_mem _ hturn

theorem on_updateRefs_restarts (client : Client) (options : UpdateOptions)
    (earlier targets : RefSet) (s : State) : ∃ new,
      ((client.updateRefs options earlier targets).on s).2.calls = s.calls ++ new ∧
        ∀ call ∈ new, call.isPodDeletion → ∃ turn ∈ client.turns options earlier targets s,
          client.Restarts options earlier turn call := by
  obtain ⟨new, calls, restarts⟩ := on_visit_restarts client options earlier targets s
  rw [updateRefs, on_bind]
  rcases hvisit : (visit (client.reconcile options earlier) targets).on s with
    ⟨failure | outcomes, s₁⟩
  · rw [hvisit] at calls
    exact ⟨new, calls, restarts⟩
  · rw [hvisit] at calls
    obtain ⟨⟨later, more, keeps⟩, -⟩ :=
      conclude_keepsPods client options (earlier.difference targets) outcomes s₁
    refine ⟨new ++ later, ?_, fun call hcall deletes => ?_⟩
    · dsimp only at calls ⊢
      rw [more, calls, List.append_assoc]
    · rcases List.mem_append.mp hcall with hcall | hcall
      · exact restarts call hcall deletes
      · rw [keeps call hcall] at deletes
        cases deletes

/-- A pod that is found for a workload with a label selector has the labels that the selector
requires. -/
theorem hasLabel_of_finds {sent : Ref} {pod selector : Value} {info : Schema.KindInfo}
    (finds : sent.Finds s pod) (hinfo : sent.info = .ok info)
    (rule : info.selector = some .matchLabels)
    (hselector : Schema.selectorField sent.body = .ok selector)
    (written : ∀ label ∈ Schema.requiredOf selector, Schema.isRequirable label) :
    ∀ label ∈ Schema.requiredOf selector, Schema.hasLabel pod label := by
  obtain ⟨own, labels, text, hown, hlabels, nonempty, htext, selected⟩ := finds.labelled
  obtain rfl := Except.ok.inj (hinfo.symm.trans hown)
  have found : Schema.matchLabels sent.body = .ok labels := by
    unfold Schema.KindInfo.podLabels at hlabels
    obtain ⟨metadata, -, hlabels⟩ := bind_eq_ok.mp hlabels
    rw [rule] at hlabels
    exact liftFault_eq_ok.mp hlabels
  by_cases required : Schema.requiredOf selector = []
  · simp [required]
  · obtain rfl := Schema.matchLabels_eq_requiredOf hselector required found
    exact (Schema.selects_selectorText written htext pod).mp selected

/-- Every pod that an update deletes is deleted at the turn of a target. When the pods are
listed, the target's object has been brought up to date, and the pod is in its namespace. If the
object is of a kind with a label selector, the pod has all labels that the selector requires, so
it is selected by the whole selector provided that this has no expressions. -/
theorem update_deletes_labelled_pods (client : Client) (space : Value)
    (original target : Manifest.Source) (options : UpdateOptions) (s : State) : ∃ new,
    ((client.update space original target options).on s).2.calls = s.calls ++ new ∧
    ∀ call ∈ new, call.isPodDeletion → ∃ earlier targets turn sent now pod,
      builtOn s space original = .ok earlier ∧ builtOn s space target = .ok targets ∧
      turn ∈ client.turns options earlier targets s ∧
      client.Brings options earlier turn sent now ∧ sent.IsLiveOf turn.1 now ∧
      pod ∈ now.store.list "Pod" turn.1.space ∧ call = Cluster.deletionOf pod ∧
      ∀ info selector, turn.1.info = .ok info → info.selector = some .matchLabels →
        Schema.selectorField sent.body = .ok selector →
        (∀ label ∈ Schema.requiredOf selector, Schema.isRequirable label) →
        (∀ label ∈ Schema.requiredOf selector, Schema.hasLabel pod label) ∧
        (Schema.expressionsOf selector = [] → Schema.isSelectedBy selector pod) := by
  obtain ⟨first, hfirst, first_iff⟩ := on_buildForUpdate space original s
  obtain ⟨second, hsecond, second_iff⟩ := on_buildForUpdate space target s
  rw [update, on_bind, hfirst]
  cases first with
  | error failure => exact ⟨[], (List.append_nil _).symm, List.forall_mem_nil _⟩
  | ok earlier =>
    dsimp only
    rw [on_bind, hsecond]
    cases second with
    | error failure => exact ⟨[], (List.append_nil _).symm, List.forall_mem_nil _⟩
    | ok targets =>
      obtain ⟨new, calls, restarts⟩ := on_updateRefs_restarts client options earlier targets s
      refine ⟨new, calls, fun call hcall deletes => ?_⟩
      obtain ⟨turn, hturn, sent, now, pod, brings, live, finds, heq⟩ := restarts call hcall deletes
      have listed := finds.listed
      rw [live.refreshed] at listed
      refine ⟨earlier, targets, turn, sent, now, pod, (first_iff earlier).mp rfl,
        (second_iff targets).mp rfl, hturn, brings, live, listed, heq, ?_⟩
      intro info selector hinfo rule hselector written
      have same : sent.info = .ok info := by
        rw [live.refreshed]
        exact hinfo
      have labelled := hasLabel_of_finds finds same rule hselector written
      refine ⟨labelled, fun plain => ?_⟩
      rw [Schema.isSelectedBy, plain, List.all_eq_true.mpr labelled]
      rfl

/-- A manifest with a deployment whose label selector has a label and an expression. -/
def webText : String :=
  "apiVersion: apps/v1\nkind: Deployment\nmetadata:\n  name: web\nspec:\n  selector:\n" ++
  "    matchLabels:\n      app: web\n    matchExpressions:\n" ++
  "    - \x7bkey: track, operator: NotIn, values: [canary]\x7d\n"

/-- The label selector of the deployment. -/
def webSelector : Value := .map [
  (.text "matchLabels", .map [(.text "app", .text "web")]),
  (.text "matchExpressions", .list [.map [(.text "key", .text "track"),
    (.text "operator", .text "NotIn"), (.text "values", .list [.text "canary"])]])]

/-- The deployment as the cluster has it. -/
def webDeployment : Value := .map [(.text "apiVersion", .text "apps/v1"),
  (.text "kind", .text "Deployment"),
  (.text "metadata", .map [(.text "name", .text "web"), (.text "namespace", .text "default")]),
  (.text "spec", .map [(.text "selector", webSelector)])]

/-- A pod that the expression of the selector excludes. -/
def canaryPod : Value := .map [(.text "metadata", .map [(.text "name", .text "web-canary"),
  (.text "namespace", .text "default"), (.text "uid", .text "uid-canary"),
  (.text "labels", .map [(.text "app", .text "web"), (.text "track", .text "canary")])])]

/-- A cluster with the deployment and the pod. -/
def webCluster : State where
  store := [(⟨.text "Deployment", .text "default", .text "web"⟩, webDeployment),
    (⟨.text "Pod", .text "default", .text "web-canary"⟩, canaryPod)]

/-- Whether a call deletes the pod. -/
def deletesCanary : Call → Bool
  | .deletePod (.text space) (.text name) (.text uid) =>
    space == "default" && name == "web-canary" && uid == "uid-canary"
  | _ => false

theorem deletesCanary_iff {call : Call} :
    deletesCanary call ↔ call = Cluster.deletionOf canaryPod := by
  constructor
  · intro h
    unfold deletesCanary at h
    split at h
    · simp only [Bool.and_eq_true, beq_iff_eq] at h
      obtain ⟨⟨rfl, rfl⟩, rfl⟩ := h
      rfl
    · cases h
  · rintro rfl
    rfl

/-- A pod is deleted for a workload whose label selector does not select it. -/
theorem update_deletes_excluded_pod :
    Cluster.deletionOf canaryPod ∈ ((({} : Client).update .null (.text webText) (.text webText)
      { restartsPods := true }).on webCluster).2.calls ∧
    Schema.selectorField webDeployment = .ok webSelector ∧
    Schema.isSelectedBy webSelector canaryPod = false := by
  have deleted : ((({} : Client).update .null (.text webText) (.text webText)
      { restartsPods := true }).on webCluster).2.calls.any deletesCanary = true := by
    decide +kernel
  obtain ⟨call, hcall, deletes⟩ := List.any_eq_true.mp deleted
  exact ⟨deletesCanary_iff.mp deletes ▸ hcall, rfl, by decide +kernel⟩

end Client

end Reconciler
