import Reconciler.Proofs.Client.Updating
import Reconciler.Proofs.Cluster.Agreement

/-!
# The turn of one target

What an update calls for a target follows from whether its object is there and from what the
server says to these calls; what it changes is the place of this object alone. A target may
end the update at its turn. If it does not, it has an outcome, which may be a problem.
-/

namespace Reconciler.Client

open Cluster (State Key Call Agree)
open Session

/-! ### What is called for one target -/

theorem createObject_alike (target : Ref) (cause : ApiRefusal → Cause) :
    Alike (.ofRef target) (fun _ => ()) (createObject target cause) (createObject target cause) :=
  alike_bind (alike_call (fun _ _ agree => Cluster.answeredAlike_create agree _) _)
    fun _ _ _ => alike_pure rfl

theorem refresh_alike (target : Ref) (cause : ApiRefusal → Cause) :
    Alike (.ofRef target) (fun _ => ()) (refresh target cause) (refresh target cause) :=
  alike_bind (alike_call (fun _ _ agree => Cluster.answeredAlike_get agree) _)
    fun _ _ _ => alike_pure rfl

theorem sendPatch_alike (client : Client) (isForced : Bool) (target : Ref) (patch : Members)
    (strategy : Patch.Strategy) :
    Alike (.ofRef target) (fun _ => ()) (client.sendPatch isForced target patch strategy)
      (client.sendPatch isForced target patch strategy) := by
  refine alike_bind (alike_lift fun _ _ agree => Cluster.answeredAlike_patch agree _ _) ?_
  intro reply reply' same
  cases reply <;> cases reply' <;> cases same
  · dsimp only
    split
    · exact alike_bind (alike_call (fun _ _ agree => Cluster.answeredAlike_delete agree _) _)
        fun _ _ _ => createObject_alike target _
    · exact alike_throw _ _
  · exact alike_pure rfl

theorem updateObject_alike (client : Client) {options : UpdateOptions}
    (keepsPods : options.restartsPods = false) (current : Value) (target : Ref) :
    Alike (.ofRef target) (fun _ => ()) (client.updateObject options current target)
      (client.updateObject options current target) := by
  refine alike_bind (alike_ofExcept id _) fun decision decision' same => ?_
  obtain rfl : decision = decision' := same
  have ended : ∀ sent sent' : Ref, Alike (.ofRef target) (fun _ => ())
      (do if options.restartsPods then restartPods sent
          return sent)
      (do if options.restartsPods then restartPods sent'
          return sent') := by
    intro sent sent'
    rw [keepsPods]
    exact alike_pure rfl
  dsimp only
  split
  · exact alike_bind (refresh_alike target _) fun _ _ _ => ended _ _
  · exact alike_bind (sendPatch_alike client _ target _ _) fun _ _ _ => ended _ _

theorem settle_alike (client : Client) {options : UpdateOptions}
    (keepsPods : options.restartsPods = false) (earlier : RefSet) (target : Ref)
    {reply reply' : Cluster.Reply Value} (same : reply.refusal? = reply'.refusal?) :
    Alike (.ofRef target) (fun outcome => outcome.2)
      (client.settle options earlier target reply)
      (client.settle options earlier target reply') := by
  cases reply <;> cases reply' <;> cases same
  · dsimp only [settle]
    split
    · exact alike_bind (createObject_alike target _) fun _ _ _ => alike_pure rfl
    · exact alike_throw _ _
  · dsimp only [settle]
    split
    · exact alike_throw _ _
    · refine alike_bind (alike_recorded (updateObject_alike client keepsPods _ target)) ?_
      intro outcome outcome' same
      cases outcome <;> cases outcome' <;> cases same <;> exact alike_pure rfl

/-- What is called for a target, and the problem with it, is the same on clusters that agree
on its object. -/
theorem reconcile_alike (client : Client) {options : UpdateOptions}
    (keepsPods : options.restartsPods = false) (earlier : RefSet) (target : Ref) {s s' : State}
    (agree : Agree (.ofRef target) s s') : ∃ later,
      ((client.reconcile options earlier target).on s).2.calls =
        s.calls ++ .get (.ofRef target) :: later ∧
      ((client.reconcile options earlier target).on s').2.calls =
        s'.calls ++ .get (.ofRef target) :: later ∧
      (∀ call ∈ later, Call.IsAbout (.ofRef target) call) ∧
      ((client.reconcile options earlier target).on s).1.map (·.2) =
        ((client.reconcile options earlier target).on s').1.map (·.2) := by
  obtain ⟨-, left, right, agree, same⟩ := Cluster.answeredAlike_get agree
  obtain ⟨later, left', right', about, -, results⟩ :=
    settle_alike client keepsPods earlier target same _ _ agree
  refine ⟨later, ?_, ?_, about, results⟩
  · rw [reconcile, on_bind, on_lift, left', left, List.append_assoc]
    rfl
  · rw [reconcile, on_bind, on_lift, right', right, List.append_assoc]
    rfl

/-! ### What is changed for one target -/

/-- Work that changes the store at one place only. -/
def onlyAt (key : Key) : Contract where
  allows s s' := ∀ other, key.same other = false → s'.store.get? other = s.store.get? other
  fails _ := True
  refl _ _ _ := rfl
  trans h k other apart := (k other apart).trans (h other apart)

theorem onlyAt_of_called {key : Key} {call : Call}
    {writes : Cluster.Store → Cluster.Store → Prop} {s s' : State}
    (h : Cluster.Called call writes s s')
    (here : ∀ other, key.same other = false → writes s.store s'.store →
      s'.store.get? other = s.store.get? other) : (onlyAt key).allows s s' := by
  intro other apart
  rcases h.store with store | written
  · rw [store]
  · exact here other apart written

theorem permits_onlyAt (target : Ref) : (onlyAt (.ofRef target)).Permits target where
  get s := onlyAt_of_called (Cluster.called_get _ s) fun _ _ written => written.elim
  create body s := by
    refine onlyAt_of_called (Cluster.called_create _ body s) fun other apart written => ?_
    obtain ⟨-, object, heq⟩ := written
    rw [heq, Cluster.Store.get?_put_of_not_same apart]
  fails _ := trivial

theorem permitsWrites_onlyAt (target : Ref) :
    (onlyAt (.ofRef target)).PermitsWrites target where
  patch body contentType s := by
    refine onlyAt_of_called (Cluster.called_patch _ body contentType s)
      fun other apart written => ?_
    obtain ⟨-, object, heq⟩ := written
    rw [heq, Cluster.Store.get?_put_of_not_same apart]
  delete propagation s := by
    refine onlyAt_of_called (Cluster.called_delete _ propagation s) fun other apart written => ?_
    rw [written, Cluster.Store.get?_remove_of_not_same apart]

theorem reconcile_onlyAt (client : Client) {options : UpdateOptions}
    (keepsPods : options.restartsPods = false) (earlier : RefSet) (target : Ref) :
    (client.reconcile options earlier target).Meets (onlyAt (.ofRef target)) := by
  refine meets_reconcile (permits_onlyAt target) client options earlier fun old _ => ?_
  exact meets_updateObject_of_keepsPods (permits_onlyAt target) (permitsWrites_onlyAt target)
    client keepsPods old.body fun _ _ => trivial

/-! ### Targets that end an update -/

/-- Whether a target ends an update when its turn comes: its object is there but the earlier
manifest has not got it, or it cannot be looked up, or it is not there and cannot be created,
or a fault keeps the patch from being computed. -/
def aborts (earlier : RefSet) (target : Ref) (s : State) : Bool :=
  match Cluster.get (.ofRef target) s with
  | (.error refusal, s) =>
    !refusal.isAbsence || match (Cluster.create (.ofRef target) target.body s).1 with
      | .ok _ => false
      | .error _ => true
  | (.ok _, _) =>
    match earlier.get? target with
    | none => true
    | some old =>
      match decisionFor target old.body with
      | .ok _ => false
      | .error (.problem _) => false
      | .error _ => true

/-- Work that fails with single problems only. -/
def failsWithProblem : Contract where
  allows _ _ := True
  fails failure := ∃ problem, failure = .problem problem
  refl _ := trivial
  trans _ _ := trivial

theorem permits_failsWithProblem (target : Ref) : failsWithProblem.Permits target where
  get _ := trivial
  create _ _ := trivial
  fails _ := ⟨_, rfl⟩

theorem permitsWrites_failsWithProblem (target : Ref) :
    failsWithProblem.PermitsWrites target where
  patch _ _ _ := trivial
  delete _ _ := trivial

/-- The update of an object that the earlier manifest has comes to an outcome, whatever the
server says to its calls. -/
theorem exists_outcome_of_found (client : Client) {options : UpdateOptions}
    (keepsPods : options.restartsPods = false) {earlier : RefSet} {target old : Ref}
    (hold : earlier.get? target = some old)
    (fails : ∀ failure, decisionFor target old.body = .error failure →
      failsWithProblem.fails failure) (body : Value) (s : State) : ∃ outcome s',
      (client.settle options earlier target (.ok body)).on s = (.ok outcome, s') := by
  have updates : (client.updateObject options old.body target).Meets failsWithProblem :=
    meets_updateObject_of_keepsPods (permits_failsWithProblem target)
      (permitsWrites_failsWithProblem target) client keepsPods old.body fails
  obtain ⟨-, failed⟩ := updates s
  simp only [settle, hold]
  rw [on_bind, on_recorded]
  rcases hupdate : (client.updateObject options old.body target).on s with ⟨failure | sent, s'⟩
  · obtain ⟨problem, rfl⟩ := failed failure (by rw [hupdate])
    exact ⟨_, _, rfl⟩
  · exact ⟨_, _, rfl⟩

/-- A target that does not end the update has an outcome. -/
theorem exists_outcome (client : Client) {options : UpdateOptions}
    (keepsPods : options.restartsPods = false) {earlier : RefSet} {target : Ref} {s : State}
    (h : aborts earlier target s = false) : ∃ outcome s',
      (client.reconcile options earlier target).on s = (.ok outcome, s') := by
  unfold aborts at h
  rw [reconcile, on_bind, on_lift]
  rcases hget : Cluster.get (.ofRef target) s with ⟨refusal | found, s₁⟩
  · rw [hget] at h
    dsimp only at h
    rw [Bool.or_eq_false_iff, Bool.not_eq_false'] at h
    obtain ⟨absence, created⟩ := h
    dsimp only [settle]
    rw [if_pos absence, on_bind, createObject, on_bind, on_call]
    rcases hcreate : Cluster.create (.ofRef target) target.body s₁ with ⟨refusal' | body, s₂⟩
    · rw [hcreate] at created
      cases created
    · exact ⟨_, _, rfl⟩
  · rw [hget] at h
    dsimp only at h
    cases hold : earlier.get? target with
    | none => simp [hold] at h
    | some old =>
      simp only [hold] at h
      refine exists_outcome_of_found client keepsPods hold (fun failure hfailure => ?_) found s₁
      rw [hfailure] at h
      cases failure with
      | problem problem => exact ⟨problem, rfl⟩
      | fault fault => cases h
      | update problems => cases h

end Reconciler.Client
