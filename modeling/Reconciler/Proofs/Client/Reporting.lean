import Reconciler.Proofs.Client.Isolation
import Reconciler.Proofs.Patch.Failing

/-!
# What an update reports

An update collects the problems with single objects while it goes through its targets. If it
gets through all of them it reports every problem, in the order of the targets. If a target
ends it, the failure of that target is all that it reports: what has been collected until then
is dropped.

Nothing is assumed about the options here, so pods may be restarted as well.
-/

namespace Reconciler

/-- The problems that a failure tells of. -/
def Failure.reported : Failure → List Problem
  | .fault _ => []
  | .problem found => [found]
  | .update found => found

namespace Client

open Cluster (State)
open Session

variable {client : Client} {options : UpdateOptions} {earlier targets : RefSet} {s : State}

/-! ### The turn of one target -/

/-- Whether a target does not end the update at its turn. -/
def passes (client : Client) (options : UpdateOptions) (earlier : RefSet)
    (turn : Ref × State) : Bool :=
  ((client.reconcile options earlier turn.1).on turn.2).1.isOk

/-- At its turn a target is found, and the update of its object fails with a problem. -/
def FailsWith (client : Client) (options : UpdateOptions) (earlier : RefSet)
    (turn : Ref × State) (problem : Problem) : Prop :=
  ∃ old found s₁ s₂, earlier.get? turn.1 = some old ∧
    Cluster.get (.ofRef turn.1) turn.2 = (.ok found, s₁) ∧
    (client.updateObject options old.body turn.1).on s₁ = (.error (.problem problem), s₂)

theorem report_problem_of_failsWith {turn : Ref × State} {problem : Problem}
    (h : client.FailsWith options earlier turn problem) :
    (client.report options earlier turn).problem = some problem := by
  obtain ⟨old, found, s₁, s₂, hold, hget, hupdate⟩ := h
  have run : (client.reconcile options earlier turn.1).on turn.2 =
      (.ok (turn.1, some problem), s₂) := by
    rw [reconcile, on_bind, on_lift, hget]
    simp only [settle, hold]
    rw [on_bind, on_recorded, hupdate]
    rfl
  rw [report, run]

/-- Work that fails with a fault or with one problem. -/
def failsSingly : Contract where
  allows _ _ := True
  fails := Failure.IsSingle
  refl _ := trivial
  trans _ _ := trivial

theorem permits_failsSingly (target : Ref) : failsSingly.Permits target where
  get _ := trivial
  create _ _ := trivial
  fails _ := nofun

theorem permitsWrites_failsSingly (target : Ref) : failsSingly.PermitsWrites target where
  patch _ _ _ := trivial
  delete _ _ := trivial

theorem restartPods_failsSingly (target : Ref) : (restartPods target).Meets failsSingly :=
  meets_restartPods ⟨fun _ _ _ => trivial, fun _ _ _ _ => trivial⟩ (fun _ => nofun)
    (fun _ => nofun) fun _ _ h => Readiness.isSingle_of_podLabels h

theorem isSingle_of_decisionFor {target : Ref} {current : Value} {failure : Failure}
    (h : decisionFor target current = .error failure) : failure.IsSingle := by
  unfold decisionFor at h
  cases hbetween : Patch.Decision.between current target.body with
  | ok decision =>
    rw [hbetween] at h
    cases h
  | error inner =>
    have single := Patch.isSingle_of_between hbetween
    rw [hbetween] at h
    cases inner with
    | update problems => exact (single problems rfl).elim
    | fault fault => cases h; exact nofun
    | problem problem => cases h; exact nofun

/-- If the update of an object fails, it does so on its own. -/
theorem updateObject_failsSingly (client : Client) (options : UpdateOptions) (current : Value)
    (target : Ref) : (client.updateObject options current target).Meets failsSingly := by
  refine meets_updateObject (permits_failsSingly target) (permitsWrites_failsSingly target)
    client options (fun _ sent => restartPods_failsSingly sent) current fun failure h => ?_
  exact isSingle_of_decisionFor h

/-- A target that ends an update does so with a fault or with a problem that concerns it. -/
theorem failure_of_reconcile {target : Ref} {failure : Failure}
    (h : ((client.reconcile options earlier target).on s).1 = .error failure) :
    (∃ cause, failure = .about target cause) ∨ ∃ fault, failure = .fault fault := by
  rw [reconcile, on_bind, on_lift] at h
  rcases hget : Cluster.get (.ofRef target) s with ⟨refusal | found, s₁⟩
  · rw [hget] at h
    dsimp only [settle] at h
    split at h
    · rw [on_bind, createObject, on_bind, on_call] at h
      rcases hcreate : Cluster.create (.ofRef target) target.body s₁ with ⟨refusal' | body, s₂⟩
      · rw [hcreate] at h
        cases h
        exact .inl ⟨_, rfl⟩
      · rw [hcreate] at h
        cases h
    · cases h
      exact .inl ⟨_, rfl⟩
  · rw [hget] at h
    cases hold : earlier.get? target with
    | none =>
      simp only [settle, hold] at h
      cases h
      exact .inl ⟨_, rfl⟩
    | some old =>
      obtain ⟨-, single⟩ := updateObject_failsSingly client options old.body target s₁
      simp only [settle, hold] at h
      rw [on_bind, on_recorded] at h
      rcases hupdate : (client.updateObject options old.body target).on s₁ with ⟨inner | sent, s₂⟩
      · rw [hupdate] at h single
        cases inner with
        | problem problem => cases h
        | update problems => exact (single _ rfl problems rfl).elim
        | fault fault =>
          cases h
          exact .inr ⟨fault, rfl⟩
      · rw [hupdate] at h
        cases h

/-! ### Going through the targets -/

/-- If every target passes, each has an outcome, and the problems among these are what comes of
the targets. -/
theorem on_visit_of_passes (h : ∀ turn ∈ client.turns options earlier targets s,
    client.passes options earlier turn) : ∃ outcomes s',
      (visit (client.reconcile options earlier) targets).on s = (.ok outcomes, s') ∧
      outcomes.filterMap (·.2) = problems (client.reports options earlier targets s) := by
  induction targets generalizing s with
  | nil => exact ⟨[], s, rfl, rfl⟩
  | cons target rest ih =>
    rw [turns, List.forall_mem_cons] at h
    obtain ⟨here, later⟩ := h
    unfold passes at here
    rcases hrun : (client.reconcile options earlier target).on s with ⟨failure | outcome, s₁⟩
    · rw [hrun] at here
      cases here
    · rw [hrun] at later
      obtain ⟨outcomes, s', hvisit, collected⟩ := ih later
      have first : (client.report options earlier (target, s)).problem = outcome.2 := by
        rw [report, hrun]
      have split : client.reports options earlier (target :: rest) s =
          client.report options earlier (target, s) :: client.reports options earlier rest s₁ := by
        rw [reports, turns, List.map_cons, hrun, reports]
      refine ⟨outcome :: outcomes, s', ?_, ?_⟩
      · rw [visit_cons, on_bind, hrun]
        dsimp only
        rw [on_bind, hvisit]
        rfl
      · rw [split, problems, List.filterMap_cons, List.filterMap_cons, first, collected, problems]

/-- The first target that does not pass ends the visit, whatever has come of those before. -/
theorem on_visit_of_not_passes {front back : List (Ref × State)} {turn : Ref × State}
    {failure : Failure} (hturns : client.turns options earlier targets s = front ++ turn :: back)
    (before : ∀ turn ∈ front, client.passes options earlier turn)
    (ends : ((client.reconcile options earlier turn.1).on turn.2).1 = .error failure) :
    ((visit (client.reconcile options earlier) targets).on s).1 = .error failure := by
  induction targets generalizing s front with
  | nil =>
    rw [turns] at hturns
    cases front <;> cases hturns
  | cons target rest ih =>
    rw [turns] at hturns
    rw [visit_cons, on_bind]
    cases front with
    | nil =>
      rw [List.nil_append] at hturns
      obtain ⟨rfl, -⟩ := List.cons.inj hturns
      rcases hrun : (client.reconcile options earlier target).on s with ⟨failure' | outcome, s₁⟩
      · rw [hrun] at ends
        cases ends
        rfl
      · rw [hrun] at ends
        cases ends
    | cons first front =>
      rw [List.cons_append] at hturns
      obtain ⟨rfl, hrest⟩ := List.cons.inj hturns
      obtain ⟨here, before⟩ := List.forall_mem_cons.mp before
      unfold passes at here
      rcases hrun : (client.reconcile options earlier target).on s with ⟨failure' | outcome, s₁⟩
      · rw [hrun] at here
        cases here
      · rw [hrun] at hrest
        have later := ih hrest before
        dsimp only
        rw [on_bind]
        rcases hvisit : (visit (client.reconcile options earlier) rest).on s₁ with ⟨_ | _, s₂⟩
        · rw [hvisit] at later
          cases later
          rfl
        · rw [hvisit] at later
          cases later

/-- Collected problems are all reported, also after the deletions. -/
theorem on_conclude_of_problems (stale : RefSet) {outcomes : List (Ref × Option Problem)}
    (found : outcomes.filterMap (·.2) ≠ []) (s : State) :
    ((client.conclude options stale outcomes).on s).1 =
      .error (.update (outcomes.filterMap (·.2))) := by
  have present : (outcomes.filterMap (·.2)).isEmpty = false := by
    simpa using found
  unfold conclude
  dsimp only
  split
  · rfl
  · obtain ⟨s', hdelete, -⟩ := on_deleteAll client stale s
    rw [on_bind, hdelete]
    dsimp only
    rw [present, if_neg Bool.false_ne_true]
    rfl

/-- Without problems there is nothing to report, though a wait may fail. -/
theorem on_conclude_of_no_problems (stale : RefSet) {outcomes : List (Ref × Option Problem)}
    (clear : outcomes.filterMap (·.2) = []) (s : State) (failed : List Problem) :
    ((client.conclude options stale outcomes).on s).1 ≠ .error (.update failed) := by
  intro h
  unfold conclude at h
  dsimp only at h
  rw [clear, if_neg (by simp)] at h
  obtain ⟨s', hdelete, -⟩ := on_deleteAll client stale s
  rw [on_bind, hdelete] at h
  dsimp only at h
  rw [if_pos (by rfl)] at h
  exact (client.meets_waitIf options.isWaiting _ options.timeout s').2 _ h failed rfl

/-- What an update reports, if both manifests build.

If every target passes, then each problem with the update of an object is reported, and what is
reported as problems of the update are the problems of the targets in order and nothing else. If
not, the first target that does not pass ends the update with its own failure: a fault or a
problem that concerns this target alone, whatever has gone wrong with the targets before it. -/
theorem update_reports_problems (client : Client) (space : Value)
    (original target : Manifest.Source) (options : UpdateOptions) (s : State)
    (earlier targets : RefSet) (hearlier : builtOn s space original = .ok earlier)
    (htargets : builtOn s space target = .ok targets) :
    ((∀ turn ∈ client.turns options earlier targets s, client.passes options earlier turn) →
      (∀ turn ∈ client.turns options earlier targets s, ∀ problem,
        client.FailsWith options earlier turn problem → ∃ failure,
          ((client.update space original target options).on s).1 = .error failure ∧
          problem ∈ failure.reported) ∧
      ∀ failed, ((client.update space original target options).on s).1 =
          .error (.update failed) →
        failed = problems (client.reports options earlier targets s)) ∧
    ∀ front turn back failure,
      client.turns options earlier targets s = front ++ turn :: back →
      (∀ turn ∈ front, client.passes options earlier turn) →
      ((client.reconcile options earlier turn.1).on turn.2).1 = .error failure →
      ((client.update space original target options).on s).1 = .error failure ∧
        ((∃ cause, failure = .about turn.1 cause) ∨ ∃ fault, failure = .fault fault) := by
  rw [on_update client space original target options hearlier htargets, updateRefs, on_bind]
  refine ⟨fun pass => ?_, fun front turn back failure hturns before ends => ?_⟩
  · obtain ⟨outcomes, s', hvisit, collected⟩ := on_visit_of_passes pass
    rw [hvisit]
    dsimp only
    refine ⟨fun turn hturn problem fails => ?_, fun failed hfailed => ?_⟩
    · have mem : problem ∈ outcomes.filterMap (·.2) := by
        rw [collected]
        refine List.mem_filterMap.mpr ⟨_, List.mem_map_of_mem hturn, ?_⟩
        exact report_problem_of_failsWith fails
      refine ⟨_, on_conclude_of_problems _ (List.ne_nil_of_mem mem) s', ?_⟩
      exact mem
    · by_cases clear : outcomes.filterMap (·.2) = []
      · exact (on_conclude_of_no_problems _ clear s' failed hfailed).elim
      · rw [on_conclude_of_problems _ clear] at hfailed
        cases hfailed
        exact collected
  · have ended := on_visit_of_not_passes hturns before ends
    refine ⟨?_, failure_of_reconcile ends⟩
    rcases hvisit : (visit (client.reconcile options earlier) targets).on s with ⟨_ | _, s'⟩
    · rw [hvisit] at ended
      cases ended
      rfl
    · rw [hvisit] at ended
      cases ended

/-- Whether the first of two targets is found, and then cannot be fetched again. -/
def isLostAtFirst (earlier targets : Except Failure RefSet) : Bool :=
  match earlier, targets with
  | .ok earlier, .ok [first, _] =>
    match earlier.get? first, Cluster.get (.ofRef first) (configCluster [secondLookOfFirst]) with
    | some old, (.ok _, s) =>
      match ((({} : Client).updateObject {} old.body first).on s).1 with
      | .error (.problem { cause := .refreshRefused _, .. }) => true
      | _ => false
    | _, _ => false
  | _, _ => false

theorem exists_failsWith_of_isLostAtFirst {first second : Except Failure RefSet}
    (h : isLostAtFirst first second = true) : ∃ earlier target other refusal subject,
      first = .ok earlier ∧ second = .ok [target, other] ∧
      ({} : Client).FailsWith {} earlier (target, configCluster [secondLookOfFirst])
        { cause := .refreshRefused refusal, subject } := by
  unfold isLostAtFirst at h
  split at h
  · rename_i earlier target other
    split at h
    · rename_i old found s hold hget
      split at h
      · rename_i refusal subject hupdate
        exact ⟨earlier, target, other, refusal, subject, rfl, rfl, old, found, s, _, hold, hget,
          Prod.ext hupdate rfl⟩
      · cases h
    · cases h
  · cases h

/-- Whether every target of an update passes. -/
def allPass (earlier targets : Except Failure RefSet) : Bool :=
  match earlier, targets with
  | .ok earlier, .ok targets =>
    (({} : Client).turns {} earlier targets (configCluster [secondLookOfFirst])).all
      (({} : Client).passes {} earlier)
  | _, _ => false

theorem update_reports_lost_config : ∃ failure problem,
    ((({} : Client).update .null (.text twoConfigs) (.text twoConfigs) {}).on
      (configCluster [secondLookOfFirst])).1 = .error failure ∧ problem ∈ failure.reported := by
  obtain ⟨first, second, hfirst, hsecond, checked⟩ : ∃ first second,
      builtOn (configCluster [secondLookOfFirst]) .null (.text twoConfigs) = first ∧
      builtOn (configCluster [secondLookOfFirst]) .null (.text twoConfigs) = second ∧
      (isLostAtFirst first second && allPass first second) = true :=
    ⟨_, _, rfl, rfl, by decide +kernel⟩
  obtain ⟨lost, pass⟩ := Bool.and_eq_true_iff.mp checked
  obtain ⟨earlier, target, other, refusal, subject, rfl, rfl, fails⟩ :=
    exists_failsWith_of_isLostAtFirst lost
  unfold allPass at pass
  obtain ⟨reports, -⟩ := update_reports_problems {} .null (.text twoConfigs) (.text twoConfigs) {}
    (configCluster [secondLookOfFirst]) earlier [target, other] hfirst hsecond
  obtain ⟨reported, -⟩ := reports (List.all_eq_true.mp pass)
  obtain ⟨failure, hfailure, mem⟩ := reported _ (List.mem_cons_self ..) _ fails
  exact ⟨failure, _, hfailure, mem⟩

/-- Whether an update ends at an object that belongs to someone else. -/
def endsAtOrphan (earlier targets : Except Failure RefSet) : Bool :=
  match earlier, targets with
  | .ok earlier, .ok targets =>
    match ((({} : Client).updateRefs {} earlier targets).on
      (configCluster [secondLookOfFirst])).1 with
    | .error (.problem { cause := .orphan, .. }) => true
    | _ => false
  | _, _ => false

/-- An object of someone else takes the place of an earlier problem in what is reported. -/
theorem orphan_hides_lost_config : ∃ earlier target other problem failure,
    builtOn (configCluster [secondLookOfFirst]) .null (.text (configDocument "first")) =
      .ok earlier ∧
    builtOn (configCluster [secondLookOfFirst]) .null (.text twoConfigs) =
      .ok [target, other] ∧
    ({} : Client).FailsWith {} earlier (target, configCluster [secondLookOfFirst]) problem ∧
    ((({} : Client).update .null (.text (configDocument "first")) (.text twoConfigs) {}).on
      (configCluster [secondLookOfFirst])).1 = .error failure ∧ problem ∉ failure.reported := by
  obtain ⟨first, second, hfirst, hsecond, checked⟩ : ∃ first second,
      builtOn (configCluster [secondLookOfFirst]) .null (.text (configDocument "first")) =
        first ∧
      builtOn (configCluster [secondLookOfFirst]) .null (.text twoConfigs) = second ∧
      (isLostAtFirst first second && endsAtOrphan first second) = true :=
    ⟨_, _, rfl, rfl, by decide +kernel⟩
  obtain ⟨lost, orphan⟩ := Bool.and_eq_true_iff.mp checked
  obtain ⟨earlier, target, other, refusal, subject, rfl, rfl, fails⟩ :=
    exists_failsWith_of_isLostAtFirst lost
  have run := on_update {} .null (.text (configDocument "first")) (.text twoConfigs) {} hfirst
    hsecond
  unfold endsAtOrphan at orphan
  dsimp only at orphan
  split at orphan
  · rename_i subject' heq
    refine ⟨earlier, target, other, _, .problem ⟨.orphan, subject'⟩, hfirst, hsecond, fails, ?_, ?_⟩
    · rw [run]
      exact heq
    · simp [Failure.reported]
  · cases orphan

end Client

end Reconciler
