import Reconciler.Proofs.Client.Building
import Reconciler.Proofs.Client.Turn
import Reconciler.Proofs.Manifest.Identity
import Reconciler.Proofs.Readiness.Reading

/-!
# Updates in which some objects fail

An update goes through its targets one by one, and unless one of them ends it the failure of
one target is not felt by the others. The problems only count afterwards. They keep the
update from deleting, unless the settings say otherwise, and they are what it reports.
-/

namespace Reconciler.Client

open Cluster (State Key Call Agree)
open Session

/-! ### Going through the targets -/

/-- The targets in the order of their turns, each with the cluster as it is then. -/
def turns (client : Client) (options : UpdateOptions) (earlier : RefSet) :
    RefSet → State → List (Ref × State)
  | [], _ => []
  | target :: rest, s =>
    (target, s) ::
      turns client options earlier rest ((client.reconcile options earlier target).on s).2

/-- Whether no target ends the update. -/
def proceeds (client : Client) (options : UpdateOptions) (earlier targets : RefSet)
    (s : State) : Bool :=
  (client.turns options earlier targets s).all fun turn => !aborts earlier turn.1 turn.2

/-- What came of a target: the calls made for it, and the problem with it if there was one. -/
structure Report where
  calls : List Call
  problem : Option Problem

/-- What comes of a target at its turn. -/
def report (client : Client) (options : UpdateOptions) (earlier : RefSet)
    (turn : Ref × State) : Report where
  calls := ((client.reconcile options earlier turn.1).on turn.2).2.calls.drop
    turn.2.calls.length
  problem := match ((client.reconcile options earlier turn.1).on turn.2).1 with
    | .ok outcome => outcome.2
    | .error _ => none

/-- What comes of all targets. -/
def reports (client : Client) (options : UpdateOptions) (earlier targets : RefSet) (s : State) :
    List Report :=
  (client.turns options earlier targets s).map (client.report options earlier)

/-- The problems of reports. -/
def problems (reports : List Report) : List Problem := reports.filterMap (·.problem)

variable {client : Client} {options : UpdateOptions} {earlier targets : RefSet} {s : State}

/-- Each target has exactly one turn, in order. -/
theorem map_turns (client : Client) (options : UpdateOptions) (earlier targets : RefSet)
    (s : State) : (client.turns options earlier targets s).map (·.1) = targets := by
  induction targets generalizing s with
  | nil => rfl
  | cons target rest ih => rw [turns, List.map_cons, ih]

theorem mem_of_turn {turn : Ref × State} (h : turn ∈ client.turns options earlier targets s) :
    turn.1 ∈ targets :=
  client.map_turns options earlier targets s ▸ List.mem_map_of_mem h

/-- The calls for a target begin with a look at its object and are all about it. -/
theorem report_calls (client : Client) (earlier : RefSet)
    (keepsPods : options.restartsPods = false) (turn : Ref × State) :
    ∃ later, (client.report options earlier turn).calls = .get (.ofRef turn.1) :: later ∧
      (∀ call ∈ later, Call.IsAbout (.ofRef turn.1) call) ∧
      ((client.reconcile options earlier turn.1).on turn.2).2.calls =
        turn.2.calls ++ (client.report options earlier turn).calls := by
  obtain ⟨later, calls, -, about, -⟩ :=
    reconcile_alike client keepsPods earlier turn.1 (Agree.refl _ turn.2)
  have reported : (client.report options earlier turn).calls = .get (.ofRef turn.1) :: later := by
    rw [report, calls, List.drop_left]
  exact ⟨later, reported, about, by rw [calls, reported]⟩

/-- What comes of a target is the same on clusters that agree on its object at its turn. -/
theorem report_congr (client : Client) (earlier : RefSet)
    (keepsPods : options.restartsPods = false) {s s' : State}
    (agree : Agree (.ofRef target) s s') :
    client.report options earlier (target, s) = client.report options earlier (target, s') := by
  obtain ⟨later, left, right, -, results⟩ := reconcile_alike client keepsPods earlier target agree
  rw [report, report, Report.mk.injEq, left, right, List.drop_left, List.drop_left]
  refine ⟨rfl, ?_⟩
  dsimp only
  generalize ((client.reconcile options earlier target).on s).1 = result,
    ((client.reconcile options earlier target).on s').1 = result' at results
  rcases result with failure | outcome <;> rcases result' with failure' | outcome'
  · rfl
  · cases results
  · cases results
  · exact Except.ok.inj results

/-- At the turn of a target its object is there exactly if it was there at the start. -/
theorem get?_turn (keepsPods : options.restartsPods = false)
    (distinct : Manifest.Distinct targets) {turn : Ref × State}
    (h : turn ∈ client.turns options earlier targets s) :
    turn.2.store.get? (.ofRef turn.1) = s.store.get? (.ofRef turn.1) := by
  induction targets generalizing s with
  | nil => cases h
  | cons first rest ih =>
    obtain ⟨apart, distinct⟩ := List.pairwise_cons.mp distinct
    rcases List.mem_cons.mp h with rfl | h
    · rfl
    · -- The turn of the first target is over, and it was at another place.
      rw [ih distinct h]
      refine (reconcile_onlyAt client keepsPods earlier first s).1 _ ?_
      refine Bool.eq_false_iff.mpr fun same => ?_
      exact Bool.eq_false_iff.mp (apart _ (mem_of_turn h)) (Key.sameIdentity_of_same same)

/-- If no target ends the update, each one has an outcome. -/
theorem on_visit_of_proceeds (keepsPods : options.restartsPods = false)
    (h : client.proceeds options earlier targets s) : ∃ outcomes s',
      (visit (client.reconcile options earlier) targets).on s = (.ok outcomes, s') ∧
      outcomes.filterMap (·.2) = problems (client.reports options earlier targets s) ∧
      s'.calls = s.calls ++ (client.reports options earlier targets s).flatMap (·.calls) := by
  induction targets generalizing s with
  | nil => exact ⟨[], s, rfl, rfl, by simp [reports, turns]⟩
  | cons target rest ih =>
    rw [proceeds, turns, List.all_cons, Bool.and_eq_true, Bool.not_eq_true'] at h
    obtain ⟨outcome, s₁, hrun⟩ := exists_outcome client keepsPods h.1
    obtain ⟨-, -, -, calls⟩ := report_calls client earlier keepsPods (target, s)
    rw [hrun] at h calls
    dsimp only at calls
    obtain ⟨outcomes, s', hvisit, collected, later⟩ := ih h.2
    have split : client.reports options earlier (target :: rest) s =
        client.report options earlier (target, s) :: client.reports options earlier rest s₁ := by
      rw [reports, turns, List.map_cons, hrun, reports]
    have problem : (client.report options earlier (target, s)).problem = outcome.2 := by
      rw [report, hrun]
    refine ⟨outcome :: outcomes, s', ?_, ?_, ?_⟩
    · rw [visit_cons, on_bind, hrun]
      dsimp only
      rw [on_bind, hvisit]
      rfl
    · rw [split, problems, List.filterMap_cons, List.filterMap_cons, problem, collected, problems]
    · rw [split, List.flatMap_cons, later, calls, List.append_assoc]

/-! ### After the last target -/

/-- The calls that delete objects, in order. -/
def deletions (client : Client) (refs : RefSet) : List Call :=
  refs.map fun ref => .delete (.ofRef ref) (Cluster.deleteOptions client.settings.propagation)

/-- Every deletion is asked for once, whatever the server says to the others. -/
theorem on_deleteAll (client : Client) (stale : RefSet) (s : State) : ∃ s',
    (client.deleteAll stale).on s = (.ok (), s') ∧
      s'.calls = s.calls ++ client.deletions stale := by
  induction stale generalizing s with
  | nil => exact ⟨s, rfl, by simp [deletions]⟩
  | cons ref rest ih =>
    have first := (Cluster.called_delete (.ofRef ref) client.settings.propagation s).calls
    obtain ⟨s', hrest, later⟩ := ih (client.deleteObject ref s).2
    refine ⟨s', ?_, ?_⟩
    · rw [deleteAll, on_bind, on_lift]
      exact hrest
    · rw [later, deleteObject, first, List.append_assoc]
      rfl

/-- What an update deletes is what only the earlier manifest has. -/
theorem difference_eq_filter (earlier targets : RefSet) : earlier.difference targets =
    earlier.filter fun ref => !targets.any fun target => target.sameIdentity ref := by
  refine List.filter_congr fun ref _ => ?_
  rw [RefSet.contains, RefSet.get?, List.isSome_find?]

/-- What an update comes to if no target ends it: it asks for the deletions unless there are
problems that keep it from that, and then it reports the problems, or waits if there are
none. -/
theorem on_updateRefs_of_proceeds (keepsPods : options.restartsPods = false)
    (h : client.proceeds options earlier targets s) : ∃ sent s',
      s'.calls = s.calls ++ (client.reports options earlier targets s).flatMap (·.calls) ++
        (if (problems (client.reports options earlier targets s)).isEmpty ||
            client.settings.deletesOnError
          then client.deletions (earlier.difference targets) else []) ∧
      (client.updateRefs options earlier targets).on s =
        if (problems (client.reports options earlier targets s)).isEmpty
        then (client.waitIf options.isWaiting sent options.timeout).on s'
        else (.error (.update (problems (client.reports options earlier targets s))), s') := by
  obtain ⟨outcomes, s₁, hvisit, collected, calls⟩ := on_visit_of_proceeds keepsPods h
  generalize problems (client.reports options earlier targets s) = failed at collected ⊢
  obtain ⟨s₂, hdelete, deleted⟩ := on_deleteAll client (earlier.difference targets) s₁
  rw [updateRefs, on_bind, hvisit]
  dsimp only [conclude]
  rw [collected]
  by_cases stops : (!failed.isEmpty && !client.settings.deletesOnError) = true
  · obtain ⟨some, keeps⟩ := Bool.and_eq_true_iff.mp stops
    rw [Bool.not_eq_true'] at some keeps
    refine ⟨outcomes.map (·.1), s₁, ?_, ?_⟩
    · rw [some, keeps, if_neg (by decide), calls, List.append_nil]
    · rw [if_pos stops, some]
      rfl
  · have deletes : (failed.isEmpty || client.settings.deletesOnError) = true := by
      rw [← Bool.not_not (failed.isEmpty || client.settings.deletesOnError), Bool.not_or,
        Bool.eq_false_iff.mpr stops, Bool.not_false]
    refine ⟨outcomes.map (·.1), s₂, ?_, ?_⟩
    · rw [deletes, if_pos rfl, deleted, calls]
    · rw [if_neg stops, on_bind, hdelete]
      dsimp only
      split <;> rfl

/-- If no target ends an update, the failure of one object is not felt by the others, and
what is deleted and what is reported follows from whether any of them failed.

Each target has one turn, in order, and the calls for it are about its object. They are the
same as in any other update with these manifests in which the object is there at the start if
it is here, and in which the rules say the same to the calls on it from its turn on, whatever
they say to calls on others. The deletions come next, provided that no object failed or that
the settings ask for them: one for each object that only the earlier manifest has, in order,
whatever the server says to them. Problems are reported exactly if there are any; otherwise a
wait may follow, which only reads. -/
theorem update_isolates_failures (client : Client) (space : Value)
    (original target : Manifest.Source) (options : UpdateOptions) (s : State)
    (keepsPods : options.restartsPods = false) (earlier targets : RefSet)
    (hearlier : builtOn s space original = .ok earlier)
    (htargets : builtOn s space target = .ok targets)
    (going : client.proceeds options earlier targets s) :
    ((client.turns options earlier targets s).map (·.1) = targets ∧
      (∀ turn, ∃ later, (client.report options earlier turn).calls = .get (.ofRef turn.1) :: later ∧
        ∀ call ∈ later, Call.IsAbout (.ofRef turn.1) call) ∧
      ∀ s' t now now', (t, now) ∈ client.turns options earlier targets s →
        (t, now') ∈ client.turns options earlier targets s' →
        (s.store.get? (.ofRef t)).isSome = (s'.store.get? (.ofRef t)).isSome →
        (∀ verbs, Cluster.verdicts t.kind t.name now.rules verbs =
          Cluster.verdicts t.kind t.name now'.rules verbs) →
        client.report options earlier (t, now) = client.report options earlier (t, now')) ∧
    ∃ sent s' reads,
      s'.calls = s.calls ++ (client.reports options earlier targets s).flatMap (·.calls) ++
        (if (problems (client.reports options earlier targets s)).isEmpty ||
            client.settings.deletesOnError
          then client.deletions
            (earlier.filter fun ref => !targets.any fun target => target.sameIdentity ref)
          else []) ∧
      (client.update space original target options).on s =
        (if (problems (client.reports options earlier targets s)).isEmpty
        then (client.waitIf options.isWaiting sent options.timeout).on s'
        else (.error (.update (problems (client.reports options earlier targets s))), s')) ∧
      ((client.update space original target options).on s).2.calls = s'.calls ++ reads ∧
      (∀ call ∈ reads, call.isReading) ∧
      ((∃ failed,
        ((client.update space original target options).on s).1 = .error (.update failed)) ↔
          problems (client.reports options earlier targets s) ≠ []) := by
  have distinct := Manifest.distinct_of_build htargets
  refine ⟨⟨client.map_turns options earlier targets s, fun turn => ?_, ?_⟩, ?_⟩
  · obtain ⟨later, calls, about, -⟩ := report_calls client earlier keepsPods turn
    exact ⟨later, calls, about⟩
  · intro s' t now now' hturn hturn' present same
    refine report_congr client earlier keepsPods ⟨?_, same⟩
    rw [get?_turn keepsPods distinct hturn, get?_turn keepsPods distinct hturn', present]
  · obtain ⟨sent, s', calls, result⟩ := on_updateRefs_of_proceeds keepsPods going
    rw [difference_eq_filter] at calls
    rw [on_update client space original target options hearlier htargets, result]
    generalize problems (client.reports options earlier targets s) = failed at calls
    cases failed with
    | nil =>
      obtain ⟨⟨⟨reads, later, reading⟩, -⟩, fails⟩ :=
        client.meets_waitIf options.isWaiting sent options.timeout s'
      refine ⟨sent, s', reads, calls, rfl, later, reading, fun ⟨failed, heq⟩ => ?_, nofun⟩
      exact absurd rfl (fails _ heq failed)
    | cons problem more =>
      exact ⟨sent, s', [], calls, rfl, (List.append_nil _).symm, nofun, fun _ => nofun,
        fun _ => ⟨_, rfl⟩⟩

/-- A document of a manifest: a config map of some name. -/
def configDocument (name : String) : String :=
  "---\napiVersion: v1\nkind: ConfigMap\nmetadata:\n  name: " ++ name ++ "\n"

/-- A manifest with three config maps. -/
def threeConfigs : String :=
  configDocument "first" ++ configDocument "second" ++ configDocument "third"

/-- A manifest with two of them. -/
def twoConfigs : String := configDocument "first" ++ configDocument "second"

/-- A cluster with the first two config maps and some rules. -/
def configCluster (rules : List Cluster.Rule) : State where
  store := ["first", "second"].map fun name =>
    (⟨.text "ConfigMap", .text "default", .text name⟩, .map [])
  rules

/-- The first config map cannot be fetched again after it has been looked up. -/
def secondLookOfFirst : Cluster.Rule where
  verb := .get
  name := some (.text "first")
  nth := some 2
  refusal := ⟨.int 500, .text "Internal Server Error"⟩

/-- A client that deletes also when objects fail. -/
def deletingClient : Client where
  settings := { deletesOnError := true }

/-- Whether the first of two targets fails, by a rule that is not about the second, and
something is left to be deleted. -/
def failsAtFirst (earlier targets : Except Failure RefSet) : Bool :=
  match earlier, targets with
  | .ok earlier, .ok [first, second] =>
    let broken := configCluster [secondLookOfFirst]
    deletingClient.proceeds {} earlier [first, second] broken &&
      !(problems (deletingClient.reports {} earlier [first, second] broken)).isEmpty &&
      (((deletingClient.reconcile {} earlier first).on broken).2.rules.all fun rule =>
        rule.name.any fun own => !own.equal false second.name) &&
      ((deletingClient.reconcile {} earlier first).on (configCluster [])).2.rules.isEmpty &&
      (earlier.difference [first, second]).length == 1
  | _, _ => false

theorem update_isolates_failure_of_first : ∃ earlier first second failed stale s',
    (deletingClient.update .null (.text threeConfigs) (.text twoConfigs) {}).on
      (configCluster [secondLookOfFirst]) = (.error (.update failed), s') ∧
    (∃ before, s'.calls = before ++ deletingClient.deletions [stale]) ∧
    ∃ now now',
      deletingClient.turns {} earlier [first, second] (configCluster [secondLookOfFirst]) =
        [(first, configCluster [secondLookOfFirst]), (second, now)] ∧
      deletingClient.turns {} earlier [first, second] (configCluster []) =
        [(first, configCluster []), (second, now')] ∧
      deletingClient.report {} earlier (second, now) =
        deletingClient.report {} earlier (second, now') := by
  obtain ⟨first, second, hearlier, htargets, checked⟩ : ∃ first second,
      builtOn (configCluster [secondLookOfFirst]) .null (.text threeConfigs) = first ∧
      builtOn (configCluster [secondLookOfFirst]) .null (.text twoConfigs) = second ∧
      failsAtFirst first second = true := ⟨_, _, rfl, rfl, by decide +kernel⟩
  unfold failsAtFirst at checked
  split at checked
  · rename_i earlier first second
    simp only [Bool.and_eq_true, Bool.not_eq_true'] at checked
    obtain ⟨⟨⟨⟨going, failing⟩, named⟩, silent⟩, left⟩ := checked
    obtain ⟨⟨-, -, isolated⟩, sent, s', reads, calls, run, -⟩ :=
      update_isolates_failures deletingClient .null (.text threeConfigs) (.text twoConfigs) {}
        (configCluster [secondLookOfFirst]) rfl earlier [first, second] hearlier htargets going
    obtain ⟨stale, hstale⟩ := List.length_eq_one_iff.mp (beq_iff_eq.mp left)
    rw [failing, if_neg (by decide)] at run
    rw [failing, ← difference_eq_filter, hstale] at calls
    refine ⟨earlier, first, second, _, stale, s', run, ⟨_, calls⟩, _, _, rfl, rfl, ?_⟩
    refine isolated (configCluster []) second _ _ (by simp [turns]) (by simp [turns]) rfl ?_
    intro verbs
    rw [Cluster.verdicts_of_other_name named, List.isEmpty_iff.mp silent]
    exact (Cluster.verdicts_of_other_name rfl verbs).symm
  · cases checked

end Reconciler.Client
