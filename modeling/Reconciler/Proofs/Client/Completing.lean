import Reconciler.Client.Hook
import Reconciler.Proofs.Client.Building
import Reconciler.Proofs.Client.Live
import Reconciler.Proofs.Watch.Deciding

/-!
# The phase of a completed pod

The end of a pod is seen in an event, and its phase is then taken from the pod that the cluster
has. Other clients may change the pod in between, or put another one in its place, so the phase
that is returned need not be the one that ended the watch. Main statement: it is the phase of the
pod that is stored once the watch is over, after an event that showed a final phase.
-/

namespace Reconciler

open Cluster (State StreamItem)

theorem Value.get_eq_ok {value found : Value} {name : String} (h : value.get name = .ok found) :
    found = value.field name := by
  cases value with
  | map members => exact (Except.ok.inj h).symm
  | _ => cases h

/-- An empty mapping has the fields of what it stands in for, which are none. -/
theorem Value.field_orEmpty (value : Value) (name : String) :
    value.orEmpty.field name = value.field name := by
  cases value with
  | map members => cases members <;> rfl
  | _ =>
    rw [orEmpty, orElse]
    split <;> rfl

theorem Readiness.nested_eq_ok {object found : Value} {outer inner : String}
    (h : nested object outer inner = .ok found) : found = (object.field outer).field inner := by
  obtain ⟨value, hvalue, h⟩ := bind_eq_ok.mp h
  rw [Value.get_eq_ok h, Value.field_orEmpty, Value.get_eq_ok hvalue]

/-- What is done in any case is also done after a session that gives a result. -/
theorem Session.on_thenAlways_eq_ok {work : Session α} {f : State → State} {s s' : State} {a : α}
    (h : (thenAlways work f).on s = (.ok a, s')) : ∃ last, work.on s = (.ok a, last) ∧
      s' = f last := by
  rw [on_thenAlways] at h
  generalize work.on s = run at h ⊢
  obtain ⟨result, last⟩ := run
  obtain ⟨rfl, rfl⟩ := Prod.mk.inj h
  exact ⟨last, rfl, rfl⟩

namespace Watch

open Session

variable {ref : Ref} {verdict : Verdict} {milestone : Milestone} {doing : String} {s s' : State}

/-! ### Watches that give an event -/

/-- What a milestone answers, if it answers, agrees with a verdict. -/
def Verdict.Describes (verdict : Verdict) (milestone : Milestone) : Prop :=
  ∀ event isDecisive, milestone event = .ok isDecisive →
    verdict event = if isDecisive then some (.ok ()) else none

theorem describes_podFinished (ref : Ref) :
    (Verdict.podFinished ref).Describes (podFinished ref) := by
  intro event isDecisive h
  have judged (type : event.type ≠ .deleted) (h : (do
      let phase ← liftFault (Readiness.nested (.map event.object) "status" "phase")
      return (PodPhase.ofValue phase).isFinal) = .ok isDecisive) :
      Verdict.podFinished ref event = if isDecisive then some (.ok ()) else none := by
    obtain ⟨phase, hphase, h⟩ := bind_eq_ok.mp h
    obtain rfl := Readiness.nested_eq_ok (liftFault_eq_ok.mp hphase)
    obtain rfl := Except.ok.inj h
    rw [Verdict.podFinished, if_neg type, isFinal_ofValue]
    simp only [decide_eq_true_iff]
    rfl
  rw [podFinished] at h
  cases htype : event.type with
  | deleted =>
    rw [htype] at h
    cases h
  | _ =>
    rw [htype] at h
    exact judged (by rw [htype]; decide) h

/-- Following what happens gives an event only if this decides the watch and nothing before it
does. No more has then been looked at. -/
theorem ends_of_follow (describes : verdict.Describes milestone) {items : List StreamItem}
    {event : Event} (h : (follow ref milestone doing items).on s = (.ok (some event), s')) :
    ∃ seen, Ends ref verdict doing items seen (.ok (some event)) ∧
      s' = s.applyAll (seen.flatMap changesOf) := by
  induction items generalizing s with
  | nil => cases h
  | cons item rest ih =>
    have goesOn : ∀ changes delivered, Passes ref verdict (.event changes delivered) →
        (follow ref milestone doing rest).on (s.applyAll changes) = (.ok (some event), s') →
        ∃ seen, Ends ref verdict doing (.event changes delivered :: rest) seen (.ok (some event)) ∧
          s' = s.applyAll (seen.flatMap changesOf) := by
      intro changes delivered passes later
      obtain ⟨seen, ends, rfl⟩ := ih later
      refine ⟨.event changes delivered :: seen, ends.cons passes, ?_⟩
      rw [List.flatMap_cons, applyAll_append]
      rfl
    cases item with
    | broken changes refusal => cases h
    | event changes delivered =>
      cases delivered with
      | none => exact goesOn changes none (.silent changes) h
      | some delivered =>
        obtain ⟨type, object, delivery⟩ := delivered
        rw [follow, on_bind, on_change] at h
        obtain ⟨found, hevent, h⟩ := on_bind_ofFault_eq_ok.mp h
        obtain ⟨isDecisive, decided, h⟩ := on_bind_ofExcept_eq_ok.mp h
        have ruled := describes found isDecisive decided
        cases isDecisive with
        | false => exact goesOn changes _ (.undecided hevent ruled) h
        | true =>
          obtain ⟨same, rfl⟩ := Prod.mk.inj h
          obtain rfl := Option.some.inj (Except.ok.inj same)
          refine ⟨[.event changes (some (type, object, delivery))],
            @Ends.decided _ _ _ [] _ _ _ _ _ _ _ (List.forall_mem_nil _) hevent ruled, ?_⟩
          rw [List.flatMap_singleton]
          rfl

/-- A watch that gives an event has been accepted, and has been decided by this event. -/
theorem watchRun_of_event (describes : verdict.Describes milestone) {timeout : Value}
    {event : Event} (h : (untilMilestone ref timeout milestone doing).on s = (.ok event, s')) :
    ∃ version limit, WatchRun ref verdict doing timeout version limit s (.ok event, s') := by
  obtain ⟨found, s₁, hfound, h⟩ := on_bind_eq_ok.mp h
  obtain ⟨last, run, rfl⟩ := on_thenAlways_eq_ok hfound
  obtain ⟨version, hversion, limited⟩ := on_bind_ofFault_eq_ok.mp run
  obtain ⟨limit, hlimit, -⟩ := on_bind_ofFault_eq_ok.mp limited
  refine ⟨version, limit, ?_⟩
  rcases hrules : Cluster.tryRules .watch ref.kind ref.name s.rules with ⟨_ | refusal, rules⟩
  · rw [on_stream_of_accepted doing hversion hlimit hrules] at run
    cases found with
    | none => cases h
    | some found =>
      obtain ⟨same, rfl⟩ := Prod.mk.inj h
      obtain rfl := Except.ok.inj same
      obtain ⟨seen, ends, rfl⟩ := ends_of_follow describes run
      generalize hitems : s.stream (.ofRef ref) = items at ends
      generalize hresult : Except.ok (some found) = result at ends
      cases ends with
      | exhausted => cases hresult
      | broken => cases hresult
      | @decided _ _ _ _ _ _ event decision passed delivered decided =>
        cases decision with
        | error failure => cases hresult
        | ok answer =>
          obtain rfl := Option.some.inj (Except.ok.inj hresult)
          rw [List.flatMap_append, List.flatMap_singleton]
          exact .decided hrules hitems passed delivered decided
  · rw [on_stream_of_refused doing hversion hlimit hrules] at run
    cases run

/-- A watch gives an event only if the verdict ends it with this event. -/
theorem WatchRun.verdict_eq {timeout version limit : Value} {event : Event}
    (h : WatchRun ref verdict doing timeout version limit s (.ok event, s')) :
    verdict event = some (.ok ()) := by
  generalize hrun : (Except.ok event, s') = run at h
  cases h with
  | refused => cases hrun
  | exhausted => cases hrun
  | broken => cases hrun
  | @decided _ _ _ _ _ _ _ found result _ _ _ _ decision =>
    cases result with
    | error failure => cases hrun
    | ok answer =>
      obtain ⟨same, -⟩ := Prod.mk.inj hrun
      obtain rfl := Except.ok.inj same
      exact decision

theorem isFinal_phaseOf {event : Event} (h : Verdict.podFinished ref event = some (.ok ())) :
    (PodPhase.ofValue (Verdict.phaseOf event)).isFinal := by
  rw [isFinal_ofValue, decide_eq_true_iff]
  rw [Verdict.podFinished] at h
  split at h
  · cases h
  · split at h
    · assumption
    · cases h

end Watch

namespace Client

open Session

variable {client : Client} {s s' : State}

theorem onlyPod_eq_ok {refs : RefSet} {ref : Ref} (h : onlyPod refs = .ok ref) :
    refs = [ref] ∧ ref.kind = .text "Pod" := by
  unfold onlyPod at h
  split at h
  · split at h
    · rename_i isPod
      cases h
      exact ⟨rfl, Value.eq_text_of_sameKey isPod⟩
    · cases h
  · cases h

/-- The phase that is returned is that of the pod which the cluster has when the watch is over. The
manifest has this pod alone, and its watch was ended by an event that showed a final phase. So
the phase is final if the pod is still in the phase that was shown; if others have changed the
pod since, or have put another one in its place, it is final exactly if the phase of what they
have put there is. -/
theorem completed_phase_is_stored (client : Client) (space : Value) (source : Manifest.Source)
    (timeout : Value) (s s' : State) (phase : PodPhase)
    (run : (client.completedPodPhase space source timeout).on s = (.ok phase, s')) :
    ∃ ref event version limit now pod,
      Manifest.build true s.discovery space source = .ok [ref] ∧
      ref.kind = .text "Pod" ∧
      Watch.WatchRun ref (.podFinished ref) "watch pod" (client.timeoutOr timeout) version limit s
        (.ok event, now) ∧
      (PodPhase.ofValue (Watch.Verdict.phaseOf event)).isFinal ∧
      now.store.get? (.ofRef ref) = some pod ∧ s'.store = now.store ∧
      s'.calls = s.calls ++ [.watch (.ofRef ref) version limit, .stop, .get (.ofRef ref)] ∧
      phase = .ofValue ((pod.field "status").field "phase") ∧
      ((pod.field "status").field "phase" = Watch.Verdict.phaseOf event → phase.isFinal) := by
  obtain ⟨refs, s₁, hbuild, chosen⟩ := on_bind_eq_ok.mp run
  obtain ⟨built, -, rfl⟩ := on_buildSome_eq_ok.mp hbuild
  obtain ⟨ref, only, watching⟩ := on_bind_ofExcept_eq_ok.mp chosen
  obtain ⟨rfl, isPod⟩ := onlyPod_eq_ok only
  obtain ⟨event, now, hwatch, reading⟩ := on_bind_eq_ok.mp watching
  obtain ⟨version, limit, watched⟩ :=
    Watch.watchRun_of_event (Watch.describes_podFinished ref) hwatch
  have final := Watch.isFinal_phaseOf watched.verdict_eq
  obtain ⟨sent, last, hget, judging⟩ := on_bind_eq_ok.mp reading
  obtain ⟨found, hphase, given⟩ := on_bind_ofFault_eq_ok.mp judging
  obtain ⟨same, rfl⟩ := Prod.mk.inj given
  obtain rfl := Except.ok.inj same
  rw [refresh, on_bind, on_call] at hget
  have called := Cluster.called_get (.ofRef ref) now
  rcases hreply : Cluster.get (.ofRef ref) now with ⟨refusal | pod, answered⟩
  · rw [hreply] at hget
    cases hget
  · rw [hreply] at hget called
    obtain ⟨refreshed, rfl⟩ := Prod.mk.inj hget
    obtain rfl := Except.ok.inj refreshed
    obtain rfl := Readiness.nested_eq_ok hphase
    refine ⟨ref, event, version, limit, now, pod, built, isPod, watched, final,
      Cluster.get_eq_ok hreply, called.store_eq, ?_, rfl, fun same => ?_⟩
    · rw [called.calls, watched.calls_eq, List.append_assoc]
      rfl
    · rw [Ref.body_refresh, same]
      exact final

/-- A manifest with a pod. -/
def hookText : String := "apiVersion: v1\nkind: Pod\nmetadata:\n  name: hook\n"

/-- The pod in some phase. -/
def hookPod (phase : String) : Value := .map [(.text "kind", .text "Pod"),
  (.text "metadata", .map [(.text "name", .text "hook"), (.text "namespace", .text "default")]),
  (.text "status", .map [(.text "phase", .text phase)])]

/-- A cluster on which the pod has succeeded. Before the watch tells of that, other clients make
some changes. -/
def hookCluster (changes : List Cluster.Change) : State where
  store := [(⟨.text "Pod", .text "default", .text "hook"⟩, hookPod "Succeeded")]
  streams := [("Pod/hook", [.event changes (some (.text "MODIFIED", hookPod "Succeeded", .raw))])]

theorem exists_of_toOption {run : Except Failure α × State} {a : α}
    (h : run.1.toOption = some a) : ∃ s', run = (.ok a, s') :=
  ⟨run.2, Prod.ext (toOption_eq_some_iff.mp h) rfl⟩

/-- The phase of a pod that is left alone is the one that ended the watch. -/
theorem completed_phase_of_hook : ∃ s' ref event version limit now pod,
    (({} : Client).completedPodPhase .null (.text hookText) .null).on (hookCluster []) =
      (.ok .succeeded, s') ∧
    Watch.WatchRun ref (.podFinished ref) "watch pod" (.int 300) version limit (hookCluster [])
      (.ok event, now) ∧
    (PodPhase.ofValue (Watch.Verdict.phaseOf event)).isFinal ∧
    now.store.get? (.ofRef ref) = some pod ∧
    PodPhase.succeeded = .ofValue ((pod.field "status").field "phase") := by
  have returned : ((({} : Client).completedPodPhase .null (.text hookText) .null).on
      (hookCluster [])).1.toOption = some .succeeded := by decide +kernel
  obtain ⟨s', run⟩ := exists_of_toOption returned
  obtain ⟨ref, event, version, limit, now, pod, -, -, watched, final, stored, -, -, phase, -⟩ :=
    completed_phase_is_stored {} .null (.text hookText) .null (hookCluster []) s' .succeeded run
  exact ⟨s', ref, event, version, limit, now, pod, run, watched, final, stored, phase⟩

/-- Where another pod has taken the name of the one that has succeeded, the phase of the new pod
is returned, which need not be final. -/
theorem replaced_pod_gives_pending :
    ¬ ∀ (client : Client) (space : Value) (source : Manifest.Source) (timeout : Value)
      (s s' : State) (phase : PodPhase),
      (client.completedPodPhase space source timeout).on s = (.ok phase, s') →
        phase = .succeeded ∨ phase = .failed := by
  intro terminal
  have returned : ((({} : Client).completedPodPhase .null (.text hookText) .null).on
      (hookCluster [.put (hookPod "Pending")])).1.toOption = some .pending := by decide +kernel
  obtain ⟨s', run⟩ := exists_of_toOption returned
  rcases terminal {} .null (.text hookText) .null _ s' .pending run with h | h <;> cases h

end Client

end Reconciler
