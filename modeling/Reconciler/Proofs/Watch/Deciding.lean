import Reconciler.Proofs.Readiness.Reading
import Reconciler.Proofs.Session
import Reconciler.Proofs.Watch.Verdict

/-!
# Watches end at the first event that decides them

A watch goes through what happens until an event decides it, the server ends it with an error,
or nothing more happens. What comes later makes no difference, neither to the result nor to the
cluster. In each case the watch is stopped once. The same law is proved for the watch of an object
that is to be there and for that of a pod that is to come to its end.
-/

namespace Reconciler

open Cluster (State StreamItem Change Rule)

namespace Watch

open Session

variable {ref : Ref} {verdict : Verdict} {milestone : Milestone} {doing : String} {s : State}

/-- The changes that come with something that happens. -/
def changesOf : StreamItem → List Change
  | .event changes _ => changes
  | .broken changes _ => changes

/-- What happens is well-formed if an event that is delivered is. -/
def IsWellFormedItem : StreamItem → Prop
  | .event _ (some (type, object, _)) => IsWellFormed type object
  | .event _ none => True
  | .broken _ _ => True

/-- Something that does not end a watch: no event, or one that does not decide it. -/
inductive Passes (ref : Ref) (verdict : Verdict) : StreamItem → Prop
  | silent (changes : List Change) : Passes ref verdict (.event changes none)
  | undecided {changes type object delivery event}
      (delivered : Event.of ref type object delivery = .ok event) (silent : verdict event = none) :
      Passes ref verdict (.event changes (some (type, object, delivery)))

/-- How a watch ends that goes by a verdict: what it has looked at of all that happens, and what
it gives, which is no event if it has looked at everything. -/
inductive Ends (ref : Ref) (verdict : Verdict) (doing : String) :
    (items seen : List StreamItem) → Except Failure (Option Event) → Prop
  | exhausted {items} (passed : ∀ item ∈ items, Passes ref verdict item) :
      Ends ref verdict doing items items (.ok none)
  | broken {front rest changes refusal} (passed : ∀ item ∈ front, Passes ref verdict item) :
      Ends ref verdict doing (front ++ .broken changes refusal :: rest)
        (front ++ [.broken changes refusal])
        (.error (.about ref (.watchRefused doing refusal.reason)))
  | decided {front rest changes type object delivery event result}
      (passed : ∀ item ∈ front, Passes ref verdict item)
      (delivered : Event.of ref type object delivery = .ok event)
      (decision : verdict event = some result) :
      Ends ref verdict doing (front ++ .event changes (some (type, object, delivery)) :: rest)
        (front ++ [.event changes (some (type, object, delivery))])
        (result.map fun _ => some event)

/-- What passes in front of a watch is looked at before it goes on. -/
theorem Ends.cons {item : StreamItem} {items seen : List StreamItem}
    {result : Except Failure (Option Event)} (first : Passes ref verdict item)
    (h : Ends ref verdict doing items seen result) :
    Ends ref verdict doing (item :: items) (item :: seen) result := by
  cases h with
  | exhausted passed => exact .exhausted (List.forall_mem_cons.mpr ⟨first, passed⟩)
  | @broken front rest changes refusal passed =>
    exact @Ends.broken _ _ _ (item :: front) _ _ _ (List.forall_mem_cons.mpr ⟨first, passed⟩)
  | @decided front _ _ _ _ _ _ _ passed delivered decision =>
    exact @Ends.decided _ _ _ (item :: front) _ _ _ _ _ _ _
      (List.forall_mem_cons.mpr ⟨first, passed⟩) delivered decision

theorem applyAll_append (s : State) (front back : List Change) :
    s.applyAll (front ++ back) = (s.applyAll front).applyAll back :=
  List.foldl_append

theorem on_follow_event (ref : Ref) (milestone : Milestone) (doing : String)
    (changes : List Change) {type object : Value} {delivery : Cluster.Delivery} {event : Event}
    (delivered : Event.of ref type object delivery = .ok event) (rest : List StreamItem)
    (s : State) :
    (follow ref milestone doing (.event changes (some (type, object, delivery)) :: rest)).on s =
      match milestone event with
      | .error failure => (.error failure, s.applyAll changes)
      | .ok true => (.ok (some event), s.applyAll changes)
      | .ok false => (follow ref milestone doing rest).on (s.applyAll changes) := by
  rw [follow, on_bind, on_change]
  dsimp only
  rw [on_bind_ofFault delivered, on_bind, on_ofExcept]
  cases milestone event with
  | error failure => rfl
  | ok isDecisive => cases isDecisive <;> rfl

/-- Following what happens leads to the end of the watch, with the changes of what has been
looked at and no others. -/
theorem exists_ends_follow (watchable : ref.IsWatchable) (rules : verdict.Rules milestone)
    (doing : String) (items : List StreamItem)
    (wellFormed : ∀ item ∈ items, IsWellFormedItem item) (s : State) :
    ∃ seen result, Ends ref verdict doing items seen result ∧
      (follow ref milestone doing items).on s = (result, s.applyAll (seen.flatMap changesOf)) := by
  induction items generalizing s with
  | nil => exact ⟨[], _, .exhausted nofun, rfl⟩
  | cons item rest ih =>
    obtain ⟨first, others⟩ := List.forall_mem_cons.mp wellFormed
    have goesOn : ∀ changes delivered, Passes ref verdict (.event changes delivered) →
        (follow ref milestone doing (.event changes delivered :: rest)).on s =
          (follow ref milestone doing rest).on (s.applyAll changes) →
        ∃ seen result, Ends ref verdict doing (.event changes delivered :: rest) seen result ∧
          (follow ref milestone doing (.event changes delivered :: rest)).on s =
            (result, s.applyAll (seen.flatMap changesOf)) := by
      intro changes delivered passes run
      obtain ⟨seen, result, ends, later⟩ := ih others (s.applyAll changes)
      refine ⟨.event changes delivered :: seen, result, ends.cons passes, ?_⟩
      rw [run, later, List.flatMap_cons, applyAll_append]
      rfl
    cases item with
    | broken changes refusal =>
      refine ⟨[.broken changes refusal], _, @Ends.broken _ _ _ [] _ _ _ nofun, ?_⟩
      rw [follow, on_bind, on_change, List.flatMap_singleton]
      rfl
    | event changes delivered =>
      cases delivered with
      | none => exact goesOn changes none (.silent changes) rfl
      | some delivered =>
        obtain ⟨type, object, delivery⟩ := delivered
        obtain ⟨event, hevent, -, same⟩ := exists_event watchable first delivery
        have ruled := rules event (same ▸ first.fits)
        have run := on_follow_event ref milestone doing changes hevent rest s
        cases hverdict : verdict event with
        | none =>
          rw [ruled, hverdict] at run
          exact goesOn changes _ (.undecided hevent hverdict) run
        | some result =>
          rw [ruled, hverdict] at run
          refine ⟨[.event changes (some (type, object, delivery))], _,
            @Ends.decided _ _ _ [] _ _ _ _ _ _ _ nofun hevent hverdict, ?_⟩
          rw [run, List.flatMap_singleton]
          cases result <;> rfl

/-! ### Runs of a watch -/

/-- A cluster after a watch of a reference has been called for, with the rules as they are then. -/
def opened (s : State) (ref : Ref) (version limit : Value) (rules : List Rule) : State :=
  { s.record (.watch (.ofRef ref) version limit) with rules }

/-- How a watch runs that goes by a verdict. The server may refuse it. If not, then the watch is
over when all that happens has passed, broken when the server ends it with an error, and decided
when an event decides it, each time with nothing but what passes before. -/
inductive WatchRun (ref : Ref) (verdict : Verdict) (doing : String) (timeout version limit : Value)
    (s : State) : Except Failure Event × State → Prop
  | refused {refusal rules}
      (h : Cluster.tryRules .watch ref.kind ref.name s.rules = (some refusal, rules)) :
      WatchRun ref verdict doing timeout version limit s
        (.error (.about ref (.watchRefused doing refusal.reason)),
          (opened s ref version limit rules).record .stop)
  | exhausted {rules} (h : Cluster.tryRules .watch ref.kind ref.name s.rules = (none, rules))
      (passed : ∀ item ∈ s.stream (.ofRef ref), Passes ref verdict item) :
      WatchRun ref verdict doing timeout version limit s
        (.error (.about ref (.watchTimeout timeout)),
          ((opened s ref version limit rules).applyAll
            ((s.stream (.ofRef ref)).flatMap changesOf)).record .stop)
  | broken {rules front rest changes refusal}
      (h : Cluster.tryRules .watch ref.kind ref.name s.rules = (none, rules))
      (split : s.stream (.ofRef ref) = front ++ .broken changes refusal :: rest)
      (passed : ∀ item ∈ front, Passes ref verdict item) :
      WatchRun ref verdict doing timeout version limit s
        (.error (.about ref (.watchRefused doing refusal.reason)),
          ((opened s ref version limit rules).applyAll
            (front.flatMap changesOf ++ changes)).record .stop)
  | decided {rules front rest changes type object delivery event result}
      (h : Cluster.tryRules .watch ref.kind ref.name s.rules = (none, rules))
      (split : s.stream (.ofRef ref) =
        front ++ .event changes (some (type, object, delivery)) :: rest)
      (passed : ∀ item ∈ front, Passes ref verdict item)
      (delivered : Event.of ref type object delivery = .ok event)
      (decision : verdict event = some result) :
      WatchRun ref verdict doing timeout version limit s
        (result.map fun _ => event,
          ((opened s ref version limit rules).applyAll
            (front.flatMap changesOf ++ changes)).record .stop)

/-- A watch that the server refuses fails with its reason. -/
theorem on_stream_of_refused (doing : String) {timeout version limit : Value}
    {refusal : ApiRefusal} {rules : List Rule}
    (hversion : ref.resourceVersion = .ok version) (hlimit : serverTimeout timeout = .ok limit)
    (h : Cluster.tryRules .watch ref.kind ref.name s.rules = (some refusal, rules)) :
    (stream ref timeout milestone doing).on s =
      (.error (.about ref (.watchRefused doing refusal.reason)),
        opened s ref version limit rules) := by
  have answer : Cluster.watch (.ofRef ref) version limit s =
      (.error refusal, opened s ref version limit rules) := Cluster.perform_of_refused h
  rw [stream, on_bind_ofFault hversion, on_bind_ofFault hlimit, on_bind, on_call, answer]
  rfl

/-- A watch that is accepted goes on with all that happens to its object. -/
theorem on_stream_of_accepted (doing : String) {timeout version limit : Value}
    {rules : List Rule}
    (hversion : ref.resourceVersion = .ok version) (hlimit : serverTimeout timeout = .ok limit)
    (h : Cluster.tryRules .watch ref.kind ref.name s.rules = (none, rules)) :
    (stream ref timeout milestone doing).on s =
      (follow ref milestone doing (s.stream (.ofRef ref))).on
        (opened s ref version limit rules) := by
  have answer : Cluster.watch (.ofRef ref) version limit s =
      (.ok (s.stream (.ofRef ref)), opened s ref version limit rules) :=
    Cluster.perform_of_accepted h
  rw [stream, on_bind_ofFault hversion, on_bind_ofFault hlimit, on_bind, on_call, answer]
  rfl

/-- However a watch ends, it is then stopped. -/
theorem on_untilMilestone (doing : String) (timeout : Value)
    {result : Except Failure (Option Event)} {s' : State}
    (h : (stream ref timeout milestone doing).on s = (result, s')) :
    (untilMilestone ref timeout milestone doing).on s =
      (result.bind fun event => event.elim (.error (.about ref (.watchTimeout timeout))) .ok,
        s'.record .stop) := by
  rw [untilMilestone, on_bind, on_thenAlways, h]
  obtain failure | ⟨_ | event⟩ := result <;> rfl

theorem watchRun_untilMilestone (watchable : ref.IsWatchable) (rules : verdict.Rules milestone)
    (doing : String) {timeout version limit : Value}
    (hversion : ref.resourceVersion = .ok version) (hlimit : serverTimeout timeout = .ok limit)
    (wellFormed : ∀ item ∈ s.stream (.ofRef ref), IsWellFormedItem item) :
    WatchRun ref verdict doing timeout version limit s
      ((untilMilestone ref timeout milestone doing).on s) := by
  cases h : Cluster.tryRules .watch ref.kind ref.name s.rules with | mk answer left =>
  cases answer with
  | some refusal =>
    rw [on_untilMilestone doing timeout (on_stream_of_refused doing hversion hlimit h)]
    exact .refused h
  | none =>
    obtain ⟨seen, result, ends, run⟩ := exists_ends_follow watchable rules doing _ wellFormed
      (opened s ref version limit left)
    have streamed := (on_stream_of_accepted doing hversion hlimit h).trans run
    rw [on_untilMilestone doing timeout streamed]
    generalize hitems : s.stream (.ofRef ref) = items at ends
    cases ends with
    | exhausted passed =>
      subst hitems
      exact .exhausted h passed
    | broken passed =>
      rw [List.flatMap_append, List.flatMap_singleton]
      exact .broken h hitems passed
    | @decided _ _ _ _ _ _ event decision passed delivered decided =>
      have given : (decision.map fun _ => some event).bind (fun found =>
          found.elim (.error (.about ref (.watchTimeout timeout))) .ok) =
            decision.map fun _ => event := by
        cases decision <;> rfl
      rw [List.flatMap_append, List.flatMap_singleton, given]
      exact .decided h hitems passed delivered decided

/-- However a watch ends, it has been called for and then stopped, once. -/
theorem WatchRun.calls_eq {doing : String} {timeout version limit : Value}
    {run : Except Failure Event × State}
    (h : WatchRun ref verdict doing timeout version limit s run) :
    run.2.calls = s.calls ++ [.watch (.ofRef ref) version limit, .stop] := by
  have stopped : ∀ (rules : List Rule) (changes : List Change),
      (((opened s ref version limit rules).applyAll changes).record .stop).calls =
        s.calls ++ [.watch (.ofRef ref) version limit, .stop] := by
    intro rules changes
    rw [State.calls_record, (Contract.calls_applyAll _ changes).1, opened, State.calls_record,
      List.append_assoc]
    rfl
  cases h with
  | refused => exact stopped _ []
  | exhausted => exact stopped _ _
  | broken => exact stopped _ _
  | decided => exact stopped _ _

/-! ### The two watches -/

/-- A timeout: none, or a finite number of seconds. -/
def IsTimeout : Value → Prop
  | .null | .bool _ | .int _ | .float (.finite ..) => True
  | _ => False

theorem exists_serverTimeout {timeout : Value} (h : IsTimeout timeout) :
    ∃ limit, serverTimeout timeout = .ok limit := by
  unfold serverTimeout
  cases htruthy : timeout.isTruthy with
  | false => exact ⟨.null, rfl⟩
  | true =>
    cases timeout with
    | null => cases htruthy
    | bool | int => exact ⟨_, rfl⟩
    | float seconds =>
      cases seconds with
      | finite => exact ⟨_, rfl⟩
      | nan | infinite => cases h
    | _ => cases h

/-- Whatever happens during a watch, the first event that decides it ends it, and if there is
none then it ends as the server ends it. The watch of an object goes by whether the object is
there, or for a job by its first final condition, and the watch of a pod by the phase of the
pod. Nothing after what decides is looked at, and each watch is stopped once. -/
theorem watches_end_at_first_decision (ref : Ref) (timeout : Value) (s : State)
    (watchable : ref.IsWatchable) (timed : IsTimeout timeout)
    (wellFormed : ∀ item ∈ s.stream (.ofRef ref), IsWellFormedItem item) :
    ∃ limit, serverTimeout timeout = .ok limit ∧
      (WatchRun ref (.deployed ref) "deploy" timeout ref.versionKnown limit s
          ((untilReady ref timeout).on s) ∧
        ((untilReady ref timeout).on s).2.calls =
          s.calls ++ [.watch (.ofRef ref) ref.versionKnown limit, .stop]) ∧
      WatchRun ref (.podFinished ref) "watch pod" timeout ref.versionKnown limit s
          ((podUntilComplete ref timeout).on s) ∧
        ((podUntilComplete ref timeout).on s).2.calls =
          s.calls ++ [.watch (.ofRef ref) ref.versionKnown limit, .stop] := by
  obtain ⟨limit, hlimit⟩ := exists_serverTimeout timed
  have hversion := watchable.resourceVersion_eq
  have ready := watchRun_untilMilestone watchable (rules_deployed ref) "deploy" hversion hlimit
    wellFormed
  have finished := watchRun_untilMilestone watchable (rules_podFinished ref) "watch pod" hversion
    hlimit wellFormed
  exact ⟨limit, hlimit, ⟨ready, ready.calls_eq⟩, finished, finished.calls_eq⟩

/-- A job of which a version is known. -/
def watchedJob : Ref where
  name := .text "hook"
  space := .text "default"
  kind := .text "Job"
  apiVersion := .text "batch/v1"
  body := .map [(.text "metadata", .map [(.text "resourceVersion", .text "10")])]

/-- The job in a state with the conditions given. -/
def jobWith (conditions : List Value) : Value := .map [
  (.text "metadata", .map [(.text "name", .text "hook"), (.text "namespace", .text "default")]),
  (.text "status", .map [(.text "conditions", .list conditions)])]

/-- A condition of a type, with whether it holds. -/
def conditionOf (type status : String) : Value := .map [
  (.text "type", .text type), (.text "status", .text status), (.text "reason", .text "Late")]

/-- The job is added, is then known to have failed and not to be complete, and is removed. -/
def jobEvents : List StreamItem := [
  .event [] (some (.text "ADDED", jobWith [], .raw)),
  .event [] (some (.text "BOOKMARK", jobWith [], .wrapped)),
  .event [] (some (.text "MODIFIED", jobWith [conditionOf "Complete" "False",
    conditionOf "Failed" "True", conditionOf "Complete" "True"], .raw)),
  .event [.remove ⟨.text "Job", .text "default", .text "hook"⟩]
    (some (.text "DELETED", jobWith [], .raw))]

/-- The failure of a job ends its watch before its removal is seen, and a watch of it as a pod
goes on to the removal. -/
theorem failed_job_ends_watch :
    watchedJob.IsWatchable ∧ (∀ item ∈ jobEvents, IsWellFormedItem item) ∧
      ∃ limit, serverTimeout (.int 30) = .ok limit ∧ limit = .int 30 ∧
        (WatchRun watchedJob (.deployed watchedJob) "deploy" (.int 30) (.text "10") limit
            { streams := [("Job/hook", jobEvents)] }
            ((untilReady watchedJob (.int 30)).on { streams := [("Job/hook", jobEvents)] }) ∧
          ((untilReady watchedJob (.int 30)).on { streams := [("Job/hook", jobEvents)] }).1 =
            .error (jobFailure ⟨.modified, "Job", "hook", some "default", []⟩ (.text "Late"))) ∧
        WatchRun watchedJob (.podFinished watchedJob) "watch pod" (.int 30) (.text "10") limit
            { streams := [("Job/hook", jobEvents)] }
            ((podUntilComplete watchedJob (.int 30)).on
              { streams := [("Job/hook", jobEvents)] }) ∧
          ((podUntilComplete watchedJob (.int 30)).on
            { streams := [("Job/hook", jobEvents)] }).1 = .error (.about watchedJob .podGone) := by
  have watchable : watchedJob.IsWatchable := ⟨rfl, rfl, rfl, rfl, rfl⟩
  have wellFormed : ∀ item ∈ jobEvents, IsWellFormedItem item := by
    intro item hitem
    simp only [jobEvents, List.mem_cons, List.not_mem_nil, or_false] at hitem
    obtain rfl | rfl | rfl | rfl := hitem
    · exact ⟨⟨.added, rfl⟩, rfl, rfl, rfl⟩
    · exact ⟨⟨.bookmark, rfl⟩, rfl, rfl, rfl⟩
    · exact ⟨⟨.modified, rfl⟩, rfl, rfl, rfl⟩
    · exact ⟨⟨.deleted, rfl⟩, rfl, rfl, rfl⟩
  refine ⟨watchable, wellFormed, ?_⟩
  obtain ⟨limit, hlimit, ⟨ready, -⟩, finished, -⟩ := watches_end_at_first_decision watchedJob
    (.int 30) { streams := [("Job/hook", jobEvents)] } watchable trivial wellFormed
  refine ⟨limit, hlimit, (Except.ok.inj hlimit).symm, ⟨ready, rfl⟩, finished, rfl⟩

end Watch

end Reconciler
