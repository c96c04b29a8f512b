import Reconciler.Proofs.Readiness.Checking
import Reconciler.Readiness.Wait
import Mathlib.Algebra.Order.Field.Rat
import Mathlib.Tactic.Linarith
import Mathlib.Tactic.Ring

/-!
# How a wait goes

A wait checks all objects at its start and then after each interval. A check that finds all
objects ready ends it, and so does a check that fails. All others find something pending, and
the first of these at which the time is over is the last check of the wait. The cluster may
change in any way between two checks. How many checks a wait may make at most has no part in this:
a wait to which its checks are enough goes the same way with more of them.
-/

namespace Reconciler.Readiness

open Cluster (State)
open Session

/-! ### The checks of a wait -/

section

variable (refs : RefSet) (pause : Double) (s : State)

/-- The cluster as each check of a set sees it, if one check follows another at an interval. -/
def checkpoint : Nat → State
  | 0 => s
  | k + 1 => ((unready refs).on (checkpoint k)).2.sleep pause

/-- What each check finds, and the cluster as it leaves it. -/
def checkAt (k : Nat) : Except Failure (List String) × State :=
  (unready refs).on (checkpoint refs pause s k)

/-- A check finds objects that are not ready. -/
def FindsPending (k : Nat) : Prop := ∃ names, names ≠ [] ∧ (checkAt refs pause s k).1 = .ok names

end

variable {refs : RefSet} {pause seconds : Double} {s : State} {t d : Rat}

theorem meets_unready {contract : Contract} (permits : contract.PermitsChecks) (refs : RefSet) :
    (unready refs).Meets contract :=
  meets_bind (meets_pending permits refs) fun _ => meets_pure _

theorem clock_sleep (hd : pause.toRat? = some d) (s : State) :
    (s.sleep pause).clock = s.clock + d := by
  rw [State.sleep, (Contract.calls_applyAll _ _).2.2, hd]
  rfl

/-- Time passes only between the checks. -/
theorem clock_checkpoint (refs : RefSet) (hd : pause.toRat? = some d) (s : State) (k : Nat) :
    (checkpoint refs pause s k).clock = s.clock + k * d := by
  induction k with
  | zero => simp [checkpoint]
  | succ k ih =>
    have still := (meets_unready Contract.permitsChecks_checking refs
      (checkpoint refs pause s k)).1.2.1
    rw [checkpoint, clock_sleep hd, still, ih]
    push_cast
    ring

theorem clock_checkAt (refs : RefSet) (hd : pause.toRat? = some d) (s : State) (k : Nat) :
    (checkAt refs pause s k).2.clock = s.clock + k * d := by
  have still := (meets_unready Contract.permitsChecks_checking refs
    (checkpoint refs pause s k)).1.2.1
  rw [checkAt, still, clock_checkpoint refs hd]

/-! ### The last check -/

/-- The number of the check at which the time of a wait is over. -/
def lastCheck (t d : Rat) : Nat := (t / d).ceil.toNat

theorem mul_lt_of_lt_lastCheck (positive : 0 < d) {k : Nat} (h : k < lastCheck t d) :
    k * d < t := by
  have below : (k : Int) < (t / d).ceil := by
    unfold lastCheck at h
    omega
  exact (lt_div_iff₀ positive).mp (by exact_mod_cast Rat.lt_ceil_iff.mp below)

theorem le_lastCheck_mul (positive : 0 < d) (t : Rat) : t ≤ lastCheck t d * d := by
  have above : ((t / d).ceil : Rat) ≤ (lastCheck t d : Rat) := by
    exact_mod_cast Int.self_le_toNat (t / d).ceil
  exact (div_le_iff₀ positive).mp (Rat.le_ceil.trans above)

theorem lastCheck_of_nonpos (positive : 0 < d) (h : t ≤ 0) : lastCheck t d = 0 := by
  refine Int.toNat_of_nonpos (Rat.ceil_le_iff.mpr ?_)
  exact_mod_cast div_nonpos_of_nonpos_of_nonneg h positive.le

theorem lastCheck_mul_lt (positive : 0 < d) (h : 0 < t) : lastCheck t d * d < t + d := by
  have ahead : 0 < (t / d).ceil := Rat.lt_ceil_iff.mpr (by exact_mod_cast div_pos h positive)
  have whole : (lastCheck t d : Rat) = ((t / d).ceil : Rat) := by
    exact_mod_cast Int.toNat_of_nonneg ahead.le
  have below : (lastCheck t d : Rat) < t / d + 1 := whole ▸ Rat.ceil_lt
  calc (lastCheck t d : Rat) * d < (t / d + 1) * d := mul_lt_mul_of_pos_right below positive
    _ = t + d := by rw [add_mul, div_mul_cancel₀ t positive.ne', one_mul]

theorem intervalsUntil?_eq (ht : seconds.toRat? = some t) (hd : pause.toRat? = some d)
    (positive : 0 < d) : intervalsUntil? seconds pause = some (lastCheck t d) := by
  have exact : intervalsUntil? seconds pause =
      if t ≤ 0 then some 0
      else if 0 < d then some (t / d).ceil.toNat
      else none := by
    unfold intervalsUntil?
    split
    · cases ht
    · cases ht
    · cases hd
    · rw [ht, hd]
  rw [exact, if_pos positive]
  split
  · rename_i h
    rw [lastCheck_of_nonpos positive h]
  · rfl

theorem isOver_eq (ht : seconds.toRat? = some t) (elapsed : Rat) :
    isOver seconds elapsed = decide (t ≤ elapsed) := by
  unfold isOver
  split
  · cases ht
  · cases ht
  · rw [ht]
    rfl

/-- A pause with an end leaves a timeout as it is. -/
theorem timeoutAfter_eq (hd : pause.toRat? = some d) (seconds : Double) :
    timeoutAfter pause seconds = seconds := by
  cases pause with
  | finite => rfl
  | nan | infinite => cases hd

/-! ### From check to check -/

/-- A wait makes a check. If something is pending then, it ends when its time is over, and
otherwise goes on after an interval. -/
theorem on_poll_succ (seconds pause : Double) (start : Rat) (checks : Nat) (refs : RefSet)
    (s : State) : (poll seconds pause start (checks + 1) refs).on s =
      match (pending refs).on s with
      | (.ok (seen, names), s) =>
        if names.isEmpty || isOver seconds (s.clock - start) then (.ok (some (seen, names)), s)
        else (poll (timeoutAfter pause seconds) pause start checks seen).on (s.sleep pause)
      | (.error failure, s) => (.error failure, s) := by
  rw [poll, on_bind]
  rcases (pending refs).on s with ⟨failure | ⟨seen, names⟩, s₁⟩
  · rfl
  · dsimp only
    cases names.isEmpty with
    | true => rfl
    | false =>
      rw [if_neg Bool.false_ne_true, on_bind, on_state, Bool.false_or]
      dsimp only
      split
      · rfl
      · rw [on_bind, on_change]

/-- What a wait does depends on how many checks it may make only if these are not enough. The
induction is on the smaller number. -/
theorem on_poll_of_enough {start : Rat} {checks more : Nat} (le : checks ≤ more)
    (enough : ((poll seconds pause start checks refs).on s).1 ≠ .ok none) :
    (poll seconds pause start more refs).on s = (poll seconds pause start checks refs).on s := by
  induction checks generalizing seconds refs s more with
  | zero => exact absurd rfl enough
  | succ checks ih =>
    obtain ⟨others, rfl⟩ : ∃ others, more = others + 1 := ⟨more - 1, by omega⟩
    rw [on_poll_succ] at enough ⊢
    rw [on_poll_succ]
    generalize (pending refs).on s = checked at enough ⊢
    obtain ⟨failure | ⟨seen, names⟩, s₁⟩ := checked
    · rfl
    · dsimp only at enough ⊢
      split
      · rfl
      · rename_i goesOn
        rw [if_neg goesOn] at enough
        exact ih (by omega) enough

/-- The references that a wait has read change nothing in what its checks find. -/
theorem on_poll_unready (hd : pause.toRat? = some d) (seconds : Double) (start : Rat)
    (found : RefSet) (s : State) (checks : Nat) :
    ∃ seen : RefSet, seen.map Ref.bare = found.map Ref.bare ∧
      (poll seconds pause start (checks + 1) found).on s =
        match (unready found).on s with
        | (.ok names, s) =>
          if names.isEmpty || isOver seconds (s.clock - start) then (.ok (some (seen, names)), s)
          else (poll seconds pause start checks seen).on (s.sleep pause)
        | (.error failure, s) => (.error failure, s) := by
  obtain ⟨seen, hseen, checked⟩ := on_pending found s
  refine ⟨seen, hseen, ?_⟩
  rw [on_poll_succ, checked, timeoutAfter_eq hd]
  rcases (unready found).on s with ⟨failure | names, s₁⟩ <;> rfl

/-- A run of checks that begins with one of them ends with another one, at most the last. -/
structure EndsAt (refs : RefSet) (pause : Double) (s : State) (last first n : Nat)
    (run : Except Failure (Option (RefSet × List String)) × State) : Prop where
  reached : n ≤ last
  onward : first ≤ n
  before : ∀ k, first ≤ k → k < n → FindsPending refs pause s k
  settled : FindsPending refs pause s n → n = last
  outcome : ∃ kept, run =
    ((checkAt refs pause s n).1.map fun names => some (kept, names), (checkAt refs pause s n).2)

/-- A wait goes on exactly as long as its checks find something pending, but not beyond the one at
which its time is over. The number of checks that it may make has no part in this, if only it is
greater. The induction is on that number. -/
theorem exists_endsAt_poll (ht : seconds.toRat? = some t) (hd : pause.toRat? = some d)
    {last : Nat} (early : ∀ k : Nat, k < last → k * d < t) (ended : t ≤ last * d)
    (checks first : Nat) (reached : first ≤ last) (enough : last < first + checks)
    {found : RefSet} (hfound : found.map Ref.bare = refs.map Ref.bare) :
    ∃ n, EndsAt refs pause s last first n
      ((poll seconds pause s.clock checks found).on (checkpoint refs pause s first)) := by
  induction checks generalizing first found with
  | zero => omega
  | succ checks ih =>
    have clock := clock_checkAt refs hd s first
    obtain ⟨seen, hseen, run⟩ := on_poll_unready hd seconds s.clock found
      (checkpoint refs pause s first) checks
    rw [unready_congr hfound, ← checkAt] at run
    by_cases pending : FindsPending refs pause s first
    · obtain ⟨names, nonempty, hcheck⟩ := pending
      obtain ⟨name, more, rfl⟩ := List.exists_cons_of_ne_nil nonempty
      rw [← Prod.mk.eta (p := checkAt refs pause s first), hcheck] at run
      dsimp only at run
      rw [List.isEmpty_cons, Bool.false_or, clock, add_sub_cancel_left, isOver_eq ht] at run
      rcases Nat.eq_or_lt_of_le reached with rfl | before
      · rw [if_pos (decide_eq_true ended)] at run
        refine ⟨first, le_refl _, le_refl _, fun k _ _ => by omega, fun _ => rfl, seen, ?_⟩
        rw [run, hcheck]
        rfl
      · -- The wait goes on with the references as they were read, but its checks list the same.
        have notOver : ¬decide (t ≤ first * d) = true := by simpa using early first before
        rw [if_neg notOver] at run
        obtain ⟨n, reached, onward, before, settled, outcome⟩ :=
          ih (first + 1) before (by omega) (hseen.trans hfound)
        refine ⟨n, reached, by omega, fun k hk hn => ?_, settled, run ▸ outcome⟩
        rcases Nat.eq_or_lt_of_le hk with rfl | hk
        · exact ⟨name :: more, nonempty, hcheck⟩
        · exact before k hk hn
    · refine ⟨first, reached, le_refl _, fun k _ _ => by omega, fun found => ?_, seen, ?_⟩
      · exact (pending found).elim
      · rw [run]
        split
        · rename_i names s₁ hcheck
          have ready : names = [] := by
            by_contra nonempty
            exact pending ⟨names, nonempty, by rw [hcheck]⟩
          rw [hcheck, ready]
          rfl
        · rename_i hcheck
          rw [hcheck]
          rfl

/-! ### The whole wait -/

theorem not_findsPending_of_ready {k : Nat} (h : (checkAt refs pause s k).1 = .ok []) :
    ¬FindsPending refs pause s k := by
  rintro ⟨names, nonempty, found⟩
  exact nonempty (Except.ok.inj (found.symm.trans h))

theorem not_findsPending_of_failed {k : Nat} {failure : Failure}
    (h : (checkAt refs pause s k).1 = .error failure) : ¬FindsPending refs pause s k := by
  rintro ⟨names, -, found⟩
  cases found.symm.trans h

/-- The three ways in which a wait may go. -/
inductive WaitRun (refs : RefSet) (timeout : Value) (t d : Rat) (pause : Double) (s : State)
    (run : Except Failure RefSet × State) : Prop
  /-- It returns with the first check that finds all objects ready. -/
  | returned (n : Nat) (reached : n ≤ lastCheck t d)
    (before : ∀ k < n, FindsPending refs pause s k) (ready : (checkAt refs pause s n).1 = .ok [])
    (found : RefSet) (outcome : run = (.ok found, (checkAt refs pause s n).2))
  /-- It fails with the first check that fails, in the same way. -/
  | failed (n : Nat) (reached : n ≤ lastCheck t d)
    (before : ∀ k < n, FindsPending refs pause s k) (failure : Failure)
    (broken : (checkAt refs pause s n).1 = .error failure)
    (outcome : run = (.error failure, (checkAt refs pause s n).2))
  /-- All checks up to the last find something pending. It fails at the last one, at which its
  time is over for less than an interval, with the names that this check finds. -/
  | timedOut (before : ∀ k ≤ lastCheck t d, FindsPending refs pause s k) (names : List String)
    (pending : names ≠ []) (last : (checkAt refs pause s (lastCheck t d)).1 = .ok names)
    (outcome : run = (.error (.ofCause (.notReady timeout names)),
      (checkAt refs pause s (lastCheck t d)).2))
    (elapsed : s.clock + t ≤ run.2.clock)
    (inInterval : 0 < t → run.2.clock < s.clock + t + d)
    (atOnce : t ≤ 0 → run.2.clock = s.clock)

theorem waitRun_wait {timeout interval : Value} (hseconds : secondsOf timeout = .ok seconds)
    (ht : seconds.toRat? = some t) (hpause : secondsOf interval = .ok pause)
    (hd : pause.toRat? = some d) (positive : 0 < d) (refs : RefSet) (s : State) :
    WaitRun refs timeout t d pause s ((wait refs timeout interval).on s) := by
  obtain ⟨n, ends⟩ : ∃ n, EndsAt refs pause s (lastCheck t d) 0 n
      ((poll seconds pause s.clock (lastCheck t d + 1) refs).on s) :=
    exists_endsAt_poll ht hd (fun k hk => mul_lt_of_lt_lastCheck positive hk)
      (le_lastCheck_mul positive t) (lastCheck t d + 1) 0 (Nat.zero_le _) (by omega) rfl
  obtain ⟨kept, polled⟩ := ends.outcome
  have before : ∀ k < n, FindsPending refs pause s k := fun k hk => ends.before k k.zero_le hk
  have started : (wait refs timeout interval).on s =
      (poll seconds pause s.clock (lastCheck t d + 1) refs >>= finish timeout).on s := by
    rw [wait, on_bind_ofFault hseconds, on_bind_ofFault hpause, on_bind, on_state]
    dsimp only
    rw [intervalsUntil?_eq ht hd positive, Option.getD_some]
  rw [started, on_bind, polled]
  rcases hcheck : (checkAt refs pause s n).1 with failure | names
  · exact .failed n ends.reached before failure hcheck rfl
  · cases names with
    | nil => exact .returned n ends.reached before hcheck kept rfl
    | cons name more =>
      have pending : FindsPending refs pause s n := ⟨name :: more, List.cons_ne_nil _ _, hcheck⟩
      have last := ends.settled pending
      have clock := clock_checkAt refs hd s n
      rw [last] at before hcheck pending clock ⊢
      refine .timedOut (fun k hk => ?_) (name :: more) (List.cons_ne_nil _ _) hcheck rfl ?_
        (fun h => ?_) fun h => ?_
      · rcases Nat.lt_or_eq_of_le hk with hk | rfl
        · exact before k hk
        · exact pending
      · have := le_lastCheck_mul positive t
        change _ ≤ (checkAt refs pause s (lastCheck t d)).2.clock
        linarith
      · have := lastCheck_mul_lt positive h
        change (checkAt refs pause s (lastCheck t d)).2.clock < _
        linarith
      · change (checkAt refs pause s (lastCheck t d)).2.clock = _
        rw [clock, lastCheck_of_nonpos positive h]
        simp

/-- What is known of a wait from its checks. -/
structure WaitLaw (refs : RefSet) (timeout : Value) (t d : Rat) (pause : Double) (s : State)
    (run : Except Failure RefSet × State) : Prop where
  /-- The checks take place at the start and then after each interval. -/
  onTime : ∀ k : Nat, (checkpoint refs pause s k).clock = s.clock + k * d
  /-- The wait returns, or a check fails, or its time is over. -/
  outcome : WaitRun refs timeout t d pause s run
  /-- It returns exactly if some check finds all objects ready, and none fails up to it. -/
  returns_iff : (∃ found, run.1 = .ok found) ↔ ∃ k ≤ lastCheck t d,
    (checkAt refs pause s k).1 = .ok [] ∧
      ∀ j ≤ k, ∀ failure, (checkAt refs pause s j).1 ≠ .error failure
  /-- There is no timeout if all objects become ready in time and stay ready. -/
  inTime : ∀ due ≤ s.clock + t, (∀ k : Nat, k ≤ lastCheck t d → due ≤ s.clock + k * d →
    (checkAt refs pause s k).1 = .ok []) → ∀ failure, run.1 = .error failure → ¬failure.IsTimeout
  /-- A refused call in a check that is made ends the wait with that check. -/
  refused : ∀ n ≤ lastCheck t d, (∀ k < n, FindsPending refs pause s k) →
    ∀ ref, IsRefusedAt refs (checkpoint refs pause s n) ref →
      ∃ cause, cause.category = .clusterApi ∧
        run = (.error (.about ref cause), (checkAt refs pause s n).2)
  /-- On well-formed clusters checks fail in no other way. -/
  onlyRefused : (∀ ref ∈ refs, ref.isTyped) → ∀ n,
    (checkpoint refs pause s n).IsWellFormed → ∀ failure,
    (checkAt refs pause s n).1 = .error failure →
      ∃ ref, IsRefusedAt refs (checkpoint refs pause s n) ref

theorem isImmediate_of_checkAt {k : Nat} {failure : Failure}
    (h : (checkAt refs pause s k).1 = .error failure) : failure.IsImmediate :=
  (meets_unready Contract.permitsChecks_checking refs (checkpoint refs pause s k)).2 failure h

variable {timeout : Value} {run : Except Failure RefSet × State}

theorem WaitRun.returns_iff (h : WaitRun refs timeout t d pause s run) :
    (∃ found, run.1 = .ok found) ↔ ∃ k ≤ lastCheck t d, (checkAt refs pause s k).1 = .ok [] ∧
      ∀ j ≤ k, ∀ failure, (checkAt refs pause s j).1 ≠ .error failure := by
  cases h with
  | returned n reached before ready found outcome =>
    refine ⟨fun _ => ⟨n, reached, ready, fun j hj failure broken => ?_⟩, fun _ => ⟨found, ?_⟩⟩
    · rcases Nat.lt_or_eq_of_le hj with hj | rfl
      · exact not_findsPending_of_failed broken (before j hj)
      · cases ready.symm.trans broken
    · rw [outcome]
  | failed n reached before failure broken outcome =>
    rw [outcome]
    refine ⟨nofun, fun ⟨k, hk, ready, sound⟩ => ?_⟩
    rcases Nat.lt_or_ge k n with early | late
    · exact (not_findsPending_of_ready ready (before k early)).elim
    · exact (sound n late failure broken).elim
  | timedOut before names pending last outcome =>
    rw [outcome]
    refine ⟨nofun, fun ⟨k, hk, ready, _⟩ => ?_⟩
    exact (not_findsPending_of_ready ready (before k hk)).elim

theorem WaitRun.not_isTimeout (h : WaitRun refs timeout t d pause s run)
    (ready : (checkAt refs pause s (lastCheck t d)).1 = .ok []) {failure : Failure}
    (hrun : run.1 = .error failure) : ¬failure.IsTimeout := by
  cases h with
  | returned n reached before ready found outcome =>
    rw [outcome] at hrun
    cases hrun
  | failed n reached before other broken outcome =>
    rw [outcome] at hrun
    cases hrun
    exact (isImmediate_of_checkAt broken).not_isTimeout
  | timedOut before names pending last outcome =>
    exact (not_findsPending_of_ready ready (before _ (le_refl _))).elim

/-- A wait goes no further than the first check that fails. -/
theorem WaitRun.eq_of_failed (h : WaitRun refs timeout t d pause s run) {n : Nat}
    (reached : n ≤ lastCheck t d) (before : ∀ k < n, FindsPending refs pause s k)
    {failure : Failure} (broken : (checkAt refs pause s n).1 = .error failure) :
    run = (.error failure, (checkAt refs pause s n).2) := by
  have idle := not_findsPending_of_failed broken
  cases h with
  | returned m _ earlier ready found outcome =>
    rcases Nat.lt_trichotomy m n with early | rfl | late
    · exact (not_findsPending_of_ready ready (before m early)).elim
    · cases ready.symm.trans broken
    · exact (idle (earlier n late)).elim
  | failed m _ earlier other ends outcome =>
    rcases Nat.lt_trichotomy m n with early | rfl | late
    · exact (not_findsPending_of_failed ends (before m early)).elim
    · cases ends.symm.trans broken
      exact outcome
    · exact (idle (earlier n late)).elim
  | timedOut earlier names pending last outcome =>
    exact (idle (earlier n reached)).elim

/-- A wait with a finite timeout and a positive interval is determined by its checks, however
the cluster changes between them. -/
theorem waitLaw_wait {timeout interval : Value} (hseconds : secondsOf timeout = .ok seconds)
    (ht : seconds.toRat? = some t) (hpause : secondsOf interval = .ok pause)
    (hd : pause.toRat? = some d) (positive : 0 < d) (refs : RefSet) (s : State) :
    WaitLaw refs timeout t d pause s ((wait refs timeout interval).on s) := by
  have run := waitRun_wait hseconds ht hpause hd positive refs s
  refine ⟨clock_checkpoint refs hd s, run, run.returns_iff, ?_, ?_, ?_⟩
  · intro due hdue stays failure hfailure
    refine run.not_isTimeout (stays _ (le_refl _) ?_) hfailure
    have := le_lastCheck_mul positive t
    linarith
  · intro n reached before ref refused
    obtain ⟨cause, category, broken⟩ := refused.on_unready
    exact ⟨cause, category, run.eq_of_failed reached before broken⟩
  · intro typed n wellFormed failure broken
    exact isRefusedAt_of_on_unready wellFormed typed broken

/-- A cluster with a pod that becomes ready after two intervals. -/
def startingCluster : State :=
  { sampleCluster [samplePod "web" [] "False"] with
    ticks := [[], [.put (samplePod "web" [] "True")]] }

/-- A pod that becomes ready just when the time is over is not too late. -/
theorem waitLaw_wait_web :
    let refs := [sampleRef "v1" "Pod" "web"]
    let run := (wait refs (.int 4) (.int 2)).on startingCluster
    WaitLaw refs (.int 4) 4 2 (.finite false 4503599627370496 (-51)) startingCluster run ∧
      run.1.isOk ∧ run.2.clock = 4 := by
  have seconds : secondsOf (.int 4) = .ok (.finite false 4503599627370496 (-50)) := rfl
  refine ⟨?_, by decide +kernel, by decide +kernel⟩
  exact waitLaw_wait seconds (by decide +kernel) rfl (by decide +kernel) (by decide)
    [sampleRef "v1" "Pod" "web"] startingCluster

end Reconciler.Readiness
