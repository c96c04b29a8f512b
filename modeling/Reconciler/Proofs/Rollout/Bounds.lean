import Reconciler.Proofs.Rollout.Total
import Reconciler.Proofs.Text.Digits
import Reconciler.Readiness.Predicate

/-!
# Budgets within the number of pods

However the two parameters of a rolling update are written, no more pods may be missing than are
wanted, and no more need to be ready. So a deployment whose pods are all ready is ready, and it
does not cease to be ready when more pods become ready. If both parameters mean numbers of pods,
then a rollout that may not do without a pod may add one.

Shares of pods are computed as binary numbers. So the number of pods must not be so large that a
quarter of it lies beyond these, where a rolling update leaves its parameters to the defaults.
-/

namespace Reconciler

namespace Text

theorem showsDigit_of_mem_digitChars {row : List Nat} (h : AreDigits row) {c : Char}
    (hc : c ∈ Double.digitChars row) : showsDigit c := by
  obtain ⟨digit, hmem, rfl⟩ := List.mem_map.mp hc
  rw [showsDigit, digitValue?_digitChar (h digit hmem)]
  rfl

theorem mem_of_mem_trim {text : List Char} {c : Char} (h : c ∈ trim text) : c ∈ text := by
  rw [trim, List.mem_reverse] at h
  have := (List.dropWhile_suffix _).subset h
  rw [List.mem_reverse] at this
  exact (List.dropWhile_suffix _).subset this

/-- A number is negative only if its text has a minus sign. -/
theorem readInteger_nonneg {text : List Char} {number : Int} (unsigned : '-' ∉ text)
    (h : readInteger text = some number) : 0 ≤ number := by
  rw [readInteger] at h
  split at h
  · rename_i heq
    exact absurd (mem_of_mem_trim (heq ▸ List.mem_cons_self)) unsigned
  all_goals
    obtain ⟨natural, -, rfl⟩ := Option.map_eq_some_iff.mp h
    exact Int.natCast_nonneg natural

end Text

namespace Rollout

open Form Text
open Double (digitChars)

/-! ### Parameters -/

/-- A parameter that means a number of pods of a given total: nothing, a number, a row of digits,
or a percentage whose product with the total is exact as a binary number. -/
inductive MeansPods (total : Int) : Value → Prop
  | nothing : MeansPods total .null
  | count (pods : Nat) : MeansPods total (.int pods)
  | digits {row : List Nat} (h : AreDigits row) (nonempty : row ≠ [])
      (short : row.length ≤ maxDigits) : MeansPods total (.text (String.ofList (digitChars row)))
  | percent {row : List Nat} (h : AreDigits row) (nonempty : row ≠ [])
      (short : row.length ≤ maxDigits) (exact : ofDigits row * total ≤ 2 ^ 53) :
      MeansPods total (.text (String.ofList (digitChars row ++ ['%'])))

/-- A parameter that the server does not refuse for being negative, and no percentage that is
written otherwise than in plain digits. -/
def IsPermitted (total : Int) (parameter : Value) : Prop :=
  MeansPods total parameter ∨ match parameter with
    | .int pods => 0 ≤ pods
    | .text text => text.toList.getLast? = some '%' → readInteger text.toList.dropLast = none
    | _ => True

/-- A parameter is read as a number of pods that is not negative. -/
def IsCounted (total : Int) (parameter : Value) : Prop :=
  ∃ pods, quantity parameter (.int total) true = .ok pods ∧ 0 ≤ pods

section

variable {total : Int} {parameter surge unavailable : Value} {row : List Nat}

theorem percentOf_nonneg {percent : Int} (nonneg : 0 ≤ percent * total)
    (modest : (percent * total).natAbs < overflow) :
    ∃ pods, percentOf percent total true = .ok pods ∧ 0 ≤ pods := by
  obtain ⟨significand, exponent, hshare⟩ := exists_hundredth modest
  rw [decide_eq_false (not_lt.mpr nonneg)] at hshare
  obtain ⟨pods, hpods, nonneg⟩ := Double.ceil?_nonneg significand exponent
  refine ⟨pods, ?_, nonneg⟩
  rw [percentOf, hshare]
  change Value.wholeOfDouble Double.ceil? (.finite false significand exponent) = .ok pods
  rw [Value.wholeOfDouble, hpods]

theorem readInteger_digitChars (h : AreDigits row) (nonempty : row ≠ [])
    (short : row.length ≤ maxDigits) :
    readInteger (digitChars row) = some (ofDigits row : Int) := by
  rw [readInteger_of_isDigit fun c hc => isDigit_of_mem_digitChars h hc,
    readNatural_digitChars h nonempty short]
  rfl

theorem isCounted_of_meansPods (nonneg : 0 ≤ total) (h : MeansPods total parameter) :
    IsCounted total parameter := by
  cases h with
  | nothing => exact ⟨0, rfl, le_rfl⟩
  | count pods => exact ⟨pods, rfl, Int.natCast_nonneg pods⟩
  | @digits row h nonempty short =>
    refine ⟨ofDigits row, ?_, Int.natCast_nonneg _⟩
    have last : (digitChars row).getLast? ≠ some '%' := by
      intro last
      have := isDigit_of_mem_digitChars h (List.mem_of_getLast? last)
      exact absurd this (by decide)
    have digits : (digitChars row).all showsDigit :=
      List.all_eq_true.mpr fun c hc => showsDigit_of_mem_digitChars h hc
    have filled : (digitChars row).isEmpty = false := by
      simpa [digitChars] using nonempty
    rw [quantity, quantityOfText, String.toList_ofList]
    rw [if_neg last, filled, digits, Value.wholeOfText, readInteger_digitChars h nonempty short]
    rfl
  | @percent row h nonempty short exact =>
    have product : 0 ≤ (ofDigits row : Int) * total := mul_nonneg (Int.natCast_nonneg _) nonneg
    have modest : ((ofDigits row : Int) * total).natAbs < overflow := by
      refine lt_of_le_of_lt ?_ (two_pow_lt_overflow (n := 53) (by decide))
      omega
    obtain ⟨pods, hpods, nonneg⟩ := percentOf_nonneg product modest
    refine ⟨pods, ?_, nonneg⟩
    rw [quantity, quantityOfText, String.toList_ofList]
    rw [if_pos (by simp), List.dropLast_concat, Value.wholeOfText,
      readInteger_digitChars h nonempty short]
    exact hpods

/-- A permitted parameter means a number of pods that is not negative, or it cannot be read. -/
theorem isCounted_or_unreadable (nonneg : 0 ≤ total) (h : IsPermitted total parameter) :
    IsCounted total parameter ∨
      ∃ fault, quantity parameter (.int total) true = .error fault ∧ isUnreadable fault := by
  rcases h with means | other
  · exact .inl (isCounted_of_meansPods nonneg means)
  cases parameter with
  | null => exact .inl ⟨0, rfl, le_rfl⟩
  | int pods => exact .inl ⟨pods, rfl, other⟩
  | text text =>
    rw [IsCounted, quantity, quantityOfText]
    split
    · rename_i percentage
      rw [Value.wholeOfText, other percentage]
      exact .inr ⟨.malformed, rfl, rfl⟩
    · split
      · rename_i digits
        rw [Bool.and_eq_true, List.all_eq_true] at digits
        have unsigned : '-' ∉ text.toList := fun hmem =>
          absurd (digits.2 '-' hmem) (by decide +kernel)
        rw [Value.wholeOfText]
        cases hread : readInteger text.toList with
        | some pods => exact .inl ⟨pods, rfl, readInteger_nonneg unsigned hread⟩
        | none => exact .inr ⟨.malformed, rfl, rfl⟩
      · exact .inr ⟨_, rfl, rfl⟩
  | _ => exact .inr ⟨_, rfl, rfl⟩

/-- What the two parameters allow is not negative. If both mean numbers of pods, then they allow
nothing only if pods may be added. -/
theorem exists_allowance
    (hsurge : IsCounted total surge ∨
      ∃ fault, quantity surge (.int total) true = .error fault ∧ isUnreadable fault)
    (hunavailable : IsCounted total unavailable ∨
      ∃ fault, quantity unavailable (.int total) true = .error fault ∧ isUnreadable fault) :
    ∃ allowed, allowance surge unavailable (.int total) = .ok allowed ∧ 0 ≤ allowed ∧
      (IsCounted total surge → IsCounted total unavailable → allowed = 0 →
        ∃ more, quantity surge (.int total) true = .ok more ∧ 0 < more) := by
  unfold allowance
  rcases hsurge with ⟨more, hmore, nonneg⟩ | ⟨fault, hfault, unreadable⟩
  · rcases hunavailable with ⟨fewer, hfewer, nonneg'⟩ | ⟨fault, hfault, unreadable⟩
    · rw [hmore, hfewer]
      refine ⟨if more + fewer = 0 then 1 else fewer, rfl, ?_, fun _ _ none => ⟨more, rfl, ?_⟩⟩
      · split
        · exact Int.one_nonneg
        · exact nonneg'
      · split at none
        · cases none
        · omega
    · rw [hmore, hfault]
      refine ⟨0, if_pos unreadable, le_rfl, fun _ counted => ?_⟩
      obtain ⟨_, hpods, -⟩ := counted
      rw [hfault] at hpods
      cases hpods
  · rw [hfault]
    refine ⟨0, if_pos unreadable, le_rfl, fun counted => ?_⟩
    obtain ⟨_, hpods, -⟩ := counted
    rw [hfault] at hpods
    cases hpods

end

/-! ### Deployments -/

/-- What a deployment must be for its budget to be computed. -/
def budgetForm : Form := record [
  ("spec", record [("strategy", record [("rollingUpdate", record [])])])]

/-- Whether a deployment's pods are updated a few at a time. -/
def rolls (deployment : Value) : Bool :=
  let strategy := (deployment.field "spec").field "strategy"
  ((Members.field? strategy.members "type").getD (.text "RollingUpdate")).equal false
    (.text "RollingUpdate")

/-- What a deployment says about its rolling update. -/
def rollingOf (deployment : Value) : Value :=
  ((deployment.field "spec").field "strategy").field "rollingUpdate"

/-- The parameters of a rolling update. -/
def parameterNames : List String := ["maxSurge", "maxUnavailable"]

/-- A parameter of a rolling update: the default, unless the update says anything. -/
def parameterOf (deployment : Value) (name : String) : Value :=
  if (rollingOf deployment).isNull then .text "25%" else (rollingOf deployment).field name

/-- A deployment wants a number of pods: as many as it says, one if it does not say. -/
structure Wants (deployment : Value) (desired : Int) : Prop where
  present : deployment.isNull = false
  fits : budgetForm.fits deployment
  nonneg : 0 ≤ desired
  count : (deployment.field "spec").field "replicas" = .int desired ∨
    (deployment.field "spec").field "replicas" = .null ∧ desired = 1

/-- A deployment whose parameters are permitted for the number of pods that it wants. Where the
defaults apply, a quarter of this number is within the binary numbers. -/
structure IsBudgeted (deployment : Value) (desired : Int) : Prop extends
    Wants deployment desired where
  permitted : (rollingOf deployment).isNull = false → ∀ name ∈ parameterNames,
    IsPermitted desired ((rollingOf deployment).field name)
  modest : rolls deployment → (rollingOf deployment).isNull → 25 * desired < overflow

/-- A replica set that exists says how many of its pods are ready, none if it says nothing. -/
structure HasReady (replicaSet : Value) (ready : Int) : Prop where
  present : replicaSet.isNull = false
  fits : (record [("status", record [])]).fits replicaSet
  count : (replicaSet.field "status").field "readyReplicas" = .int ready ∨
    (replicaSet.field "status").field "readyReplicas" = .null ∧ ready = 0

section

variable {deployment replicaSet : Value} {desired ready threshold : Int}

theorem replicas_eq (h : Wants deployment desired) : replicas deployment = .ok desired := by
  have spec := fits_field h.fits "spec" rfl
  rw [replicas, get_eq_field h.fits h.present]
  simp only [bind, Except.bind, orEmpty_get_eq_field spec]
  rcases h.count with given | ⟨absent, rfl⟩
  · rw [given]
    rfl
  · rw [absent]
    rfl

theorem maxUnavailable_eq (h : Wants deployment desired) :
    maxUnavailable deployment =
      if !rolls deployment then .ok 0
      else if desired ≤ 0 then .ok 0
      else (allowance (parameterOf deployment "maxSurge")
        (parameterOf deployment "maxUnavailable") (.int desired)).map (min · desired) := by
  have spec := fits_field h.fits "spec" rfl
  have strategy := fits_field spec "strategy" rfl
  have rolling := fits_field strategy "rollingUpdate" rfl
  have type : isRolling ((deployment.field "spec").field "strategy").orEmpty =
      .ok (rolls deployment) := by
    rw [rolls]
    generalize (deployment.field "spec").field "strategy" = plan at *
    cases plan with
    | null => rfl
    | map members => cases members <;> rfl
    | _ => cases strategy
  have given (name : String) (known : defaultParameters.get name = .ok (.text "25%")) :
      (if (rollingOf deployment).isNull then defaultParameters else rollingOf deployment).get name =
        .ok (parameterOf deployment name) := by
    rw [parameterOf]
    split
    · exact known
    · rename_i there
      exact get_eq_field rolling (Bool.eq_false_iff.mpr there) name
  rw [maxUnavailable, get_eq_field h.fits h.present]
  simp only [bind, Except.bind, orEmpty_get_eq_field spec, orEmpty_get_eq_field strategy, type,
    replicas_eq h]
  rw [← rollingOf]
  simp only [given "maxSurge" rfl, given "maxUnavailable" rfl]
  cases rolls deployment with
  | false => rfl
  | true =>
    by_cases none : desired ≤ 0
    · simp only [none, Bool.not_true, Bool.false_eq_true, if_true, if_false]
      rfl
    · simp only [none, Bool.not_true, Bool.false_eq_true, if_false]
      cases allowance (parameterOf deployment "maxSurge") (parameterOf deployment "maxUnavailable")
        (.int desired) <;> rfl

/-- A quarter of the pods is a number of pods. -/
theorem isCounted_default (nonneg : 0 ≤ desired) (modest : 25 * desired < overflow) :
    IsCounted desired (.text "25%") := by
  obtain ⟨pods, hpods, nonneg⟩ : ∃ pods, percentOf 25 desired true = .ok pods ∧ 0 ≤ pods :=
    percentOf_nonneg (by omega) (by omega)
  exact ⟨pods, hpods, nonneg⟩

/-- A parameter of a rolling update means a number of pods, or it cannot be read. -/
theorem parameterOf_cases (h : IsBudgeted deployment desired) (rolling : rolls deployment)
    {name : String} (hname : name ∈ parameterNames) :
    IsCounted desired (parameterOf deployment name) ∨ ∃ fault,
      quantity (parameterOf deployment name) (.int desired) true = .error fault ∧
        isUnreadable fault := by
  rw [parameterOf]
  split
  · rename_i absent
    exact .inl (isCounted_default h.nonneg (h.modest rolling absent))
  · rename_i there
    exact isCounted_or_unreadable h.nonneg (h.permitted (Bool.eq_false_iff.mpr there) name hname)

/-- The same, if both parameters that are given mean numbers of pods. -/
theorem isCounted_parameterOf (h : IsBudgeted deployment desired) (rolling : rolls deployment)
    {name : String} (means : (rollingOf deployment).isNull = false →
      MeansPods desired ((rollingOf deployment).field name)) :
    IsCounted desired (parameterOf deployment name) := by
  rw [parameterOf]
  split
  · rename_i absent
    exact isCounted_default h.nonneg (h.modest rolling absent)
  · rename_i there
    exact isCounted_of_meansPods h.nonneg (means (Bool.eq_false_iff.mpr there))

/-- The budget of a deployment is within the number of its pods. -/
theorem exists_maxUnavailable (h : IsBudgeted deployment desired) :
    ∃ missing, maxUnavailable deployment = .ok missing ∧ 0 ≤ missing ∧ missing ≤ desired ∧
      (rolls deployment → 1 ≤ desired →
        ((rollingOf deployment).isNull = false → ∀ name ∈ parameterNames,
          MeansPods desired ((rollingOf deployment).field name)) →
        missing = 0 → ∃ more,
          quantity (parameterOf deployment "maxSurge") (.int desired) true = .ok more ∧
            0 < more) := by
  rw [maxUnavailable_eq h.toWants]
  cases rolling : rolls deployment with
  | false => exact ⟨0, rfl, le_rfl, h.nonneg, nofun⟩
  | true =>
    by_cases none : desired ≤ 0
    · refine ⟨0, ?_, le_rfl, h.nonneg, fun _ some => absurd none (by omega)⟩
      simp [none]
    · have surge : "maxSurge" ∈ parameterNames := by simp [parameterNames]
      have unavailable : "maxUnavailable" ∈ parameterNames := by simp [parameterNames]
      obtain ⟨allowed, hallowed, nonneg, more⟩ := exists_allowance
        (parameterOf_cases h rolling surge) (parameterOf_cases h rolling unavailable)
      refine ⟨min allowed desired, ?_, le_min nonneg h.nonneg, min_le_right .., ?_⟩
      · simp [none, hallowed, Except.map]
      · intro _ _ means zero
        refine more (isCounted_parameterOf h rolling fun given => means given _ surge)
          (isCounted_parameterOf h rolling fun given => means given _ unavailable) ?_
        omega

theorem deploymentReady_eq (hready : HasReady replicaSet ready)
    (hthreshold : readyThreshold deployment = .ok threshold) :
    Readiness.deploymentReady deployment replicaSet = .ok (decide (threshold ≤ ready)) := by
  have status := fits_field hready.fits "status" rfl
  have count : ((replicaSet.field "status").field "readyReplicas").orElse (.int 0) =
      .int ready := by
    rcases hready.count with given | ⟨absent, rfl⟩
    · rw [given]
      by_cases zero : ready = 0
      · rw [zero]
        rfl
      · simp [Value.orElse, Value.isTruthy, zero]
    · rw [absent]
      rfl
  rw [Readiness.deploymentReady, hready.present, Readiness.nested,
    get_eq_field hready.fits hready.present]
  simp only [bind, Except.bind, orEmpty_get_eq_field status, hthreshold, count]
  simp [Readiness.atLeast, Value.rational?]

/-- No more pods of a deployment may be missing than it wants, and no more need to be ready. So a
replica set with all its pods ready makes it ready, and more ready pods never make it less so.
During a rolling update with both parameters well-formed, either some pod may be missing or some
pod may be added. -/
theorem rollout_within_replicas (h : IsBudgeted deployment desired) :
    ∃ missing, maxUnavailable deployment = .ok missing ∧ 0 ≤ missing ∧ missing ≤ desired ∧
      (∃ threshold, readyThreshold deployment = .ok threshold ∧ 0 ≤ threshold ∧
        threshold ≤ desired) ∧
      (∀ replicaSet ready, HasReady replicaSet ready → desired ≤ ready →
        Readiness.deploymentReady deployment replicaSet = .ok true) ∧
      (∀ x y ready more, HasReady x ready → HasReady y more → ready ≤ more →
        Readiness.deploymentReady deployment x = .ok true →
        Readiness.deploymentReady deployment y = .ok true) ∧
      (rolls deployment → 1 ≤ desired →
        ((rollingOf deployment).isNull = false → ∀ name ∈ parameterNames,
          MeansPods desired ((rollingOf deployment).field name)) →
        missing = 0 → ∃ more,
          quantity (parameterOf deployment "maxSurge") (.int desired) true = .ok more ∧
            0 < more) := by
  obtain ⟨missing, hmissing, nonneg, most, adds⟩ := exists_maxUnavailable h
  have hthreshold : readyThreshold deployment = .ok (desired - missing) := by
    rw [readyThreshold, replicas_eq h.toWants, hmissing]
    rfl
  refine ⟨missing, hmissing, nonneg, most, ⟨_, hthreshold, by omega, by omega⟩, ?_, ?_, adds⟩
  · intro replicaSet ready hready enough
    rw [deploymentReady_eq hready hthreshold, decide_eq_true (by omega)]
  · intro x y ready more hx hy le isReady
    rw [deploymentReady_eq hx hthreshold] at isReady
    have reached := of_decide_eq_true (Except.ok.inj isReady)
    rw [deploymentReady_eq hy hthreshold, decide_eq_true (by omega)]

/-- Where the defaults apply to so many pods that a quarter of them is too large a number, there is
no budget. -/
theorem maxUnavailable_of_overflow (h : Wants deployment desired) (rolling : rolls deployment)
    (absent : (rollingOf deployment).isNull) (large : overflow ≤ 25 * desired) :
    maxUnavailable deployment = .error .tooLarge := by
  have unread : quantity (.text "25%") (.int desired) true = .error .tooLarge := by
    change percentOf 25 desired true = .error .tooLarge
    rw [percentOf, hundredth_of_overflow (by omega)]
    rfl
  have positive : ¬ desired ≤ 0 := by
    have := two_pow_lt_overflow (n := 0) (by decide)
    omega
  rw [maxUnavailable_eq h, rolling]
  simp [positive, parameterOf, absent, allowance, unread, bind, Except.bind, isUnreadable,
    Except.map]

end

/-- A deployment of some pods, with a strategy for their update. -/
def deploymentOfSize (desired : Int) (strategy : Value) : Value := .map [
  (.text "kind", .text "Deployment"),
  (.text "spec", .map [(.text "replicas", .int desired), (.text "strategy", strategy)])]

/-- A rolling update that adds a share of the pods and keeps all that there are. -/
def surging : Value := .map [
  (.text "type", .text "RollingUpdate"),
  (.text "rollingUpdate", .map [
    (.text "maxSurge", .text "30%"), (.text "maxUnavailable", .int 0)])]

theorem rollout_within_replicas_surging :
    IsBudgeted (deploymentOfSize 3 surging) 3 ∧
    maxUnavailable (deploymentOfSize 3 surging) = .ok 0 ∧
    ∃ more, quantity (.text "30%") (.int 3) true = .ok more ∧ 0 < more := by
  have means : ∀ name ∈ parameterNames,
      MeansPods 3 ((rollingOf (deploymentOfSize 3 surging)).field name) := by
    intro name hname
    have cases : name = "maxSurge" ∨ name = "maxUnavailable" := by
      simpa [parameterNames] using hname
    rcases cases with rfl | rfl
    · have digits : AreDigits [3, 0] := List.forall_mem_cons.mpr ⟨by decide, by simp⟩
      exact .percent digits (by decide) (by decide) (by decide)
    · exact .count 0
  have budgeted : IsBudgeted (deploymentOfSize 3 surging) 3 :=
    { present := rfl
      fits := by decide +kernel
      nonneg := by decide
      count := .inl rfl
      permitted := fun _ name hname => .inl (means name hname)
      modest := fun _ absent => by cases absent }
  have zero : maxUnavailable (deploymentOfSize 3 surging) = .ok 0 := rfl
  obtain ⟨missing, hmissing, -, -, -, -, -, adds⟩ := rollout_within_replicas budgeted
  obtain rfl : 0 = missing := Except.ok.inj (zero.symm.trans hmissing)
  exact ⟨budgeted, zero, adds rfl (by decide) (fun _ => means) rfl⟩

/-- The defaults fail from the number of pods on whose quarter is rounded beyond the greatest
binary number. -/
theorem maxUnavailable_too_large :
    let desired := 18014398509481983 * 2 ^ 972
    Wants (deploymentOfSize desired .null) desired ∧ rolls (deploymentOfSize desired .null) ∧
      (rollingOf (deploymentOfSize desired .null)).isNull ∧
      maxUnavailable (deploymentOfSize desired .null) = .error .tooLarge := by
  intro desired
  have wants : Wants (deploymentOfSize desired .null) desired :=
    { present := rfl
      fits := by decide +kernel
      nonneg := by decide +kernel
      count := .inl rfl }
  exact ⟨wants, rfl, rfl, maxUnavailable_of_overflow wants rfl rfl (by decide +kernel)⟩

end Rollout

end Reconciler
