import Reconciler.Problem
import Reconciler.Proofs.Number.Rounding
import Reconciler.Proofs.Value.Form
import Reconciler.Rollout.Budget
import Reconciler.Rollout.Generation

/-!
# Rollouts of well-formed deployments

A deployment and its replica sets that have the forms given here can be read in all parts on
which a rollout depends. So the number of pods that must be ready is known, and it is known
which replica set has the deployment's template, or that none has.
-/

namespace Reconciler.Rollout

open Form

/-! ### Forms -/

/-- A number of pods. -/
def podCount : Form where
  fits
    | .null => true
    | .int number => decide (number.natAbs < 2 ^ 64)
    | _ => false
  fits_null := rfl

/-- A rollout parameter. A percentage is not so large that no share of pods can be computed
from it; anything that cannot be read as a parameter is allowed. -/
def parameter : Form where
  fits
    | .text text => match Value.wholeOfText text.toList.dropLast with
      | .ok percent => decide (percent.natAbs < 2 ^ 128)
      | .error _ => true
    | _ => true
  fits_null := rfl

/-- A time of creation. -/
def timestamp : Form where
  fits value := (creationInstant value).isOk
  fits_null := by decide

/-- A template of pods. -/
def templateForm : Form := record [("metadata", record [("labels", record [])])]

/-- A deployment. -/
def deploymentForm : Form := record [
  ("metadata", record []),
  ("spec", record [
    ("replicas", podCount),
    ("strategy", record [
      ("rollingUpdate", record [("maxSurge", parameter), ("maxUnavailable", parameter)])]),
    ("template", templateForm)])]

/-- A replica set. -/
def replicaSetForm : Form := record [
  ("metadata", record [
    ("name", text),
    ("creationTimestamp", timestamp),
    ("ownerReferences", list (record []))]),
  ("spec", record [("template", templateForm)]),
  ("status", record [("readyReplicas", whole)])]

/-! ### Shares of pods -/

/-- Whole numbers from here on have hundredth parts beyond the finite numbers. It is a hundred times
the middle between the greatest finite number and the power of two that comes next. -/
def overflow : Nat := 100 * (18014398509481983 * 2 ^ 970)

theorem two_pow_lt_overflow {n : Nat} (h : n ≤ 970) : 2 ^ n < overflow := by
  have split : 2 ^ 970 = 2 ^ n * 2 ^ (970 - n) := by rw [← Nat.pow_add, Nat.add_sub_cancel' h]
  have positive := Nat.two_pow_pos n
  have factor := Nat.two_pow_pos (970 - n)
  rw [overflow, split]
  generalize 2 ^ (970 - n) = rest at factor
  calc 2 ^ n < 2 ^ n * 100 := by omega
    _ ≤ _ := by nlinarith

theorem overflow_div :
    (overflow / 100 : ℚ) = (2 ^ 53 - 1 / 2) * 2 ^ Double.greatestExponent := by
  have power : (2 : ℚ) ^ Double.greatestExponent = 2 * 2 ^ 970 := by
    rw [← pow_succ']
    exact zpow_natCast 2 971
  rw [overflow, power, Nat.cast_mul, Nat.cast_mul, Nat.cast_pow]
  push_cast
  generalize (2 : ℚ) ^ 970 = unit
  ring

/-- The hundredth part of a number that is not too large is a finite number. -/
theorem exists_hundredth {product : Int} (h : product.natAbs < overflow) :
    ∃ significand exponent,
      hundredth product = .ok (.finite (decide (product < 0)) significand exponent) := by
  have below : (product.natAbs / (100 : Nat) : ℚ) <
      (2 ^ 53 - 1 / 2) * 2 ^ Double.greatestExponent := by
    rw [← overflow_div, Nat.cast_ofNat, div_lt_div_iff_of_pos_right (by norm_num)]
    exact_mod_cast h
  obtain ⟨significand, exponent, hnearest⟩ := Double.exists_nearest (product < 0) (by decide) below
  exact ⟨significand, exponent, by rw [hundredth, hnearest]⟩

/-- A number that is too large has no hundredth part. -/
theorem hundredth_of_overflow {product : Int} (h : overflow ≤ product.natAbs) :
    hundredth product = .error .tooLarge := by
  have beyond : (2 ^ 53 - 1 / 2) * 2 ^ Double.greatestExponent ≤
      (product.natAbs / (100 : Nat) : ℚ) := by
    rw [← overflow_div, Nat.cast_ofNat, div_le_div_iff_of_pos_right (by norm_num)]
    exact_mod_cast h
  rw [hundredth, Double.nearest_of_overflow (product < 0) (by decide) beyond]

/-- A parameter is a number of pods, or it cannot be read as one. -/
theorem quantity_cases {value : Value} (h : parameter.fits value) {total : Int}
    (modest : total.natAbs < 2 ^ 64) : (∃ pods, quantity value (.int total) true = .ok pods) ∨
      ∃ fault, quantity value (.int total) true = .error fault ∧ isUnreadable fault := by
  have whole : ∀ chars, (∃ pods, Value.wholeOfText chars = .ok pods) ∨
      Value.wholeOfText chars = .error .malformed := by
    intro chars
    unfold Value.wholeOfText
    split
    · exact .inl ⟨_, rfl⟩
    · exact .inr rfl
  cases value with
  | null => exact .inl ⟨0, rfl⟩
  | int pods => exact .inl ⟨pods, rfl⟩
  | text text =>
    rw [quantity, quantityOfText]
    split
    · rcases whole text.toList.dropLast with ⟨percent, hpercent⟩ | unreadable
      · have bound : percent.natAbs < 2 ^ 128 := by
          simpa [parameter, hpercent] using h
        have product : (percent * total).natAbs < 2 ^ 192 := by
          rw [Int.natAbs_mul]
          calc percent.natAbs * total.natAbs < 2 ^ 128 * 2 ^ 64 := Nat.mul_lt_mul'' bound modest
            _ ≤ 2 ^ 192 := by decide
        obtain ⟨significand, exponent, hshare⟩ :=
          exists_hundredth (product.trans (two_pow_lt_overflow (by decide)))
        obtain ⟨pods, hpods⟩ : ∃ pods, toPods true
            (.finite (decide (percent * total < 0)) significand exponent) = .ok pods := ⟨_, rfl⟩
        refine .inl ⟨pods, ?_⟩
        rw [hpercent]
        change percentOf percent total true = .ok pods
        rw [percentOf, hshare]
        exact hpods
      · exact .inr ⟨.malformed, by rw [unreadable]; rfl, rfl⟩
    · split
      · rcases whole text.toList with ⟨pods, hpods⟩ | unreadable
        · exact .inl ⟨pods, hpods⟩
        · exact .inr ⟨.malformed, unreadable, rfl⟩
      · exact .inr ⟨_, rfl, rfl⟩
  | _ => exact .inr ⟨_, rfl, rfl⟩

theorem gives_allowance {surge unavailable : Value} (hsurge : parameter.fits surge)
    (hunavailable : parameter.fits unavailable) {desired : Int}
    (modest : desired.natAbs < 2 ^ 64) :
    Gives (allowance surge unavailable (.int desired)) fun _ => True := by
  unfold allowance
  rcases quantity_cases hsurge modest with ⟨more, hmore⟩ | ⟨fault, hfault, unreadable⟩
  · rcases quantity_cases hunavailable modest with ⟨fewer, hfewer⟩ | ⟨fault, hfault, unreadable⟩
    · rw [hmore, hfewer]
      exact gives_ok trivial
    · rw [hmore, hfault]
      exact ⟨0, if_pos unreadable, trivial⟩
  · rw [hfault]
    exact ⟨0, if_pos unreadable, trivial⟩

/-! ### The number of pods that must be ready -/

variable {deployment replicaSet : Value}

theorem gives_replicas (h : deploymentForm.fits deployment)
    (present : deployment.isNull = false) :
    Gives (replicas deployment) fun desired => desired.natAbs < 2 ^ 64 := by
  refine (gives_get h present "spec" rfl).bind fun spec hspec => ?_
  refine (gives_orEmpty_get hspec "replicas" rfl).bind fun count hcount => ?_
  cases count with
  | null => exact gives_ok (by decide)
  | int desired => exact gives_ok (of_decide_eq_true hcount)
  | _ => cases hcount

theorem gives_isRolling {fields : List (String × Form)} {strategy : Value}
    (h : (record fields).fits strategy) : Gives (isRolling strategy.orEmpty) fun _ => True := by
  obtain ⟨members, hmembers, -⟩ := exists_orEmpty h
  rw [hmembers]
  exact gives_ok trivial

theorem gives_maxUnavailable (h : deploymentForm.fits deployment)
    (present : deployment.isNull = false) :
    Gives (maxUnavailable deployment) fun _ => True := by
  refine (gives_get h present "spec" rfl).bind fun spec hspec => ?_
  refine (gives_orEmpty_get hspec "strategy" rfl).bind fun strategy hstrategy => ?_
  refine (gives_isRolling hstrategy).bind fun rolls _ => ?_
  split
  · exact gives_ok trivial
  · refine (gives_replicas h present).bind fun desired modest => ?_
    split
    · exact gives_ok trivial
    · refine (gives_orEmpty_get hstrategy "rollingUpdate" rfl).bind fun rolling hrolling => ?_
      have allowed : ∀ parameters : Value, parameters.isNull = false →
          (record [("maxSurge", parameter), ("maxUnavailable", parameter)]).fits parameters →
          Gives (do
            let surge ← parameters.get "maxSurge"
            let unavailable ← parameters.get "maxUnavailable"
            let allowed ← allowance surge unavailable (.int desired)
            return min allowed desired) fun _ => True := by
        intro parameters there fits
        refine (gives_get fits there "maxSurge" rfl).bind fun surge hsurge => ?_
        refine (gives_get fits there "maxUnavailable" rfl).bind fun unavailable hunavailable => ?_
        exact (gives_allowance hsurge hunavailable modest).bind fun _ _ => gives_ok trivial
      dsimp only
      split
      · exact allowed defaultParameters rfl (by decide)
      · rename_i given
        exact allowed rolling (by simpa using given) hrolling

theorem gives_readyThreshold (h : deploymentForm.fits deployment)
    (present : deployment.isNull = false) :
    Gives (readyThreshold deployment) fun _ => True := by
  refine (gives_replicas h present).bind fun desired _ => ?_
  exact (gives_maxUnavailable h present).bind fun missing _ => gives_ok trivial

/-! ### The replica set of the template -/

theorem gives_normalTemplate {template : Value} (h : templateForm.fits template) :
    Gives (normalTemplate template) fun _ => True := by
  obtain ⟨members, hmembers, hfields⟩ := exists_orEmpty h
  have hmetadata := hfields ("metadata", record [("labels", record [])]) (by simp)
  rw [normalTemplate, hmembers]
  have same : (Members.field? members "metadata").getD .null =
      Value.ofOption (Members.field? members "metadata") := by
    cases Members.field? members "metadata" <;> rfl
  dsimp only
  rw [same]
  refine (gives_orEmpty_get hmetadata "labels" rfl).bind fun labels hlabels => ?_
  have stripped (metadata : Members) : Gives (withoutHash metadata labels) fun _ => True := by
    unfold withoutHash
    split
    · split <;> exact gives_ok trivial
    · rename_i other
      rcases hnull : labels.isNull with _ | _
      · obtain ⟨members, rfl, -⟩ := exists_map_of_record hlabels hnull
        exact (other members rfl).elim
      · cases labels with
        | null => exact gives_ok trivial
        | _ => cases hnull
  refine (stripped _).bind fun rest _ => ?_
  split <;> exact gives_ok trivial

theorem gives_sameTemplate {x y : Value} (hx : templateForm.fits x) (hy : templateForm.fits y) :
    Gives (sameTemplate x y) fun _ => True := by
  refine (gives_normalTemplate hx).bind fun _ _ => ?_
  exact (gives_normalTemplate hy).bind fun _ _ => gives_ok trivial

theorem gives_isControlledBy (h : replicaSetForm.fits replicaSet)
    (present : replicaSet.isNull = false) (howner : deploymentForm.fits deployment)
    (hpresent : deployment.isNull = false) :
    Gives (isControlledBy replicaSet deployment) fun _ => True := by
  refine (gives_get howner hpresent "metadata" rfl).bind fun ownerMetadata hown => ?_
  refine (gives_orEmpty_get_any hown "uid").bind fun uid _ => ?_
  refine (gives_get h present "metadata" rfl).bind fun metadata hmetadata => ?_
  refine (gives_orEmpty_get hmetadata "ownerReferences" rfl).bind fun references hrefs => ?_
  refine (gives_parts hrefs).bind fun items hitems => ?_
  clear hrefs
  induction items with
  | nil => exact gives_ok trivial
  | cons item rest ih =>
    obtain ⟨⟨there, fits⟩, hrest⟩ := List.forall_mem_cons.mp hitems
    refine (gives_get_any fits there "controller").bind fun controls _ => ?_
    split
    · refine (gives_get_any fits there "uid").bind fun owner _ => ?_
      dsimp only
      split
      · exact gives_ok trivial
      · exact ih hrest
    · exact ih hrest

/-- When a replica set was created, and its name for the order of those created at once. -/
theorem gives_creationKey (h : replicaSetForm.fits replicaSet)
    (present : replicaSet.isNull = false) :
    Gives (creationKey replicaSet) fun key => ∃ name, key.2 = .text name := by
  refine (gives_get h present "metadata" rfl).bind fun metadata hmetadata => ?_
  refine (gives_orEmpty_get hmetadata "creationTimestamp" rfl).bind fun time htime => ?_
  have known : Gives (creationInstant time) fun _ => True := by
    obtain ⟨instant, hinstant⟩ := exists_of_isOk htime
    exact ⟨instant, hinstant, trivial⟩
  refine known.bind fun instant _ => ?_
  refine (gives_orEmpty_get hmetadata "name" rfl).bind fun name hname => ?_
  rcases text_cases hname with rfl | ⟨name, rfl⟩
  · exact gives_ok ⟨"", rfl⟩
  · refine gives_ok ?_
    cases hempty : name.isEmpty <;> simp [Value.orElse, hempty]

theorem gives_creationKeys {replicaSets : List Value} (h : ∀ replicaSet ∈ replicaSets,
      replicaSet.isNull = false ∧ replicaSetForm.fits replicaSet) :
    Gives (creationKeys replicaSets) fun keyed =>
      keyed.map (·.2) = replicaSets ∧ ∀ entry ∈ keyed, ∃ name, entry.1.2 = .text name := by
  induction replicaSets with
  | nil => exact gives_ok ⟨rfl, nofun⟩
  | cons replicaSet rest ih =>
    obtain ⟨⟨present, fits⟩, hrest⟩ := List.forall_mem_cons.mp h
    refine (gives_creationKey fits present).bind fun key hkey => ?_
    refine (ih hrest).bind fun keyed ⟨same, named⟩ => gives_ok ⟨?_, ?_⟩
    · rw [List.map_cons, same]
    · exact List.forall_mem_cons.mpr ⟨hkey, named⟩

theorem gives_firstWithTemplate {template : Value} (htemplate : templateForm.fits template)
    {replicaSets : List Value} (h : ∀ replicaSet ∈ replicaSets,
      replicaSet.isNull = false ∧ replicaSetForm.fits replicaSet) :
    Gives (firstWithTemplate template replicaSets) fun found =>
      ∀ replicaSet, found = some replicaSet → replicaSet ∈ replicaSets := by
  induction replicaSets with
  | nil => exact gives_ok nofun
  | cons replicaSet rest ih =>
    obtain ⟨⟨present, fits⟩, hrest⟩ := List.forall_mem_cons.mp h
    refine (gives_get fits present "spec" rfl).bind fun spec hspec => ?_
    refine (gives_orEmpty_get hspec "template" rfl).bind fun own hown => ?_
    refine (gives_sameTemplate hown htemplate).bind fun same _ => ?_
    split
    · refine gives_ok fun found heq => ?_
      cases heq
      exact List.mem_cons_self ..
    · exact (ih hrest).mono fun found hfound other heq =>
        List.mem_cons_of_mem _ (hfound other heq)

/-- Creations with text for names can be put in order. -/
theorem comparable_of_named {keyed : List ((Int × Value) × Value)}
    (h : ∀ entry ∈ keyed, ∃ name, entry.1.2 = .text name) :
    Value.comparable (fun x y => createdBefore? x.1 y.1) keyed := by
  induction keyed with
  | nil => rfl
  | cons entry rest ih =>
    obtain ⟨⟨name, hname⟩, hrest⟩ := List.forall_mem_cons.mp h
    rw [Value.comparable, ih hrest, Bool.and_true, List.all_eq_true]
    intro other hmem
    obtain ⟨own, hown⟩ := hrest other hmem
    unfold createdBefore?
    rw [hname, hown]
    split
    · rfl
    · split
      · rfl
      · simp [Value.less?, Value.scalarLess?]

/-- Whether a replica set has the deployment's template can be decided. -/
theorem gives_newReplicaSet (h : deploymentForm.fits deployment)
    (present : deployment.isNull = false) {replicaSets : List Value}
    (hall : ∀ replicaSet ∈ replicaSets,
      replicaSet.isNull = false ∧ replicaSetForm.fits replicaSet) :
    Gives (newReplicaSet deployment replicaSets) fun found =>
      ∀ replicaSet, found = some replicaSet → replicaSet ∈ replicaSets := by
  refine (gives_get h present "spec" rfl).bind fun spec hspec => ?_
  refine (gives_orEmpty_get hspec "template" rfl).bind fun template htemplate => ?_
  refine (gives_creationKeys hall).bind fun keyed ⟨same, named⟩ => ?_
  rw [Value.sortBy?, if_pos (comparable_of_named named)]
  have perm := (Value.sortBy_perm (fun x y => (createdBefore? x.1 y.1).getD false) keyed).map (·.2)
  rw [same] at perm
  refine (gives_firstWithTemplate htemplate fun replicaSet hmem =>
    hall replicaSet (perm.mem_iff.mp hmem)).mono fun found hfound replicaSet heq => ?_
  exact perm.mem_iff.mp (hfound replicaSet heq)

end Reconciler.Rollout
