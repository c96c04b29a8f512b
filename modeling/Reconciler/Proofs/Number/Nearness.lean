import Reconciler.Proofs.Number.Rounding
import Mathlib.Data.Rat.Floor

/-!
# How far rounding moves a quotient

A quotient is rounded to a multiple of a unit, which depends on how large the quotient is. It is
moved by half of this unit at most, and it passes no multiple of the unit on the way. So if the
unit is a fraction of one, then no whole number lies between a quotient and what it is rounded
to. If half of the unit is also less than the distance between two quotients with the same
divisor, then rounding does not even move a quotient onto a whole number: before and after it
lies on the same sides of all of them.
-/

namespace Reconciler.Double

/-! ### Rounding to a whole number -/

/-- Rounding takes away at most a half. -/
theorem le_roundEven_mul (num : Nat) {den : Nat} (hden : 0 < den) :
    2 * num ≤ 2 * (roundEven num den * den) + den := by
  have parts := Nat.div_add_mod num den
  have small := Nat.mod_lt num hden
  unfold roundEven
  generalize num / den = quotient at *
  generalize num % den = rest at *
  dsimp only
  split_ifs <;> simp only [Nat.add_mul, Nat.mul_comm quotient den] <;> omega

theorem le_roundEven {num den whole : Nat} (hden : 0 < den) (h : whole * den ≤ num) :
    whole ≤ roundEven num den := by
  have reached := (Nat.le_div_iff_mul_le hden).mpr h
  unfold roundEven
  dsimp only
  split_ifs <;> omega

theorem roundEven_le {num den whole : Nat} (hden : 0 < den) (h : num ≤ whole * den) :
    roundEven num den ≤ whole := by
  by_contra beyond
  have rounded := roundEven_mul_le num den
  have passed := Nat.mul_le_mul_right den (not_le.mp beyond)
  rw [Nat.succ_mul] at passed
  omega

/-! ### Rounding to units -/

/-- How many units a quotient is rounded to. -/
def unitsOf (num den : Nat) : Nat :=
  roundEven (inUnits num den (unitExponent num den)).1 (inUnits num den (unitExponent num den)).2

section

variable {num den : Nat}

theorem le_unitsOf (hden : 0 < den) {whole : Nat}
    (h : (whole * 2 ^ unitExponent num den : ℚ) ≤ num / den) : whole ≤ unitsOf num den := by
  rw [← le_inUnits_iff num hden] at h
  exact le_roundEven (inUnits_spec num hden _).1 (by exact_mod_cast h)

theorem unitsOf_le (hden : 0 < den) {whole : Nat}
    (h : (num / den : ℚ) ≤ whole * 2 ^ unitExponent num den) : unitsOf num den ≤ whole := by
  rw [← inUnits_le_iff num hden] at h
  exact roundEven_le (inUnits_spec num hden _).1 (by exact_mod_cast h)

/-- Rounding moves a quotient by half a unit at most. -/
theorem abs_unitsOf_sub_le (hden : 0 < den) :
    |(unitsOf num den * 2 ^ unitExponent num den - num / den : ℚ)| ≤
      2 ^ unitExponent num den / 2 := by
  have pos : (0 : ℚ) < 2 ^ unitExponent num den := by positivity
  have unitPos := (inUnits_spec num hden (unitExponent num den)).1
  have low : (unitsOf num den - 1 / 2 : ℚ) * 2 ^ unitExponent num den ≤ num / den := by
    have most := roundEven_mul_le (inUnits num den (unitExponent num den)).1
      (inUnits num den (unitExponent num den)).2
    have most : (2 * (unitsOf num den * (inUnits num den (unitExponent num den)).2) : ℚ) ≤
        2 * (inUnits num den (unitExponent num den)).1 +
          (inUnits num den (unitExponent num den)).2 := by exact_mod_cast most
    rw [← le_inUnits_iff num hden]
    linarith
  have high : (num / den : ℚ) ≤ (unitsOf num den + 1 / 2) * 2 ^ unitExponent num den := by
    have least := le_roundEven_mul (inUnits num den (unitExponent num den)).1 unitPos
    have least : (2 * (inUnits num den (unitExponent num den)).1 : ℚ) ≤
        2 * (unitsOf num den * (inUnits num den (unitExponent num den)).2) +
          (inUnits num den (unitExponent num den)).2 := by exact_mod_cast least
    rw [← inUnits_le_iff num hden]
    linarith
  rw [abs_le]
  constructor <;> linarith

/-- The number of units is also the value of the nearest number, whether it is carried or not. -/
theorem value_of_nearest {negative : Bool} {significand : Nat} {exponent : Int} (hnum : 0 < num)
    (h : nearest negative num den = .finite negative significand exponent) :
    (significand * 2 ^ exponent : ℚ) = unitsOf num den * 2 ^ unitExponent num den := by
  unfold nearest at h
  rw [if_neg hnum.ne'] at h
  dsimp only at h
  rw [← unitsOf] at h
  split at h
  · rename_i carried
    split at h
    · cases h
    · cases h
      rw [carried, zpow_add_one₀ two_ne_zero]
      push_cast
      ring
  · split at h
    · cases h
    · cases h
      rfl

end

/-- The exact value of a finite number that is not negative. -/
theorem toRat?_finite (significand : Nat) (exponent : Int) :
    toRat? (.finite false significand exponent) = some (significand * (2 : ℚ) ^ exponent) := by
  rw [toRat?, if_neg Bool.false_ne_true]
  split
  · rename_i h
    lift exponent to ℕ using h
    simp
  · obtain ⟨n, rfl⟩ : ∃ n : ℕ, exponent = -n := ⟨(-exponent).toNat, by omega⟩
    simp [Rat.mkRat_eq_div, div_eq_mul_inv]

/-! ### Whole numbers beside a quotient -/

/-- A value to which a quotient is rounded in steps that divide one: it is at most half a step
away, and no whole number is passed. -/
structure IsRounded (quotient value step : ℚ) : Prop where
  near : |value - quotient| ≤ step / 2
  above : ∀ whole : Nat, whole ≤ quotient → whole ≤ value
  below : ∀ whole : Nat, quotient ≤ whole → value ≤ whole

/-- A whole number is a multiple of every unit that is at most one. -/
theorem natCast_eq_mul_zpow (whole : Nat) {exponent : Int} (h : exponent ≤ 0) :
    (whole : ℚ) = (whole * 2 ^ (-exponent).toNat : Nat) * 2 ^ exponent := by
  obtain ⟨n, rfl⟩ : ∃ n : ℕ, exponent = -n := ⟨(-exponent).toNat, by omega⟩
  simp

/-- A quotient that has 53 bits before the end of a fraction of one is rounded in steps of this
fraction, or of a smaller one. -/
theorem exists_isRounded {num den : Nat} (hden : 0 < den) {exponent : Int}
    (least : leastExponent ≤ exponent) (fraction : exponent ≤ 0)
    (small : (num / den : ℚ) < 2 ^ 53 * 2 ^ exponent) : ∃ significand power,
      nearest false num den = .finite false significand power ∧
        IsRounded (num / den) (significand * 2 ^ power) (2 ^ exponent) := by
  rcases num.eq_zero_or_pos with rfl | hnum
  · refine ⟨0, leastExponent, nearest_zero false den, ?_⟩
    rw [Nat.cast_zero, zero_div, zero_mul]
    refine ⟨?_, fun _ => id, fun _ => id⟩
    rw [sub_self, abs_zero]
    positivity
  obtain ⟨found, unit, low, -⟩ := exists_unitExponent hnum hden
  have below : found < exponent + 1 := by
    refine (zpow_lt_zpow_iff_right₀ (one_lt_two : (1 : ℚ) < 2)).mp ?_
    rw [zpow_add_one₀ two_ne_zero]
    linarith
  have within : unitExponent num den ≤ exponent := by omega
  have modest : (num / den : ℚ) < (2 ^ 53 - 1 / 2) * 2 ^ greatestExponent := by
    have bound : (2 : ℚ) ^ exponent ≤ 2 ^ (greatestExponent - 1) :=
      zpow_le_zpow_right₀ one_le_two (fraction.trans (by decide))
    rw [zpow_sub_one₀ two_ne_zero] at bound
    have pos : (0 : ℚ) < 2 ^ greatestExponent := by positivity
    linarith
  obtain ⟨significand, power, heq⟩ := exists_nearest false hden modest
  refine ⟨significand, power, heq, ?_⟩
  rw [value_of_nearest hnum heq]
  have pos : (0 : ℚ) < 2 ^ unitExponent num den := by positivity
  refine ⟨(abs_unitsOf_sub_le hden).trans ?_, fun whole h => ?_, fun whole h => ?_⟩
  · have := zpow_le_zpow_right₀ (one_le_two : (1 : ℚ) ≤ 2) within
    linarith
  all_goals
    rw [natCast_eq_mul_zpow whole (within.trans fraction)] at h ⊢
    refine mul_le_mul_of_nonneg_right ?_ pos.le
  · exact_mod_cast le_unitsOf hden h
  · exact_mod_cast unitsOf_le hden h

/-- Two numbers are on the same sides of all whole numbers. -/
def SameSides (x y : ℚ) : Prop :=
  ∀ whole : Int, (whole ≤ x ↔ whole ≤ y) ∧ (x ≤ whole ↔ y ≤ whole)

theorem SameSides.floor_eq {x y : ℚ} (h : SameSides x y) : ⌊x⌋ = ⌊y⌋ :=
  eq_of_forall_le_iff fun whole => by rw [Int.le_floor, Int.le_floor, (h whole).1]

theorem SameSides.ceil_eq {x y : ℚ} (h : SameSides x y) : ⌈x⌉ = ⌈y⌉ :=
  eq_of_forall_ge_iff fun whole => by rw [Int.ceil_le, Int.ceil_le, (h whole).2]

/-- A quotient that is no whole number is at least one part of its divisor away from any. If half a
step is less, then rounding leaves the quotient on its sides of all whole numbers. -/
theorem IsRounded.sameSides {num den : Nat} (hden : 0 < den) {value step : ℚ}
    (h : IsRounded (num / den) value step) (fine : step / 2 < 1 / den) :
    SameSides value (num / den) := by
  have hq : (0 : ℚ) < den := by exact_mod_cast hden
  obtain ⟨low, high⟩ := abs_le.mp h.near
  have nonneg : (0 : ℚ) ≤ num / den := by positivity
  have valueNonneg : 0 ≤ value := by exact_mod_cast h.above 0 (by exact_mod_cast nonneg)
  refine fun whole => ⟨⟨fun reached => ?_, fun reached => ?_⟩, fun reached => ?_, fun reached => ?_⟩
  · by_contra short
    rw [not_le, div_lt_iff₀ hq] at short
    have short : (num : Int) + 1 ≤ whole * den := by exact_mod_cast short
    have short : (num + 1 : ℚ) ≤ whole * den := by exact_mod_cast short
    rw [← div_le_iff₀ hq, add_div] at short
    linarith
  · rcases le_total whole 0 with negative | positive
    · exact (Int.cast_nonpos.mpr negative).trans valueNonneg
    · lift whole to ℕ using positive
      exact_mod_cast h.above whole (by exact_mod_cast reached)
  · by_contra long
    rw [not_le, lt_div_iff₀ hq] at long
    have long : whole * den + 1 ≤ (num : Int) := by exact_mod_cast long
    have long : (whole * den + 1 : ℚ) ≤ num := by exact_mod_cast long
    have long : (whole + 1 / den : ℚ) ≤ num / den := by
      rw [le_div_iff₀ hq, add_mul, one_div_mul_cancel hq.ne']
      exact long
    linarith
  · have positive : 0 ≤ whole := by exact_mod_cast nonneg.trans reached
    lift whole to ℕ using positive
    exact_mod_cast h.below whole (by exact_mod_cast reached)

end Reconciler.Double
