import Reconciler.Proofs.Number.Rounding
import Reconciler.Proofs.Text.Digits
import Mathlib.Data.List.DropRight

/-!
# The shortest digits of a number

The digits that are written for a number spell a real of its interval. The search for them
ends: the decimal point is found because the first guess is off by less than the search can
make up for, and a grid of seventeen digits is fine enough to have a point in every interval.

That no shorter digits would do is not needed here.
-/

namespace Reconciler.Double

open Reconciler.Text

/-! ### Powers of ten -/

theorem tenPow_eq (exponent : Int) : tenPow exponent = (10 : ℚ) ^ exponent := by
  unfold tenPow
  split
  · rename_i h
    lift exponent to ℕ using h
    simp
  · obtain ⟨n, rfl⟩ : ∃ n : ℕ, exponent = -n := ⟨(-exponent).toNat, by omega⟩
    simp [Rat.mkRat_eq_div]

/-- Ten lies between the `93/28`th and the `10/3`th power of two. -/
theorem ten_zpow_le_two_zpow {exponent power : Int} (h : 10 * exponent ≤ 3 * power)
    (h' : 93 * exponent ≤ 28 * power) : (10 : ℚ) ^ exponent ≤ 2 ^ power := by
  have tenPos : (0 : ℚ) ≤ 10 ^ exponent := by positivity
  have twoPos : (0 : ℚ) ≤ 2 ^ power := by positivity
  have one : (1 : ℚ) ≤ 10 := by norm_num
  rcases le_total 0 power with positive | negative
  · lift power to ℕ using positive
    refine (pow_le_pow_iff_left₀ tenPos twoPos (by norm_num : (10 : ℕ) ≠ 0)).mp ?_
    calc ((10 : ℚ) ^ exponent) ^ 10 = 10 ^ (exponent * 10) := by
          rw [zpow_mul]
          rfl
      _ ≤ 10 ^ (3 * (power : Int)) := zpow_le_zpow_right₀ one (by omega)
      _ = (10 ^ 3) ^ power := by
          rw [zpow_mul, zpow_natCast]
          rfl
      _ ≤ (2 ^ 10) ^ power := pow_le_pow_left₀ (by norm_num) (by norm_num) power
      _ = (2 ^ (power : Int)) ^ 10 := by rw [zpow_natCast, ← pow_mul, ← pow_mul, mul_comm]
  · obtain ⟨size, rfl⟩ : ∃ size : ℕ, power = -size := ⟨(-power).toNat, by omega⟩
    refine (pow_le_pow_iff_left₀ tenPos twoPos (by norm_num : (93 : ℕ) ≠ 0)).mp ?_
    calc ((10 : ℚ) ^ exponent) ^ 93 = 10 ^ (exponent * 93) := by
          rw [zpow_mul]
          rfl
      _ ≤ 10 ^ (28 * (-size : Int)) := zpow_le_zpow_right₀ one (by omega)
      _ = ((10 ^ 28) ^ size)⁻¹ := by
          rw [zpow_mul, zpow_neg, zpow_natCast]
          rfl
      _ ≤ ((2 ^ 93) ^ size)⁻¹ :=
          inv_anti₀ (by positivity) (pow_le_pow_left₀ (by norm_num) (by norm_num) size)
      _ = (2 ^ (-size : Int)) ^ 93 := by
          rw [zpow_neg, zpow_natCast, inv_pow, ← pow_mul, ← pow_mul, mul_comm]

theorem two_zpow_le_ten_zpow {exponent power : Int} (h : 3 * power ≤ 10 * exponent)
    (h' : 28 * power ≤ 93 * exponent) : (2 : ℚ) ^ power ≤ 10 ^ exponent := by
  have inverse : (10 : ℚ) ^ (-exponent) ≤ 2 ^ (-power) :=
    ten_zpow_le_two_zpow (by omega) (by omega)
  rw [zpow_neg, zpow_neg] at inverse
  exact (inv_le_inv₀ (by positivity) (by positivity)).mp inverse

/-! ### The decimal point -/

theorem decimalPoint_spec {value : ℚ} {fuel : Nat} {guess : Int}
    (low : (10 : ℚ) ^ (guess - 1) ≤ value) (high : value < 10 ^ (guess + fuel)) :
    (10 : ℚ) ^ (decimalPoint value fuel guess - 1) ≤ value ∧
      value < 10 ^ decimalPoint value fuel guess := by
  induction fuel generalizing guess with
  | zero =>
    rw [Nat.cast_zero, add_zero] at high
    exact ⟨low, high⟩
  | succ fuel ih =>
    rw [decimalPoint, tenPow_eq]
    split
    · rename_i below
      refine ih (by simpa using below) ?_
      rwa [add_assoc, add_comm 1, ← Nat.cast_succ]
    · rename_i above
      exact ⟨low, not_le.mp above⟩

/-- The decimal point of a number: the least power of ten that exceeds it. -/
def pointOf (significand : Nat) (exponent : Int) : Int :=
  decimalPoint (interval significand exponent).value 8
    (((Nat.log2 significand : Int) + exponent) * 1233 / 4096 - 2)

variable {significand : Nat} {exponent : Int}

theorem pointOf_spec (normal : IsNormal significand exponent) (hs : 0 < significand) :
    (10 : ℚ) ^ (pointOf significand exponent - 1) ≤ significand * 2 ^ exponent ∧
      (significand * 2 ^ exponent : ℚ) < 10 ^ pointOf significand exponent := by
  have bits : significand.log2 < 53 := (Nat.log2_lt hs.ne').mpr normal.short
  have least := normal.least
  have greatest := normal.greatest
  simp only [leastExponent, greatestExponent] at least greatest
  have pos : (0 : ℚ) < 2 ^ exponent := by positivity
  have low : (2 : ℚ) ^ (significand.log2 + exponent) ≤ significand * 2 ^ exponent := by
    rw [zpow_add₀ two_ne_zero, zpow_natCast]
    have : (2 : ℚ) ^ significand.log2 ≤ significand := by
      exact_mod_cast Nat.log2_self_le hs.ne'
    exact mul_le_mul_of_nonneg_right this pos.le
  have high : (significand * 2 ^ exponent : ℚ) < 2 ^ (significand.log2 + exponent + 1) := by
    rw [add_right_comm, ← Nat.cast_succ, zpow_add₀ two_ne_zero, zpow_natCast]
    have : (significand : ℚ) < 2 ^ (significand.log2 + 1) := by
      exact_mod_cast Nat.lt_log2_self
    exact mul_lt_mul_of_pos_right this pos
  rw [pointOf, interval_value]
  refine decimalPoint_spec ?_ ?_
  · exact (ten_zpow_le_two_zpow (by omega) (by omega)).trans low
  · exact high.trans_le (two_zpow_le_ten_zpow (by omega) (by omega))

/-! ### The grid -/

/-- The grid point at or below a number. -/
def gridBelow (i : Interval) (point : Int) (count : Nat) : Nat :=
  (i.value / tenPow (point - count)).floor.toNat

theorem gridBelow_spec {i : Interval} (nonneg : 0 ≤ i.value) (point : Int) (count : Nat) :
    (gridBelow i point count * 10 ^ (point - count) : ℚ) ≤ i.value ∧
      i.value < ((gridBelow i point count + 1) * 10 ^ (point - count) : ℚ) := by
  have unitPos : (0 : ℚ) < 10 ^ (point - count) := by positivity
  unfold gridBelow
  rw [tenPow_eq]
  generalize (10 : ℚ) ^ (point - count) = unit at *
  have whole : ((i.value / unit).floor.toNat : ℚ) = (i.value / unit).floor := by
    have floorNonneg : 0 ≤ (i.value / unit).floor := by
      rw [Rat.le_floor_iff, Int.cast_zero]
      exact div_nonneg nonneg unitPos.le
    exact_mod_cast Int.toNat_of_nonneg floorNonneg
  have low := Rat.floor_le (i.value / unit)
  have high := Rat.lt_floor_add_one (i.value / unit)
  rw [le_div_iff₀ unitPos] at low
  rw [div_lt_iff₀ unitPos] at high
  push_cast at high
  rw [whole]
  exact ⟨low, high⟩

/-- A grid point that is chosen lies in the interval, and one is chosen if either of the two
beside the number does. -/
theorem onGrid?_spec (i : Interval) (point : Int) (count : Nat) :
    (∀ grid, i.onGrid? point count = some grid →
      i.holds (grid * (10 : ℚ) ^ (point - count)) = true) ∧
    (i.onGrid? point count = none →
      i.holds (gridBelow i point count * (10 : ℚ) ^ (point - count)) = false ∧
      i.holds ((gridBelow i point count + 1 : ℕ) * (10 : ℚ) ^ (point - count)) = false) := by
  unfold Interval.onGrid? gridBelow
  dsimp only
  rw [tenPow_eq]
  generalize (i.value / (10 : ℚ) ^ (point - count)).floor.toNat = below
  split
  · rename_i lower upper
    exact ⟨fun grid heq => Option.some.inj heq ▸ lower, nofun⟩
  · rename_i lower upper
    exact ⟨fun grid heq => Option.some.inj heq ▸ upper, nofun⟩
  · rename_i lower upper
    exact ⟨nofun, fun _ => ⟨lower, upper⟩⟩
  · rename_i lower upper
    split_ifs
    · exact ⟨fun grid heq => Option.some.inj heq ▸ lower, nofun⟩
    · exact ⟨fun grid heq => Option.some.inj heq ▸ upper, nofun⟩
    · exact ⟨fun grid heq => Option.some.inj heq ▸ lower, nofun⟩
    · exact ⟨fun grid heq => Option.some.inj heq ▸ upper, nofun⟩

/-- Seventeen digits resolve less than the interval holds below the number. -/
theorem unit_lt_reach (normal : IsNormal significand exponent) (hs : 0 < significand) :
    (10 : ℚ) ^ (pointOf significand exponent - 17) <
      reach significand exponent / 2 * 2 ^ exponent := by
  have low := (pointOf_spec normal hs).1
  have pos : (0 : ℚ) < 2 ^ exponent := by positivity
  have split : pointOf significand exponent - 1 = 16 + (pointOf significand exponent - 17) := by
    omega
  rw [split, zpow_add₀ (by norm_num)] at low
  generalize (10 : ℚ) ^ (pointOf significand exponent - 17) = unit at *
  have sixteen : ((10 : ℚ) ^ (16 : Int)) = 10 ^ 16 := rfl
  rw [sixteen] at low
  by_cases power : significand = 2 ^ 52
  · have least : (1 : ℚ) ≤ reach significand exponent := by
      unfold reach
      split <;> norm_num
    rw [power] at low
    have narrow : (1 / 2 : ℚ) * 2 ^ exponent ≤ reach significand exponent / 2 * 2 ^ exponent :=
      mul_le_mul_of_nonneg_right (by linarith) pos.le
    push_cast at low
    linarith
  · have two : reach significand exponent = 2 := by
      have unequal : significand ≠ Nat.pow 2 52 := power
      simp [reach, unequal]
    have short : (significand : ℚ) ≤ 2 ^ 53 := by exact_mod_cast normal.short.le
    have bound : (significand * 2 ^ exponent : ℚ) ≤ 2 ^ 53 * 2 ^ exponent :=
      mul_le_mul_of_nonneg_right short pos.le
    rw [two]
    push_cast
    linarith

/-- The grid of seventeen digits has a point in the interval: the number lies between two grid
points, of which one is at most half a unit away. -/
theorem onGrid?_seventeen (normal : IsNormal significand exponent) (hs : 0 < significand) :
    (interval significand exponent).onGrid? (pointOf significand exponent) 17 ≠ none := by
  intro missed
  obtain ⟨belowOut, aboveOut⟩ := (onGrid?_spec _ _ _).2 missed
  have fine := unit_lt_reach normal hs
  have pos : (0 : ℚ) < 2 ^ exponent := by positivity
  have reaches : (reach significand exponent / 4 * 2 ^ exponent : ℚ) ≤ 1 / 2 * 2 ^ exponent := by
    have : (reach significand exponent : ℚ) ≤ 2 := by exact_mod_cast reach_le significand exponent
    exact mul_le_mul_of_nonneg_right (by linarith) pos.le
  have inside : ∀ x : ℚ, (significand - reach significand exponent / 4) * 2 ^ exponent < x →
      x < (significand + 1 / 2) * 2 ^ exponent →
      (interval significand exponent).holds x = true := by
    intro x low high
    rw [Interval.holds_iff, interval_low hs, interval_high]
    exact ⟨low.le, high.le, .inr ⟨low, high⟩⟩
  have nonneg : 0 ≤ (interval significand exponent).value := by
    rw [interval_value]
    positivity
  obtain ⟨low, high⟩ := gridBelow_spec nonneg (pointOf significand exponent) 17
  rw [interval_value] at low high
  push_cast at low high belowOut aboveOut
  generalize (gridBelow (interval significand exponent) (pointOf significand exponent) 17) = below
    at *
  generalize (10 : ℚ) ^ (pointOf significand exponent - 17) = unit at *
  rcases le_total (significand * 2 ^ exponent - below * unit : ℚ) (unit / 2) with near | far
  · have holds := inside (below * unit) (by linarith) (by linarith)
    rw [belowOut] at holds
    cases holds
  · have holds := inside ((below + 1) * unit) (by linarith) (by linarith)
    rw [aboveOut] at holds
    cases holds

theorem holds_firstGrid (normal : IsNormal significand exponent) (hs : 0 < significand)
    {fuel count : Nat} (some : 0 < fuel) (total : count + fuel = 18) :
    ∀ found, (interval significand exponent).firstGrid (pointOf significand exponent) fuel count =
      found → (interval significand exponent).holds
        (found.1 * (10 : ℚ) ^ (pointOf significand exponent - found.2)) = true := by
  induction fuel generalizing count with
  | zero => exact absurd some (lt_irrefl 0)
  | succ fuel ih =>
    rintro found rfl
    rw [Interval.firstGrid]
    split
    · rename_i grid hgrid
      exact (onGrid?_spec _ _ _).1 grid hgrid
    · rename_i missed
      by_cases last : fuel = 0
      · obtain rfl : count = 17 := by omega
        exact (onGrid?_seventeen normal hs missed).elim
      · exact ih (Nat.pos_of_ne_zero last) (by omega) _ rfl

/-! ### Digits -/

/-- The number that digits spell. -/
def Digits.value (d : Digits) : ℚ :=
  ofDigits d.digits * (10 : ℚ) ^ (d.point - d.digits.length)

theorem exists_dropZeros (digits : List Nat) :
    ∃ count, dropZeros digits ++ List.replicate count 0 = digits := by
  have zeros : ∀ digit ∈ digits.rtakeWhile (· == 0), digit = 0 := by
    intro digit hmem
    simpa using List.mem_rtakeWhile_imp hmem
  refine ⟨(digits.rtakeWhile (· == 0)).length, ?_⟩
  rw [← List.eq_replicate_of_mem zeros]
  exact List.rdropWhile_append_rtakeWhile

/-- Zeros at the end of the digits can be dropped, since the point counts from the front. -/
theorem value_dropZeros (digits : List Nat) (point : Int) :
    (ofDigits (dropZeros digits) : ℚ) * 10 ^ (point - (dropZeros digits).length) =
      ofDigits digits * 10 ^ (point - digits.length) := by
  obtain ⟨count, heq⟩ := exists_dropZeros digits
  generalize dropZeros digits = kept at *
  subst heq
  rw [ofDigits_append, ofDigits_replicate_zero, List.length_append, List.length_replicate,
    add_zero, Nat.cast_mul, Nat.cast_pow, mul_assoc, Nat.cast_ofNat, ← zpow_natCast,
    ← zpow_add₀ (by norm_num)]
  congr 2
  push_cast
  ring

theorem areDigits_dropZeros {digits : List Nat} (h : AreDigits digits) :
    AreDigits (dropZeros digits) := by
  obtain ⟨count, heq⟩ := exists_dropZeros digits
  intro digit hmem
  exact h digit (heq ▸ List.mem_append_left _ hmem)

/-- The shortest digits of a number spell a real of its interval. -/
theorem holds_shortest (normal : IsNormal significand exponent) (hs : 0 < significand) :
    (interval significand exponent).holds (shortest significand exponent).value = true := by
  have holds := holds_firstGrid normal hs (by norm_num : 0 < 17) rfl _ rfl
  unfold shortest Digits.value
  dsimp only
  rw [← pointOf]
  generalize (interval significand exponent).firstGrid (pointOf significand exponent) 17 1 = found
    at *
  have point : pointOf significand exponent + (digitsOf found.1).length - found.2 -
      (digitsOf found.1).length = pointOf significand exponent - found.2 := by omega
  rw [value_dropZeros, ofDigits_digitsOf, point]
  exact holds

theorem areDigits_shortest (significand : Nat) (exponent : Int) :
    AreDigits (shortest significand exponent).digits :=
  areDigits_dropZeros (areDigits_digitsOf _)

theorem pos_of_holds (hs : 0 < significand) {x : ℚ}
    (h : (interval significand exponent).holds x = true) : 0 < x := by
  have pos : (0 : ℚ) < 2 ^ exponent := by positivity
  have one : (1 : ℚ) ≤ significand := by exact_mod_cast hs
  exact (mul_pos (by linarith) pos).trans_le (holds_half hs h).1

theorem shortest_ne_nil (normal : IsNormal significand exponent) (hs : 0 < significand) :
    (shortest significand exponent).digits ≠ [] := by
  intro empty
  have positive := pos_of_holds hs (holds_shortest normal hs)
  rw [Digits.value, empty, ofDigits_nil, Nat.cast_zero, zero_mul] at positive
  exact lt_irrefl _ positive

end Reconciler.Double
