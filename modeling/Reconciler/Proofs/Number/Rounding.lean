import Reconciler.Number.Decimal
import Mathlib.Algebra.Order.Field.Power
import Mathlib.Tactic.FieldSimp
import Mathlib.Tactic.Linarith
import Mathlib.Tactic.Positivity
import Mathlib.Tactic.Ring

/-!
# Rounding to a floating-point number

A number in normal form owns an interval of the reals, and it is the nearest number to each
of them. The proof follows the computation: the unit of the last place is found from the two
lengths, the quotient is measured in this unit, and a tie goes to the even significand. Only
at a power of two does the unit below the number differ from the unit above it; there the
quotient has one bit too many and is carried. A quotient that is not too large has some nearest
number, and one that is too large has none.

Nothing here depends on how a number is written.
-/

namespace Reconciler.Double

/-- The normal form of finite numbers. -/
structure IsNormal (significand : Nat) (exponent : Int) : Prop where
  short : significand < 2 ^ 53
  least : leastExponent ≤ exponent
  greatest : exponent ≤ greatestExponent
  full : 2 ^ 52 ≤ significand ∨ exponent = leastExponent

/-! ### Powers of two -/

theorem twoPow_eq (exponent : Int) : twoPow exponent = (2 : ℚ) ^ exponent := by
  unfold twoPow
  split
  · rename_i h
    lift exponent to ℕ using h
    simp
  · obtain ⟨n, rfl⟩ : ∃ n : ℕ, exponent = -n := ⟨(-exponent).toNat, by omega⟩
    simp [Rat.mkRat_eq_div]

theorem twoPow_sub_two (exponent : Int) : twoPow (exponent - 2) = (2 : ℚ) ^ exponent / 4 := by
  rw [twoPow_eq, zpow_sub₀ two_ne_zero]
  norm_num

/-- The quotient measured in units is the quotient divided by the unit. -/
theorem inUnits_spec (num : Nat) {den : Nat} (hden : 0 < den) (exponent : Int) :
    0 < (inUnits num den exponent).2 ∧
      ((inUnits num den exponent).1 : ℚ) * (2 : ℚ) ^ exponent =
        (num / den : ℚ) * (inUnits num den exponent).2 := by
  have hq : (den : ℚ) ≠ 0 := by exact_mod_cast hden.ne'
  unfold inUnits
  split
  · rename_i h
    lift exponent to ℕ using h
    refine ⟨by simpa using hden, ?_⟩
    simp
    field_simp
  · obtain ⟨n, rfl⟩ : ∃ n : ℕ, exponent = -n := ⟨(-exponent).toNat, by omega⟩
    refine ⟨hden, ?_⟩
    simp
    field_simp

theorem inUnits_pos (num : Nat) {den : Nat} (hden : 0 < den) (exponent : Int) :
    (0 : ℚ) < (inUnits num den exponent).2 := by
  exact_mod_cast (inUnits_spec num hden exponent).1

theorem inUnits_eq (num : Nat) {den : Nat} (hden : 0 < den) (exponent : Int) :
    ((inUnits num den exponent).1 : ℚ) =
      num / den / 2 ^ exponent * (inUnits num den exponent).2 := by
  have pos : (0 : ℚ) < 2 ^ exponent := by positivity
  rw [div_mul_eq_mul_div, eq_div_iff pos.ne']
  exact (inUnits_spec num hden exponent).2

theorem le_inUnits_iff (num : Nat) {den : Nat} (hden : 0 < den) (exponent : Int) (bound : ℚ) :
    bound * (inUnits num den exponent).2 ≤ (inUnits num den exponent).1 ↔
      bound * 2 ^ exponent ≤ num / den := by
  have pos : (0 : ℚ) < 2 ^ exponent := by positivity
  rw [inUnits_eq num hden, mul_le_mul_iff_of_pos_right (inUnits_pos num hden exponent),
    le_div_iff₀ pos]

theorem inUnits_le_iff (num : Nat) {den : Nat} (hden : 0 < den) (exponent : Int) (bound : ℚ) :
    (inUnits num den exponent).1 ≤ bound * (inUnits num den exponent).2 ↔
      (num / den : ℚ) ≤ bound * 2 ^ exponent := by
  have pos : (0 : ℚ) < 2 ^ exponent := by positivity
  rw [inUnits_eq num hden, mul_le_mul_iff_of_pos_right (inUnits_pos num hden exponent),
    div_le_iff₀ pos]

/-- A number lies between the power of two of its length and the next one. -/
theorem log2_bounds {n : Nat} (hn : 0 < n) :
    (2 : ℚ) ^ n.log2 ≤ n ∧ (n : ℚ) < 2 * 2 ^ n.log2 := by
  have high := Nat.lt_log2_self (n := n)
  rw [Nat.pow_succ] at high
  refine ⟨by exact_mod_cast Nat.log2_self_le hn.ne', ?_⟩
  exact_mod_cast (by omega : n < 2 * 2 ^ n.log2)

/-- The unit of a quotient gives it 53 bits, unless that unit is below the least one. -/
theorem exists_unitExponent {num den : Nat} (hnum : 0 < num) (hden : 0 < den) :
    ∃ exponent, unitExponent num den = max exponent leastExponent ∧
      (2 : ℚ) ^ 52 * 2 ^ exponent ≤ num / den ∧ (num / den : ℚ) < 2 ^ 53 * 2 ^ exponent := by
  have hq : (0 : ℚ) < den := by exact_mod_cast hden
  obtain ⟨numLow, numHigh⟩ := log2_bounds hnum
  obtain ⟨denLow, denHigh⟩ := log2_bounds hden
  generalize hguess : (num.log2 : Int) - den.log2 - 52 = guess
  have unit : (2 : ℚ) ^ guess * 2 ^ 52 * 2 ^ den.log2 = 2 ^ num.log2 := by
    rw [← zpow_natCast, ← zpow_natCast, ← zpow_natCast, ← zpow_add₀ two_ne_zero,
      ← zpow_add₀ two_ne_zero, ← hguess]
    congr 1
    omega
  have pos : (0 : ℚ) < 2 ^ guess := by positivity
  have low : (2 : ℚ) ^ 51 * 2 ^ guess ≤ num / den := by
    rw [le_div_iff₀ hq]
    nlinarith
  have high : (num / den : ℚ) < 2 ^ 53 * 2 ^ guess := by
    rw [div_lt_iff₀ hq]
    nlinarith
  have unitPos := (inUnits_spec num hden guess).1
  unfold unitExponent
  rw [hguess]
  dsimp only
  split
  · rename_i short
    rw [Nat.pow_eq, Nat.div_lt_iff_lt_mul unitPos] at short
    have above : (num / den : ℚ) < 2 ^ 52 * 2 ^ guess := by
      rw [← not_le, ← le_inUnits_iff num hden, not_le]
      exact_mod_cast short
    refine ⟨guess - 1, rfl, ?_, ?_⟩
    · rw [zpow_sub_one₀ two_ne_zero]
      linarith
    · rw [zpow_sub_one₀ two_ne_zero]
      linarith
  · rename_i full
    rw [Nat.pow_eq, Nat.div_lt_iff_lt_mul unitPos, not_lt] at full
    refine ⟨guess, rfl, ?_, high⟩
    rw [← le_inUnits_iff num hden]
    exact_mod_cast full

theorem unitExponent_eq {num den : Nat} (hnum : 0 < num) (hden : 0 < den) {exponent : Int}
    (least : leastExponent ≤ exponent) (high : (num / den : ℚ) < 2 ^ 53 * 2 ^ exponent)
    (low : (2 : ℚ) ^ 52 * 2 ^ exponent ≤ num / den ∨ exponent = leastExponent) :
    unitExponent num den = exponent := by
  obtain ⟨found, heq, foundLow, foundHigh⟩ := exists_unitExponent hnum hden
  have below : found < exponent + 1 := by
    refine (zpow_lt_zpow_iff_right₀ (one_lt_two : (1 : ℚ) < 2)).mp ?_
    rw [zpow_add_one₀ two_ne_zero]
    linarith
  rw [heq]
  rcases low with low | rfl
  · have above : exponent < found + 1 := by
      refine (zpow_lt_zpow_iff_right₀ (one_lt_two : (1 : ℚ) < 2)).mp ?_
      rw [zpow_add_one₀ two_ne_zero]
      linarith
    omega
  · omega

/-! ### Rounding to a whole number -/

/-- A quotient at most half away from a whole number rounds to it; exactly half away, only to
an even one. -/
theorem roundEven_eq {num den whole : Nat} (low : 2 * (whole * den) ≤ 2 * num + den)
    (high : 2 * num ≤ 2 * (whole * den) + den)
    (tie : whole % 2 = 0 ∨
      2 * (whole * den) < 2 * num + den ∧ 2 * num < 2 * (whole * den) + den)
    (hden : 0 < den) : roundEven num den = whole := by
  have split := Nat.div_add_mod num den
  have small := Nat.mod_lt num hden
  have near : whole = num / den ∨ whole = num / den + 1 := by
    have upper : whole < num / den + 2 := by
      by_contra far
      have := Nat.mul_le_mul_left den (not_lt.mp far)
      rw [Nat.mul_add, Nat.mul_comm den whole] at this
      omega
    have lower : num / den < whole + 1 := by
      by_contra far
      have := Nat.mul_le_mul_left den (not_lt.mp far)
      rw [Nat.mul_add, Nat.mul_comm den whole] at this
      omega
    omega
  unfold roundEven
  generalize num / den = quotient at *
  dsimp only
  rcases near with rfl | rfl
  · rw [Nat.mul_comm whole den] at *
    split_ifs <;> omega
  · rw [Nat.add_mul, Nat.mul_comm quotient den] at *
    split_ifs <;> omega

/-- The same of a quotient that is measured in units. -/
theorem roundEven_inUnits {num den whole : Nat} (hden : 0 < den) {exponent : Int}
    (low : (whole - 1 / 2 : ℚ) * 2 ^ exponent ≤ num / den)
    (high : (num / den : ℚ) ≤ (whole + 1 / 2) * 2 ^ exponent)
    (tie : whole % 2 = 0 ∨ (whole - 1 / 2 : ℚ) * 2 ^ exponent < num / den ∧
      (num / den : ℚ) < (whole + 1 / 2) * 2 ^ exponent) :
    roundEven (inUnits num den exponent).1 (inUnits num den exponent).2 = whole := by
  have unitPos := (inUnits_spec num hden exponent).1
  rw [← le_inUnits_iff num hden] at low
  rw [← inUnits_le_iff num hden] at high
  rw [← not_le (a := (num / den : ℚ)), ← not_le (b := (num / den : ℚ)),
    ← le_inUnits_iff num hden, ← inUnits_le_iff num hden, not_le, not_le] at tie
  generalize (inUnits num den exponent).1 = scaled at *
  generalize (inUnits num den exponent).2 = unit at *
  refine roundEven_eq ?_ ?_ (tie.imp_right fun ⟨low, high⟩ => ⟨?_, ?_⟩) unitPos
  · have : (2 * (whole * unit) : ℚ) ≤ 2 * scaled + unit := by linarith
    exact_mod_cast this
  · have : (2 * scaled : ℚ) ≤ 2 * (whole * unit) + unit := by linarith
    exact_mod_cast this
  · have : (2 * (whole * unit) : ℚ) < 2 * scaled + unit := by linarith
    exact_mod_cast this
  · have : (2 * scaled : ℚ) < 2 * (whole * unit) + unit := by linarith
    exact_mod_cast this

/-! ### The reals that round to a number -/

/-- How far below a number its interval reaches, in quarters of the unit. -/
def reach (significand : Nat) (exponent : Int) : Nat :=
  if significand = Nat.pow 2 52 && leastExponent < exponent then 1 else 2

theorem reach_le (significand : Nat) (exponent : Int) : reach significand exponent ≤ 2 := by
  unfold reach
  split <;> omega

variable {significand : Nat} {exponent : Int}

theorem interval_value (significand : Nat) (exponent : Int) :
    (interval significand exponent).value = significand * (2 : ℚ) ^ exponent := by
  rw [interval, twoPow_sub_two]
  push_cast
  ring

theorem interval_low (hs : 0 < significand) : (interval significand exponent).low =
    (significand - reach significand exponent / 4) * (2 : ℚ) ^ exponent := by
  have fits : reach significand exponent ≤ 4 * significand := by
    have := reach_le significand exponent
    omega
  change ((4 * significand - reach significand exponent : ℕ) : ℚ) * twoPow (exponent - 2) = _
  rw [twoPow_sub_two, Nat.cast_sub fits]
  push_cast
  ring

theorem interval_high (significand : Nat) (exponent : Int) :
    (interval significand exponent).high = (significand + 1 / 2) * (2 : ℚ) ^ exponent := by
  rw [interval, twoPow_sub_two]
  push_cast
  ring

theorem Interval.holds_iff {i : Interval} {x : ℚ} : i.holds x = true ↔
    i.low ≤ x ∧ x ≤ i.high ∧ (i.closed = true ∨ i.low < x ∧ x < i.high) := by
  unfold Interval.holds
  cases i.closed with
  | true => simp
  | false =>
    simp only [Bool.false_eq_true, if_false, Bool.and_eq_true, decide_eq_true_eq, false_or]
    exact ⟨fun ⟨low, high⟩ => ⟨low.le, high.le, low, high⟩, fun ⟨_, _, both⟩ => both⟩

/-- A real of the interval lies within half a unit of the number, and strictly so unless the
significand is even. -/
theorem holds_half (hs : 0 < significand) {x : ℚ}
    (h : (interval significand exponent).holds x = true) :
    (significand - 1 / 2 : ℚ) * 2 ^ exponent ≤ x ∧ x ≤ (significand + 1 / 2) * 2 ^ exponent ∧
      (significand % 2 = 0 ∨ (significand - 1 / 2 : ℚ) * 2 ^ exponent < x ∧
        x < (significand + 1 / 2) * 2 ^ exponent) := by
  obtain ⟨low, high, tie⟩ := Interval.holds_iff.mp h
  rw [interval_low hs] at low tie
  rw [interval_high] at high tie
  have pos : (0 : ℚ) < 2 ^ exponent := by positivity
  have reaches : (reach significand exponent : ℚ) ≤ 2 := by
    exact_mod_cast reach_le significand exponent
  have below : (significand - 1 / 2 : ℚ) * 2 ^ exponent ≤
      (significand - reach significand exponent / 4) * 2 ^ exponent :=
    mul_le_mul_of_nonneg_right (by linarith) pos.le
  refine ⟨below.trans low, high, tie.imp (fun even => ?_) fun ⟨low, high⟩ => ?_⟩
  · simpa [interval] using even
  · exact ⟨below.trans_lt low, high⟩

/-- Below a power of two the interval reaches only a quarter of a unit. -/
theorem holds_quarter (above : leastExponent < exponent) {x : ℚ}
    (h : (interval (2 ^ 52) exponent).holds x = true) :
    (2 ^ 52 - 1 / 4 : ℚ) * 2 ^ exponent ≤ x := by
  have low := (Interval.holds_iff.mp h).1
  have one : reach (2 ^ 52) exponent = 1 := by simp [reach, above]
  rw [interval_low (by norm_num), one] at low
  exact_mod_cast low

/-- A number is the nearest one to every real of its interval. -/
theorem nearest_eq (normal : IsNormal significand exponent) (hs : 0 < significand)
    {num den : Nat} (hden : 0 < den)
    (h : (interval significand exponent).holds (num / den : ℚ) = true) (negative : Bool) :
    nearest negative num den = .finite negative significand exponent := by
  obtain ⟨low, high, tie⟩ := holds_half hs h
  have pos : (0 : ℚ) < 2 ^ exponent := by positivity
  have one : (1 : ℚ) ≤ significand := by exact_mod_cast hs
  have short : (significand + 1 : ℚ) ≤ 2 ^ 53 := by exact_mod_cast normal.short
  have positive : (0 : ℚ) < num / den :=
    (mul_pos (by linarith : (0 : ℚ) < significand - 1 / 2) pos).trans_le low
  have hnum : 0 < num := by
    refine Nat.pos_of_ne_zero fun zero => ?_
    rw [zero, Nat.cast_zero, zero_div] at positive
    exact lt_irrefl _ positive
  unfold nearest
  rw [if_neg hnum.ne']
  by_cases full : (2 : ℚ) ^ 52 * 2 ^ exponent ≤ num / den ∨ exponent = leastExponent
  · have unit : unitExponent num den = exponent := by
      refine unitExponent_eq hnum hden normal.least (high.trans_lt ?_) full
      exact mul_lt_mul_of_pos_right (by linarith) pos
    have rounded := roundEven_inUnits hden low high tie
    have inside : significand ≠ Nat.pow 2 53 := normal.short.ne
    dsimp only
    rw [unit, rounded, if_neg inside, if_neg (not_lt.mpr normal.greatest)]
  · -- The quotient lies below the power of two that the number is: it has a bit too many.
    rw [not_or, not_le] at full
    obtain ⟨below, above⟩ := full
    have least := lt_of_le_of_ne normal.least (Ne.symm above)
    have power : significand = 2 ^ 52 := by
      have fewest := normal.full.resolve_right above
      have := lt_of_mul_lt_mul_right (low.trans_lt below) pos.le
      have most : (significand : ℚ) < 2 ^ 52 + 1 := by linarith
      have : significand < 2 ^ 52 + 1 := by exact_mod_cast most
      omega
    subst power
    have half : (2 : ℚ) ^ exponent = 2 * 2 ^ (exponent - 1) := by
      rw [zpow_sub_one₀ two_ne_zero]
      ring
    have quarter := holds_quarter least h
    have pos' : (0 : ℚ) < 2 ^ (exponent - 1) := by positivity
    rw [half] at quarter below
    have unit : unitExponent num den = exponent - 1 := by
      refine unitExponent_eq hnum hden (by omega) (by linarith) (.inl ?_)
      linarith
    have rounded : roundEven (inUnits num den (exponent - 1)).1
        (inUnits num den (exponent - 1)).2 = 2 ^ 53 := by
      refine roundEven_inUnits hden ?_ ?_ (.inl (by norm_num))
      · push_cast
        linarith
      · push_cast
        linarith
    have carried : (2 : Nat) ^ 53 = Nat.pow 2 53 := rfl
    dsimp only
    rw [unit, rounded, if_pos carried, sub_add_cancel, if_neg (not_lt.mpr normal.greatest)]
    rfl

/-! ### Quotients that are not too large -/

/-- Rounding adds at most a half. -/
theorem roundEven_mul_le (num den : Nat) :
    2 * (roundEven num den * den) ≤ 2 * num + den := by
  have parts := Nat.div_add_mod num den
  unfold roundEven
  generalize num / den = quotient at *
  generalize num % den = rest at *
  dsimp only
  split_ifs <;> simp only [Nat.add_mul, Nat.mul_comm quotient den] <;> omega

/-- A quotient below the middle of two whole numbers of units does not reach the greater one. -/
theorem roundEven_inUnits_lt {num den whole : Nat} (hden : 0 < den) {exponent : Int}
    (h : (num / den : ℚ) < (whole - 1 / 2) * 2 ^ exponent) :
    roundEven (inUnits num den exponent).1 (inUnits num den exponent).2 < whole := by
  have rounded := roundEven_mul_le (inUnits num den exponent).1 (inUnits num den exponent).2
  rw [← not_le, ← le_inUnits_iff num hden, not_le] at h
  generalize (inUnits num den exponent).1 = scaled at *
  generalize (inUnits num den exponent).2 = unit at *
  have below : (2 * scaled + unit : ℚ) < 2 * (whole * unit) := by linarith
  have below : 2 * scaled + unit < 2 * (whole * unit) := by exact_mod_cast below
  exact lt_of_mul_lt_mul_right (by omega : roundEven scaled unit * unit < whole * unit)
    (Nat.zero_le unit)

/-- A quotient rounds to a finite number if it lies below the middle between the greatest number
and the power of two that comes next. -/
theorem exists_nearest (negative : Bool) {num den : Nat} (hden : 0 < den)
    (h : (num / den : ℚ) < (2 ^ 53 - 1 / 2) * 2 ^ greatestExponent) :
    ∃ significand exponent, nearest negative num den = .finite negative significand exponent := by
  rcases num.eq_zero_or_pos with rfl | hnum
  · exact ⟨_, _, nearest_zero negative den⟩
  obtain ⟨found, unit, low, -⟩ := exists_unitExponent hnum hden
  have least : leastExponent < greatestExponent := by decide
  have pos : (0 : ℚ) < 2 ^ greatestExponent := by positivity
  have most : found < greatestExponent + 1 := by
    refine (zpow_lt_zpow_iff_right₀ (one_lt_two : (1 : ℚ) < 2)).mp ?_
    rw [zpow_add_one₀ two_ne_zero]
    linarith
  have within : unitExponent num den ≤ greatestExponent := by omega
  unfold nearest
  rw [if_neg hnum.ne']
  dsimp only
  split
  · rename_i carried
    -- At the greatest exponent the quotient is too small to be carried.
    have below : unitExponent num den ≠ greatestExponent := by
      intro greatest
      rw [greatest] at carried
      have full : (num / den : ℚ) < ((2 ^ 53 : Nat) - 1 / 2) * 2 ^ greatestExponent := by
        exact_mod_cast h
      exact (roundEven_inUnits_lt hden full).ne carried
    rw [if_neg (by dsimp only; omega)]
    exact ⟨_, _, rfl⟩
  · rw [if_neg (by dsimp only; omega)]
    exact ⟨_, _, rfl⟩

/-- From that middle on, a quotient is rounded beyond all finite numbers. -/
theorem nearest_of_overflow (negative : Bool) {num den : Nat} (hden : 0 < den)
    (h : (2 ^ 53 - 1 / 2) * 2 ^ greatestExponent ≤ (num / den : ℚ)) :
    nearest negative num den = .infinite negative := by
  have pos : (0 : ℚ) < 2 ^ greatestExponent := by positivity
  have hnum : 0 < num := by
    refine Nat.pos_of_ne_zero fun zero => ?_
    rw [zero, Nat.cast_zero, zero_div] at h
    linarith
  obtain ⟨found, unit, -, high⟩ := exists_unitExponent hnum hden
  have least : leastExponent < greatestExponent := by decide
  have beyond : greatestExponent ≤ found := by
    refine Int.lt_add_one_iff.mp ((zpow_lt_zpow_iff_right₀ (one_lt_two : (1 : ℚ) < 2)).mp ?_)
    rw [zpow_add_one₀ two_ne_zero]
    linarith
  rw [max_eq_left (by omega)] at unit
  unfold nearest
  rw [if_neg hnum.ne', unit]
  dsimp only
  rcases beyond.eq_or_lt with rfl | beyond
  · -- At the greatest exponent the quotient is carried; in the middle, because this is even.
    have carried : roundEven (inUnits num den greatestExponent).1
        (inUnits num den greatestExponent).2 = 2 ^ 53 := by
      refine roundEven_inUnits hden ?_ ?_ (.inl (by norm_num))
      · exact_mod_cast h
      · push_cast
        linarith
    have full : (2 : Nat) ^ 53 = Nat.pow 2 53 := rfl
    rw [carried, if_pos full]
    exact if_pos (Int.lt_succ greatestExponent)
  · refine if_pos ?_
    split <;> dsimp only <;> omega

/-- A finite number that is not negative rounds up to a whole number that is not negative. -/
theorem ceil?_nonneg (significand : Nat) (exponent : Int) :
    ∃ whole, (Double.finite false significand exponent).ceil? = some whole ∧ 0 ≤ whole := by
  generalize hvalue : (if 0 ≤ exponent then ((significand * Nat.pow 2 exponent.toNat : Nat) : Rat)
    else mkRat significand (Nat.pow 2 (-exponent).toNat)) = value
  have nonneg : 0 ≤ value := by
    rw [← hvalue]
    split
    · exact Nat.cast_nonneg _
    · rw [Rat.mkRat_eq_div]
      positivity
  refine ⟨value.ceil, ?_, ?_⟩
  · rw [ceil?_eq, toRat?, hvalue]
    rfl
  · have num := Rat.num_nonneg.mpr nonneg
    unfold Rat.ceil
    split
    · exact num
    · have := Int.ediv_nonneg num (Int.natCast_nonneg value.den)
      omega

end Reconciler.Double
