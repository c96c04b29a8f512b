import Reconciler.Proofs.Number.Nearness
import Reconciler.Proofs.Text.Digits
import Reconciler.Rollout.Quantity

/-!
# Percentages of pods

A percentage of a number of pods is a quotient by one hundred, and it is rounded to a binary
number before it is taken up or down to a whole number of pods. As long as the product is exact
as a binary number, this rounding moves the quotient by less than one hundredth part, so it
remains on the same sides of all whole numbers, and the number of pods is the one that the exact
quotient gives.

A percentage is read from its text first. One of more digits than a number may have as text
cannot be read, whatever it would be a share of.
-/

namespace Reconciler

namespace Text

theorem lt_length_toDigits {value width : Nat} (positive : 0 < width)
    (long : Nat.pow 10 width ≤ value) : width < (Nat.toDigits 10 value).length := by
  rw [← not_le, Nat.length_toDigits_le_iff (by decide) positive]
  exact not_lt.mpr long

/-- A number with too many digits is not read. -/
theorem readNatural_of_long {value : Nat} (long : Nat.pow 10 maxDigits ≤ value) :
    readNatural (Nat.toDigits 10 value) = none := by
  have digits := readDigits_digitChars (Double.areDigits_digitsOf value)
    (Double.digitsOf_ne_nil value)
  have many := lt_length_toDigits (by decide) long
  rw [← Double.digitChars_digitsOf, length_digitChars] at many
  rw [← Double.digitChars_digitsOf, readNatural, digits, Option.bind_some, if_neg (not_le.mpr many)]

end Text

namespace Rollout

open Double (SameSides)

/-- The text of a percentage. -/
def percentText (percent : Nat) : String := toString percent ++ "%"

variable {percent total : Nat}

theorem toList_percentText (percent : Nat) :
    (percentText percent).toList = Nat.toDigits 10 percent ++ ['%'] := by
  rw [percentText, String.toList_append, Nat.toString_eq_repr, Nat.repr_eq_ofList_toDigits,
    String.toList_ofList]
  rfl

/-- A percentage is read as a number before anything is computed. -/
theorem quantity_percentText (percent : Nat) (total : Value) (roundUp : Bool) :
    quantity (.text (percentText percent)) total roundUp =
      (Value.wholeOfText (Nat.toDigits 10 percent)).bind fun read =>
        shareOf read roundUp total := by
  rw [quantity, quantityOfText, toList_percentText]
  rw [if_pos (by simp), List.dropLast_concat]
  rfl

/-- The hundredth part of a number that is exact as a binary number is rounded to a number on the
same sides of all whole numbers. -/
theorem exists_hundredth_sameSides {product : Nat} (exact : product ≤ 2 ^ 53) :
    ∃ share value, hundredth product = .ok share ∧ share.toRat? = some value ∧
      SameSides value (product / 100) := by
  have bound : (product : ℚ) ≤ 2 ^ 53 := by exact_mod_cast exact
  -- The product has at most 47 bits before the point of its hundredth part, so six are left.
  have small : (product / (100 : Nat) : ℚ) < 2 ^ 53 * 2 ^ (-6 : Int) := by
    rw [div_lt_iff₀ (by norm_num)]
    norm_num
    linarith
  obtain ⟨significand, exponent, hnearest, rounded⟩ :=
    Double.exists_isRounded (by decide) (by decide) (by decide) small
  refine ⟨.finite false significand exponent, _, ?_, Double.toRat?_finite _ _, ?_⟩
  · have nonneg : decide ((product : Int) < 0) = false :=
      decide_eq_false (not_lt.mpr (Int.natCast_nonneg product))
    rw [hundredth, nonneg, Int.natAbs_natCast, hnearest]
  · exact rounded.sameSides (by decide) (by norm_num)

/-- A share on the same sides of all whole numbers as a quotient means as many pods. -/
theorem toPods_of_sameSides {share : Double} {value quotient : ℚ}
    (hvalue : share.toRat? = some value) (sides : SameSides value quotient) (roundUp : Bool) :
    toPods roundUp share = .ok (if roundUp then ⌈quotient⌉ else ⌊quotient⌋) := by
  have floor : value.floor = ⌊quotient⌋ := sides.floor_eq
  have ceil : value.ceil = ⌈quotient⌉ := by
    rw [← sides.ceil_eq, Rat.ceil_eq_neg_floor_neg]
    rfl
  rw [toPods, Value.wholeOfDouble]
  cases roundUp with
  | true =>
    rw [if_pos rfl, Double.ceil?_eq, hvalue, Option.map_some, ceil]
    rfl
  | false =>
    rw [if_neg Bool.false_ne_true, Double.floor?_eq, hvalue, Option.map_some, floor]
    rfl

/-- Percentages resolve exactly: the hundredth part of the product is rounded without a whole number
being reached or passed, and the percentage means the exact quotient, taken up or down. -/
theorem percentage_is_exact (short : percent < Nat.pow 10 Text.maxDigits)
    (exact : percent * total ≤ 2 ^ 53) :
    (∃ share value, hundredth (percent * total) = .ok share ∧ share.toRat? = some value ∧
      SameSides value (percent * total / 100)) ∧
    ∀ roundUp, quantity (.text (percentText percent)) (.int total) roundUp =
      .ok (if roundUp then ⌈(percent * total / 100 : ℚ)⌉ else ⌊(percent * total / 100 : ℚ)⌋) := by
  obtain ⟨share, value, hshare, hvalue, sides⟩ := exists_hundredth_sameSides exact
  push_cast at hshare sides
  refine ⟨⟨share, value, hshare, hvalue, sides⟩, fun roundUp => ?_⟩
  have read : Text.readInteger (Nat.toDigits 10 percent) = some (percent : Int) := by
    rw [Text.readInteger_of_isDigit fun c hc => Text.isDigit_of_mem_toDigits hc,
      Text.readNatural_toDigits short]
    rfl
  rw [quantity_percentText, Value.wholeOfText, read]
  change percentOf percent total roundUp = _
  rw [percentOf, hshare]
  exact toPods_of_sameSides hvalue sides roundUp

/-- Seven percent of the greatest number of pods for which this is promised: the exact quotient is
no binary number, and it is taken up or down as asked. -/
theorem percentage_is_exact_large :
    7 * 1286742750677284 ≤ 2 ^ 53 ∧
    quantity (.text "7%") (.int 1286742750677284) true = .ok 90071992547410 ∧
    quantity (.text "7%") (.int 1286742750677284) false = .ok 90071992547409 := by
  obtain ⟨-, result⟩ := @percentage_is_exact 7 1286742750677284
    (by decide +kernel) (by norm_num)
  have up := result true
  have down := result false
  norm_num at up down
  exact ⟨by norm_num, up, down⟩

/-- A percentage of too many digits is refused, whatever it would be a share of. -/
theorem quantity_of_long (long : Nat.pow 10 Text.maxDigits ≤ percent) (total : Value)
    (roundUp : Bool) :
    quantity (.text (percentText percent)) total roundUp = .error .malformed := by
  have unread : Text.readInteger (Nat.toDigits 10 percent) = none := by
    rw [Text.readInteger_of_isDigit fun c hc => Text.isDigit_of_mem_toDigits hc,
      Text.readNatural_of_long long]
    rfl
  rw [quantity_percentText, Value.wholeOfText, unread]
  rfl

/-- So a share of no pods at all, which is none, is not found if its percentage is too long. -/
theorem share_of_none_is_refused :
    Nat.pow 10 Text.maxDigits * 0 ≤ 2 ^ 53 ∧
    quantity (.text (percentText (Nat.pow 10 Text.maxDigits))) (.int 0) true = .error .malformed ∧
    ⌈(Nat.pow 10 Text.maxDigits * (0 : Nat) / 100 : ℚ)⌉ = 0 := by
  refine ⟨?_, quantity_of_long (Nat.le_refl _) _ true, ?_⟩
  · rw [Nat.mul_zero]
    exact Nat.zero_le _
  · rw [Nat.cast_zero, mul_zero, zero_div, Int.ceil_zero]

end Rollout

end Reconciler
