import Reconciler.Number.Decimal
import Reconciler.Text.Integer
import Mathlib.Data.List.Induction
import Mathlib.Tactic.NormNum
import Mathlib.Tactic.Ring

/-!
# Digits that are read back

A row of digit values spells a number by its places, and the digits of a number spell that
number. Written as characters, the values are read back one by one. Main statement: a whole
number that is short enough to be written is read back from its text.
-/

namespace Reconciler.Text

/-! ### Rows of digit values -/

theorem ofDigits_append (xs ys : List Nat) :
    ofDigits (xs ++ ys) = ofDigits xs * 10 ^ ys.length + ofDigits ys := by
  induction ys using List.reverseRecOn with
  | nil => simp
  | append_singleton ys digit ih =>
    rw [← List.append_assoc, ofDigits_append_singleton, ih, ofDigits_append_singleton,
      List.length_append, List.length_singleton, Nat.pow_succ]
    ring

theorem ofDigits_replicate_zero (count : Nat) : ofDigits (List.replicate count 0) = 0 := by
  induction count with
  | zero => rfl
  | succ count ih => rw [List.replicate_succ', ofDigits_append_singleton, ih]

theorem ofDigits_zero_cons (digits : List Nat) : ofDigits (0 :: digits) = ofDigits digits := by
  have split := ofDigits_append [0] digits
  rwa [show ofDigits [0] = 0 from rfl, Nat.zero_mul, Nat.zero_add] at split

/-- Digit values are small enough to be characters. -/
def AreDigits (digits : List Nat) : Prop := ∀ digit ∈ digits, digit < 10

theorem areDigits_replicate_zero (count : Nat) : AreDigits (List.replicate count 0) := by
  intro digit hmem
  rw [List.eq_of_mem_replicate hmem]
  decide

theorem digitValue?_digitChar {digit : Nat} (h : digit < 10) :
    digitValue? digit.digitChar = some digit := by
  have table : ∀ digit < 10, digitValue? (Nat.digitChar digit) = some digit := by decide
  exact table digit h

end Reconciler.Text

namespace Reconciler.Double

open Reconciler.Text

theorem digitsOf_of_lt {value : Nat} (h : value < 10) : digitsOf value = [value] := by
  have table : ∀ value < 10, digitsOf value = [value] := by decide
  exact table value h

theorem digitsOf_of_le {value : Nat} (h : 10 ≤ value) :
    digitsOf value = digitsOf (value / 10) ++ [value % 10] := by
  have last : digitsOf (value % 10) = [value % 10] := digitsOf_of_lt (Nat.mod_lt _ (by norm_num))
  rw [digitsOf, Nat.toDigits_of_lt_base (Nat.mod_lt value (by norm_num))] at last
  rw [digitsOf, Nat.toDigits_eq_if (by norm_num), if_neg (not_lt.mpr h), List.map_append, last,
    digitsOf]

theorem digitsOf_ne_nil (value : Nat) : digitsOf value ≠ [] := by
  rw [digitsOf, ne_eq, List.map_eq_nil_iff]
  exact Nat.toDigits_ne_nil

/-- The digits of a number spell it. -/
theorem ofDigits_digitsOf (value : Nat) : ofDigits (digitsOf value) = value := by
  induction value using Nat.strongRecOn with
  | ind value ih =>
    by_cases h : value < 10
    · rw [digitsOf_of_lt h, ← List.nil_append [value], ofDigits_append_singleton, ofDigits_nil,
        Nat.mul_zero, Nat.zero_add]
    · rw [digitsOf_of_le (not_lt.mp h), ofDigits_append_singleton, ih _ (by omega)]
      omega

theorem areDigits_digitsOf (value : Nat) : AreDigits (digitsOf value) := by
  induction value using Nat.strongRecOn with
  | ind value ih =>
    intro digit hmem
    by_cases h : value < 10
    · rw [digitsOf_of_lt h, List.mem_singleton] at hmem
      omega
    · rw [digitsOf_of_le (not_lt.mp h), List.mem_append, List.mem_singleton] at hmem
      rcases hmem with hmem | rfl
      · exact ih _ (by omega) digit hmem
      · omega

/-- The characters of a number are those of its digits. -/
theorem digitChars_digitsOf (value : Nat) :
    digitChars (digitsOf value) = Nat.toDigits 10 value := by
  induction value using Nat.strongRecOn with
  | ind value ih =>
    by_cases h : value < 10
    · rw [digitsOf_of_lt h, Nat.toDigits_of_lt_base h]
      rfl
    · rw [digitsOf_of_le (not_lt.mp h), digitChars, List.map_append, ← digitChars,
        ih _ (by omega), Nat.toDigits_eq_if (n := value) (by norm_num), if_neg h]
      rfl

end Reconciler.Double

namespace Reconciler.Text

open Reconciler.Double

/-! ### Whole numbers -/

theorem readDigits_digitChars {digits : List Nat} (h : AreDigits digits) (nonempty : digits ≠ []) :
    readDigits (digitChars digits) = some digits := by
  induction digits with
  | nil => exact (nonempty rfl).elim
  | cons digit rest ih =>
    obtain ⟨here, later⟩ := List.forall_mem_cons.mp h
    cases rest with
    | nil => simp [digitChars, readDigits, digitValue?_digitChar here]
    | cons second rest =>
      have next := ih later (by simp)
      have plain : Nat.digitChar second ≠ '_' := by
        have table : ∀ digit < 10, Nat.digitChar digit ≠ '_' := by decide
        exact table second (later second (by simp))
      simp only [digitChars, List.map_cons] at next ⊢
      rw [readDigits]
      · rw [digitValue?_digitChar here, Option.bind_some, next, Option.map_some]
      · simp
      · intro rest heq
        exact plain (List.cons.inj heq).1

theorem length_digitChars (digits : List Nat) : (digitChars digits).length = digits.length :=
  List.length_map ..

theorem length_toDigits_le {value width : Nat} (positive : 0 < width)
    (h : value < Nat.pow 10 width) : (Nat.toDigits 10 value).length ≤ width :=
  (Nat.length_toDigits_le_iff (by decide) positive).mpr h

theorem readNatural_digitChars {digits : List Nat} (h : AreDigits digits)
    (nonempty : digits ≠ []) (short : digits.length ≤ maxDigits) :
    readNatural (digitChars digits) = some (ofDigits digits) := by
  rw [readNatural, readDigits_digitChars h nonempty, Option.bind_some, if_pos short]

theorem readNatural_toDigits {value : Nat} (h : value < Nat.pow 10 maxDigits) :
    readNatural (Nat.toDigits 10 value) = some value := by
  have short := length_toDigits_le (by decide) h
  rw [← digitChars_digitsOf, length_digitChars] at short
  rw [← digitChars_digitsOf,
    readNatural_digitChars (areDigits_digitsOf value) (digitsOf_ne_nil value) short,
    ofDigits_digitsOf]

/-! ### Blanks -/

theorem trim_eq_self {text : List Char} (h : ∀ c ∈ text, isBlank c = false) : trim text = text := by
  have keeps : ∀ {text : List Char}, (∀ c ∈ text, isBlank c = false) →
      text.dropWhile isBlank = text := by
    intro text h
    cases text with
    | nil => rfl
    | cons c rest => rw [List.dropWhile_cons, h c (List.mem_cons_self ..), if_neg (by decide)]
  rw [trim, keeps h, keeps, List.reverse_reverse]
  exact fun c hc => h c (List.mem_reverse.mp hc)

theorem toNat_of_isDigit {c : Char} (h : c.isDigit) : 48 ≤ c.toNat ∧ c.toNat ≤ 57 := by
  simpa [Char.isDigit, UInt32.le_iff_toNat_le] using h

theorem isBlank_of_isDigit {c : Char} (h : c.isDigit) : isBlank c = false := by
  have range := toNat_of_isDigit h
  simp [isBlank, blankRanges]
  omega

theorem toLower_of_isDigit {c : Char} (h : c.isDigit) : c.toLower = c := by
  have range := toNat_of_isDigit h
  have notUpper : ¬(c.val ≥ 'A'.val ∧ c.val ≤ 'Z'.val) := by
    rintro ⟨upper, -⟩
    have : 65 ≤ c.toNat := UInt32.le_iff_toNat_le.mp upper
    omega
  exact dif_neg notUpper

theorem isDigit_of_mem_toDigits {value : Nat} {c : Char} (h : c ∈ Nat.toDigits 10 value) :
    c.isDigit :=
  Nat.isDigit_of_mem_toDigits (by decide) (by decide) h

theorem isDigit_of_mem_digitChars {digits : List Nat} (h : AreDigits digits) {c : Char}
    (hc : c ∈ digitChars digits) : c.isDigit := by
  obtain ⟨digit, hmem, rfl⟩ := List.mem_map.mp hc
  rw [Nat.isDigit_digitChar]
  exact decide_eq_true (h digit hmem)

/-- A row of digits has no sign. -/
theorem readInteger_of_isDigit {text : List Char} (h : ∀ c ∈ text, c.isDigit) :
    readInteger text = (readNatural text).map Int.ofNat := by
  rw [readInteger, trim_eq_self fun c hc => isBlank_of_isDigit (h c hc)]
  split
  · exact absurd (h '-' (List.mem_cons_self ..)) (by decide)
  · exact absurd (h '+' (List.mem_cons_self ..)) (by decide)
  · rfl

/-- Text with a sign before it, if that is minus. -/
def signed (negative : Bool) (text : List Char) : List Char :=
  if negative then '-' :: text else text

theorem toList_toString (value : Int) :
    (toString value).toList = signed (value < 0) (Nat.toDigits 10 value.natAbs) := by
  cases value with
  | ofNat natural =>
    change (Nat.repr natural).toList = _
    rw [Nat.repr_eq_ofList_toDigits, String.toList_ofList, signed, if_neg (by simp)]
    rfl
  | negSucc natural =>
    change ("-" ++ Nat.repr (natural + 1)).toList = _
    rw [String.toList_append, Nat.repr_eq_ofList_toDigits, String.toList_ofList, signed,
      if_pos (by simp)]
    rw [String.toList_ofList]
    rfl

/-- A whole number that is short enough to be written is read back. -/
theorem readInteger_toString {value : Int} (h : writable value) :
    readInteger (toString value).toList = some value := by
  have fits : value.natAbs < Nat.pow 10 maxDigits := of_decide_eq_true h
  have read := readNatural_toDigits fits
  rw [toList_toString]
  by_cases negative : value < 0
  · have trimmed :
        trim ('-' :: Nat.toDigits 10 value.natAbs) = '-' :: Nat.toDigits 10 value.natAbs :=
      trim_eq_self (List.forall_mem_cons.mpr ⟨by decide, fun c hc =>
        isBlank_of_isDigit (isDigit_of_mem_toDigits hc)⟩)
    rw [signed, if_pos (by simpa using negative), readInteger, trimmed]
    simp [read, abs_of_neg negative]
  · rw [signed, if_neg (by simpa using negative),
      readInteger_of_isDigit fun c hc => isDigit_of_mem_toDigits hc, read]
    simp [abs_of_nonneg (not_lt.mp negative)]

end Reconciler.Text
