import Reconciler.Json.Decode
import Reconciler.Json.Encode
import Mathlib.Algebra.Group.Nat.Defs
import Mathlib.Tactic.SplitIfs

/-!
# Text between quotes

Encoded text is read back character by character, whatever follows its closing quote. A
character beyond the basic plane is written as two units that are read as one character.
-/

namespace Reconciler.Json

open Reconciler.Text

/-! ### Hexadecimal digits -/

theorem hexValue?_hexDigit {digit : Nat} (h : digit < 16) :
    hexValue? (hexDigit digit) = some digit := by
  have table : ∀ digit < 16, hexValue? (hexDigit digit) = some digit := by decide
  exact table digit h

theorem readHex_append_singleton (text : List Char) (c : Char) :
    readHex (text ++ [c]) =
      (readHex text).bind fun value => (hexValue? c).map (16 * value + ·) := by
  rw [readHex, List.foldl_append]
  rfl

theorem readHex_hexPadded {width value : Nat} (h : value < 16 ^ width) :
    readHex (hexPadded width value) = some value := by
  induction width generalizing value with
  | zero =>
    obtain rfl : value = 0 := by simpa using h
    rfl
  | succ width ih =>
    have quotient : value / 16 < 16 ^ width := by
      rw [Nat.pow_succ] at h
      omega
    rw [hexPadded, readHex_append_singleton, ih quotient,
      hexValue?_hexDigit (Nat.mod_lt value (by decide))]
    simp only [Option.bind_some, Option.map_some]
    rw [Nat.div_add_mod]

theorem length_hexPadded (width value : Nat) : (hexPadded width value).length = width := by
  induction width generalizing value with
  | zero => rfl
  | succ width ih => rw [hexPadded, List.length_append, ih, List.length_singleton]

theorem readUnit_hexPadded {unit : Nat} (h : unit < 0x10000) (rest : List Char) :
    readUnit (hexPadded 4 unit ++ rest) = some (unit, rest) := by
  have length := length_hexPadded 4 unit
  have enough : ¬(hexPadded 4 unit ++ rest).length < 4 := by
    rw [List.length_append]
    omega
  rw [readUnit, if_neg enough, List.take_left' length, List.drop_left' length,
    readHex_hexPadded h, Option.map_some]

/-! ### Characters -/

theorem readEscape_unit {unit : Nat} (h : unit < 0x10000)
    (single : ¬(0xD800 ≤ unit ∧ unit < 0xDC00)) (rest : List Char) :
    readEscape ('u' :: (hexPadded 4 unit ++ rest)) = some (Char.ofNat unit, rest) := by
  rw [readEscape, readUnit_hexPadded h]
  simp [single]

theorem readEscape_pair {high low : Nat} (hhigh : 0xD800 ≤ high ∧ high < 0xDC00)
    (hlow : 0xDC00 ≤ low ∧ low < 0xE000) (rest : List Char) :
    readEscape ('u' :: (hexPadded 4 high ++ (unitEscape low ++ rest))) =
      some (Char.ofNat (0x10000 + (high - 0xD800) * 0x400 + (low - 0xDC00)), rest) := by
  rw [readEscape, readUnit_hexPadded (by omega)]
  simp [hhigh, unitEscape, readUnit_hexPadded (show low < 0x10000 by omega), hlow]

theorem readText_escape {text rest : List Char} {c : Char} (h : readEscape text = some (c, rest))
    (fuel : Nat) : readText (fuel + 1) ('\\' :: text) =
      (readText fuel rest).map fun read => (c :: read.1, read.2) := by
  rw [readText, h]
  simp only [Option.bind_eq_bind, Option.bind_some]
  cases readText fuel rest <;> rfl

theorem readText_plain {c : Char} (notQuote : c ≠ '"') (notSlash : c ≠ '\\') (fuel : Nat)
    (rest : List Char) : readText (fuel + 1) (c :: rest) =
      (readText fuel rest).map fun read => (c :: read.1, read.2) := by
  rw [readText]
  · cases readText fuel rest <;> rfl
  · exact notQuote
  · exact notSlash

theorem readText_quote (fuel : Nat) (rest : List Char) :
    readText (fuel + 1) ('"' :: rest) = some ([], rest) := by
  rw [readText]

/-- The first character of text is read back. -/
theorem readText_encodeChar (fuel : Nat) (c : Char) (rest : List Char) :
    readText (fuel + 1) (encodeChar c ++ rest) =
      (readText fuel rest).map fun read => (c :: read.1, read.2) := by
  unfold encodeChar
  split_ifs with quoted newline back tab form bell plain basic
  · rcases (by simpa using quoted : c = '"' ∨ c = '\\') with rfl | rfl <;>
      exact readText_escape rfl fuel
  · obtain rfl := beq_iff_eq.mp newline
    exact readText_escape rfl fuel
  · obtain rfl := beq_iff_eq.mp back
    exact readText_escape rfl fuel
  · obtain rfl := beq_iff_eq.mp tab
    exact readText_escape rfl fuel
  · obtain rfl := beq_iff_eq.mp form
    exact readText_escape rfl fuel
  · obtain rfl := beq_iff_eq.mp bell
    exact readText_escape rfl fuel
  · obtain ⟨notQuote, notSlash⟩ := (by simpa using quoted : c ≠ '"' ∧ c ≠ '\\')
    exact readText_plain notQuote notSlash fuel rest
  · have valid : c.toNat.isValidChar := c.valid
    have single : ¬(0xD800 ≤ c.toNat ∧ c.toNat < 0xDC00) := by omega
    have read := readEscape_unit basic single rest
    rw [Char.ofNat_toNat] at read
    exact readText_escape read fuel
  · have valid : c.toNat.isValidChar := c.valid
    dsimp only
    generalize hhigh : 0xD800 + (c.toNat - 0x10000) / 0x400 = high
    generalize hlow : 0xDC00 + (c.toNat - 0x10000) % 0x400 = low
    have joined : 0x10000 + (high - 0xD800) * 0x400 + (low - 0xDC00) = c.toNat := by omega
    have read := readEscape_pair (by omega : 0xD800 ≤ high ∧ high < 0xDC00)
      (by omega : 0xDC00 ≤ low ∧ low < 0xE000) rest
    rw [joined, Char.ofNat_toNat] at read
    rw [List.append_assoc]
    exact readText_escape read fuel

theorem encodeChar_ne_nil (c : Char) : encodeChar c ≠ [] := by
  unfold encodeChar unitEscape
  split_ifs <;> simp

/-- Text is read back up to its closing quote. -/
theorem readText_encodeText (text rest : List Char) {fuel : Nat} (h : text.length < fuel) :
    readText fuel (text.flatMap encodeChar ++ '"' :: rest) = some (text, rest) := by
  induction text generalizing fuel with
  | nil =>
    obtain ⟨fuel, rfl⟩ := Nat.exists_eq_succ_of_ne_zero (Nat.ne_of_gt h)
    exact readText_quote fuel rest
  | cons c text ih =>
    obtain ⟨fuel, rfl⟩ := Nat.exists_eq_succ_of_ne_zero (Nat.ne_zero_of_lt h)
    rw [List.flatMap_cons, List.append_assoc, Nat.succ_eq_add_one, readText_encodeChar,
      ih (Nat.lt_of_succ_lt_succ h), Option.map_some]

theorem length_le_encodeText (text : List Char) :
    text.length ≤ (text.flatMap encodeChar).length := by
  induction text with
  | nil => exact Nat.le_refl _
  | cons c text ih =>
    have positive := List.length_pos_iff.mpr (encodeChar_ne_nil c)
    rw [List.flatMap_cons, List.length_append, List.length_cons]
    omega

end Reconciler.Json
