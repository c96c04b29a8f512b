import Reconciler.Text.Digit

/-!
# Whole numbers written as text

A whole number is an optional sign and a row of decimal digits, with single underscores
allowed between digits and blanks allowed around the whole. A row of more than 4300
digits is refused, both when it is read and when a number that long would be written.
-/

namespace Reconciler.Text

/-- The greatest count of digits that a number may have as text. -/
def maxDigits : Nat := 4300

/-- The digit values of a row in which single underscores may stand between digits. -/
def readDigits : List Char → Option (List Nat)
  | [] => none
  | [c] => (digitValue? c).map ([·])
  | c :: '_' :: rest => (digitValue? c).bind fun digit => (readDigits rest).map (digit :: ·)
  | c :: rest => (digitValue? c).bind fun digit => (readDigits rest).map (digit :: ·)

/-- A row of digits without sign, of permitted length. -/
def readNatural (text : List Char) : Option Nat :=
  (readDigits text).bind fun digits =>
    if digits.length ≤ maxDigits then some (ofDigits digits) else none

/-- A whole number with its optional sign and surrounding blanks. -/
def readInteger (text : List Char) : Option Int :=
  match trim text with
  | '-' :: digits => (readNatural digits).map fun value => -(value : Int)
  | '+' :: digits => (readNatural digits).map Int.ofNat
  | digits => (readNatural digits).map Int.ofNat

/-- Whether a whole number is short enough to be written as text. -/
def writable (value : Int) : Bool := value.natAbs < Nat.pow 10 maxDigits

end Reconciler.Text
