import Reconciler.Text.Integer
import Reconciler.Value.Members

/-!
# Whole numbers from values

A whole number is read from any number, without its fraction, and from text or bytes that
spell one.
-/

namespace Reconciler.Value

/-- The whole number that text spells. -/
def wholeOfText (text : List Char) : Except Fault Int :=
  match Text.readInteger text with
  | some value => .ok value
  | none => .error .malformed

/-- A floating-point number rounded to a whole one in the way given; a fault for those that
stand for no number. -/
def wholeOfDouble (round : Double → Option Int) (value : Double) : Except Fault Int :=
  match round value with
  | some whole => .ok whole
  | none => .error (if value = .nan then .malformed else .tooLarge)

/-- The whole number that a value stands for. -/
def toWhole : Value → Except Fault Int
  | .bool value => .ok (if value then 1 else 0)
  | .int value => .ok value
  | .float value => wholeOfDouble Double.truncate? value
  | .text value => wholeOfText value.toList
  | .bytes value => wholeOfText (value.map fun byte =>
      if byte < 128 then Char.ofNat byte.toNat else '?')
  | _ => .error .wrongType

@[simp] theorem toWhole_int (value : Int) : (Value.int value).toWhole = .ok value := rfl

end Reconciler.Value
