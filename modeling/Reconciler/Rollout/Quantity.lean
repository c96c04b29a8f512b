import Reconciler.Value.Whole

/-!
# Numbers of pods and percentages

A rollout parameter is a number of pods or a percentage of the desired number. A percentage
is multiplied out exactly, divided by one hundred with a single rounding to the nearest
binary number, and then taken up or down to a whole number of pods.
-/

namespace Reconciler.Rollout

/-- Whole numbers from binary ones: the least not below, or the greatest not above. -/
def toPods (roundUp : Bool) (share : Double) : Except Fault Int :=
  Value.wholeOfDouble (if roundUp then Double.ceil? else Double.floor?) share

/-- The quotient of a whole number by one hundred, rounded once; a fault if it lies beyond
the finite numbers. -/
def hundredth (product : Int) : Except Fault Double :=
  match Double.nearest (product < 0) product.natAbs 100 with
  | .finite negative significand exponent => .ok (.finite negative significand exponent)
  | _ => .error .tooLarge

/-- A percentage of a whole number of pods. -/
def percentOf (percent total : Int) (roundUp : Bool) : Except Fault Int := do
  let share ← hundredth (percent * total)
  toPods roundUp share

/-- A percentage of a binary number, which is rounded after the product as well. -/
def percentOfDouble (percent : Int) (total : Double) (roundUp : Bool) : Except Fault Int :=
  match Double.ofInt? percent with
  | some factor => toPods roundUp ((factor.mul total).divNat 100)
  | none => .error .tooLarge

/-- A percentage of any value; only numbers have shares. -/
def shareOf (percent : Int) (roundUp : Bool) : Value → Except Fault Int
  | .bool total => percentOf percent (if total then 1 else 0) roundUp
  | .int total => percentOf percent total roundUp
  | .float total => percentOfDouble percent total roundUp
  | _ => .error .wrongType

/-- A parameter that is text: a percentage ends in its sign, and anything else must consist
of digits. -/
def quantityOfText (text : String) (total : Value) (roundUp : Bool) : Except Fault Int :=
  let chars := text.toList
  if chars.getLast? = some '%' then do
    let percent ← Value.wholeOfText chars.dropLast
    shareOf percent roundUp total
  else if !chars.isEmpty && chars.all Text.showsDigit then Value.wholeOfText chars
  else .error (.invalidQuantity (.text text))

/-- The number of pods that a parameter means against a total. Nothing means none. -/
def quantity (parameter total : Value) (roundUp : Bool) : Except Fault Int :=
  match parameter with
  | .null => .ok 0
  | .int pods => .ok pods
  | .text text => quantityOfText text total roundUp
  | parameter => .error (.invalidQuantity parameter)

@[simp] theorem quantity_null (total : Value) (roundUp : Bool) :
    quantity .null total roundUp = .ok 0 := rfl

@[simp] theorem quantity_int (pods : Int) (total : Value) (roundUp : Bool) :
    quantity (.int pods) total roundUp = .ok pods := rfl

end Reconciler.Rollout
