/-!
# Binary floating-point numbers

A finite number is a sign, a significand below `2^53` and a power of two. The normal
form keeps the significand at least `2^52` unless the exponent is the least one, so each
number has one form and only the two zeros are equal without being the same.

Every operation computes the exact result as a quotient of whole numbers and rounds it
once, to the nearest number and to the even significand on a tie (`Double.nearest`).
-/

namespace Reconciler

/-- A binary number of 53 significant bits. Finite numbers are
`(-1)^negative * significand * 2^exponent`. -/
inductive Double where
  | nan
  | infinite (negative : Bool)
  | finite (negative : Bool) (significand : Nat) (exponent : Int)
  deriving DecidableEq, Inhabited

namespace Double

/-- The exponent of the smallest numbers, at which significands may be short. -/
def leastExponent : Int := -1074

/-- The greatest exponent; rounding beyond it gives an infinite number. -/
def greatestExponent : Int := 971

/-- The whole number nearest to `num / den`, even on a tie. -/
def roundEven (num den : Nat) : Nat :=
  let quotient := num / den
  let twice := 2 * (num % den)
  if twice < den then quotient
  else if den < twice then quotient + 1
  else if quotient % 2 = 0 then quotient
  else quotient + 1

/-- The quotient `num / den` measured in units of `2^exponent`, as a pair of whole
numbers. -/
def inUnits (num den : Nat) (exponent : Int) : Nat × Nat :=
  if 0 ≤ exponent then (num, den * Nat.pow 2 exponent.toNat)
  else (num * Nat.pow 2 (-exponent).toNat, den)

/-- The exponent at which `num / den` has a significand of 53 bits, or the least
exponent if that is greater. The first guess from the two lengths is off by at most one. -/
def unitExponent (num den : Nat) : Int :=
  let guess := (Nat.log2 num : Int) - Nat.log2 den - 52
  let (scaled, unit) := inUnits num den guess
  max (if scaled / unit < Nat.pow 2 52 then guess - 1 else guess) leastExponent

/-- The number nearest to `num / den`; a tie goes to the even significand. -/
def nearest (negative : Bool) (num den : Nat) : Double :=
  if num = 0 then .finite negative 0 leastExponent
  else
    let exponent := unitExponent num den
    let (scaled, unit) := inUnits num den exponent
    let significand := roundEven scaled unit
    let (significand, exponent) :=
      if significand = Nat.pow 2 53 then (Nat.pow 2 52, exponent + 1) else (significand, exponent)
    if greatestExponent < exponent then .infinite negative
    else .finite negative significand exponent

/-- Positive zero. -/
def zero : Double := .finite false 0 leastExponent

/-- The exact value of a finite number. -/
def toRat? : Double → Option Rat
  | .finite negative significand exponent =>
    let magnitude : Rat :=
      if 0 ≤ exponent then (significand * Nat.pow 2 exponent.toNat : Nat)
      else mkRat significand (Nat.pow 2 (-exponent).toNat)
    some (if negative then -magnitude else magnitude)
  | _ => none

/-- The nearest number to an exact one. An exact zero takes the given sign. -/
def ofRat (value : Rat) (negativeZero : Bool) : Double :=
  nearest (if value.num = 0 then negativeZero else value.num < 0) value.num.natAbs value.den

/-- The nearest number to a whole one; `none` if it lies beyond the finite numbers. -/
def ofInt? (value : Int) : Option Double :=
  match nearest (value < 0) value.natAbs 1 with
  | .finite negative significand exponent => some (.finite negative significand exponent)
  | _ => none

/-- Whether the sign is minus; `nan` has none. -/
def isNegative : Double → Bool
  | .nan => false
  | .infinite negative => negative
  | .finite negative _ _ => negative

/-- Whether the number is a zero of either sign. -/
def isZero : Double → Bool
  | .finite _ significand _ => significand == 0
  | _ => false

/-- The number with the opposite sign. -/
def neg : Double → Double
  | .nan => .nan
  | .infinite negative => .infinite (!negative)
  | .finite negative significand exponent => .finite (!negative) significand exponent

/-- The sum, rounded once. -/
def add (x y : Double) : Double :=
  match x, y with
  | .nan, _ => .nan
  | _, .nan => .nan
  | .infinite a, .infinite b => if a = b then .infinite a else .nan
  | .infinite a, _ => .infinite a
  | _, .infinite b => .infinite b
  | x, y => match x.toRat?, y.toRat? with
    | some a, some b => ofRat (a + b) (x.isNegative && y.isNegative)
    | _, _ => .nan

/-- The product, rounded once. -/
def mul (x y : Double) : Double :=
  let negative := x.isNegative != y.isNegative
  match x, y with
  | .nan, _ => .nan
  | _, .nan => .nan
  | .infinite _, y => if y.isZero then .nan else .infinite negative
  | x, .infinite _ => if x.isZero then .nan else .infinite negative
  | x, y => match x.toRat?, y.toRat? with
    | some a, some b => ofRat (a * b) negative
    | _, _ => .nan

/-- The quotient by a positive whole number, rounded once. -/
def divNat (x : Double) (divisor : Nat) : Double :=
  match x.toRat? with
  | some a => ofRat (a / divisor) x.isNegative
  | none => x

/-- The greatest whole number that does not exceed a finite number. -/
def floor? (x : Double) : Option Int := x.toRat?.map Rat.floor

/-- The least whole number that a finite number does not exceed. -/
def ceil? (x : Double) : Option Int := x.toRat?.map Rat.ceil

/-- A finite number without its fraction. -/
def truncate? (x : Double) : Option Int :=
  x.toRat?.map fun value => value.num.tdiv value.den

@[simp] theorem floor?_eq (x : Double) : x.floor? = x.toRat?.map Rat.floor := rfl

@[simp] theorem ceil?_eq (x : Double) : x.ceil? = x.toRat?.map Rat.ceil := rfl

@[simp] theorem nearest_zero (negative : Bool) (den : Nat) :
    nearest negative 0 den = .finite negative 0 leastExponent := rfl

end Double

end Reconciler
