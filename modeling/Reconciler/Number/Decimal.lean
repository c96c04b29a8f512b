import Reconciler.Number.Double
import Reconciler.Text.Digit

/-!
# Floating-point numbers as decimal text

Writing uses the fewest digits that read back to the same number and, among those, the
digits nearest to it. Reading rounds the exact decimal value once. Numbers of ordinary
size are written positionally with at least one digit after the point; the others have an
exponent of at least two digits.
-/

namespace Reconciler.Double

open Reconciler.Text

/-- The decimal digits of a positive number: `0.d₁d₂… * 10^point`. -/
structure Digits where
  digits : List Nat
  point : Int

/-- The decimal digits of a whole number, without leading zeros. -/
def digitsOf (value : Nat) : List Nat :=
  (Nat.toDigits 10 value).map fun c => c.toNat - '0'.toNat

/-- The reals that read as a given number, bounded by the middles to its neighbours. The
bounds belong to the interval exactly if the significand is even. -/
structure Interval where
  value : Rat
  low : Rat
  high : Rat
  closed : Bool

/-- A power of two with a whole exponent of either sign. -/
def twoPow (exponent : Int) : Rat :=
  if 0 ≤ exponent then (Nat.pow 2 exponent.toNat : Rat) else mkRat 1 (Nat.pow 2 (-exponent).toNat)

/-- A power of ten with a whole exponent of either sign. -/
def tenPow (exponent : Int) : Rat :=
  if 0 ≤ exponent then (Nat.pow 10 exponent.toNat : Rat) else mkRat 1 (Nat.pow 10 (-exponent).toNat)

/-- The interval of a positive number. Below a power of two the neighbour is half as far
away as above it. -/
def interval (significand : Nat) (exponent : Int) : Interval :=
  let quarter := twoPow (exponent - 2)
  let below : Nat := if significand = Nat.pow 2 52 && leastExponent < exponent then 1 else 2
  { value := (4 * significand : Nat) * quarter
    low := (4 * significand - below : Nat) * quarter
    high := (4 * significand + 2 : Nat) * quarter
    closed := significand % 2 = 0 }

/-- Whether a real reads as the number of this interval. -/
def Interval.holds (i : Interval) (x : Rat) : Bool :=
  if i.closed then i.low ≤ x && x ≤ i.high else i.low < x && x < i.high

/-- The least power of ten that exceeds the value, searched upward from a lower bound. -/
def decimalPoint (value : Rat) : Nat → Int → Int
  | 0, guess => guess
  | fuel + 1, guess => if tenPow guess ≤ value then decimalPoint value fuel (guess + 1) else guess

/-- The point of the interval on the grid of `count` digits, if the grid has one: of the two
grid points beside the value the nearer one, the even one on a tie. -/
def Interval.onGrid? (i : Interval) (point : Int) (count : Nat) : Option Nat :=
  let unit := tenPow (point - count)
  let below := (i.value / unit).floor.toNat
  let above := below + 1
  match i.holds (below * unit), i.holds (above * unit) with
  | true, false => some below
  | false, true => some above
  | false, false => none
  | true, true =>
    let down := i.value - below * unit
    let up := above * unit - i.value
    if down < up then some below
    else if up < down then some above
    else if below % 2 = 0 then some below else some above

/-- The first grid with a point in the interval, from the given count of digits on.
Seventeen digits always suffice. -/
def Interval.firstGrid (i : Interval) (point : Int) : Nat → Nat → Nat × Nat
  | 0, count => ((i.value / tenPow (point - count)).floor.toNat, count)
  | fuel + 1, count =>
    match i.onGrid? point count with
    | some grid => (grid, count)
    | none => i.firstGrid point fuel (count + 1)

/-- Digits without the zeros at their end. -/
def dropZeros (digits : List Nat) : List Nat :=
  (digits.reverse.dropWhile (· == 0)).reverse

/-- The fewest digits that read back to a positive number, nearest to it. -/
def shortest (significand : Nat) (exponent : Int) : Digits :=
  let i := interval significand exponent
  -- 1233/4096 lies just below the decimal logarithm of two, so the guess starts too low.
  let guess := ((Nat.log2 significand : Int) + exponent) * 1233 / 4096 - 2
  let point := decimalPoint i.value 8 guess
  let (grid, count) := i.firstGrid point 17 1
  let digits := digitsOf grid
  { digits := dropZeros digits, point := point + digits.length - count }

/-- Decimal points at which a number is written without exponent. -/
def isPositional (point : Int) : Bool := -4 < point && point ≤ 16

/-- Digit values as characters. -/
def digitChars (digits : List Nat) : List Char := digits.map Nat.digitChar

/-- The exponent with its sign and at least two digits. -/
def exponentText (exponent : Int) : List Char :=
  let digits := Nat.toDigits 10 exponent.natAbs
  (if exponent < 0 then '-' else '+') :: (if digits.length < 2 then '0' :: digits else digits)

/-- Digits and their point in positional or exponent form. -/
def Digits.text (d : Digits) : List Char :=
  let chars := digitChars d.digits
  if isPositional d.point then
    if d.point ≤ 0 then '0' :: '.' :: List.replicate (-d.point).toNat '0' ++ chars
    else
      let whole := d.point.toNat
      if chars.length ≤ whole then chars ++ List.replicate (whole - chars.length) '0' ++ ['.', '0']
      else chars.take whole ++ '.' :: chars.drop whole
  else
    let fraction := chars.drop 1
    chars.take 1 ++ (if fraction.isEmpty then [] else '.' :: fraction) ++
      'e' :: exponentText (d.point - 1)

/-- The text of a number. -/
def text : Double → String
  | .nan => "nan"
  | .infinite negative => if negative then "-inf" else "inf"
  | .finite negative significand exponent =>
    let magnitude :=
      if significand = 0 then ['0', '.', '0'] else (shortest significand exponent).text
    String.ofList (if negative then '-' :: magnitude else magnitude)

/-- The number nearest to `significand * 10^exponent`. Exponents far outside the range of
finite numbers are decided without computing the power. -/
def ofScientific (negative : Bool) (significand : Nat) (exponent : Int) : Double :=
  let size := (Nat.toDigits 10 significand).length + exponent
  if significand = 0 then .finite negative 0 leastExponent
  else if 400 < size then .infinite negative
  else if size < -400 then .finite negative 0 leastExponent
  else if 0 ≤ exponent then nearest negative (significand * Nat.pow 10 exponent.toNat) 1
  else nearest negative significand (Nat.pow 10 (-exponent).toNat)

/-- The digits at the start of a text and the text after them. A single underscore may
stand between two digits; `inside` says that a digit came just before. -/
def takeDigits (inside : Bool) : List Char → List Nat × List Char
  | [] => ([], [])
  | c :: rest =>
    match digitValue? c with
    | some digit =>
      let (digits, left) := takeDigits true rest
      (digit :: digits, left)
    | none =>
      if c == '_' && inside && (rest.head?.bind digitValue?).isSome then takeDigits false rest
      else ([], c :: rest)

/-- The exponent part of a number: nothing, or a mark, an optional sign and digits up to
the end. -/
def readExponent : List Char → Option Int
  | [] => some 0
  | mark :: rest =>
    if mark != 'e' && mark != 'E' then none
    else
      let (negative, digits) := match rest with
        | '-' :: digits => (true, digits)
        | '+' :: digits => (false, digits)
        | digits => (false, digits)
      match takeDigits false digits with
      | (digit :: more, []) =>
        let value : Int := ofDigits (digit :: more)
        some (if negative then -value else value)
      | _ => none

/-- An unsigned decimal number: digits with an optional point, at least one digit beside
it, and an optional exponent. -/
def readMagnitude (negative : Bool) (text : List Char) : Option Double :=
  let (whole, rest) := takeDigits false text
  let (fraction, rest) := match rest with
    | '.' :: after => takeDigits false after
    | rest => ([], rest)
  if whole.isEmpty && fraction.isEmpty then none
  else (readExponent rest).map fun exponent =>
    ofScientific negative (ofDigits (whole ++ fraction)) (exponent - fraction.length)

/-- The words for numbers without digits, in lower case. -/
def readWord (negative : Bool) (word : String) : Option Double :=
  if word == "inf" || word == "infinity" then some (.infinite negative)
  else if word == "nan" then some .nan
  else none

/-- A number as text, with blanks around it allowed. -/
def read (text : List Char) : Option Double :=
  let trimmed := trim text
  let (negative, magnitude) := match trimmed with
    | '-' :: rest => (true, rest)
    | '+' :: rest => (false, rest)
    | rest => (false, rest)
  (readWord negative (String.ofList (magnitude.map Char.toLower))).or
    (readMagnitude negative magnitude)

end Reconciler.Double
