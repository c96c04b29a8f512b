import Reconciler.Number.Decimal
import Reconciler.Text.Base64
import Reconciler.Text.Hex
import Reconciler.Text.Integer
import Reconciler.Value.Basic
import Reconciler.Yaml.Resolve

/-!
# Values of text nodes

The value of a node of text is made from its tag and its text. Text whose form decided the
tag always fits it; a written tag may be at odds with its text, and each tag has its own way
to fail then.
-/

namespace Reconciler.Yaml.Scalar

/-- A value, or what is wrong with the text. -/
abbrev Reading := Except Flaw Value

/-- A fault in a text. -/
def faulty (fault : Fault) : Except Flaw α := .error (.fault fault)

/-- Text without underscores, which only group digits. -/
def ungrouped (text : String) : List Char := text.toList.filter fun c => c != '_'

/-- A text without its sign, and whether that is minus. A text of no characters is a
fault. -/
def splitSign : List Char → Except Flaw (Bool × List Char)
  | [] => faulty .outOfRange
  | '-' :: rest => .ok (true, rest)
  | '+' :: rest => .ok (false, rest)
  | text => .ok (false, text)

/-- The text between the colons of a text. -/
def placesOf (text : List Char) : List (List Char) :=
  text.foldr (fun c parts => match parts with
    | part :: parts => if c == ':' then [] :: part :: parts else (c :: part) :: parts
    | [] => []) [[]]

/-- The value of a digit below a base of at most sixteen. -/
def digitIn? (base : Nat) (c : Char) : Option Nat :=
  (Text.hexValue? c).bind fun digit => if digit < base then some digit else none

/-- The whole number that a text spells in a base that is a power of two. The mark of the
base may be repeated in it. -/
def inBase (base : Nat) (mark : Char) (text : List Char) : Except Flaw Int := do
  let (negative, digits) := match Text.trim text with
    | '-' :: digits => (true, digits)
    | '+' :: digits => (false, digits)
    | digits => (false, digits)
  let digits := match digits with
    | '0' :: c :: rest => if c == mark || c == mark.toUpper then rest else digits
    | digits => digits
  if digits.isEmpty then faulty .malformed
  else match digits.mapM (digitIn? base) with
    | some values =>
      let size : Int := (values.foldl (fun value digit => base * value + digit) 0 : Nat)
      return if negative then -size else size
    | none => faulty .malformed

/-- The whole number that a text spells to the base ten. -/
def decimal (text : List Char) : Except Flaw Int :=
  match Text.readInteger text with
  | some value => .ok value
  | none => faulty .malformed

/-- A whole number in one of its bases; colons separate places to the base sixty. -/
def int (text : String) : Reading := do
  let (negative, digits) ← splitSign (ungrouped text)
  let size ← match digits with
    | ['0'] => pure 0
    | '0' :: 'b' :: rest => inBase 2 'b' rest
    | '0' :: 'x' :: rest => inBase 16 'x' rest
    | '0' :: _ => inBase 8 'o' digits
    | [] => faulty .outOfRange
    | _ =>
      if digits.contains ':' then do
        let places ← (placesOf digits).mapM decimal
        pure (places.foldl (fun value place => 60 * value + place) 0)
      else decimal digits
  return .int (if negative then -size else size)

/-- A number with a point. -/
def pointed (text : List Char) : Except Flaw Double :=
  match Double.read text with
  | some value => .ok value
  | none => faulty .malformed

/-- Places to the base sixty, the last one first, each with its weight. Weights too large
for a number with a point are a fault. -/
def sixties : List Double → Nat → Double → Except Flaw Double
  | [], _, sum => .ok sum
  | place :: places, weight, sum =>
    match Double.ofInt? weight with
    | some factor => sixties places (60 * weight) (sum.add (place.mul factor))
    | none => faulty .tooLarge

/-- A number with a point; colons separate places to the base sixty. -/
def float (text : String) : Reading := do
  let (negative, digits) ← splitSign ((ungrouped text).map Char.toLower)
  let size ← if digits == ".inf".toList then pure (.infinite false)
    else if digits == ".nan".toList then pure .nan
    else if digits.contains ':' then do
      let places ← (placesOf digits).mapM pointed
      sixties places.reverse 1 Double.zero
    else pointed digits
  return .float (if negative then size.neg else size)

/-- A truth value by its word, in any case. -/
def bool (text : String) : Reading :=
  match String.ofList (text.toList.map Char.toLower) with
  | "yes" | "true" | "on" => .ok (.bool true)
  | "no" | "false" | "off" => .ok (.bool false)
  | _ => faulty .unknownWord

/-- Bytes written in base 64. -/
def binary (text : String) : Reading :=
  if text.toList.all fun c => c.toNat < 128 then
    match Text.Base64.decode false text.toList with
    | some bytes => .ok (.bytes bytes)
    | none => .error .form
  else .error .form

/-- The first six digits of a fraction, as microseconds. -/
def microseconds (fraction : List Char) : Nat :=
  let digits := (fraction ++ List.replicate 6 '0').take 6
  Text.ofDigits (digits.map fun c => c.toNat - '0'.toNat)

/-- A date or a moment. -/
def timestamp (text : String) : Reading :=
  match TimeParts.read (withoutFinalBreak text.toList) with
  | none => faulty .noMember
  | some parts =>
    match Date.valid? parts.year parts.month parts.day, parts.time with
    | none, _ => faulty .malformed
    | some date, none => .ok (.date date)
    | some date, some (hour, minute, second) =>
      let offset := parts.offset.map fun (negative, hours, minutes) =>
        let size : Int := ((60 * hours + minutes) * 60 * Moment.microPerSecond : Nat)
        if negative then -size else size
      match Moment.valid? date hour minute second (microseconds parts.fraction) offset with
      | some moment => .ok (.moment moment)
      | none => faulty .malformed

/-- The value of a text under a tag; tags of collections and unknown tags have none. -/
def value (tag : Tag) (text : String) : Reading :=
  match tag with
  | .null => .ok .null
  | .bool => bool text
  | .int => int text
  | .float => float text
  | .binary => binary text
  | .timestamp => timestamp text
  | .text => .ok (.text text)
  | _ => .error .form

end Reconciler.Yaml.Scalar
