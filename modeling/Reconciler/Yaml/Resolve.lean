import Reconciler.Text.Digit
import Reconciler.Yaml.Node

/-!
# What plain text stands for

Plain text is a number, a date, a truth value or nothing at all if it has the form of one,
and else it is text. The forms are tried in a fixed order, each only for texts that start
with a character of its own; a line break at the end is overlooked.
-/

namespace Reconciler.Yaml

open Text (isAsciiDigit)

namespace Form

/-- A digit or an underscore. -/
def isDigitOrBar (c : Char) : Bool := isAsciiDigit c || c == '_'

/-- A text without the sign at its start, if there is one. -/
def dropSign : List Char → List Char
  | '+' :: rest => rest
  | '-' :: rest => rest
  | text => text

/-- Whether a text is nothing or an exponent, whose sign is required. -/
def isExponent : List Char → Bool
  | [] => true
  | mark :: sign :: digits =>
    (mark == 'e' || mark == 'E') && (sign == '+' || sign == '-') &&
      !digits.isEmpty && digits.all isAsciiDigit
  | _ => false

/-- Whether a text is one or more further places to the base sixty, each a colon and one or
two digits below sixty, and then something that `after` admits. -/
def areSixties (after : List Char → Bool) : List Char → Bool
  | ':' :: tens :: ones :: rest =>
    ('0' ≤ tens && tens ≤ '5' && isAsciiDigit ones && (areSixties after rest || after rest)) ||
      (isAsciiDigit tens && (areSixties after (ones :: rest) || after (ones :: rest)))
  | [':', digit] => isAsciiDigit digit && after []
  | _ => false

/-- Whether a text is a point, further digits, and maybe an exponent. -/
def isFraction : List Char → Bool
  | '.' :: rest => isExponent (rest.dropWhile isDigitOrBar)
  | _ => false

/-- Whether a text has the form of a number with a point. -/
def isFloat (text : List Char) : Bool :=
  let digits := dropSign text
  let rest := digits.dropWhile isDigitOrBar
  let startsWithDigit := (digits.head?.map isAsciiDigit).getD false
  (startsWithDigit && isFraction rest) ||
    (match text with
      | '.' :: digit :: rest => isAsciiDigit digit && isExponent (rest.dropWhile isDigitOrBar)
      | _ => false) ||
    (startsWithDigit && areSixties
      (fun after => after.head? == some '.' && (after.drop 1).all isDigitOrBar) rest) ||
    (["inf", "Inf", "INF"].any fun word => digits == '.' :: word.toList) ||
    (["nan", "NaN", "NAN"].any fun word => text == '.' :: word.toList)

/-- Whether a text has the form of a whole number, in any of its bases. -/
def isInt (text : List Char) : Bool :=
  match dropSign text with
  | ['0'] => true
  | '0' :: 'b' :: digits =>
    !digits.isEmpty && digits.all fun c => c == '0' || c == '1' || c == '_'
  | '0' :: 'x' :: digits => !digits.isEmpty && digits.all isHexOrBar
  | '0' :: digits => digits.all fun c => ('0' ≤ c && c ≤ '7') || c == '_'
  | c :: digits =>
    '1' ≤ c && c ≤ '9' &&
      (let rest := digits.dropWhile isDigitOrBar
       rest.isEmpty || areSixties List.isEmpty rest)
  | [] => false
where
  /-- A hexadecimal digit or an underscore. -/
  isHexOrBar (c : Char) : Bool :=
    isDigitOrBar c || ('a' ≤ c && c ≤ 'f') || ('A' ≤ c && c ≤ 'F')

/-- The words for truth values, in each of their three spellings. -/
def truthWords : List String := [
  "yes", "Yes", "YES", "no", "No", "NO", "true", "True", "TRUE", "false", "False", "FALSE",
  "on", "On", "ON", "off", "Off", "OFF"]

/-- The ways to write nothing. -/
def nullWords : List String := ["~", "null", "Null", "NULL", ""]

end Form

/-- The written parts of a date, and those of a time of day if there is one. -/
structure TimeParts where
  year : Nat
  month : Nat
  day : Nat
  time : Option (Nat × Nat × Nat)
  /-- The digits of the fraction of a second. -/
  fraction : List Char
  /-- The offset of the clock: its sign, hours and minutes; universal time is plus zero. -/
  offset : Option (Bool × Nat × Nat)
  deriving Inhabited

namespace TimeParts

/-- A number of at least `least` and at most `most` digits at the start of a text, as many
as there are, and the text after it. -/
def number (least most : Nat) (text : List Char) : Option (Nat × List Char) :=
  let digits := (text.take most).takeWhile isAsciiDigit
  if least ≤ digits.length then
    some (Text.ofDigits (digits.map fun c => c.toNat - '0'.toNat), text.drop digits.length)
  else none

/-- A given character at the start of a text. -/
def expect (c : Char) : List Char → Option (List Char)
  | [] => none
  | other :: rest => if other == c then some rest else none

/-- The offset at the end of a time. -/
def offsetOf : List Char → Option (Option (Bool × Nat × Nat))
  | [] => some none
  | ['Z'] => some (some (false, 0, 0))
  | sign :: text => do
    if sign != '+' && sign != '-' then none
    let (hours, rest) ← number 1 2 text
    if rest.isEmpty then return some (sign == '-', hours, 0)
    let (minutes, rest) ← number 2 2 (← expect ':' rest)
    if rest.isEmpty then return some (sign == '-', hours, minutes) else none

/-- Whether a character is a blank between the parts of a time. -/
def isBlank (c : Char) : Bool := c == ' ' || c == '\t'

/-- The parts of a text of the form of a date or of a date with a time. -/
def read (text : List Char) : Option TimeParts := do
  let (year, rest) ← number 4 4 text
  let (month, rest) ← number 1 2 (← expect '-' rest)
  let (day, rest) ← number 1 2 (← expect '-' rest)
  if rest.isEmpty then return ⟨year, month, day, none, [], none⟩
  let rest ← match rest with
    | 'T' :: rest => some rest
    | 't' :: rest => some rest
    | c :: rest => if isBlank c then some (rest.dropWhile isBlank) else none
    | [] => none
  let (hour, rest) ← number 1 2 rest
  let (minute, rest) ← number 2 2 (← expect ':' rest)
  let (second, rest) ← number 2 2 (← expect ':' rest)
  let (fraction, rest) := match rest with
    | '.' :: rest => rest.span isAsciiDigit
    | rest => ([], rest)
  let offset ← if rest.isEmpty then some none else
    match rest.dropWhile isBlank with
    | [] => none
    | rest => offsetOf rest
  return ⟨year, month, day, some (hour, minute, second), fraction, offset⟩

end TimeParts

/-- Whether a text has the form in which dates are written without a tag: the month and the
day of a date alone have two digits each. -/
def Form.isTimestamp (text : List Char) : Bool :=
  match TimeParts.read text with
  | some parts => parts.time.isSome || text.length == 10
  | none => false

/-- A text without the line break at its end, if there is one. -/
def withoutFinalBreak (text : List Char) : List Char :=
  if text.getLast? == some '\n' then text.dropLast else text

/-- The tag of a plain text. -/
def resolve (text : String) : Tag :=
  let chars := withoutFinalBreak text.toList
  let word := String.ofList chars
  let startsWith (marks : String) : Bool :=
    (text.toList.head?.map marks.toList.contains).getD false
  if Form.truthWords.contains word then .bool
  else if Form.isFloat chars then .float
  else if Form.isInt chars then .int
  else if word == "<<" then .merge
  else if Form.nullWords.contains word && (text.isEmpty || startsWith "~nN") then .null
  else if Form.isTimestamp chars then .timestamp
  else if word == "=" then .default
  else if ["!", "&", "*"].contains word then .unknown
  else .text

end Reconciler.Yaml
