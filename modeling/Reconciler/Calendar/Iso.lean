import Reconciler.Calendar.Moment

/-!
# Reading moments from text

A date is a calendar date or a week date, with dashes between its parts or without. Any one
character may stand between date and time. The time has hours and optionally minutes,
seconds and a fraction, with colons or without; the fraction keeps six digits and may follow
any part. The offset starts at the first `+`, `-` or `Z` of the time.

Text after a complete time is an error only if no offset follows.
-/

namespace Reconciler.Moment

open Reconciler.Text

/-- Exactly `count` ASCII digits and the text after them. -/
def digits? : Nat → List Char → Option (Nat × List Char)
  | 0, text => some (0, text)
  | count + 1, text => do
    let (value, rest) ← digits? count text
    match rest with
    | c :: rest => if isAsciiDigit c then some (10 * value + (c.toNat - 48), rest) else none
    | [] => none

/-- Where the date ends. With a dash after the year a calendar date has ten characters; a
week date without dashes has seven or eight, which an odd or even row of digits decides. -/
def dateLength (text : List Char) : Nat :=
  let at? (index : Nat) : Option Char := text[index]?
  if text.length = 7 then 7
  else if at? 4 = some '-' then
    if at? 5 = some 'W' then
      if at? 8 = some '-' then
        if (at? 10).any isAsciiDigit then 8 else 10
      else 8
    else 10
  else if at? 4 = some 'W' then
    let stop := 7 + ((text.drop 7).takeWhile isAsciiDigit).length
    if stop < 9 then stop
    else if stop % 2 = 0 then 7 else 8
  else 8

/-- A week date after its `W`: the week and, if there is more, the day. -/
def readWeek (year : Nat) (dashed : Bool) (text : List Char) : Option Date := do
  let (week, rest) ← digits? 2 text
  if rest.isEmpty then Date.ofWeek? year week 1
  else
    let rest ← if dashed then (if rest.head? = some '-' then some (rest.drop 1) else none)
      else some rest
    let (day, _) ← digits? 1 rest
    Date.ofWeek? year week day

/-- A date from text of the length that `dateLength` gives. -/
def readDate (text : List Char) : Option Date := do
  let (year, rest) ← digits? 4 text
  let dashed := rest.head? = some '-'
  let rest := if dashed then rest.drop 1 else rest
  match rest with
  | 'W' :: rest => readWeek year dashed rest
  | rest =>
    let (month, rest) ← digits? 2 rest
    let rest ← if dashed then (if rest.head? = some '-' then some (rest.drop 1) else none)
      else some rest
    let (day, _) ← digits? 2 rest
    Date.valid? year month day

/-- A time of day as it was read, before it is known to be one. -/
structure Clock where
  hour : Nat := 0
  minute : Nat := 0
  second : Nat := 0
  microsecond : Nat := 0
  /-- Whether all the text was used. -/
  complete : Bool := true

/-- The fraction of a second: six digits count, further digits are skipped. -/
def readFraction (clock : Clock) (text : List Char) : Option Clock := do
  let count := min 6 text.length
  let (value, rest) ← digits? count text
  return { clock with
    microsecond := value * Nat.pow 10 (6 - count)
    complete := (rest.dropWhile isAsciiDigit).isEmpty }

/-- Set the part of a given index: hours, minutes, seconds. -/
def Clock.set (clock : Clock) (index value : Nat) : Clock :=
  match index with
  | 0 => { clock with hour := value }
  | 1 => { clock with minute := value }
  | _ => { clock with second := value }

/-- The parts of a time from a given index on. Whether a colon follows the hours decides
whether one must follow the minutes. -/
def readParts (clock : Clock) (colons : Bool) : Nat → Nat → List Char → Option Clock
  | 0, _, text => readFraction clock text
  | parts + 1, index, text => do
    let (value, rest) ← digits? 2 text
    let clock := clock.set index value
    match rest with
    | [] => some clock
    | c :: after =>
      let colons := if index = 0 then c == ':' else colons
      if after.isEmpty && c.toNat < 128 then some { clock with complete := false }
      else if colons && c == ':' then readParts clock colons parts (index + 1) after
      else if c == '.' || c == ',' then readFraction clock after
      else if !colons then readParts clock colons parts (index + 1) rest
      else none

/-- A time of day in the form of `Clock`. -/
def readClock (text : List Char) : Option Clock := readParts {} true 3 0 text

/-- Whether a character starts the offset. -/
def startsOffset (c : Char) : Bool := c == '+' || c == '-' || c == 'Z'

/-- The offset after the time: nothing, `Z`, or a signed time. Offsets below a second are
none at all. -/
def readOffset : List Char → Option (Option Int)
  | [] => some none
  | 'Z' :: rest => if rest.isEmpty then some (some 0) else none
  | sign :: rest => do
    let clock ← readClock rest
    if clock.complete then
      let seconds := clock.hour * 3600 + clock.minute * 60 + clock.second
      let size : Int :=
        if seconds = 0 then 0 else (seconds * microPerSecond + clock.microsecond : Nat)
      return some (if sign == '-' then -size else size)
    else none

/-- The time and offset on a date. -/
def readTime (date : Date) (text : List Char) : Option Moment := do
  let (time, zone) := text.span fun c => !startsOffset c
  let clock ← readClock time
  let offset ← readOffset zone
  if offset.isNone && !clock.complete then none
  else valid? date clock.hour clock.minute clock.second clock.microsecond offset

/-- A moment from its text. A date alone is midnight. -/
def read (text : List Char) : Option Moment :=
  if text.length < 7 then none
  else do
    let length := dateLength text
    let date ← readDate (text.take length)
    match text.drop length with
    | [] => valid? date 0 0 0 0 none
    | _ :: time => readTime date time

end Reconciler.Moment
