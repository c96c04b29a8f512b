import Reconciler.Number.Decimal
import Reconciler.Text.Quoted
import Reconciler.Value.Basic

/-!
# Values in messages

A message shows a value in its written form: text between quotes, the parts of a collection
between brackets, and dates as the parts from which they are made. `Value.plain` differs
from it for a value that stands alone: text then has no quotes, and dates and moments are
written as they usually are.
-/

namespace Reconciler.Value

/-- Parts between commas. -/
def commaSeparated (parts : List String) : String := String.intercalate ", " parts

/-- A span of time by its days, seconds and microseconds, of which only the days may be
negative. -/
def shownSpan (microseconds : Int) : String :=
  let days := microseconds.fdiv Moment.microPerDay
  let rest := microseconds.fmod Moment.microPerDay
  let seconds := rest / Moment.microPerSecond
  let micro := rest % Moment.microPerSecond
  let part (name : String) (value : Int) : List String :=
    if value = 0 then [] else [name ++ "=" ++ toString value]
  let parts := part "days" days ++ part "seconds" seconds ++ part "microseconds" micro
  "datetime.timedelta(" ++ (if parts.isEmpty then "0" else commaSeparated parts) ++ ")"

/-- An offset from universal time. -/
def shownOffset (offset : Int) : String :=
  if offset = 0 then "datetime.timezone.utc" else "datetime.timezone(" ++ shownSpan offset ++ ")"

/-- A date by its three parts. -/
def shownDate (d : Date) : String :=
  "datetime.date(" ++ commaSeparated [toString d.year, toString d.month, toString d.day] ++ ")"

/-- A moment by its parts; seconds and microseconds are left out from the end while they
are zero. -/
def shownMoment (m : Moment) : String :=
  let whole := [m.date.year, m.date.month, m.date.day, m.hour, m.minute]
  let parts :=
    if m.microsecond ≠ 0 then whole ++ [m.second, m.microsecond]
    else if m.second ≠ 0 then whole ++ [m.second]
    else whole
  "datetime.datetime(" ++ commaSeparated (parts.map toString ++
    m.offset.elim [] fun offset => ["tzinfo=" ++ shownOffset offset]) ++ ")"

mutual

/-- The written form of a value. -/
def shown : Value → String
  | .null => "None"
  | .bool value => if value then "True" else "False"
  | .int value => toString value
  | .float value => value.text
  | .text value => Text.quoted value
  | .date value => shownDate value
  | .moment value => shownMoment value
  | .bytes value => Text.quotedBytes value
  | .list items => "[" ++ commaSeparated (shownItems items) ++ "]"
  | .tuple [item] => "(" ++ shown item ++ ",)"
  | .tuple items => "(" ++ commaSeparated (shownItems items) ++ ")"
  | .set [] => "set()"
  | .set items => "\x7b" ++ commaSeparated (shownItems items) ++ "\x7d"
  | .map members => "\x7b" ++ commaSeparated (shownMembers members) ++ "\x7d"

/-- The written forms of the items of a list. -/
def shownItems : List Value → List String
  | [] => []
  | item :: items => shown item :: shownItems items

/-- The written forms of members, each with a colon after its key. -/
def shownMembers : Members → List String
  | [] => []
  | (key, value) :: rest => (shown key ++ ": " ++ shown value) :: shownMembers rest

end

/-- A value that stands alone in a message. -/
def plain : Value → String
  | .text value => value
  | .date value => value.text
  | .moment value => String.ofList (value.text.toList.map fun c => if c = 'T' then ' ' else c)
  | value => value.shown

@[simp] theorem plain_text (value : String) : (Value.text value).plain = value := rfl

end Reconciler.Value
