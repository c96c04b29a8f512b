import Reconciler.Text.Digit

/-!
# Dates

Dates follow the Gregorian calendar extended to the years 1 to 9999. Counting days from
the first of January of year 1, which is day 1, puts them in order; the week calendar is
reached through the same count.
-/

namespace Reconciler

/-- A day of the calendar. `Date.valid?` decides which triples are one. -/
structure Date where
  year : Nat
  month : Nat
  day : Nat
  deriving DecidableEq, Inhabited

namespace Date

/-- The last year that has dates. -/
def lastYear : Nat := 9999

/-- Every fourth year is a leap year, except the centuries not divisible by 400. -/
def isLeap (year : Nat) : Bool := year % 4 == 0 && (year % 100 != 0 || year % 400 == 0)

/-- The number of days in a month. -/
def daysInMonth (year month : Nat) : Nat :=
  if month = 2 then (if isLeap year then 29 else 28)
  else if month = 4 || month = 6 || month = 9 || month = 11 then 30
  else 31

/-- The date with these parts, if the calendar has one. -/
def valid? (year month day : Nat) : Option Date :=
  if 1 ≤ year && year ≤ lastYear && 1 ≤ month && month ≤ 12 &&
      1 ≤ day && day ≤ daysInMonth year month
  then some ⟨year, month, day⟩ else none

/-- The number of days before the first of January of a year. -/
def daysBeforeYear (year : Nat) : Nat :=
  let past := year - 1
  past * 365 + past / 4 - past / 100 + past / 400

/-- The number of days of a year before the first of a month. -/
def daysBeforeMonth (year month : Nat) : Nat :=
  (List.range (month - 1)).foldl (fun days earlier => days + daysInMonth year (earlier + 1)) 0

/-- The count of the day, where the first day of year 1 counts 1. -/
def ordinal (date : Date) : Nat :=
  daysBeforeYear date.year + daysBeforeMonth date.year date.month + date.day

/-- The month and day of the `index`-th day of a year, searched month by month. -/
def monthAndDay (year : Nat) : Nat → Nat → Nat → Nat × Nat
  | 0, month, index => (month, index)
  | months + 1, month, index =>
    let length := daysInMonth year month
    if index ≤ length then (month, index) else monthAndDay year months (month + 1) (index - length)

/-- The year that holds the day of a given count, searched from a guess that may be one
too late. -/
def yearOf (count : Nat) : Nat :=
  let guess := (count - 1) * 400 / 146097 + 1
  if count ≤ daysBeforeYear guess then guess - 1
  else if daysBeforeYear (guess + 1) < count then guess + 1
  else guess

/-- The date with a given count; `none` beyond the years 1 to 9999. -/
def ofOrdinal? (count : Nat) : Option Date :=
  if count = 0 then none
  else
    let year := yearOf count
    let (month, day) := monthAndDay year 12 1 (count - daysBeforeYear year)
    valid? year month day

/-- Monday is 0 and Sunday is 6. -/
def weekday (count : Nat) : Nat := (count + 6) % 7

/-- The count of the Monday that starts the first week of a year, which is the week of the
year's first Thursday. It may lie in the year before. -/
def firstMonday (year : Nat) : Int :=
  let newYear := daysBeforeYear year + 1
  let shift := weekday newYear
  if 3 < shift then (newYear : Int) - shift + 7 else (newYear : Int) - shift

/-- The date of a day of a numbered week. A year has a week 53 if it starts on a Thursday,
or on a Wednesday when it is a leap year. -/
def ofWeek? (year week day : Nat) : Option Date :=
  let shift := weekday (daysBeforeYear year + 1)
  let lastWeek := if shift = 3 || (shift = 2 && isLeap year) then 53 else 52
  if 1 ≤ year && year ≤ lastYear && 1 ≤ week && week ≤ lastWeek && 1 ≤ day && day ≤ 7 then
    ofOrdinal? (firstMonday year + ((week - 1) * 7 + (day - 1) : Nat)).toNat
  else none

/-- The date as text: year, month and day with dashes. -/
def text (date : Date) : String :=
  String.ofList (Text.decimalPadded 4 date.year ++ '-' :: Text.decimalPadded 2 date.month ++
    '-' :: Text.decimalPadded 2 date.day)

end Date

end Reconciler
