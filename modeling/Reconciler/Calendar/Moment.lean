import Reconciler.Calendar.Date

/-!
# Moments

A moment is a date and a time of day in microseconds, with or without the offset of its
clock from universal time. Moments with an offset name an instant, and instants are put in
order by the microseconds since the start of year 1; moments without one are only compared
with each other.
-/

namespace Reconciler

/-- A time of day on a date. The offset is in microseconds east of universal time. -/
structure Moment where
  date : Date
  hour : Nat
  minute : Nat
  second : Nat
  microsecond : Nat
  offset : Option Int
  deriving DecidableEq, Inhabited

namespace Moment

/-- Microseconds in a second. -/
def microPerSecond : Nat := 1000000

/-- Microseconds in a day. -/
def microPerDay : Nat := 86400 * microPerSecond

/-- The moment with these parts, if the day has such a time and the offset is shorter than
a day. -/
def valid? (date : Date) (hour minute second microsecond : Nat) (offset : Option Int) :
    Option Moment :=
  if hour < 24 && minute < 60 && second < 60 && microsecond < microPerSecond &&
      (offset.getD 0).natAbs < microPerDay
  then some ⟨date, hour, minute, second, microsecond, offset⟩ else none

/-- The first moment of the calendar, without offset. -/
def first : Moment := ⟨⟨1, 1, 1⟩, 0, 0, 0, 0, none⟩

/-- Microseconds since midnight of day 0 on the moment's own clock. -/
def clock (m : Moment) : Int :=
  ((m.date.ordinal * 86400 + m.hour * 3600 + m.minute * 60 + m.second) * microPerSecond +
    m.microsecond : Nat)

/-- Microseconds since midnight of day 0 on the universal clock; a moment without offset
counts as universal. -/
def instant (m : Moment) : Int := m.clock - m.offset.getD 0

/-- Whether an instant falls into the years 1 to 9999. -/
def inCalendar (instant : Int) : Bool :=
  (microPerDay : Int) ≤ instant && instant < (Date.daysBeforeYear (Date.lastYear + 1) + 1 : Nat) *
    (microPerDay : Int)

/-- Two moments are the same if both name the same instant or, when neither has an offset,
show the same clock. -/
def same (x y : Moment) : Bool :=
  x.offset.isSome == y.offset.isSome && x.instant == y.instant

/-- An offset as text: sign, hours and minutes, then seconds and microseconds if there are
any. -/
def offsetText (offset : Int) : List Char :=
  let size := offset.natAbs
  let seconds := size / microPerSecond
  let micro := size % microPerSecond
  (if offset < 0 then '-' else '+') :: Text.decimalPadded 2 (seconds / 3600) ++
    ':' :: Text.decimalPadded 2 (seconds / 60 % 60) ++
    (if seconds % 60 = 0 && micro = 0 then [] else ':' :: Text.decimalPadded 2 (seconds % 60)) ++
    (if micro = 0 then [] else '.' :: Text.decimalPadded 6 micro)

/-- The moment as text: date, `T`, time, the fraction if there is one, the offset if there
is one. -/
def text (m : Moment) : String :=
  m.date.text ++ String.ofList
    ('T' :: Text.decimalPadded 2 m.hour ++ ':' :: Text.decimalPadded 2 m.minute ++
      ':' :: Text.decimalPadded 2 m.second ++
      (if m.microsecond = 0 then [] else '.' :: Text.decimalPadded 6 m.microsecond) ++
      (m.offset.elim [] offsetText))

end Moment

end Reconciler
