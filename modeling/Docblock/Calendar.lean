/-
# Dates

The date and time of a moment, counted in seconds since the start of 1970 in
universal time. Days are counted from the first of March, so that the day
that a leap year has more comes last: a cycle of 400 years has 146097 days.

Key definitions: `Calendar.Date`, `Calendar.Date.ofDays`, `Calendar.render`.
-/
import Docblock.Text.Cut

namespace Docblock
namespace Calendar

/-- A day of the calendar. -/
structure Date where
  year : Nat
  /-- From 1 to 12. -/
  month : Nat
  /-- From 1 to 31. -/
  day : Nat
  deriving DecidableEq, Repr

/-- The date so many days after the first of January 1970. -/
def Date.ofDays (days : Nat) : Date :=
  let sinceMarch := days + 719468
  let cycle := sinceMarch / 146097
  let dayOfCycle := sinceMarch % 146097
  let yearOfCycle :=
    (dayOfCycle - dayOfCycle / 1460 + dayOfCycle / 36524 - dayOfCycle / 146096) / 365
  let dayOfYear := dayOfCycle - (365 * yearOfCycle + yearOfCycle / 4 - yearOfCycle / 100)
  let monthFromMarch := (5 * dayOfYear + 2) / 153
  let month := if monthFromMarch < 10 then monthFromMarch + 3 else monthFromMarch - 9
  { year := cycle * 400 + yearOfCycle + if month ≤ 2 then 1 else 0
    month
    day := dayOfYear - (153 * monthFromMarch + 2) / 5 + 1 }

/-- The names of the months. -/
def monthNames : List String :=
  ["Jan", "Feb", "Mar", "Apr", "May", "Jun", "Jul", "Aug", "Sep", "Oct", "Nov", "Dec"]

/-- The names of the days of the week, from the first day of 1970. -/
def weekdayNames : List String := ["Thu", "Fri", "Sat", "Sun", "Mon", "Tue", "Wed"]

/-- A number with at least two digits. -/
def twoDigits (n : Nat) : String := if n < 10 then "0" ++ toString n else toString n

/-- A moment as text, such as `Thu Jan 01 1970 00:00:00 GMT+0000`. -/
def render (seconds : Nat) : String :=
  let days := seconds / 86400
  let date := Date.ofDays days
  let time := [seconds / 3600 % 24, seconds / 60 % 60, seconds % 60]
  Text.join " " [weekdayNames.getD (days % 7) "", monthNames.getD (date.month - 1) "",
    twoDigits date.day, toString date.year, Text.join ":" (time.map twoDigits), "GMT+0000"]

end Calendar
end Docblock
