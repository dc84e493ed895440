/-!
# Calendar days and moments

`Date` is a day of the years 1 to 9999 and `Moment` a time of such a day, with or without an offset
from universal time. `Date.make?` and `Moment.make?` refuse what no calendar has.
-/

set_option autoImplicit false

namespace AccessPlan

/-- A calendar day. -/
structure Date where
  year : Nat
  month : Nat
  day : Nat
  deriving DecidableEq, Repr

/-- A time of a day. The offset, in minutes east of universal time, is absent for a local time. -/
structure Moment where
  date : Date
  hour : Nat
  minute : Nat
  second : Nat
  micro : Nat
  offset : Option Int
  deriving DecidableEq, Repr

/-- A natural number with at least `width` digits, filled with zeros. -/
def padded (width n : Nat) : String :=
  let cs := Nat.toDigits 10 n
  String.ofList (List.replicate (width - cs.length) '0' ++ cs)

namespace Date

/-- Whether a year has a 29th of February. -/
def isLeap (year : Nat) : Bool :=
  year % 4 == 0 && (year % 100 != 0 || year % 400 == 0)

/-- The number of days of a month. -/
def daysIn (year month : Nat) : Nat :=
  if month == 2 then if isLeap year then 29 else 28
  else if month == 4 || month == 6 || month == 9 || month == 11 then 30
  else 31

/-- A day that the calendar has. -/
def make? (year month day : Nat) : Option Date :=
  if 1 ≤ year && year ≤ 9999 && 1 ≤ month && month ≤ 12 && 1 ≤ day && day ≤ daysIn year month then
    some ⟨year, month, day⟩
  else none

/-- Year, month and day with hyphens. -/
def text (d : Date) : String := s!"{padded 4 d.year}-{padded 2 d.month}-{padded 2 d.day}"

/-- The days before a year, counted from the year 1. -/
def daysBefore (year : Nat) : Nat :=
  let y := year - 1
  365 * y + y / 4 - y / 100 + y / 400

/-- The number of the day, counted from the first day of the year 1. -/
def ordinal (d : Date) : Nat :=
  let days := (List.range (d.month - 1)).foldl (fun days m => days + daysIn d.year (m + 1)) 0
  daysBefore d.year + days + d.day

end Date

namespace Moment

/-- A moment that clock and calendar have; an offset stays below a day. -/
def make? (date : Date) (hour minute second micro : Nat) (offset : Option Int) : Option Moment :=
  if hour < 24 && minute < 60 && second < 60 && micro < 1000000 &&
      (offset.all fun o => -1440 < o && o < 1440) then
    some ⟨date, hour, minute, second, micro, offset⟩
  else none

/-- The offset as hours and minutes with a sign. -/
def offsetText (offset : Int) : String :=
  let sign := if offset < 0 then "-" else "+"
  s!"{sign}{padded 2 (offset.natAbs / 60)}:{padded 2 (offset.natAbs % 60)}"

/-- Day and time with a space between; the fraction is left out when it is zero. -/
def text (m : Moment) : String :=
  let fraction := if m.micro == 0 then "" else s!".{padded 6 m.micro}"
  let offset := (m.offset.map offsetText).getD ""
  s!"{m.date.text} {padded 2 m.hour}:{padded 2 m.minute}:{padded 2 m.second}{fraction}{offset}"

/-- The microseconds since the start of the year 1, in universal time if there is an offset. -/
def instant (m : Moment) : Int :=
  let minutes : Int := (m.date.ordinal * 24 + m.hour) * 60 + m.minute
  ((minutes - m.offset.getD 0) * 60 + m.second) * 1000000 + m.micro

/-- Two moments are the same when both have an offset or neither has, and the instants agree. -/
def same (m n : Moment) : Bool :=
  m.offset.isSome == n.offset.isSome && m.instant == n.instant

end Moment

end AccessPlan
