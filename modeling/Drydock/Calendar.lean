import Drydock.Number.Layout

set_option autoImplicit false
set_option relaxedAutoImplicit false

/-!
Days and moments of the proleptic Gregorian calendar, years 1 to 9999, and how they are written. A
moment may carry its distance from universal time.
-/

namespace Drydock

open Number (padded)

/-- A day. -/
structure Date where
  year : Nat
  month : Nat
  day : Nat
  deriving DecidableEq, Repr

/-- A moment to the microsecond, with minutes east of universal time if that is known. -/
structure Moment where
  date : Date
  hour : Nat
  minute : Nat
  second : Nat
  micro : Nat
  offset : Option Int
  deriving DecidableEq, Repr

/-- Why a day or a moment does not exist. -/
inductive CalendarFault
  | year (n : Nat)
  | month | day | hour | minute | second
  | offset (minutes : Int)
  deriving DecidableEq, Repr

/-- A distance as days and seconds, the seconds never negative and a part that is zero left out. -/
def distanceText (minutes : Int) : String :=
  let days := minutes / 1440
  let seconds := minutes % 1440 * 60
  let parts := (if days = 0 then [] else [s!"days={days}"]) ++
    (if seconds = 0 then [] else [s!"seconds={seconds}"])
  "datetime.timedelta(" ++ ", ".intercalate parts ++ ")"

/-- What is wrong. -/
def CalendarFault.message : CalendarFault → String
  | .year n => s!"year {n} is out of range"
  | .month => "month must be in 1..12"
  | .day => "day is out of range for month"
  | .hour => "hour must be in 0..23"
  | .minute => "minute must be in 0..59"
  | .second => "second must be in 0..59"
  | .offset minutes =>
    "offset must be a timedelta strictly between -timedelta(hours=24) and timedelta(hours=24), not " ++
      distanceText minutes ++ "."

namespace Date

/-- Every fourth year, but not the centuries that 400 does not divide. -/
def isLeap (year : Nat) : Bool :=
  year % 4 == 0 && (year % 100 != 0 || year % 400 == 0)

/-- The days of a month. -/
def daysIn (year month : Nat) : Nat :=
  if month = 2 then (if isLeap year then 29 else 28)
  else if month = 4 ∨ month = 6 ∨ month = 9 ∨ month = 11 then 30
  else 31

/-- The day of the calendar with these numbers. -/
def make (year month day : Nat) : Except CalendarFault Date :=
  if year = 0 ∨ 9999 < year then .error (.year year)
  else if month = 0 ∨ 12 < month then .error .month
  else if day = 0 ∨ daysIn year month < day then .error .day
  else .ok ⟨year, month, day⟩

/-- Days from the first day of the year 1. -/
def ordinal (d : Date) : Nat :=
  let y := d.year - 1
  let before := (List.range (d.month - 1)).foldl (fun n m => n + daysIn d.year (m + 1)) 0
  y * 365 + y / 4 - y / 100 + y / 400 + before + d.day

/-- Year, month and day joined by hyphens. -/
def text (d : Date) : String :=
  padded 4 d.year ++ "-" ++ padded 2 d.month ++ "-" ++ padded 2 d.day

/-- The form inside a list or a map. -/
def nested (d : Date) : String :=
  s!"datetime.date({d.year}, {d.month}, {d.day})"

end Date

namespace Moment

/-- The moment with these numbers. -/
def make (date : Date) (hour minute second micro : Nat) (offset : Option Int) :
    Except CalendarFault Moment :=
  if 1440 ≤ (offset.getD 0).natAbs then .error (.offset (offset.getD 0))
  else if 23 < hour then .error .hour
  else if 59 < minute then .error .minute
  else if 59 < second then .error .second
  else .ok ⟨date, hour, minute, second, micro, offset⟩

/-- Microseconds from the first day of the year 1, in universal time where the distance is known. -/
def instant (m : Moment) : Int :=
  let minutes : Int := (m.date.ordinal * 24 + m.hour : Nat) * 60 + (m.minute : Int) - m.offset.getD 0
  (minutes * 60 + m.second) * 1000000 + m.micro

/-- Two moments are the same instant, or the same reading of two clocks whose distance from
universal time is unknown. -/
def same (a b : Moment) : Bool :=
  a.offset.isSome == b.offset.isSome && a.instant == b.instant

/-- Hours and minutes east of universal time. -/
def offsetText (minutes : Int) : String :=
  (if minutes < 0 then "-" else "+") ++ padded 2 (minutes.natAbs / 60) ++ ":" ++
    padded 2 (minutes.natAbs % 60)

/-- Day and time with a blank between them. -/
def text (m : Moment) : String :=
  m.date.text ++ " " ++ padded 2 m.hour ++ ":" ++ padded 2 m.minute ++ ":" ++ padded 2 m.second ++
    (if m.micro = 0 then "" else "." ++ padded 6 m.micro) ++
    (m.offset.map offsetText).getD ""

/-- A zone by its distance from universal time. -/
def zoneText (minutes : Int) : String :=
  if minutes = 0 then "datetime.timezone.utc"
  else s!"datetime.timezone({distanceText minutes})"

/-- The form inside a list or a map: trailing zero fields of the time are left out. -/
def nested (m : Moment) : String :=
  let seconds :=
    if m.micro ≠ 0 then s!", {m.second}, {m.micro}"
    else if m.second ≠ 0 then s!", {m.second}" else ""
  let zone := (m.offset.map fun o => ", tzinfo=" ++ zoneText o).getD ""
  s!"datetime.datetime({m.date.year}, {m.date.month}, {m.date.day}, {m.hour}, {m.minute}{seconds}{zone})"

end Moment

end Drydock
