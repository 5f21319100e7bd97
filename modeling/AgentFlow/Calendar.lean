import AgentFlow.Text.Basic

/-!
# Dates and times

Days of the proleptic Gregorian calendar, from year 1 to year 9999, and times of day with an
optional offset from universal time. `Date.check` and `DateTime.check` name the first field that
is out of range.
-/

namespace AgentFlow

/-- A calendar date. -/
structure Date where
  year : Nat
  month : Nat
  day : Nat
  deriving DecidableEq, Inhabited

/-- An offset from universal time in minutes, with the name it was written under. -/
structure ZoneOffset where
  minutes : Int
  name : Text
  deriving DecidableEq, Inhabited

/-- A time of a day, to the microsecond. -/
structure DateTime where
  date : Date
  hour : Nat
  minute : Nat
  second : Nat
  microsecond : Nat
  zone : Option ZoneOffset
  deriving DecidableEq, Inhabited

/-- Why the fields of a date or time name none. -/
inductive CalendarError where
  | year (n : Nat)
  | month
  | day
  | hour
  | minute
  | second
  /-- A time after the last year. -/
  | pastEnd
  deriving DecidableEq

/-- The wording of an error. -/
def CalendarError.message : CalendarError → Text
  | .year n => "year " ++ Text.ofNat n ++ " is out of range"
  | .month => "month must be in 1..12"
  | .day => "day is out of range for month"
  | .hour => "hour must be in 0..23"
  | .minute => "minute must be in 0..59"
  | .second => "second must be in 0..59"
  | .pastEnd => "date value out of range"

/-- A number with zeros in front up to a width. -/
def paddedNat (width n : Nat) : Text :=
  let ds := Nat.toDigits 10 n
  Text.ofChars (List.replicate (width - ds.length) '0' ++ ds)

/-- Whether a year has a 29th of February. -/
def isLeapYear (year : Nat) : Bool :=
  year % 4 == 0 && (year % 100 != 0 || year % 400 == 0)

/-- The number of days of a month. -/
def daysInMonth (year month : Nat) : Nat :=
  if month = 2 then (if isLeapYear year then 29 else 28)
  else if month = 4 ∨ month = 6 ∨ month = 9 ∨ month = 11 then 30
  else 31

namespace Date

/-- The date with these fields, if there is one. -/
def check (year month day : Nat) : Except CalendarError Date :=
  if year < 1 ∨ 9999 < year then .error (.year year)
  else if month < 1 ∨ 12 < month then .error .month
  else if day < 1 ∨ daysInMonth year month < day then .error .day
  else .ok ⟨year, month, day⟩

/-- The day after a date. -/
def next (d : Date) : Date :=
  if d.day < daysInMonth d.year d.month then { d with day := d.day + 1 }
  else if d.month < 12 then ⟨d.year, d.month + 1, 1⟩
  else ⟨d.year + 1, 1, 1⟩

/-- The number of days before a date, from the first day of year 1 on. -/
def daysBefore (d : Date) : Nat :=
  let years := d.year - 1
  let inMonths := (List.range (d.month - 1)).foldr (fun m n => daysInMonth d.year (m + 1) + n) 0
  365 * years + years / 4 - years / 100 + years / 400 + inMonths + (d.day - 1)

/-- A date as year, month and day with hyphens. -/
def render (d : Date) : Text :=
  paddedNat 4 d.year ++ "-" ++ paddedNat 2 d.month ++ "-" ++ paddedNat 2 d.day

end Date

/-- The sign, hours and minutes of an offset. -/
def ZoneOffset.render (z : ZoneOffset) : Text :=
  let m := z.minutes.natAbs
  (if z.minutes < 0 then "-" else "+" : Text) ++ paddedNat 2 (m / 60) ++ ":"
    ++ paddedNat 2 (m % 60)

namespace DateTime

/-- The time with these fields, if there is one. -/
def check (date : Date) (hour minute second microsecond : Nat) (zone : Option ZoneOffset) :
    Except CalendarError DateTime :=
  if 23 < hour then .error .hour
  else if 59 < minute then .error .minute
  else if 59 < second then .error .second
  else .ok ⟨date, hour, minute, second, microsecond, zone⟩

/-- The time one second later, up to the end of the last year. -/
def nextSecond (t : DateTime) : Except CalendarError DateTime :=
  if t.second < 59 then .ok { t with second := t.second + 1 }
  else if t.minute < 59 then .ok { t with minute := t.minute + 1, second := 0 }
  else if t.hour < 23 then .ok { t with hour := t.hour + 1, minute := 0, second := 0 }
  else if t.date.next.year ≤ 9999 then
    .ok { t with date := t.date.next, hour := 0, minute := 0, second := 0 }
  else .error .pastEnd

/-- The microseconds of universal time before a time with an offset, from year 1 on; those of the
clock without one. -/
def instant (t : DateTime) : Int :=
  let minutes : Int := (t.date.daysBefore * 24 + t.hour) * 60 + t.minute
  let offset : Int := (t.zone.map ZoneOffset.minutes).getD 0
  ((minutes - offset) * 60 + t.second) * 1000000 + t.microsecond

/-- Whether two times are the same moment, however they are written. A time without an offset is
never the same as one with an offset. -/
def sameMoment (t u : DateTime) : Bool :=
  t.zone.isSome == u.zone.isSome && t.instant == u.instant

/-- A time as its date, its clock time and its offset; whole seconds have no fraction. -/
def render (t : DateTime) : Text :=
  let fraction : Text := if t.microsecond = 0 then [] else "." ++ paddedNat 6 t.microsecond
  let zone : Text := (t.zone.map ZoneOffset.render).getD []
  t.date.render ++ " " ++ paddedNat 2 t.hour ++ ":" ++ paddedNat 2 t.minute ++ ":"
    ++ paddedNat 2 t.second ++ fraction ++ zone

end DateTime

end AgentFlow
