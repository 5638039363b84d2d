import StoryMachine.Effect

/-!
# Dates and times

A date of the calendar, or a moment on it, perhaps with its distance from
universal time. Dates outside the years one to 9999, hours from 24 on and
distances of a day or more do not exist.
-/

namespace StoryMachine

/-- A date. -/
structure Date where
  year : Nat
  month : Nat
  day : Nat
deriving DecidableEq, Repr

namespace Date

/-- Whether a year has a 29th of February. -/
def isLeapYear (year : Nat) : Bool :=
  year % 4 = 0 && (year % 100 != 0 || year % 400 = 0)

/-- The number of days of a month. -/
def daysOf (year month : Nat) : Nat :=
  if month = 2 then (if isLeapYear year then 29 else 28)
  else if [4, 6, 9, 11].contains month then 30
  else 31

/-- Whether a date exists. -/
def isValid (date : Date) : Bool :=
  1 ≤ date.year && date.year ≤ 9999 && 1 ≤ date.month && date.month ≤ 12 &&
    1 ≤ date.day && date.day ≤ daysOf date.year date.month

/-- A date with year, month and day in this order. -/
def shown (date : Date) : String :=
  s!"{Numeral.decimalWidth 4 date.year}-{Numeral.decimalWidth 2 date.month}" ++
    s!"-{Numeral.decimalWidth 2 date.day}"

/-- A date as it stands inside a list. -/
def quoted (date : Date) : String :=
  s!"datetime.date({date.year}, {date.month}, {date.day})"

end Date

/-- A moment, with its distance from universal time in minutes if it is known. -/
structure Moment where
  date : Date
  hour : Nat
  minute : Nat
  second : Nat
  micro : Nat := 0
  distance : Option Int := none
deriving DecidableEq, Repr

namespace Moment

/-- The minutes of a day. -/
def dayMinutes : Nat := 1440

/-- Whether a moment exists. -/
def isValid (moment : Moment) : Bool :=
  moment.date.isValid && moment.hour < 24 && moment.minute < 60 && moment.second < 60 &&
    moment.distance.all fun distance => distance.natAbs < dayMinutes

/-- A distance from universal time: a sign, hours and minutes. -/
def distanceText (distance : Int) : String :=
  let two (n : Nat) : String := Numeral.decimalWidth 2 n
  let minutes := distance.natAbs
  (if distance < 0 then "-" else "+") ++ two (minutes / 60) ++ ":" ++ two (minutes % 60)

/-- A moment with its date in front. -/
def shown (moment : Moment) : String :=
  let two (n : Nat) : String := Numeral.decimalWidth 2 n
  let micro := if moment.micro = 0 then "" else "." ++ Numeral.decimalWidth 6 moment.micro
  s!"{moment.date.shown} {two moment.hour}:{two moment.minute}:{two moment.second}{micro}" ++
    (moment.distance.map distanceText).getD ""

/-- A distance from universal time as it stands inside a list: days and seconds, none of the
seconds negative. -/
def quotedDistance (distance : Int) : String :=
  let seconds := (distance * 60).emod 86400
  let parts := (if distance < 0 then ["days=-1"] else []) ++
    (if seconds = 0 then [] else [s!"seconds={seconds}"])
  if distance = 0 then "datetime.timezone.utc"
  else "datetime.timezone(datetime.timedelta(" ++ ", ".intercalate parts ++ "))"

/-- A moment as it stands inside a list; seconds that are zero are left out. -/
def quoted (moment : Moment) : String :=
  let date := moment.date
  let tail :=
    if moment.micro ≠ 0 then [moment.second, moment.micro]
    else if moment.second ≠ 0 then [moment.second]
    else []
  let numbers := [date.year, date.month, date.day, moment.hour, moment.minute] ++ tail
  let zone := moment.distance.toList.map fun distance => "tzinfo=" ++ quotedDistance distance
  "datetime.datetime(" ++ ", ".intercalate (numbers.map toString ++ zone) ++ ")"

end Moment

end StoryMachine
