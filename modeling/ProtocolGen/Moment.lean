/-!
# Dates and times

Calendar dates, times of day, and both together with an optional distance from universal time, as
document formats hold them. A moment has two written forms: the one messages show, which names its
kind and its parts, and the plain one of the international standard.
-/

set_option autoImplicit false

namespace ProtocolGen

structure Day where
  year : Nat
  month : Nat
  day : Nat
  deriving DecidableEq, Repr

structure Clock where
  hour : Nat
  minute : Nat
  second : Nat
  microsecond : Nat
  deriving DecidableEq, Repr

/-- A date, a time, or both. The distance from universal time is in minutes. -/
inductive Moment where
  | date (day : Day)
  | time (clock : Clock)
  | dateTime (day : Day) (clock : Clock) (distance : Option Int)
  deriving DecidableEq, Repr

def isLeapYear (year : Nat) : Bool := year % 4 == 0 && (year % 100 != 0 || year % 400 == 0)

def monthLength (year month : Nat) : Nat :=
  if month == 2 then if isLeapYear year then 29 else 28
  else if month == 4 || month == 6 || month == 9 || month == 11 then 30
  else 31

def Day.complaint? (day : Day) : Option String :=
  if day.year == 0 || 9999 < day.year then some ("year " ++ toString day.year ++ " is out of range")
  else if day.month == 0 || 12 < day.month then some "month must be in 1..12"
  else if day.day == 0 || monthLength day.year day.month < day.day then
    some "day is out of range for month"
  else none

def Clock.complaint? (clock : Clock) : Option String :=
  if 23 < clock.hour then some "hour must be in 0..23"
  else if 59 < clock.minute then some "minute must be in 0..59"
  else if 59 < clock.second then some "second must be in 0..59"
  else none

def Day.ordinal (day : Day) : Nat :=
  let years := day.year - 1
  let months := (List.range (day.month - 1)).foldl
    (fun days index => days + monthLength day.year (index + 1)) 0
  years * 365 + years / 4 - years / 100 + years / 400 + months + day.day - 1

def monthDay (year : Nat) : Nat → Nat → Nat → Nat × Nat
  | 0, month, rest => (month, rest + 1)
  | fuel + 1, month, rest =>
    let length := monthLength year month
    if rest < length then (month, rest + 1) else monthDay year fuel (month + 1) (rest - length)

def Day.ofOrdinal (ordinal : Nat) : Day :=
  let estimate := ordinal / 366 + 1
  let start (year : Nat) : Nat := Day.ordinal ⟨year, 1, 1⟩
  let year := (List.range 40).foldl
    (fun year _ => if start (year + 1) ≤ ordinal then year + 1 else year) estimate
  let (month, day) := monthDay year 12 1 (ordinal - start year)
  ⟨year, month, day⟩

/-- A day and time moved back by some seconds, unless that leaves the calendar. -/
def shiftBack (day : Day) (clock : Clock) (seconds : Int) : Option (Day × Clock) :=
  let total : Int :=
    (day.ordinal : Int) * 86400 + clock.hour * 3600 + clock.minute * 60 + clock.second - seconds
  if total < 0 then none
  else
    let days := total.toNat / 86400
    let rest := total.toNat % 86400
    if 3652059 ≤ days then none
    else
      some (Day.ofOrdinal days, ⟨rest / 3600, rest / 60 % 60, rest % 60, clock.microsecond⟩)

def padded (width number : Nat) : String :=
  let digits := Nat.toDigits 10 number
  String.ofList (List.replicate (width - digits.length) '0' ++ digits)

def Day.plain (day : Day) : String :=
  padded 4 day.year ++ "-" ++ padded 2 day.month ++ "-" ++ padded 2 day.day

/-- Hour, minute and second with colons, and the microseconds if there are any. -/
def Clock.plain (clock : Clock) : String :=
  padded 2 clock.hour ++ ":" ++ padded 2 clock.minute ++ ":" ++ padded 2 clock.second ++
    (if clock.microsecond == 0 then "" else "." ++ padded 6 clock.microsecond)

def plainDistance (minutes : Int) : String :=
  (if minutes < 0 then "-" else "+") ++ padded 2 (minutes.natAbs / 60) ++ ":" ++
    padded 2 (minutes.natAbs % 60)

def Moment.plain : Moment → String
  | .date day => day.plain
  | .time clock => clock.plain
  | .dateTime day clock distance =>
    day.plain ++ " " ++ clock.plain ++ (distance.map plainDistance).getD ""

def Moment.shortKindName : Moment → String
  | .date _ => "date"
  | .time _ => "time"
  | .dateTime .. => "datetime"

def Moment.kindName (moment : Moment) : String := "datetime." ++ moment.shortKindName

def commaSeparated (numbers : List Nat) : String := ", ".intercalate (numbers.map toString)

def Clock.fineParts (clock : Clock) : List Nat :=
  if clock.microsecond != 0 then [clock.second, clock.microsecond]
  else if clock.second != 0 then [clock.second]
  else []

def shownDistance (minutes : Int) : String :=
  if minutes == 0 then "datetime.timezone.utc"
  else
    let days := Int.fdiv minutes 1440
    let seconds := Int.fmod minutes 1440 * 60
    let parts :=
      (if days == 0 then [] else ["days=" ++ toString days]) ++
        (if seconds == 0 then [] else ["seconds=" ++ toString seconds])
    "datetime.timezone(datetime.timedelta(" ++ ", ".intercalate parts ++ "))"

def Moment.shown : Moment → String
  | .date day => "datetime.date(" ++ commaSeparated [day.year, day.month, day.day] ++ ")"
  | .time clock =>
    "datetime.time(" ++ commaSeparated ([clock.hour, clock.minute] ++ clock.fineParts) ++ ")"
  | .dateTime day clock distance =>
    let parts := [day.year, day.month, day.day, clock.hour, clock.minute] ++ clock.fineParts
    let zone := (distance.map fun minutes => ", tzinfo=" ++ shownDistance minutes).getD ""
    "datetime.datetime(" ++ commaSeparated parts ++ zone ++ ")"

end ProtocolGen
