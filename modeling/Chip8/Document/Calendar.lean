import Chip8.Text.Numeral

/-!
# Dates and instants

Calendar dates of the years 1 to 9999, and instants with a time of day and an optional distance
from universal time. Both have two texts: the standard one, with the fields in order of size, and
the constructor form in which they appear inside a list or mapping.

## Main definitions

* `Date`, `Date.ofFields` — a date, and the check of its fields
* `Instant`, `Instant.ofFields` — an instant, and the check of its fields
* `CalendarError` — the first field out of its range
-/

namespace Chip8

/-- The first field of a date or instant that is out of its range. -/
inductive CalendarError where
  | year (value : Nat)
  | month
  | day
  | hour
  | minute
  | second
  /-- A distance from universal time of a day or more, in minutes. -/
  | offset (minutes : Int)
  deriving DecidableEq, Repr

/-- A calendar date. -/
structure Date where
  year : Nat
  month : Nat
  day : Nat
  deriving DecidableEq, Repr

/-- A date with a time of day. -/
structure Instant where
  date : Date
  hour : Nat
  minute : Nat
  second : Nat
  microsecond : Nat
  /-- The distance from universal time in minutes, if the instant has one. -/
  offset : Option Int
  deriving DecidableEq, Repr

namespace Date

/-- Whether a year has a leap day: every fourth year, of the full centuries only every fourth. -/
def isLeap (year : Nat) : Bool := year % 4 = 0 && (year % 100 ≠ 0 || year % 400 = 0)

/-- The number of days of a month. -/
def daysInMonth (year month : Nat) : Nat :=
  if month = 2 then (if isLeap year then 29 else 28)
  else if month = 4 ∨ month = 6 ∨ month = 9 ∨ month = 11 then 30
  else 31

/-- The date of three fields; the first one out of its range is the error. -/
def ofFields (year month day : Nat) : Except CalendarError Date :=
  if year < 1 ∨ 9999 < year then .error (.year year)
  else if month < 1 ∨ 12 < month then .error .month
  else if day < 1 ∨ daysInMonth year month < day then .error .day
  else .ok ⟨year, month, day⟩

/-- The number of days from the first day of the year 1 to a date. -/
def dayNumber (d : Date) : Nat :=
  let y := d.year - 1
  y * 365 + y / 4 - y / 100 + y / 400 +
    (List.range (d.month - 1)).foldl (fun days m => days + daysInMonth d.year (m + 1)) 0 +
    (d.day - 1)

/-- The standard text of a date. -/
def text (d : Date) : String :=
  Numeral.decimalPadded 4 d.year ++ "-" ++ Numeral.decimalPadded 2 d.month ++ "-" ++
    Numeral.decimalPadded 2 d.day

/-- The fields of a date, separated by commas. -/
def fields (d : Date) : String :=
  Numeral.decimal d.year ++ ", " ++ Numeral.decimal d.month ++ ", " ++ Numeral.decimal d.day

/-- The constructor form of a date. -/
def written (d : Date) : String := "datetime.date(" ++ d.fields ++ ")"

end Date

/-- The constructor form of a span of time: whole days, and the seconds above them. -/
def writtenSpan (minutes : Int) : String :=
  let days := minutes / 1440
  let seconds := minutes % 1440 * 60
  let dayPart := if days = 0 then [] else ["days=" ++ Numeral.decimalInt days]
  let secondPart := if seconds = 0 then [] else ["seconds=" ++ Numeral.decimalInt seconds]
  let parts := dayPart ++ secondPart
  "datetime.timedelta(" ++ (if parts.isEmpty then "0" else String.intercalate ", " parts) ++ ")"

namespace Instant

/-- The instant of its fields. A distance from universal time of a day or more is reported before
anything else, then the first field out of its range. -/
def ofFields (year month day hour minute second microsecond : Nat) (offset : Option Int) :
    Except CalendarError Instant :=
  match offset.filter fun m => m ≤ -1440 || 1440 ≤ m with
  | some m => .error (.offset m)
  | none => do
    let date ← Date.ofFields year month day
    if 23 < hour then .error .hour
    else if 59 < minute then .error .minute
    else if 59 < second then .error .second
    else .ok ⟨date, hour, minute, second, microsecond, offset⟩

/-- Microseconds since the start of the year 1, counted in universal time. -/
def universal (t : Instant) : Int :=
  let minutes : Int :=
    ((t.date.dayNumber * 24 + t.hour) * 60 + t.minute : Nat) - t.offset.getD 0
  (minutes * 60 + t.second) * 1000000 + t.microsecond

/-- Whether two instants are the same moment. An instant without a distance from universal time is
never the same as one with it. -/
def sameMoment (s t : Instant) : Bool :=
  s.offset.isSome == t.offset.isSome && s.universal == t.universal

/-- The text of a distance from universal time. -/
def offsetText (minutes : Int) : String :=
  (if minutes < 0 then "-" else "+") ++ Numeral.decimalPadded 2 (minutes.natAbs / 60) ++ ":" ++
    Numeral.decimalPadded 2 (minutes.natAbs % 60)

/-- The standard text of an instant. -/
def text (t : Instant) : String :=
  t.date.text ++ " " ++ Numeral.decimalPadded 2 t.hour ++ ":" ++
    Numeral.decimalPadded 2 t.minute ++ ":" ++ Numeral.decimalPadded 2 t.second ++
    (if t.microsecond = 0 then "" else "." ++ Numeral.decimalPadded 6 t.microsecond) ++
    (t.offset.map offsetText).getD ""

/-- The constructor form of a distance from universal time. -/
def writtenZone (minutes : Int) : String :=
  if minutes = 0 then "datetime.timezone.utc"
  else "datetime.timezone(" ++ writtenSpan minutes ++ ")"

/-- The constructor form of an instant; zeros at the end of the time of day are left out. -/
def written (t : Instant) : String :=
  let small :=
    if t.microsecond ≠ 0 then [t.second, t.microsecond]
    else if t.second ≠ 0 then [t.second]
    else []
  let clock := (t.hour :: t.minute :: small).map fun n => ", " ++ Numeral.decimal n
  "datetime.datetime(" ++ t.date.fields ++ String.join clock ++
    (t.offset.map fun m => ", tzinfo=" ++ writtenZone m).getD "" ++ ")"

end Instant

namespace CalendarError

/-- The message of an error. -/
def message : CalendarError → String
  | .year value => "year " ++ Numeral.decimal value ++ " is out of range"
  | .month => "month must be in 1..12"
  | .day => "day is out of range for month"
  | .hour => "hour must be in 0..23"
  | .minute => "minute must be in 0..59"
  | .second => "second must be in 0..59"
  | .offset minutes =>
    "offset must be a timedelta strictly between -timedelta(hours=24) and timedelta(hours=24), " ++
      "not " ++ writtenSpan minutes ++ "."

end CalendarError

end Chip8
