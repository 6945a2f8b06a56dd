namespace Deduction

structure Date where
  year : Nat
  month : Nat
  day : Nat
  deriving DecidableEq, Repr, Inhabited

/-- A time of a day, with the offset from universal time in minutes if it is known. -/
structure Moment where
  date : Date
  hour : Nat
  minute : Nat
  second : Nat
  microsecond : Nat
  offset : Option Int
  deriving DecidableEq, Repr, Inhabited

/-- What is wrong with the parts of a date or moment. -/
inductive CalendarFault
  | year (year : Nat)
  | month
  | day
  | hour
  | minute
  | second
  | offset (minutes : Int)
  deriving DecidableEq, Repr

/-- A number with zeros in front up to a width. -/
def padded (width n : Nat) : String :=
  let digits := (toString n).toList
  String.ofList (List.replicate (width - digits.length) '0' ++ digits)

/-- A span of minutes as messages show it: in days and seconds, the seconds never negative. -/
def shownSpan (minutes : Int) : String :=
  let days := minutes.fdiv 1440
  let seconds := minutes.fmod 1440 * 60
  let parts :=
    (if days == 0 then [] else ["days=" ++ toString days]) ++
      (if seconds == 0 then [] else ["seconds=" ++ toString seconds])
  "datetime.timedelta(" ++ (if parts.isEmpty then "0" else ", ".intercalate parts) ++ ")"

def CalendarFault.message : CalendarFault → String
  | .year found => "year " ++ toString found ++ " is out of range"
  | .month => "month must be in 1..12"
  | .day => "day is out of range for month"
  | .hour => "hour must be in 0..23"
  | .minute => "minute must be in 0..59"
  | .second => "second must be in 0..59"
  | .offset found =>
      "offset must be a timedelta strictly between -timedelta(hours=24) and " ++
        "timedelta(hours=24), not " ++ shownSpan found ++ "."

namespace Date

def isLeap (year : Nat) : Bool :=
  year % 4 == 0 && (year % 100 != 0 || year % 400 == 0)

def monthLength (year month : Nat) : Nat :=
  if month == 2 then if isLeap year then 29 else 28
  else if month == 4 || month == 6 || month == 9 || month == 11 then 30
  else 31

/-- The date with these parts, of a year from 1 to 9999. -/
def ofParts (year month day : Nat) : Except CalendarFault Date :=
  if year < 1 || 9999 < year then .error (.year year)
  else if month < 1 || 12 < month then .error .month
  else if day < 1 || monthLength year month < day then .error .day
  else .ok ⟨year, month, day⟩

/-- The number of days from a fixed one to the date. -/
def dayNumber (date : Date) : Nat :=
  let before := date.year - 1
  let months := (List.range (date.month - 1)).map fun month => monthLength date.year (month + 1)
  before * 365 + before / 4 - before / 100 + before / 400 + months.foldl (· + ·) 0 + date.day

def text (date : Date) : String :=
  padded 4 date.year ++ "-" ++ padded 2 date.month ++ "-" ++ padded 2 date.day

def shown (date : Date) : String :=
  "datetime.date(" ++ toString date.year ++ ", " ++ toString date.month ++ ", " ++
    toString date.day ++ ")"

end Date

namespace Moment

/-- The moment with these parts. An offset is less than a day. -/
def ofParts (year month day hour minute second microsecond : Nat) (offset : Option Int) :
    Except CalendarFault Moment :=
  match offset.filter fun minutes => minutes ≤ -1440 || 1440 ≤ minutes with
  | some minutes => .error (.offset minutes)
  | none => do
      let date ← Date.ofParts year month day
      if 23 < hour then throw .hour
      if 59 < minute then throw .minute
      if 59 < second then throw .second
      return { date, hour, minute, second, microsecond, offset }

/-- The minutes of a moment, counted from a fixed day on. -/
def minutes (moment : Moment) : Int :=
  ((moment.date.dayNumber * 24 + moment.hour) * 60 + moment.minute : Nat)

def isSame (first second : Moment) : Bool :=
  match first.offset, second.offset with
  | some left, some right =>
      first.minutes - left == second.minutes - right && first.second == second.second &&
        first.microsecond == second.microsecond
  | none, none => first == second
  | _, _ => false

def offsetText (minutes : Int) : String :=
  (if minutes < 0 then "-" else "+") ++ padded 2 (minutes.natAbs / 60) ++ ":" ++
    padded 2 (minutes.natAbs % 60)

def text (moment : Moment) : String :=
  moment.date.text ++ " " ++ padded 2 moment.hour ++ ":" ++ padded 2 moment.minute ++ ":" ++
    padded 2 moment.second ++
    (if moment.microsecond == 0 then "" else "." ++ padded 6 moment.microsecond) ++
    (moment.offset.map offsetText).getD ""

def shownOffset (minutes : Int) : String :=
  ", tzinfo=datetime.timezone" ++
    (if minutes == 0 then ".utc" else "(" ++ shownSpan minutes ++ ")")

/-- A moment inside another value. Seconds are left out where nothing but zeros follows. -/
def shown (moment : Moment) : String :=
  let fine :=
    if moment.microsecond != 0 then [moment.second, moment.microsecond]
    else if moment.second != 0 then [moment.second]
    else []
  let parts :=
    [moment.date.year, moment.date.month, moment.date.day, moment.hour, moment.minute] ++ fine
  "datetime.datetime(" ++ ", ".intercalate (parts.map toString) ++
    (moment.offset.map shownOffset).getD "" ++ ")"

end Moment

end Deduction
