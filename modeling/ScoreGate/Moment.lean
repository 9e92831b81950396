import ScoreGate.Text.Lines

/-!
# Dates and times

Calendar dates, times of day and their combination with an optional distance from universal time; which dates exist;
and the civil date of a second counted from 1970.
-/

namespace ScoreGate

structure CalendarDate where
  year : Nat
  month : Nat
  day : Nat
  deriving DecidableEq, Repr

structure ClockTime where
  hour : Nat
  minute : Nat
  second : Nat
  microsecond : Nat
  deriving DecidableEq, Repr

/-- A date, a time of day, or both; `offset` is in minutes east of universal time. -/
inductive Moment where
  | date (date : CalendarDate)
  | time (time : ClockTime)
  | dateTime (date : CalendarDate) (time : ClockTime) (offset : Option Int)
  deriving DecidableEq, Repr

/-! ### The calendar -/

def isLeapYear (year : Nat) : Bool :=
  year % 4 == 0 && (year % 100 != 0 || year % 400 == 0)

def daysInMonth (year month : Nat) : Nat :=
  if month = 2 then (if isLeapYear year then 29 else 28)
  else if month = 4 ∨ month = 6 ∨ month = 9 ∨ month = 11 then 30
  else 31

/-- Whether the date exists, in the years 1 to 9999. -/
def CalendarDate.exists (d : CalendarDate) : Bool :=
  1 ≤ d.year && d.year ≤ 9999 && 1 ≤ d.month && d.month ≤ 12 && 1 ≤ d.day && d.day ≤ daysInMonth d.year d.month

/-- Whether the time of day exists; there are no leap seconds. -/
def ClockTime.exists (t : ClockTime) : Bool :=
  t.hour < 24 && t.minute < 60 && t.second < 60 && t.microsecond < 1000000

/-- The date that lies this many days after 1970-01-01, counted in eras of 400 years that begin in March. -/
def civilDate (days : Int) : Int × Nat × Nat :=
  let z := days + 719468
  let era := Int.fdiv z 146097
  let dayOfEra := (z - era * 146097).toNat
  let yearOfEra := (dayOfEra - dayOfEra / 1460 + dayOfEra / 36524 - dayOfEra / 146096) / 365
  let dayOfYear := dayOfEra - (365 * yearOfEra + yearOfEra / 4 - yearOfEra / 100)
  let marchMonth := (5 * dayOfYear + 2) / 153
  let day := dayOfYear - (153 * marchMonth + 2) / 5 + 1
  let month := if marchMonth < 10 then marchMonth + 3 else marchMonth - 9
  let year : Int := (yearOfEra : Int) + era * 400 + (if month ≤ 2 then 1 else 0)
  (year, month, day)

/-! ### Written forms -/

private def two (n : Nat) : String := String.ofList (padZeros 2 (toString n).toList)

def CalendarDate.text (d : CalendarDate) : String :=
  String.ofList (padZeros 4 (toString d.year).toList) ++ "-" ++ two d.month ++ "-" ++ two d.day

def ClockTime.text (t : ClockTime) : String :=
  two t.hour ++ ":" ++ two t.minute ++ ":" ++ two t.second ++
    (if t.microsecond = 0 then "" else "." ++ String.ofList (padZeros 6 (toString t.microsecond).toList))

private def offsetText (minutes : Int) : String :=
  (if minutes < 0 then "-" else "+") ++ two (minutes.natAbs / 60) ++ ":" ++ two (minutes.natAbs % 60)

/-- The form for people. -/
def Moment.text : Moment → String
  | .date d => d.text
  | .time t => t.text
  | .dateTime d t offset =>
      d.text ++ " " ++ t.text ++ (match offset with | some m => offsetText m | none => "")

private def numbers (ns : List Nat) : String := joinText ", " (ns.map toString)

private def timeNumbers (t : ClockTime) : List Nat :=
  if t.microsecond ≠ 0 then [t.hour, t.minute, t.second, t.microsecond]
  else if t.second ≠ 0 then [t.hour, t.minute, t.second]
  else [t.hour, t.minute]

private def zoneLiteral (minutes : Int) : String :=
  if minutes = 0 then "datetime.timezone.utc"
  else
    let seconds := minutes * 60
    let days := Int.fdiv seconds 86400
    let rest := Int.fmod seconds 86400
    "datetime.timezone(datetime.timedelta(" ++
      (if days = 0 then "" else "days=" ++ toString days ++ (if rest = 0 then "" else ", ")) ++
      (if rest = 0 then "" else "seconds=" ++ toString rest) ++ "))"

/-- The form inside lists and tables. -/
def Moment.literal : Moment → String
  | .date d => "datetime.date(" ++ numbers [d.year, d.month, d.day] ++ ")"
  | .time t => "datetime.time(" ++ numbers (timeNumbers t) ++ ")"
  | .dateTime d t offset =>
      "datetime.datetime(" ++ numbers ([d.year, d.month, d.day] ++ timeNumbers t) ++
        (match offset with | some m => ", tzinfo=" ++ zoneLiteral m | none => "") ++ ")"

def Moment.kindName : Moment → String
  | .date _ => "datetime.date"
  | .time _ => "datetime.time"
  | .dateTime .. => "datetime.datetime"

end ScoreGate
