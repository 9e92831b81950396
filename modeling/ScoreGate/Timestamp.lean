import ScoreGate.Moment
import ScoreGate.Number

/-!
# Time stamps

A time in milliseconds since 1970, written as a civil date and a time of day in universal time.  The time is first
divided into seconds as a floating-point number and rounded to microseconds, ties to the even one.
-/

namespace ScoreGate

/-- The integer nearest to a rational, ties to the even one. -/
def nearestEven (q : Rat) : Int :=
  let n := divEven q.num.natAbs q.den
  if q < 0 then -(n : Int) else n

/-- The full second of a time in seconds, after rounding to microseconds. -/
def fullSecond? (seconds : Binary64) : Option Int := do
  let whole ← seconds.truncate?
  let fraction := (seconds.sub (.ofInt whole)).mul (.ofInt 1000000)
  let micros := nearestEven (← fraction.value?)
  return if 1000000 ≤ micros then whole + 1 else if micros < 0 then whole - 1 else whole

/-- The text of a second of the calendar: the year without leading zeros, the rest in two digits each. -/
def secondText (year : Int) (month day secondOfDay : Nat) : String :=
  let two (n : Nat) : String := String.ofList (padZeros 2 (toString n).toList)
  toString year ++ "-" ++ two month ++ "-" ++ two day ++ " " ++ two (secondOfDay / 3600) ++ ":" ++
    two (secondOfDay / 60 % 60) ++ ":" ++ two (secondOfDay % 60)

/-- Seconds from this on are not counted at all. -/
def maxSeconds : Int := 9223372036854775808

/-- The years that the calendar of the system can reach. -/
def systemYears (year : Int) : Bool := -2147481748 ≤ year && year ≤ 2147485547

/-- The time stamp of a time in milliseconds; only the years 1 to 9999 have one. -/
def stampText (millis : Number) : Except Failure String := do
  match ← (millis.divNat 1000).mapError Failure.fault with
  | .nan => throw (.fault (.badValue .undefinedInteger))
  | seconds =>
      match fullSecond? seconds with
      | none => throw (.fault .outOfRange)
      | some second =>
          if maxSeconds ≤ second ∨ second < -maxSeconds then throw (.fault .outOfRange)
          let (year, month, day) := civilDate (Int.fdiv second 86400)
          if !systemYears year then throw .system
          if year < 1 ∨ 9999 < year then throw (.fault (.badValue .outsideCalendar))
          return secondText year month day (Int.fmod second 86400).toNat ++ " UTC"

end ScoreGate
