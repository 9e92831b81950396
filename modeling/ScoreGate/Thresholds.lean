import ScoreGate.Value

/-!
# Thresholds

The limits that a comparison is held against.  Each one is an integer or a floating-point number that is not negative;
flags are no numbers here.
-/

namespace ScoreGate

structure Thresholds where
  maxScoreRegression : Number
  maxHighIncrease : Number
  maxTotalIncrease : Number
  minScoreImprovement : Number
  deriving DecidableEq, Repr

namespace Thresholds

/-- The names of the thresholds, in their order. -/
def names : List String :=
  ["max_score_regression", "max_high_severity_increase", "max_total_issues_increase", "min_score_improvement"]

def default : Thresholds :=
  ⟨.real (.ofInt 5), .real (.ofInt 2), .real (.ofInt 10), .real (.ofInt 2)⟩

instance : Inhabited Thresholds := ⟨default⟩

def limit (name : String) (v : Value) : Except Failure Number :=
  match v with
  | .number (.flag _) => refused "must be a number"
  | .number n => if n.isNegative then refused "must be non-negative" else .ok n
  | _ => refused "must be a number"
where
  refused (reason : String) : Except Failure Number := do
    throw (.invalidSetting name (← v.displayed.mapError Failure.fault) reason)

/-- The name that a record has for itself, which no entry may take. -/
def reservedName : String := "self"

/-- The thresholds with these entries; missing ones have their default. -/
def ofEntries (entries : List (String × Value)) : Except Failure Thresholds := do
  if let some e := entries.find? fun e => !names.contains e.1 then
    throw (.settings (if e.1 = reservedName then .reservedThreshold e.1 else .unknownThreshold e.1))
  let read (name : String) (d : Number) : Except Failure Number :=
    limit name ((Value.lookup name entries).getD (.number d))
  let regression ← read "max_score_regression" default.maxScoreRegression
  let high ← read "max_high_severity_increase" default.maxHighIncrease
  let total ← read "max_total_issues_increase" default.maxTotalIncrease
  let improvement ← read "min_score_improvement" default.minScoreImprovement
  return ⟨regression, high, total, improvement⟩

/-- The entries that give these thresholds back. -/
def entries (t : Thresholds) : List (String × Value) := [
  ("max_score_regression", .number t.maxScoreRegression),
  ("max_high_severity_increase", .number t.maxHighIncrease),
  ("max_total_issues_increase", .number t.maxTotalIncrease),
  ("min_score_improvement", .number t.minScoreImprovement)]

def toValue (t : Thresholds) : Value :=
  .table [("maxScoreRegression", .number t.maxScoreRegression),
    ("maxHighSeverityIncrease", .number t.maxHighIncrease),
    ("maxTotalIssuesIncrease", .number t.maxTotalIncrease),
    ("minScoreImprovement", .number t.minScoreImprovement)]

end Thresholds

end ScoreGate
