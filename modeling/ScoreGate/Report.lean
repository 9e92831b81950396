import ScoreGate.Comparison
import ScoreGate.Thresholds

/-!
# Reports

A report is the verdict on a comparison, with the messages that explain it.  Every check runs, none hides another: a
delta above its limit is critical and fails, a score drop within its limit or a regressed file is a warning.  Without
a comparison the report is a fixed warning.

* `judge`: the report on a comparison.
-/

namespace ScoreGate

/-! ### Verdicts -/

inductive Verdict where
  | pass
  | warning
  | fail
  deriving DecidableEq, Repr

namespace Verdict

def name : Verdict → String
  | .pass => "pass"
  | .warning => "warning"
  | .fail => "fail"

def ofName? : String → Option Verdict
  | "pass" => some .pass
  | "warning" => some .warning
  | "fail" => some .fail
  | _ => none

def ofValue? : Value → Option Verdict
  | .text s => ofName? s
  | _ => none

def sentence : Verdict → String
  | .pass => "Performance check passed - no significant regressions detected"
  | .warning => "Performance check passed with warnings - minor regressions detected"
  | .fail => "Performance check failed - significant regressions detected"

def emoji : Verdict → String
  | .pass => "✅"
  | .warning => "⚠️"
  | .fail => "❌"

def heading : Verdict → String
  | .pass => "PASSED"
  | .warning => "PASSED WITH WARNINGS"
  | .fail => "FAILED"

/-- The sentence with its sign. -/
def statement (v : Verdict) : String := v.emoji ++ " " ++ v.sentence

/-- How severe a verdict is. -/
def rank : Verdict → Nat
  | .pass => 0
  | .warning => 1
  | .fail => 2

@[simp] theorem ofName?_name (v : Verdict) : ofName? v.name = some v := by
  cases v <;> rfl

end Verdict

/-! ### Records -/

/-- A verdict, its sentence and its points. -/
structure Summary where
  verdict : Verdict
  /-- the sentence, as it was given -/
  message : Value
  score : Percent
  deriving Repr

namespace Summary

/-- The summary with these entries; all three have to be there. -/
def ofEntries (entries : List (String × Value)) : Except Fault Summary := do
  Value.onlyNames ["status", "message", "score"] entries
  match Value.lookup "status" entries, Value.lookup "message" entries, Value.lookup "score" entries with
  | some status, some message, some score =>
      match Verdict.ofValue? status with
      | none => throw (.badValue .unknownName)
      | some v => return ⟨v, message, ← Percent.ofValue "alert score" score⟩
  | _, _, _ => throw .wrongKind

def toValue (s : Summary) : Value :=
  .table [("status", .text s.verdict.name), ("message", s.message), ("score", .number s.score.value)]

end Summary

/-- A summary with the messages that explain it and the comparison it rests on. -/
structure Report where
  summary : Summary
  critical : List String
  warnings : List String
  recommendations : List String
  hasRegressions : Bool
  hasImprovements : Bool
  details : Comparison
  deriving Repr

namespace Report

def verdict (r : Report) : Verdict := r.summary.verdict

/-- A failed check blocks. -/
def blocks (r : Report) : Bool := r.verdict = .fail

def warns (r : Report) : Bool := r.verdict = .warning

/-- The report where there is nothing to compare with. -/
def noBaseline : Report where
  summary := ⟨.warning, .text "No baseline available for comparison", .clamp 0⟩
  critical := ["No baseline found for comparison"]
  warnings := []
  recommendations := ["Create a baseline snapshot first"]
  hasRegressions := false
  hasImprovements := false
  details := .zero

def toValue (r : Report) : Value :=
  let texts (ss : List String) : Value := .list (ss.map .text)
  .table [("hasRegressions", .flag r.hasRegressions), ("hasImprovements", .flag r.hasImprovements),
    ("criticalIssues", texts r.critical), ("warnings", texts r.warnings),
    ("recommendations", texts r.recommendations), ("summary", r.summary.toValue),
    ("details", .table r.details.entries)]

end Report

/-! ### The checks -/

/-- How many regressed files are named. -/
def maxFilesListed : Nat := 5

/-- The message of a score drop above its limit. -/
def scoreCritical (delta : Value) (limit : Number) : Except Fault (List String) := do
  let delta ← delta.toNumber
  if limit.lt delta then
    return ["Performance score regressed by " ++ (← delta.fixedText 2) ++ " points (threshold: " ++
      (← limit.generalText) ++ ")"]
  return []

/-- The message of a rise of a count above its limit. -/
def countCritical (what : String) (delta : Value) (limit : Number) : Except Fault (List String) := do
  let delta ← delta.toNumber
  if limit.lt delta then
    return [what ++ " increased by " ++ (← delta.written) ++ " (threshold: " ++ (← limit.generalText) ++ ")"]
  return []

/-- The message of a score rise above its limit. -/
def improvementAdvice (delta : Value) (limit : Number) : Except Fault (List String) := do
  let delta ← delta.toNumber
  if limit.lt delta then
    return ["Great improvement! Performance score improved by " ++ (← delta.fixedText 2) ++ " points"]
  return []

/-- The message of a score drop within its limit. -/
def scoreWarning (delta : Value) (limit : Number) : Except Fault (List String) := do
  let delta ← delta.toNumber
  if (0 : Number).lt delta && delta.le limit then
    return ["Performance score slightly regressed by " ++ (← delta.fixedText 2) ++ " points"]
  return []

def regressedWarning (files : List Value) : List String :=
  if files.isEmpty then [] else [toString files.length ++ " files show performance regressions"]

/-- A path that has to be a text to be listed. -/
def listedPath : Value → Except Fault String
  | .text s => .ok s
  | _ => .error .wrongKind

def regressedAdvice (files : List Value) : Except Fault (List String) := do
  if files.isEmpty then return []
  return ["Review the following files for performance issues: " ++
    joinText ", " (← (files.take maxFilesListed).mapM listedPath)]

def improvedAdvice (files : List Value) : List String :=
  if files.isEmpty then []
  else [toString files.length ++ " files show improvements - consider these patterns for other files"]

def verdictOf (critical warnings : List String) : Verdict :=
  if !critical.isEmpty then .fail
  else if !warnings.isEmpty then .warning
  else .pass

/-- The points of a verdict: each critical message costs 20; each warning costs 10, but 50 points remain. -/
def pointsOf (critical warnings : List String) : Percent :=
  match verdictOf critical warnings with
  | .fail => .clamp (100 - (20 * critical.length : Nat))
  | .warning => .clamp (Max.max 50 (100 - (10 * warnings.length : Nat)))
  | .pass => .full

def judge (comparison : Option Comparison) (t : Thresholds) : Except Fault Report :=
  match comparison with
  | none => .ok .noBaseline
  | some c => do
      let worse := c.regression
      let better := c.improvement
      let critical := (← scoreCritical worse.averageScore t.maxScoreRegression) ++
        (← countCritical "High severity issues" worse.highIssues t.maxHighIncrease) ++
        (← countCritical "Total issues" worse.totalIssues t.maxTotalIncrease)
      let advice ← improvementAdvice better.averageScore t.minScoreImprovement
      let warnings := (← scoreWarning worse.averageScore t.maxScoreRegression) ++ regressedWarning worse.files
      let recommendations := advice ++ (← regressedAdvice worse.files) ++ improvedAdvice better.files
      let verdict := verdictOf critical warnings
      return {
        summary := ⟨verdict, .text verdict.sentence, pointsOf critical warnings⟩
        critical
        warnings
        recommendations
        hasRegressions := !critical.isEmpty
        hasImprovements := t.minScoreImprovement.lt (← better.averageScore.toNumber)
        details := c }

/-! ### Bands of scores -/

/-- The least score, the sign and the reading of each band but the last, best first. -/
def scoreBands : List (Nat × String × String) := [
  (90, "🏆", "Excellent! Production-ready."),
  (80, "🥇", "Great job! Minor improvements needed."),
  (70, "🥈", "Good work! Some optimizations recommended."),
  (60, "🥉", "Decent, but needs attention."),
  (50, "📚", "Below average. Consider refactoring."),
  (40, "⚠️", "Poor quality. Significant improvements needed."),
  (30, "🚨", "Critical issues! Immediate action required.")]

/-- The sign and the reading of a score. -/
def scoreBand (score : Number) : String × String :=
  match scoreBands.find? fun b => (Number.int b.1).le score with
  | some b => b.2
  | none => ("💀", "Critical issues! Immediate action required.")

end ScoreGate
