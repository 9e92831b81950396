import ScoreGate.Value

/-!
# Issues

An issue is one pattern found on one line of a source file.  Its severity sets what it costs, its kind only how it is
shown.

* `Issue.ofParts`: an issue from values as they were given, or what is wrong with the first bad one.
* `IssueCounts.of`: how many issues of each severity a list holds.
-/

namespace ScoreGate

/-! ### Severity and kind -/

inductive Severity where
  | low
  | medium
  | high
  deriving DecidableEq, Repr

/-- The display category of an issue. -/
inductive IssueKind where
  | info
  | warning
  | error
  deriving DecidableEq, Repr

namespace Severity

def name : Severity → String
  | .low => "low"
  | .medium => "medium"
  | .high => "high"

def ofName? : String → Option Severity
  | "low" => some .low
  | "medium" => some .medium
  | "high" => some .high
  | _ => none

def ofValue? : Value → Option Severity
  | .text s => ofName? s
  | _ => none

/-- The label shown to people. -/
def label : Severity → String
  | .high => "🔴 HIGH"
  | .medium => "🟡 MEDIUM"
  | .low => "🟢 LOW"

@[simp] theorem ofName?_name (s : Severity) : ofName? s.name = some s := by
  cases s <;> rfl

end Severity

namespace IssueKind

def name : IssueKind → String
  | .info => "info"
  | .warning => "warning"
  | .error => "error"

def ofName? : String → Option IssueKind
  | "info" => some .info
  | "warning" => some .warning
  | "error" => some .error
  | _ => none

def ofValue? : Value → Option IssueKind
  | .text s => ofName? s
  | _ => none

def icon : IssueKind → String
  | .error => "❌"
  | .warning => "⚠️"
  | .info => "ℹ️"

@[simp] theorem ofName?_name (k : IssueKind) : ofName? k.name = some k := by
  cases k <;> rfl

end IssueKind

/-! ### Issues -/

/-- One pattern found on one line; lines are counted from one. -/
structure Issue where
  line : Nat
  /-- what is said about it, as it was given -/
  message : Value
  suggestion : Value
  severity : Severity
  kind : IssueKind
  line_pos : 0 < line
  deriving Repr

namespace Issue

def onLine (line : { n : Nat // 0 < n }) (message suggestion : String) (severity : Severity) (kind : IssueKind) :
    Issue :=
  ⟨line.val, .text message, .text suggestion, severity, kind, line.property⟩

/-- The line that a value stands for: an integer from one on, and nothing else. -/
def lineOf? : Value → Option { n : Nat // 0 < n }
  | .number (.int n) => if h : 0 < n.toNat then some ⟨n.toNat, h⟩ else none
  | _ => none

/-- An issue from values as they were given: the line is looked at first, then the severity, then the kind, which is
information if none is given.  What is said about the issue is kept as it is. -/
def ofParts (line severity : Value) (kind : Option Value) (message suggestion : Value) : Except Fault Issue :=
  let kind := kind.getD (.text IssueKind.info.name)
  match lineOf? line with
  | none => .error (.invalidInput ("issue line must be an integer >= 1, got " ++ line.literal))
  | some n =>
      match Severity.ofValue? severity, IssueKind.ofValue? kind with
      | none, _ => .error (.invalidInput (severity.literal ++ " is not a valid Severity"))
      | _, none => .error (.invalidInput (kind.literal ++ " is not a valid IssueKind"))
      | some s, some k => .ok ⟨n.val, message, suggestion, s, k, n.property⟩

def toValue (i : Issue) : Value :=
  .table [("line", .int i.line), ("message", i.message), ("suggestion", i.suggestion),
    ("severity", .text i.severity.name), ("type", .text i.kind.name)]

end Issue

/-! ### Counts -/

/-- How many issues of each severity there are. -/
structure IssueCounts where
  high : Nat
  medium : Nat
  low : Nat
  deriving DecidableEq, Repr

namespace IssueCounts

def of (issues : List Issue) : IssueCounts :=
  let count (s : Severity) := issues.countP fun i => i.severity = s
  ⟨count .high, count .medium, count .low⟩

def total (c : IssueCounts) : Nat := c.high + c.medium + c.low

/-- Every issue has one of three severities. -/
theorem total_of (issues : List Issue) : (of issues).total = issues.length := by
  induction issues with
  | nil => rfl
  | cons i issues ih =>
    rw [total, of] at ih ⊢
    simp only [List.countP_cons, List.length_cons] at ih ⊢
    rcases hseverity : i.severity with _ | _ | _
    all_goals
      simp only [decide_true, reduceCtorEq, decide_false, if_true, Bool.false_eq_true, if_false]
      omega

end IssueCounts

/-- Counts that were given rather than counted: they need not be integers, nor add up. -/
structure IssueSummary where
  total : Number
  high : Number
  medium : Number
  low : Number
  deriving DecidableEq, Repr

namespace IssueSummary

def ofCounts (c : IssueCounts) : IssueSummary :=
  ⟨.int c.total, .int c.high, .int c.medium, .int c.low⟩

/-- A count that is not negative, or the fault that names it. -/
def checkCount (name : String) (v : Value) : Except Fault Number := do
  let n ← v.toNumber
  if n.isNegative then throw (.invalidInput (name ++ " must be non-negative"))
  return n

/-- The summary with these entries; missing ones are zero. -/
def ofEntries (entries : List (String × Value)) : Except Fault IssueSummary := do
  Value.onlyNames ["total_issues", "high_severity", "medium_severity", "low_severity"] entries
  let count (name : String) := checkCount name ((Value.lookup name entries).getD (.int 0))
  let total ← count "total_issues"
  let high ← count "high_severity"
  let medium ← count "medium_severity"
  let low ← count "low_severity"
  return ⟨total, high, medium, low⟩

def toValue (s : IssueSummary) : Value :=
  .table [("totalIssues", .number s.total), ("highSeverity", .number s.high),
    ("mediumSeverity", .number s.medium), ("lowSeverity", .number s.low)]

end IssueSummary

end ScoreGate
