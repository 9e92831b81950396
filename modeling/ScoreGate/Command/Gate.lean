import ScoreGate.Check
import ScoreGate.Command.Terminal
import ScoreGate.Report.Screen

/-!
# The gate from the command line

* `Command.gate`: one check of a tree, whose exit code stops a build.
-/

namespace ScoreGate

structure GateOptions where
  root : Path
  baselineBranch : Option String := none
  snapshotsDir : Option String := none
  maxScoreRegression : Option Binary64 := none
  maxHighSeverityIncrease : Option Binary64 := none
  maxTotalIssuesIncrease : Option Binary64 := none
  minScoreImprovement : Option Binary64 := none
  /-- a list with commas -/
  output : Option String := none
  noFailOnRegression : Bool := false
  noWarnOnRegression : Bool := false
  config : Option Path := none

namespace Command

variable [Console]

def gateOptions (o : GateOptions) : List Override :=
  let off (given : Bool) : Value := if given then .flag false else .null
  let limit (x : Option Binary64) : Value := (x.map Value.real).getD .null
  List.map Override.value [("baseline_branch", textOption o.baselineBranch), ("snapshots_dir", textOption o.snapshotsDir),
    ("output_formats", (o.output.map fun s => Settings.texts (commaItems s)).getD .null),
    ("fail_on_regression", off o.noFailOnRegression), ("warn_on_regression", off o.noWarnOnRegression),
    ("max_score_regression", limit o.maxScoreRegression),
    ("max_high_severity_increase", limit o.maxHighSeverityIncrease),
    ("max_total_issues_increase", limit o.maxTotalIssuesIncrease),
    ("min_score_improvement", limit o.minScoreImprovement)]

/-- The last line about a check: what its verdict means for the build. -/
def consequence (s : Settings) (o : Outcome) : List String :=
  if o.blocked && s.failOnRegression.isTrue then
    [Console.styled "red" "Performance regression detected - failing CI"]
  else if o.warned && s.warnOnRegression.isTrue then
    [Console.styled "yellow" "Performance regression detected - CI will continue with warning"]
  else []

/-- Whether a report is to be printed. -/
def showsReport (s : Settings) : Except Fault Bool := do
  return (← s.outputFormats.elements).any fun f => f.sameName (.text "console")

/-- Prints what came of a check that had something to record. -/
def sayOutcome (s : Settings) (o : Outcome) (snapshot : Snapshot) (report : Report) : Command Unit := do
  say ("Analyzed " ++ toString o.filesAnalyzed ++ " files, snapshot " ++ snapshot.id)
  if ← showsReport s then report.tell
  sayAll (o.written.map fun p => "Report saved to " ++ Console.escape p.text)
  sayAll (consequence s o)
  throw (.exit o.exitCode)

/-- Checks a tree. -/
def gate (o : GateOptions) : Command Unit := do
  requirePath o.root
  let s ← settings o.config (gateOptions o)
  let check : Action Outcome := do (← Check.make s o.root).run
  let outcome ← attempt check recordFailure
  say ("Branch: " ++ Console.styled "bold" (Console.escape outcome.branch) ++ "  Commit: " ++
    Console.escape outcome.commit)
  match outcome.snapshot, outcome.report with
  | some snapshot, some report => sayOutcome s outcome snapshot report
  | _, _ => say (Console.styled "yellow" "No files found to analyze.")

end Command

end ScoreGate
