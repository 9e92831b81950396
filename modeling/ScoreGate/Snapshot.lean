import ScoreGate.Analysis

/-!
# Snapshots

A snapshot records one scan: what was scanned and when, one summary a file, and metrics over all of them.  Summaries
and metrics may come from a stored document, so paths, scores and grades are values as they were read; counts are
natural numbers and axes lie between 0 and 100 by type.

* `FileAnalysis.summary`: what a snapshot keeps of an analysis.
* `Metrics.ofSummaries`: the metrics over some summaries.
* `Snapshot.check`: the number of files agrees with the metrics and no path occurs twice.
-/

namespace ScoreGate

/-! ### Summaries -/

/-- What a snapshot keeps of one file. -/
structure FileSummary where
  path : Value
  total : Nat
  high : Nat
  medium : Nat
  low : Nat
  score : Value
  grade : Value
  breakdown : Breakdown
  deriving Repr

def FileAnalysis.summary (a : FileAnalysis) : FileSummary where
  path := .text a.path
  total := a.counts.total
  high := a.counts.high
  medium := a.counts.medium
  low := a.counts.low
  score := .number a.score.total.value
  grade := .text a.score.grade.letter
  breakdown := a.score.breakdown

/-! ### Metrics -/

/-- Sums and means over the files of a snapshot. -/
structure Metrics where
  totalFiles : Int
  totalIssues : Int
  highIssues : Int
  mediumIssues : Int
  lowIssues : Int
  averageScore : Binary64
  performanceScore : Binary64
  memoryScore : Binary64
  codeQualityScore : Binary64
  deriving DecidableEq, Repr

/-- The metrics over some summaries; a score that is no number has no mean. -/
def Metrics.ofSummaries (files : List FileSummary) : Except Fault Metrics := do
  let sum (count : FileSummary → Nat) : Int := (files.foldr (fun f n => count f + n) 0 : Nat)
  let axis (a : Breakdown → Percent) : List Value := files.map fun f => .number (a f.breakdown).value
  return {
    totalFiles := files.length
    totalIssues := sum (·.total)
    highIssues := sum (·.high)
    mediumIssues := sum (·.medium)
    lowIssues := sum (·.low)
    averageScore := ← mean (files.map (·.score))
    performanceScore := ← mean (axis (·.performance))
    memoryScore := ← mean (axis (·.memoryLeaks))
    codeQualityScore := ← mean (axis (·.codeQuality)) }

/-! ### Snapshots -/

/-- Where a scan ran, as it was recorded. -/
structure Provenance where
  runtimeVersion : Value
  packageVersion : Value
  platform : Value
  deriving Repr

/-- The record of one scan; the time is in milliseconds since 1970. -/
structure Snapshot where
  id : String
  timestamp : Int
  branch : String
  commit : String
  metrics : Metrics
  files : List FileSummary
  environment : Provenance
  deriving Repr

namespace Snapshot

/-- Goes through the files: a path has to be a name, and none that was seen before. -/
def checkPaths (id : String) : List Value → List FileSummary → Except Fault Unit
  | _, [] => .ok ()
  | seen, f :: fs =>
      if !f.path.isName then .error .wrongKind
      else if seen.any f.path.sameName then
        .error (.invalidInput ("snapshot " ++ id ++ ": duplicate file path " ++ f.path.display))
      else checkPaths id (f.path :: seen) fs

/-- The snapshot, if its metrics count its files and no path occurs twice. -/
def check (s : Snapshot) : Except Fault Snapshot := do
  if s.metrics.totalFiles ≠ s.files.length then
    throw (.invalidInput ("snapshot " ++ s.id ++ ": metrics.totalFiles=" ++ toString s.metrics.totalFiles ++
      " but " ++ toString s.files.length ++ " file records"))
  checkPaths s.id [] s.files
  return s

def file? (s : Snapshot) (path : Value) : Option FileSummary :=
  s.files.find? fun f => f.path.sameName path

end Snapshot

end ScoreGate
