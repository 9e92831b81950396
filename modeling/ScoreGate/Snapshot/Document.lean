import ScoreGate.Document.Printer
import ScoreGate.Snapshot

/-!
# Documents of snapshots

How snapshots and their parts are written as documents and read back.  Reading takes what older or hand-made documents
hold: counts may be texts or fractions, a breakdown may be missing, and the environment may use older names or be
missing too.  The first fault in the order of the fields is the one reported.
-/

namespace ScoreGate

/-- A value, or an empty table in the place of one that counts as false. -/
def Value.orEmptyTable (v : Option Value) : Value :=
  match v with
  | some v => if v.isTrue then v else .table []
  | none => .table []

namespace FileSummary

def toValue (f : FileSummary) : Value :=
  .table [("filePath", f.path), ("totalIssues", .int f.total), ("highSeverity", .int f.high),
    ("mediumSeverity", .int f.medium), ("lowSeverity", .int f.low), ("score", f.score), ("grade", f.grade),
    ("breakdown", f.breakdown.toValue)]

/-- A count that is not negative, or the fault that names it and its file. -/
def countOf (path : Value) (name : String) (n : Int) : Except Fault Nat :=
  if n < 0 then .error (.invalidInput (path.display ++ ": " ++ name ++ " must be non-negative"))
  else .ok n.toNat

def ofValue (v : Value) : Except Fault FileSummary := do
  let breakdown := Value.orEmptyTable (← v.member? "breakdown")
  let path ← v.field "filePath"
  let total ← (← v.field "totalIssues").toInt
  let high ← (← v.field "highSeverity").toInt
  let medium ← (← v.field "mediumSeverity").toInt
  let low ← (← v.field "lowSeverity").toInt
  let score ← v.field "score"
  let grade ← v.field "grade"
  let breakdown ← Breakdown.ofValues (← breakdown.memberOr "memoryLeaks" (.int 100))
    (← breakdown.memberOr "performance" (.int 100)) (← breakdown.memberOr "codeQuality" (.int 100))
  let total ← countOf path "total_issues" total
  let high ← countOf path "high_severity" high
  let medium ← countOf path "medium_severity" medium
  let low ← countOf path "low_severity" low
  return ⟨path, total, high, medium, low, score, grade, breakdown⟩

end FileSummary

namespace Metrics

def toValue (m : Metrics) : Value :=
  .table [("totalFiles", .int m.totalFiles), ("totalIssues", .int m.totalIssues),
    ("highSeverityIssues", .int m.highIssues), ("mediumSeverityIssues", .int m.mediumIssues),
    ("lowSeverityIssues", .int m.lowIssues), ("averageScore", .real m.averageScore),
    ("performanceScore", .real m.performanceScore), ("memoryScore", .real m.memoryScore),
    ("codeQualityScore", .real m.codeQualityScore)]

def ofValue (v : Value) : Except Fault Metrics := do
  return {
    totalFiles := ← (← v.field "totalFiles").toInt
    totalIssues := ← (← v.field "totalIssues").toInt
    highIssues := ← (← v.field "highSeverityIssues").toInt
    mediumIssues := ← (← v.field "mediumSeverityIssues").toInt
    lowIssues := ← (← v.field "lowSeverityIssues").toInt
    averageScore := ← (← v.field "averageScore").toReal
    performanceScore := ← (← v.field "performanceScore").toReal
    memoryScore := ← (← v.field "memoryScore").toReal
    codeQualityScore := ← (← v.field "codeQualityScore").toReal }

end Metrics

namespace Provenance

def toValue (p : Provenance) : Value :=
  .table [("runtimeVersion", p.runtimeVersion), ("packageVersion", p.packageVersion), ("platform", p.platform)]

/-- The environment of a document; the older names count where the newer are missing. -/
def ofValue (v : Value) : Except Fault Provenance := do
  let unknown : Value := .text "unknown"
  return {
    runtimeVersion := ← v.memberOr "runtimeVersion" (← v.memberOr "nodeVersion" unknown)
    packageVersion := ← v.memberOr "packageVersion" unknown
    platform := ← v.memberOr "platform" (← v.memberOr "os" unknown) }

end Provenance

namespace Snapshot

def toValue (s : Snapshot) : Value :=
  .table [("id", .text s.id), ("timestamp", .int s.timestamp), ("branch", .text s.branch),
    ("commit", .text s.commit), ("metrics", s.metrics.toValue),
    ("fileAnalysis", .list (s.files.map FileSummary.toValue)), ("environment", s.environment.toValue)]

def ofValue (v : Value) : Except Fault Snapshot := do
  let id := (← v.field "id").display
  let timestamp ← (← v.field "timestamp").toInt
  let branch := (← v.field "branch").display
  let commit := (← v.field "commit").display
  let metrics ← Metrics.ofValue (← v.field "metrics")
  let files ← (← (← v.memberOr "fileAnalysis" (.list [])).elements).mapM FileSummary.ofValue
  let environment ← Provenance.ofValue (Value.orEmptyTable (← v.member? "environment"))
  check ⟨id, timestamp, branch, commit, metrics, files, environment⟩

/-- The stored text of a snapshot. -/
def text (s : Snapshot) : String := Document.indented s.toValue

end Snapshot

end ScoreGate
