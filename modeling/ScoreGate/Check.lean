import ScoreGate.Discovery
import ScoreGate.Report.Comment
import ScoreGate.Revision
import ScoreGate.Settings
import ScoreGate.Store

/-!
# Checks

A check runs the whole way once: it finds and analyses the sources below a root, records them as a snapshot, compares
the snapshot with the baseline of a branch, writes the report in the formats that were asked for, and says whether the
build is to be stopped.  It prints nothing.

* `Check.analyze`: the analyses of the sources, under paths as seen from the root.
* `Check.run`: the check.
-/

namespace ScoreGate

def Path.ofValue : Value → Except Fault Path
  | .text s => .ok (.ofText s)
  | _ => .error .wrongKind

def Settings.store (s : Settings) : Except Fault Store := do return ⟨← Path.ofValue s.snapshotsDir⟩

/-- The branch that a value names. -/
def branchOf : Value → Except Fault String
  | .text s => .ok s
  | _ => .error .wrongKind

/-- An analysis under its path as seen from a root; one that lies elsewhere keeps its path. -/
def FileAnalysis.relativeTo (a : FileAnalysis) (root : Path) : FileAnalysis :=
  match (Path.ofText a.path).relativeTo? root with
  | some p => { a with path := p.text }
  | none => a

/-- What a check works with. -/
structure Check where
  settings : Settings
  root : Path
  store : Store

/-- What came of a check. -/
structure Outcome where
  branch : String
  commit : String
  filesAnalyzed : Nat
  snapshot : Option Snapshot
  report : Option Report
  written : List Path
  blocked : Bool
  warned : Bool
  exitCode : Nat

namespace Check

/-- A check under some settings; the store stands where they say. -/
def make (settings : Settings) (root : Path) : Except Fault Check := do
  return ⟨settings, root, ← settings.store⟩

/-- The analyses of the sources below the root. -/
def analyze (c : Check) : Action (List FileAnalysis) := do
  let paths ← findSources c.root c.settings.extensions c.settings.excludePatterns (some c.settings.maxFiles)
  return (← analyzeFiles paths).map (·.relativeTo c.root)

/-! ### Output -/

/-- The name and the content of the file for a format, if the format has one. -/
def outputFile (format : String) (report : Report) (id : String) : Except Fault (Option (String × String)) :=
  if format = "json" then do
    report.toValue.checkWritable
    return some ("report-" ++ id ++ ".json", Document.indented report.toValue)
  else if format = "github-comment" then do
    return some ("comment-" ++ id ++ ".md", ← report.comment .null)
  else .ok none

/-- Writes the file of one format beside the snapshots. -/
def writeOutput (c : Check) (report : Report) (id : String) (format : Value) : Action (Option Path) := do
  match ← outputFile format.display report id with
  | none => return none
  | some (name, content) =>
      let path := c.store.root.child name
      match (← get).write path content.toUTF8 with
      | .ok w => set w
      | .error o => throw (Store.storageFailure path .write ⟨o, path.text, none⟩)
      Action.note .check .info ("Wrote " ++ format.display ++ " report to " ++ path.text)
      return some path

/-- The lines that tell the build service what came of a report. -/
def outputLines (r : Report) : List String :=
  let flag (b : Bool) : String := if b then "true" else "false"
  ["status=" ++ r.verdict.name, "score=" ++ r.summary.score.value.text,
    "has_regressions=" ++ flag r.hasRegressions, "has_improvements=" ++ flag r.hasImprovements,
    "critical_issues_count=" ++ toString r.critical.length, "warnings_count=" ++ toString r.warnings.length]

/-- The file that the build service reads, if it names one. -/
def outputVariable : String := "GITHUB_OUTPUT"

/-- Whether a text names a file: after its last slash stands something that is no single dot. -/
def namesFile (target : String) : Bool :=
  let name := (splitOn '/' target.toList).getLastD []
  name ≠ [] && name ≠ ['.']

/-- The workspace with something added at the end of the file that a text names. -/
def addTo (target : String) (bytes : ByteArray) (w : Workspace) : Except Obstacle Workspace :=
  if namesFile target then w.append (.ofText target) bytes else .error .isDirectory

/-- Adds the lines of a report to the file that the build service reads. -/
def tellService (r : Report) : Action Unit := do
  match (← get).valueOf? outputVariable with
  | none => return ()
  | some target =>
      if target.isEmpty then return ()
      match addTo target (joinText "\n" (outputLines r) ++ "\n").toUTF8 (← get) with
      | .ok w => set w
      | .error o => throw (.storage target (.write ⟨o, target, none⟩))

/-! ### The run -/

/-- Records, compares, decides and writes. -/
def judgeAnalyses (c : Check) (branch commit : String) (analyses : List FileAnalysis) : Action Outcome := do
  let snapshot ← c.store.create (analyses.map FileAnalysis.summary) branch commit none
  let report ← c.store.report snapshot (← branchOf c.settings.baselineBranch) c.settings.limits
  let formats ← c.settings.outputFormats.elements
  let written ← formats.filterMapM (c.writeOutput report snapshot.id)
  tellService report
  return {
    branch, commit
    filesAnalyzed := analyses.length
    snapshot := some snapshot
    report := some report
    written
    blocked := report.blocks
    warned := report.warns
    exitCode := if report.blocks && c.settings.failOnRegression.isTrue then 1 else 0 }

/-- The whole check. -/
def run (c : Check) : Action Outcome := do
  let branch ← Revision.branch c.root
  let commit ← Revision.commit c.root
  Action.note .check .info ("CI check on branch " ++ branch ++ " at " ++ commit)
  let analyses ← c.analyze
  Action.note .check .info ("Analyzed " ++ toString analyses.length ++ " files in 0.00s")
  if analyses.isEmpty then
    Action.note .check .warning "No files found to analyze"
    return ⟨branch, commit, 0, none, none, [], false, false, 0⟩
  c.judgeAnalyses branch commit analyses

end Check

end ScoreGate
