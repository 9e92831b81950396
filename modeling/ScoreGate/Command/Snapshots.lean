import ScoreGate.Check
import ScoreGate.Command.Terminal

/-!
# Snapshots and baselines from the command line

* `Command.saveBaseline`, `Command.showBaseline`: the baseline of a branch.
* `Command.listSnapshots`, `Command.cleanSnapshots`: the snapshots of a store.
-/

namespace ScoreGate

/-! ### Options -/

/-- The options that name a store. -/
structure StoreOptions where
  snapshotsDir : Option String := none
  config : Option Path := none

structure BaselineOptions extends StoreOptions where
  branch : String := "main"

structure ListOptions extends StoreOptions where
  /-- how many snapshots are shown -/
  last : {n : Int // 1 ≤ n} := ⟨20, by decide⟩

structure CleanOptions extends StoreOptions where
  maxAgeDays : Option {n : Int // 0 ≤ n} := none

namespace Command

variable [Console]

def storeOptions (o : StoreOptions) : List Override := [.value ("snapshots_dir", textOption o.snapshotsDir)]

def storeSettings (o : StoreOptions) : Command Settings := settings o.config (storeOptions o)

/-! ### Baselines -/

/-- Records the analyses of a check as the baseline of a branch; without analyses there is none. -/
def recordBaseline (settings : Settings) (root : Path) (branch : String) : Action (Option Snapshot) := do
  let c ← Check.make settings root
  let analyses ← c.analyze
  if analyses.isEmpty then return none
  let commit ← Revision.commit root
  let snapshot ← c.store.create (analyses.map FileAnalysis.summary) branch commit none
  c.store.saveBaseline snapshot branch
  return some snapshot

/-- Analyses a tree and makes it the baseline of a branch. -/
def saveBaseline (root : Path) (o : BaselineOptions) : Command Unit := do
  requirePath root
  let s ← storeSettings o.toStoreOptions
  match ← attempt (recordBaseline s root o.branch) storageFailure with
  | none => say (Console.styled "yellow" "No files found to analyze; baseline not saved.")
  | some snapshot =>
      let m := snapshot.metrics
      say (Console.styled "green" ("Baseline for " ++ Console.escape o.branch ++ " saved") ++ " (" ++
        toString m.totalFiles ++ " files, average score " ++ m.averageScore.fixedText 2 ++ ")")

def metricColumns : List Column := [.onLeft "Metric" 24, .onRight "Value" ""]

def metricRows (m : Metrics) : List (List String) := [
  ["Files", toString m.totalFiles],
  ["Total issues", toString m.totalIssues],
  ["High severity", toString m.highIssues],
  ["Medium severity", toString m.mediumIssues],
  ["Low severity", toString m.lowIssues],
  ["Average score", m.averageScore.fixedText 2],
  ["Memory safety", m.memoryScore.fixedText 2],
  ["Performance", m.performanceScore.fixedText 2],
  ["Code quality", m.codeQualityScore.fixedText 2]]

/-- Prints a snapshot under a title.  Its id stands as it is. -/
def saySnapshot (snapshot : Snapshot) (title : String) : Command Unit := do
  say (Console.styled "bold cyan" (Console.escape title))
  say ("  Snapshot:  " ++ snapshot.id)
  say ("  Taken:     " ++ (← stampText (.int snapshot.timestamp)))
  say ("  Branch:    " ++ Console.escape snapshot.branch ++ "  Commit: " ++ Console.escape snapshot.commit)
  say ""
  sayTable metricColumns (metricRows snapshot.metrics)

def showBaseline (o : BaselineOptions) : Command Unit := do
  let s ← storeSettings o.toStoreOptions
  let load : Action (Option Snapshot) := do (← s.store).loadBaseline o.branch
  match ← attempt load recordFailure with
  | none => say (Console.styled "yellow" ("No baseline found for branch " ++ Console.escape o.branch ++ "."))
  | some baseline => saySnapshot baseline ("Baseline (" ++ o.branch ++ ")")

/-! ### Snapshots -/

def snapshotColumns : List Column := [
  .onLeft "Snapshot" 0, .onLeft "Taken" 0, .onLeft "Branch" 0, .onLeft "Commit" 0, .onRight "Files" "",
  .onRight "Issues" "", .onRight "Avg score" ""]

/-- The row of a snapshot; the commit is shortened, and stands as it is like the id. -/
def snapshotRow (snapshot : Snapshot) : Except Failure (List String) := do
  let m := snapshot.metrics
  return [snapshot.id, ← stampText (.int snapshot.timestamp), Console.escape snapshot.branch,
    String.ofList (snapshot.commit.toList.take 8), toString m.totalFiles, toString m.totalIssues,
    m.averageScore.fixedText 2]

def listSnapshots (o : ListOptions) : Command Unit := do
  let s ← storeSettings o.toStoreOptions
  let list : Action (List Snapshot) := do (← s.store).list
  let snapshots ← attempt list storageFailure
  if snapshots.isEmpty then say (Console.styled "yellow" "No snapshots found.")
  else
    let rows ← (snapshots.take o.last.1.toNat).mapM (snapshotRow ·)
    sayTable snapshotColumns rows

def cleanOptions (o : CleanOptions) : List Override :=
  [.value ("snapshots_dir", textOption o.snapshotsDir),
    .value ("snapshot_max_age_days", (o.maxAgeDays.map fun n => Value.int n.1).getD .null)]

/-- Removes old snapshots. -/
def cleanSnapshots (o : CleanOptions) : Command Unit := do
  let s ← settings o.config (cleanOptions o)
  let clean : Action (List String) := do (← s.store).cleanup (← s.maxAge)
  let removed ← attempt clean storageFailure
  say (Console.styled "green" ("Removed " ++ toString removed.length ++ " snapshot(s)."))

end Command

end ScoreGate
