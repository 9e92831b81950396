import ScoreGate.Document.Reader
import ScoreGate.Path
import ScoreGate.Report
import ScoreGate.Snapshot.Document
import ScoreGate.Text.Percent
import ScoreGate.Workspace

/-!
# Snapshot stores

A store is a directory.  Every snapshot is one document in it, named by its id; below it every branch has at most one
baseline, named by the branch in percent quoting.  Directories are made when something is first written; reading never
makes any.

* `Store.save`, `Store.load`, `Store.list`, `Store.cleanup`: snapshots.
* `Store.saveBaseline`, `Store.loadBaseline`, `Store.compare`: baselines.
* `Store.create`: a new snapshot of some summaries, under an id that is not taken.
-/

namespace ScoreGate

structure Store where
  root : Path
  deriving DecidableEq, Repr

namespace Store

/-! ### Paths -/

/-- An id names a file: it is not empty and holds no slash of either kind. -/
def isId (id : String) : Bool :=
  !id.isEmpty && !id.toList.contains '/' && !id.toList.contains '\\'

def snapshotPath (s : Store) (id : String) : Except Fault Path :=
  if isId id then .ok (s.root.child (id ++ ".json"))
  else .error (.invalidInput ("invalid snapshot id " ++ quoted id))

def baselinePath (s : Store) (branch : String) : Path :=
  s.root.join ["baselines", "baseline-" ++ percentQuoted branch ++ ".json"]

/-! ### Documents -/

/-- The faults that make a document a malformed record; the others are failures of their own. -/
def isRecordFault : Fault → Bool
  | .tooDeep | .outOfRange => false
  | _ => true

def decode (depth : Nat) (path : Path) (bytes : ByteArray) : Except Failure Snapshot :=
  match String.fromUTF8? bytes with
  | none => .error (.malformedRecord path.text .encoding)
  | some s =>
      match (Document.read depth (String.ofList (unifyLineEnds s.toList))).bind Snapshot.ofValue with
      | .ok snapshot => .ok snapshot
      | .error fault =>
          if isRecordFault fault then .error (.malformedRecord path.text (.content fault)) else .error fault

/-- The failure that an obstacle is while the file of a path is handled. -/
def storageFailure (path : Path) (kind : SystemFault → StorageFault) (fault : SystemFault) : Failure :=
  match fault.obstacle with
  | .nulInName => Obstacle.nulInName.failure
  | _ => .storage path.text (kind fault)

def writeDocument (path : Path) (snapshot : Snapshot) : Action Unit := do
  snapshot.toValue.checkWritable
  match (← get).replaceFile path snapshot.text.toUTF8 with
  | (w, none) => set w
  | (w, some fault) =>
      set w
      throw (storageFailure path .write fault)

/-- Reads the document of a snapshot, if the file is there. -/
def readDocument (path : Path) : Action (Option Snapshot) := do
  if ← Action.exists? path then
    let w ← get
    match w.read path with
    | .ok bytes => return some (← decode w.depth path bytes)
    | .error o => throw (storageFailure path .read ⟨o, path.text, none⟩)
  else return none

/-! ### Snapshots -/

/-- Stores a snapshot under its id. -/
def save (s : Store) (snapshot : Snapshot) : Action Unit := do
  writeDocument (← s.snapshotPath snapshot.id) snapshot
  Action.note .store .debug ("Saved snapshot " ++ snapshot.id)

def load (s : Store) (id : String) : Action (Option Snapshot) := do
  readDocument (← s.snapshotPath id)

/-- A new id: the time and a random suffix. -/
def generateId : Action String := do
  let suffix ← Action.suffix
  return "snapshot-" ++ toString (← get).clock ++ "-" ++ suffix

/-- Draws ids until one is not taken, at most `fuel` more after the first. -/
def freeId (s : Store) : Nat → Action String
  | 0 => generateId
  | fuel + 1 => do
      let id ← generateId
      if ← Action.exists? (← s.snapshotPath id) then freeId s fuel else return id

/-- So many ids suffice: each entry of the tree takes at most one of those that are all different. -/
def idsToTry (w : Workspace) : Nat := w.source.pending.length + w.tree.entries.length + 1

/-- Where the program runs. -/
def runtime : Provenance := ⟨.text "3.11.0", .text "0.1.0", .text "linux"⟩

/-- Records some summaries as a new snapshot. -/
def create (s : Store) (files : List FileSummary) (branch commit : String) (environment : Option Provenance) :
    Action Snapshot := do
  let metrics ← Metrics.ofSummaries files
  if files.isEmpty then
    Action.note .store .warning "Creating snapshot with no analyzed files; averages default to 100"
  let id ← s.freeId (idsToTry (← get))
  let snapshot ← Snapshot.check
    ⟨id, (← get).clock, branch, commit, metrics, files, environment.getD runtime⟩
  s.save snapshot
  Action.note .store .info ("Created snapshot " ++ id ++ " (" ++ toString metrics.totalFiles ++ " files)")
  return snapshot

/-! ### Listing -/

/-- The beginnings of names of documents that are no snapshots. -/
def foreignBeginnings : List String := ["baseline-", "report-", ".tmp-"]

/-- Whether a name may be that of a snapshot's document. -/
def isSnapshotName (name : String) : Bool :=
  ".json".toList.isSuffixOf name.toList && !foreignBeginnings.any fun b => b.toList.isPrefixOf name.toList

/-- The order of names by code points. -/
def nameLe (a b : String) : Bool := !(b < a : Bool)

/-- The names of snapshot documents in a directory, in order. -/
def snapshotNames (t : Tree) (directory : Location) : List String :=
  (((t.children directory).map (·.1)).filter isSnapshotName).mergeSort nameLe

/-- Reads one document of a listing; what cannot be read is noted and left out. -/
def readListed (s : Store) (name : String) : Action (Option Snapshot) :=
  tryCatch (readDocument (s.root.child name)) fun
    | .malformedRecord _ cause => do
        Action.note .store .warning ("Skipping unreadable snapshot " ++ name ++ ": " ++ cause.label)
        return none
    | .storage _ cause => do
        Action.note .store .warning ("Skipping snapshot " ++ name ++ ": " ++ cause.label)
        return none
    | other => throw other

/-- All snapshots that can be read, the latest first; of equally late ones in the order of their names. -/
def list (s : Store) : Action (List Snapshot) := do
  if ← Action.isDirectory s.root then
    let w ← get
    match w.locate s.root with
    | .ok directory =>
        let found ← (snapshotNames w.tree directory).filterMapM (s.readListed ·)
        return found.mergeSort fun a b => b.timestamp ≤ a.timestamp
    | .error _ => return []
  else return []

/-! ### Cleaning up -/

/-- How old a snapshot gets if nothing else is said: seven days in milliseconds. -/
def defaultMaxAge : Number := .int (7 * 24 * 60 * 60 * 1000)

/-- Removes the documents of some snapshots, as far as they are there, and gives the ids of those removed. -/
def removeAll (s : Store) : List Snapshot → Action (List String)
  | [] => return []
  | snapshot :: rest => do
      let path ← s.snapshotPath snapshot.id
      match (← get).remove path with
      | .ok w =>
          set w
          return snapshot.id :: (← removeAll s rest)
      | .error .missing => removeAll s rest
      | .error o => throw (storageFailure path .delete ⟨o, path.text, none⟩)

/-- Removes the snapshots that are older than some milliseconds, and gives their ids. -/
def cleanup (s : Store) (maxAge : Number) : Action (List String) := do
  let oldest ← (Number.int (← get).clock).sub maxAge
  let old := (← s.list).filter fun snapshot => !oldest.le (.int snapshot.timestamp)
  let removed ← s.removeAll old
  if !removed.isEmpty then
    let age ← maxAge.written
    Action.note .store .info ("Removed " ++ toString removed.length ++ " snapshot(s) older than " ++ age ++ " ms")
  return removed

/-! ### Baselines -/

def saveBaseline (s : Store) (snapshot : Snapshot) (branch : String) : Action Unit := do
  writeDocument (s.baselinePath branch) snapshot
  Action.note .store .info ("Saved baseline for branch " ++ branch ++ " from snapshot " ++ snapshot.id)

def loadBaseline (s : Store) (branch : String) : Action (Option Snapshot) := do
  let baseline ← readDocument (s.baselinePath branch)
  if baseline.isNone then Action.note .store .debug ("No baseline for branch " ++ branch)
  return baseline

/-- A snapshot against the baseline of a branch, if there is one; the baseline comes with the comparison. -/
def compare (s : Store) (snapshot : Snapshot) (branch : String) : Action (Option (Snapshot × Comparison)) := do
  match ← s.loadBaseline branch with
  | none => return none
  | some baseline =>
      let c ← compareSnapshots baseline snapshot
      Action.note .comparison .debug ("Compared " ++ snapshot.id ++ " against " ++ baseline.id ++ ": " ++
        toString c.regression.files.length ++ " regressed, " ++ toString c.improvement.files.length ++
        " improved, " ++ toString c.unchanged.length ++ " unchanged")
      return some (baseline, c)

/-- The report on a snapshot against the baseline of a branch. -/
def report (s : Store) (snapshot : Snapshot) (branch : String) (t : Thresholds) : Action Report := do
  let found ← s.compare snapshot branch
  if found.isNone then
    Action.note .report .warning ("No baseline for branch " ++ branch ++ "; cannot compare " ++ snapshot.id)
  let report ← judge (found.map (·.2)) t
  Action.note .report .info ("Alert report for " ++ snapshot.id ++ " vs " ++ branch ++ ": " ++
    report.verdict.name ++ " (" ++ report.summary.score.value.text ++ "/100)")
  return report

end Store

end ScoreGate
