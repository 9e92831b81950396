import ScoreGate.Snapshot

/-!
# Comparisons

A current snapshot against a baseline, in two passes that do not depend on each other.  Every file that both hold is
regressed, improved or unchanged; files that only one holds are left out.  The metrics give two one-sided deltas of the
same signed differences: what got worse and what got better, each cut off at zero.

* `classify`: the group of one file.
* `compareSnapshots`: the comparison.
-/

namespace ScoreGate

/-- How far a snapshot moved in one direction, and the files that moved in it.  The amounts are kept as they were given;
they have to be numbers where they are held against a limit. -/
structure Delta where
  totalIssues : Value
  highIssues : Value
  averageScore : Value
  files : List Value
  deriving Repr

/-- No movement. -/
def Delta.zero : Delta := ⟨.int 0, .int 0, .real (.zero false), []⟩

/-- What got worse, what got better, and the files that did neither. -/
structure Comparison where
  regression : Delta
  improvement : Delta
  unchanged : List Value
  deriving Repr

def Comparison.zero : Comparison := ⟨.zero, .zero, []⟩

/-! ### Files -/

/-- Where a file goes. -/
inductive Change where
  | regressed
  | improved
  | unchanged
  deriving DecidableEq, Repr

/-- Scores closer than this count as equal, once their distance is rounded to `distancePlaces` places. -/
def scoreTolerance : Binary64 := .ofRatio false 1 100

def distancePlaces : Nat := 9

/-- How a file went from an old score to a new one; the tolerance comes before the direction. -/
def classify (old new : Value) : Except Fault Change := do
  let old ← old.toNumber
  let new ← new.toNumber
  let distance := (← new.sub old).abs.roundPlaces distancePlaces
  if distance.lt (.real scoreTolerance) then return .unchanged
  else if new.lt old then return .regressed
  else return .improved

/-- The score that is recorded for a path. -/
def scoreOf? (files : List FileSummary) (path : Value) : Option Value :=
  (files.find? fun f => f.path.sameName path).map (·.score)

/-- The change of one file of the baseline, if the current files have a score for it. -/
def changeOf? (current : List FileSummary) (old : FileSummary) : Except Fault (Option Change) :=
  match scoreOf? current old.path with
  | none | some .null => .ok none
  | some new => (classify old.score new).map some

/-- The files of the baseline that changed in some way, in their order, with the change. -/
def changes (baseline current : List FileSummary) : Except Fault (List (Value × Change)) := do
  let all ← baseline.mapM fun old => do return (old.path, ← changeOf? current old)
  return all.filterMap fun entry => entry.2.map (entry.1, ·)

/-- The paths of one kind of change. -/
def pathsOf (change : Change) (entries : List (Value × Change)) : List Value :=
  (entries.filter fun e => e.2 = change).map (·.1)

/-! ### Metrics -/

/-- How much `later` is above `earlier`, cut off at zero. -/
def rise (earlier later : Int) : Number := Number.max 0 (.int (later - earlier))

/-- How much one average is above another, cut off at zero. -/
def excess (high low : Binary64) : Number := Number.max (.real (.zero false)) (.real (high.sub low))

def compareSnapshots (baseline current : Snapshot) : Except Fault Comparison := do
  let changed ← changes baseline.files current.files
  let old := baseline.metrics
  let new := current.metrics
  return {
    regression := {
      totalIssues := .number (rise old.totalIssues new.totalIssues)
      highIssues := .number (rise old.highIssues new.highIssues)
      averageScore := .number (excess old.averageScore new.averageScore)
      files := pathsOf .regressed changed }
    improvement := {
      totalIssues := .number (rise new.totalIssues old.totalIssues)
      highIssues := .number (rise new.highIssues old.highIssues)
      averageScore := .number (excess new.averageScore old.averageScore)
      files := pathsOf .improved changed }
    unchanged := pathsOf .unchanged changed }

/-! ### Documents -/

def Delta.toValue (filesName : String) (d : Delta) : Value :=
  .table [("totalIssues", d.totalIssues), ("highSeverityIssues", d.highIssues), ("averageScore", d.averageScore),
    (filesName, .list d.files)]

def Comparison.entries (c : Comparison) : List (String × Value) := [
  ("regression", c.regression.toValue "filesWithRegressions"),
  ("improvement", c.improvement.toValue "filesWithImprovements"),
  ("unchanged", .table [("totalFiles", .int c.unchanged.length), ("files", .list c.unchanged)])]

end ScoreGate
