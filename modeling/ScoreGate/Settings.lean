import ScoreGate.Text.Lines
import ScoreGate.Thresholds

/-!
# Settings

What can be set for scans, stores and checks.  Settings come from files, variables and options, and only some of them
are checked: a setting that is not checked keeps whatever value it was given.

* `Settings.ofEntries`: the settings with some entries, the others at their default.
* `Settings.default`: the settings without any.
-/

namespace ScoreGate

structure Settings where
  snapshotsDir : Value
  baselineBranch : Value
  maxAgeDays : Number
  extensions : Value
  excludePatterns : Value
  maxFiles : Number
  outputFormats : Value
  failOnRegression : Value
  warnOnRegression : Value
  /-- the limits of comparisons, if any are set -/
  thresholds : Option Thresholds
  deriving Repr

/-- What a setting is when it comes from a variable. -/
inductive SettingKind where
  | text
  | integer
  | real
  | flag
  | items
  deriving DecidableEq, Repr

namespace Settings

/-- The names of the settings and what they are, in their order. -/
def kinds : List (String × SettingKind) := [
  ("snapshots_dir", .text), ("baseline_branch", .text), ("snapshot_max_age_days", .integer), ("extensions", .items),
  ("exclude_patterns", .items), ("max_files", .integer), ("output_formats", .items), ("fail_on_regression", .flag),
  ("warn_on_regression", .flag)]

/-- The names of the settings, in their order. -/
def names : List String := kinds.map (·.1)

def texts (ss : List String) : Value := .list (ss.map .text)

def defaults : List (String × Value) := [
  ("snapshots_dir", .text ".performance-snapshots"), ("baseline_branch", .text "main"),
  ("snapshot_max_age_days", .int 7), ("extensions", texts [".ts", ".tsx", ".js", ".jsx"]),
  ("exclude_patterns", texts ["node_modules/*", "dist/*", "build/*", ".git/*", "*.test.*", "*.spec.*"]),
  ("max_files", .int 1000), ("output_formats", texts ["console"]), ("fail_on_regression", .flag true),
  ("warn_on_regression", .flag true)]

def formats : List String := ["console", "json", "github-comment"]

/-! ### Checks -/

/-- Refuses the value of a setting; one that cannot be written is a fault of its own. -/
def refuse (name reason : String) (v : Value) : Except Failure α := do
  throw (.invalidSetting name (← v.displayed.mapError Failure.fault) reason)

/-- A setting that has to be something. -/
def nonEmpty (name : String) (v : Value) : Except Failure Value :=
  if v.isTrue then .ok v else refuse name "must not be empty" v

/-- A setting that has to be a number of at least `least`. -/
def atLeast (name : String) (least : Number) (reason : String) (v : Value) : Except Failure Number :=
  match v with
  | .number n => if n.lt least then refuse name reason v else .ok n
  | _ => .error (.settings (.notOrdered v.kindName))

def checkFormat (v : Value) : Except Failure Unit :=
  if formats.any fun f => v.sameName (.text f) then .ok ()
  else refuse "output_formats" ("must be one of " ++ joinText ", " formats) v

/-- A setting that has to be a list of formats. -/
def checkFormats (v : Value) : Except Failure Value := do
  match v.elements with
  | .ok items =>
      items.forM checkFormat
      return v
  | .error _ => throw (.settings (.notIterable v.kindName))

/-- The settings with these entries and thresholds; the first entry of an unknown name is refused, then the entries are
checked in the order of the settings. -/
def ofEntries (entries : List (String × Value)) (thresholds : Option Thresholds) : Except Failure Settings := do
  if let some e := entries.find? fun e => !names.contains e.1 then
    throw (.settings (if e.1 = Thresholds.reservedName then .reservedSetting e.1 else .unknownSetting e.1))
  let value (name : String) : Value :=
    ((Value.lookup name entries).orElse fun _ => Value.lookup name defaults).getD .null
  let snapshotsDir ← nonEmpty "snapshots_dir" (value "snapshots_dir")
  let baselineBranch ← nonEmpty "baseline_branch" (value "baseline_branch")
  let maxAgeDays ← atLeast "snapshot_max_age_days" 0 "must be non-negative" (value "snapshot_max_age_days")
  let maxFiles ← atLeast "max_files" 1 "must be at least 1" (value "max_files")
  let extensions ← nonEmpty "extensions" (value "extensions")
  let outputFormats ← checkFormats (value "output_formats")
  return {
    snapshotsDir, baselineBranch, maxAgeDays, extensions
    excludePatterns := value "exclude_patterns"
    maxFiles, outputFormats
    failOnRegression := value "fail_on_regression"
    warnOnRegression := value "warn_on_regression"
    thresholds }

/-- The settings when nothing is set. -/
def default : Settings where
  snapshotsDir := .text ".performance-snapshots"
  baselineBranch := .text "main"
  maxAgeDays := .int 7
  extensions := texts [".ts", ".tsx", ".js", ".jsx"]
  excludePatterns := texts ["node_modules/*", "dist/*", "build/*", ".git/*", "*.test.*", "*.spec.*"]
  maxFiles := .int 1000
  outputFormats := texts ["console"]
  failOnRegression := .flag true
  warnOnRegression := .flag true
  thresholds := some .default

/-! ### What follows from them -/

/-- The limits that comparisons are held against. -/
def limits (s : Settings) : Thresholds := s.thresholds.getD .default

/-- The age, in milliseconds, from which on snapshots are old. -/
def maxAge (s : Settings) : Except Fault Number := do
  (← (← (← s.maxAgeDays.mul (.int 24)).mul (.int 60)).mul (.int 60)).mul (.int 1000)

/-- Every setting under its name. -/
def entries (s : Settings) : List (String × Value) := [
  ("snapshots_dir", s.snapshotsDir), ("baseline_branch", s.baselineBranch),
  ("snapshot_max_age_days", .number s.maxAgeDays), ("extensions", s.extensions),
  ("exclude_patterns", s.excludePatterns), ("max_files", .number s.maxFiles), ("output_formats", s.outputFormats),
  ("fail_on_regression", s.failOnRegression), ("warn_on_regression", s.warnOnRegression)]

end Settings

end ScoreGate
