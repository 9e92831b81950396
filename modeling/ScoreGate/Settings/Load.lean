import ScoreGate.Settings
import ScoreGate.Toml.Reader
import ScoreGate.Workspace

/-!
# Loading settings

Settings are put together from layers, each of which may set any of them: the file of the project, a file that was
named, the variables of the environment, and options.  A later layer replaces single settings of an earlier one.
Thresholds stand in a table of their own in files, and beside the other settings in the later layers.

* `Layers`: the settings and thresholds given so far.
* `Override`: what a caller puts over all files and variables.
* `loadSettings`: all layers together.
-/

namespace ScoreGate

/-! ### Layers -/

/-- The settings and the thresholds that some layers give, in the order in which they were first given. -/
structure Layers where
  settings : List (String × Value)
  thresholds : List (String × Value)
  deriving Repr

/-- An option: a setting or a threshold of this name, or all thresholds at once. -/
inductive Override where
  | value (entry : String × Value)
  | thresholds (t : Thresholds)

/-- The entries that an option gives; one that is nothing counts as not given. -/
def Override.entries : Override → List (String × Value)
  | .value (_, .null) => []
  | .value entry => [entry]
  | .thresholds t => t.entries

namespace Layers

def empty : Layers := ⟨[], []⟩

/-- Some entries with others put over them. -/
def overlay (below above : List (String × Value)) : List (String × Value) :=
  above.foldl (fun es e => Value.setEntry e.1 e.2 es) below

/-- The layers with a file put over them. -/
def addFile (l : Layers) (path : String) (entries : List (String × Value)) : Except Failure Layers :=
  let rest := entries.filter fun e => e.1 ≠ "thresholds"
  match Value.lookup "thresholds" entries with
  | none => .ok { l with settings := overlay l.settings rest }
  | some (.table es) => .ok ⟨overlay l.settings rest, overlay l.thresholds es⟩
  | some _ => .error (.settings (.thresholdsNotTable path))

/-- The layers with options put over them in their order. -/
def addOptions (l : Layers) (options : List Override) : Layers :=
  let given := options.flatMap Override.entries
  let isThreshold (e : String × Value) : Bool := Thresholds.names.contains e.1
  ⟨overlay l.settings (given.filter fun e => !isThreshold e), overlay l.thresholds (given.filter isThreshold)⟩

def result (l : Layers) : Except Failure Settings := do
  let thresholds ← Thresholds.ofEntries l.thresholds
  Settings.ofEntries (l.settings.filter fun e => e.1 ≠ "thresholds") (some thresholds)

end Layers

/-! ### Variables -/

/-- The words that switch a setting on, and those that switch it off. -/
def onWords : List String := ["true", "1", "yes", "on"]

def offWords : List String := ["false", "0", "no", "off"]

/-- The value that a variable gives a setting. -/
def SettingKind.read (k : SettingKind) (s : String) : Except ValueFault Value :=
  match k with
  | .text => .ok (.text s)
  | .integer => (readInt s).map .int
  | .real => (readReal s).map .real
  | .items => .ok (Settings.texts (commaItems s))
  | .flag =>
      let word := String.ofList (s.toList.map Char.toLower)
      if onWords.contains word then .ok (.flag true)
      else if offWords.contains word then .ok (.flag false)
      else .error (.notFlag s)

def variableName (setting : String) : String :=
  "PERF_SENTINEL_" ++ String.ofList (setting.toList.map Char.toUpper)

def fromVariables (w : Workspace) : List (String × SettingKind) → Except Failure (List (String × Value))
  | [] => .ok []
  | (name, kind) :: rest =>
      match w.valueOf? (variableName name) with
      | none => fromVariables w rest
      | some s =>
          match kind.read s with
          | .error fault => .error (.settings (.badVariable (variableName name) fault))
          | .ok v => do return (name, v) :: (← fromVariables w rest)

def thresholdKinds : List (String × SettingKind) := Thresholds.names.map fun name => (name, .real)

/-! ### Files -/

def projectFile : String := "perf-sentinel.toml"

/-- The entries of a file of settings. -/
def readSettings (p : Path) : Action (List (String × Value)) := do
  let w ← get
  match w.read p with
  | .error _ => throw (.settings (.unreadableFile p.text))
  | .ok bytes =>
      match String.fromUTF8? bytes with
      | none => throw .notUtf8
      | some s =>
          match Toml.read (w.depth - 1) s with
          | .ok entries => return entries
          | .error (.badValue .documentSyntax) => throw (.settings (.unreadableFile p.text))
          | .error fault => throw (.fault fault)

/-- The layers with the file of the project put over them, if there is one. -/
def addProjectFile (l : Layers) : Action Layers := do
  let p := Path.here.child projectFile
  if ← Action.exists? p then l.addFile p.text (← readSettings p) else return l

/-- The layers with a named file put over them; it has to be there. -/
def addNamedFile (l : Layers) (file : Option Path) : Action Layers := do
  match file with
  | none => return l
  | some p =>
      if ← Action.exists? p then l.addFile p.text (← readSettings p)
      else throw (.settings (.missingFile p.text))

/-! ### All layers -/

def loadSettings (file : Option Path) (options : List Override) : Action Settings := do
  let l ← addProjectFile .empty
  let l ← addNamedFile l file
  let w ← get
  let settings ← fromVariables w Settings.kinds
  let limits ← fromVariables w thresholdKinds
  let l : Layers := ⟨Layers.overlay l.settings settings, Layers.overlay l.thresholds limits⟩
  Layers.result (l.addOptions options)

end ScoreGate
