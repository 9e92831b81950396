import ScoreGate.Command.Analyze
import ScoreGate.Command.Gate
import ScoreGate.Command.Snapshots

/-!
# Commands and their options

What the program is asked to do is a request: one of its commands with the options and the paths that it takes.  Options
of the program say which notes are taken, and whether they go to a file too.

* `Request`: a command with its options.
* `runCommand`: what comes of a request.
-/

namespace ScoreGate

inductive Request where
  | analyze (o : AnalyzeOptions)
  | bulk (o : BulkOptions)
  | ci (o : GateOptions)
  | saveBaseline (root : Path) (o : BaselineOptions)
  | showBaseline (o : BaselineOptions)
  | listSnapshots (o : ListOptions)
  | cleanSnapshots (o : CleanOptions)

/-- The options of the program itself. -/
structure ProgramOptions where
  verbose : Bool := false
  quiet : Bool := false
  /-- the file for notes -/
  logFile : Option String := none

def ProgramOptions.level (o : ProgramOptions) : Level :=
  if o.quiet then .error else if o.verbose then .debug else .warning

/-- The components of a path without dots, where double dots take back what stands before them. -/
def plainParts (parts : List String) : List String :=
  (parts.foldl (fun done p => if p = ".." then done.drop 1 else p :: done) []).reverse

/-- Opens the file for notes, which is made if it is not there. -/
def openLog (file : String) (level : Level) : Action Unit := do
  let path : Path := ⟨Path.rootOf file.toList, plainParts (Path.partsOf file.toList)⟩
  let w ← get
  match w.append path ByteArray.empty, w.locate path with
  | .ok w, .ok location => set { w with log := some ⟨location, level⟩ }
  | .error o, _ => throw o.failure
  | _, .error o => throw o.failure

/-- Opens the file for notes that the options name, if they name one. -/
def ProgramOptions.open (o : ProgramOptions) : Action Unit := do
  match o.logFile with
  | none => return ()
  | some file => if file.isEmpty then return () else openLog file o.level

variable [Console]

def Request.act : Request → Command Unit
  | .analyze o => Command.analyze o
  | .bulk o => Command.bulk o
  | .ci o => Command.gate o
  | .saveBaseline root o => Command.saveBaseline root o
  | .showBaseline o => Command.showBaseline o
  | .listSnapshots o => Command.listSnapshots o
  | .cleanSnapshots o => Command.cleanSnapshots o

/-- Opens the file for notes and does what is asked. -/
def Request.run (r : Request) (o : ProgramOptions) : Command Unit := do
  Command.perform o.open
  r.act

/-! ### Results -/

/-- What came of a request. -/
structure CommandResult where
  exitCode : Nat
  printed : List (Output Console.Text)
  /-- the failure that nothing expected -/
  failure : Option Failure

def CommandResult.of (printed : List (Output Console.Text)) : Except Stop Unit → CommandResult
  | .ok _ => ⟨ExitCode.success, printed, none⟩
  | .error (.exit code) => ⟨code, printed, none⟩
  | .error (.crash failure) => ⟨ExitCode.crash, printed, some failure⟩

/-- Does what is asked in a workspace; its file for notes is closed at the end. -/
def runCommand (r : Request) (o : ProgramOptions) (w : Workspace) : CommandResult × Workspace :=
  let (ending, t) := (r.run o).run ⟨w, []⟩
  (.of t.printed ending, { t.workspace with log := none })

end ScoreGate
