import ScoreGate.Source
import ScoreGate.Timestamp
import ScoreGate.Tree

/-!
# Workspaces

A workspace is what an operation works on: a tree of files, the variables of the environment, what the version control
answers, a clock, a source of random characters, and the journal of what was noted.  An action reads and changes a
workspace and either gives a result or a failure; what it changed before a failure stays changed.  No action moves the
clock, so all that an operation dates has one time.

* `Workspace.read`, `Workspace.write`, `Workspace.append`, `Workspace.remove`: single files.
* `Workspace.replaceFile`: writing by way of a temporary file, so that a reader sees the old or the new content.
* `Action`: what operations are written in.
-/

namespace ScoreGate

/-! ### The journal -/

inductive Level where
  | debug
  | info
  | warning
  | error
  deriving DecidableEq, Repr

namespace Level

def name : Level → String
  | .debug => "DEBUG"
  | .info => "INFO"
  | .warning => "WARNING"
  | .error => "ERROR"

def rank : Level → Nat
  | .debug => 10
  | .info => 20
  | .warning => 30
  | .error => 40

end Level

/-- The part of the program that notes something. -/
inductive Component where
  | analyzer
  | check
  | comparison
  | discovery
  | revision
  | report
  | store
  deriving DecidableEq, Repr

/-- The name under which every note stands. -/
def journalRoot : String := "perf_sentinel"

/-- A name below the root of the journal; no name is the root itself. -/
def journalName : Option String → String
  | none => journalRoot
  | some name => if journalRoot.toList.isPrefixOf name.toList then name else journalRoot ++ "." ++ name

def Component.name : Component → String
  | .analyzer => journalName "analyzer"
  | .check => journalName "ci"
  | .comparison => journalName "regression.classifier"
  | .discovery => journalName "discovery"
  | .revision => journalName "environment"
  | .report => journalName "alerts.engine"
  | .store => journalName "snapshot.store"

/-- One note. -/
structure Entry where
  component : Component
  level : Level
  message : String
  deriving DecidableEq, Repr

def Entry.line (e : Entry) (stamp : String) : String :=
  stamp ++ " - " ++ e.component.name ++ " - " ++ e.level.name ++ " - " ++ e.message ++ "\n"

/-- A file that takes all notes from a level on. -/
structure LogFile where
  location : Location
  level : Level

/-! ### Workspaces -/

/-- What came of asking the version control something. -/
inductive Reply where
  /-- there is no version control, or it takes too long -/
  | silent
  /-- it cannot be started -/
  | refused
  /-- it ended with a code, and printed this as its answer and as its errors -/
  | ended (code : Int) (output errors : ByteArray)

/-- What the version control replies where it is asked for the branch and the commit below a path. -/
structure Repository where
  branch : Path → Reply
  commit : Path → Reply

/-- There is no version control. -/
def Repository.absent : Repository := ⟨fun _ => .silent, fun _ => .silent⟩

/-- A step of writing a file. -/
inductive WriteStep where
  | directories
  | temporary
  | content
  | replacement
  deriving DecidableEq, Repr

structure Workspace where
  tree : Tree
  /-- the names and paths that the file system takes, if not all -/
  limits : Option NameLimits
  /-- how deeply the documents that are read may be nested -/
  depth : Nat
  /-- the step at which the file system refuses to write -/
  refusal : Option WriteStep
  environment : List (String × String)
  repository : Repository
  clock : Int
  source : Source
  journal : List Entry
  log : Option LogFile

namespace Workspace

def valueOf? (w : Workspace) (name : String) : Option String :=
  (w.environment.find? fun v => v.1 = name).map (·.2)

/-! ### Files -/

def locate (w : Workspace) (p : Path) : Except Obstacle Location := w.tree.locate w.limits p

/-- What a path leads to. -/
def node (w : Workspace) (p : Path) : Except Obstacle Node := do
  match w.tree.find? (← w.locate p) with
  | some n => return n
  | none => throw .missing

/-- The content of a file. -/
def read (w : Workspace) (p : Path) : Except Obstacle ByteArray := do
  match ← w.node p with
  | .file bytes => return bytes
  | .directory => throw .isDirectory

/-- The location of a file that may be written: the directory has to be there, and no directory in its place. -/
def target (w : Workspace) (p : Path) : Except Obstacle Location := do
  let loc ← w.locate p
  match w.tree.find? loc with
  | some .directory => throw .isDirectory
  | _ => return loc

/-- The workspace with the content of a file replaced. -/
def write (w : Workspace) (p : Path) (bytes : ByteArray) : Except Obstacle Workspace := do
  let loc ← w.target p
  return { w with tree := w.tree.put loc (.file bytes) }

/-- What a file at a location holds so far. -/
def contentAt (w : Workspace) (loc : Location) : ByteArray :=
  match w.tree.find? loc with
  | some (.file bytes) => bytes
  | _ => ByteArray.empty

/-- The workspace with something added at the end of a file. -/
def append (w : Workspace) (p : Path) (bytes : ByteArray) : Except Obstacle Workspace := do
  let loc ← w.target p
  return { w with tree := w.tree.put loc (.file (w.contentAt loc ++ bytes)) }

/-- The log file as it is after the file at a location is gone; what is added to a log file without a name is lost. -/
def logWithout (w : Workspace) (loc : Location) : Option LogFile := w.log.filter fun f => f.location ≠ loc

/-- The workspace without a file. -/
def remove (w : Workspace) (p : Path) : Except Obstacle Workspace := do
  let loc ← w.locate p
  match w.tree.find? loc with
  | some (.file _) => return { w with tree := w.tree.erase loc, log := w.logWithout loc }
  | some .directory => throw .isDirectory
  | none => throw .missing

/-- The workspace with the directories of a path made, and what stopped that. -/
def makeDirectories (w : Workspace) (p : Path) : Workspace × Option Obstacle :=
  let (t, o) := w.tree.makeDirectories w.limits p
  ({ w with tree := t }, o)

/-! ### Replacing a file -/

def temporaryName (n : Nat) : String := ".tmp-" ++ toString n ++ ".json"

/-- A location in a directory for a temporary file, where nothing is; one of the first `fuel` numbers serves. -/
def freeTemporary (t : Tree) (directory : Location) : Nat → Nat → Location
  | 0, n => directory ++ [temporaryName n]
  | fuel + 1, n =>
      let loc := directory ++ [temporaryName n]
      if (t.find? loc).isNone then loc else freeTemporary t directory fuel (n + 1)

/-- The workspace refuses if the step is the one at which it is to refuse. -/
def allows (w : Workspace) (s : WriteStep) : Except Obstacle Unit :=
  if w.refusal = some s then .error .refused else .ok ()

/-- Moves the temporary file over the target. -/
def moveOver (w : Workspace) (temporary : Location) (p : Path) (bytes : ByteArray) : Except Obstacle Workspace := do
  w.allows .replacement
  let loc ← w.target p
  return { w with tree := (w.tree.erase temporary).put loc (.file bytes), log := w.logWithout loc }

/-- Writes a temporary file beside the target and moves it over the target.  When that fails after the temporary file
was made, the temporary file is removed, unless the path holds a NUL. -/
def fillAndMove (w : Workspace) (temporary : Location) (p : Path) (bytes : ByteArray) :
    Workspace × Option SystemFault :=
  let name := (p.parent.child (temporary.getLastD "")).text
  let made : Workspace := { w with tree := w.tree.put temporary (.file ByteArray.empty) }
  match made.allows .content with
  | .error o => ({ made with tree := made.tree.erase temporary }, some ⟨o, name, none⟩)
  | .ok _ =>
      let filled : Workspace := { made with tree := made.tree.put temporary (.file bytes) }
      match filled.moveOver temporary p bytes with
      | .ok w => (w, none)
      | .error .nulInName => (filled, some ⟨.nulInName, name, some p.text⟩)
      | .error o => ({ filled with tree := filled.tree.erase temporary }, some ⟨o, name, some p.text⟩)

/-- Replaces the content of a file so that a reader sees the old content or the new: the directories are made, a
temporary file is written, and it is moved over the target. -/
def replaceFile (w : Workspace) (p : Path) (bytes : ByteArray) : Workspace × Option SystemFault :=
  let stopped (o : Obstacle) : Option SystemFault := some ⟨o, p.parent.text, none⟩
  match w.allows .directories with
  | .error o => (w, stopped o)
  | .ok _ =>
      match w.makeDirectories p.parent with
      | (w, some o) => (w, stopped o)
      | (w, none) =>
          match w.allows .temporary, w.locate p.parent with
          | .error o, _ => (w, stopped o)
          | _, .error o => (w, stopped o)
          | .ok _, .ok directory =>
              fillAndMove w (freeTemporary w.tree directory (w.tree.entries.length + 1) 0) p bytes

/-! ### Notes -/

def stamp (w : Workspace) : String :=
  match stampText (.int w.clock) with
  | .ok s => String.ofList (s.toList.take 19)
  | .error _ => secondText 1970 1 1 0

/-- The log file with a note added, if there is one that takes it. -/
def logged (w : Workspace) (e : Entry) : Tree :=
  match w.log with
  | some f =>
      if f.level.rank ≤ e.level.rank then
        w.tree.put f.location (.file (w.contentAt f.location ++ (e.line w.stamp).toUTF8))
      else w.tree
  | none => w.tree

/-- The workspace with something noted. -/
def note (w : Workspace) (e : Entry) : Workspace :=
  { w with tree := w.logged e, journal := w.journal ++ [e] }

end Workspace

/-! ### Actions -/

/-- What operations are written in: a result or a failure, and the workspace as it is afterwards. -/
abbrev Action := ExceptT Failure (StateM Workspace)

instance : MonadLift (Except Fault) Action := ⟨fun x => ExceptT.mk (pure (x.mapError Failure.fault))⟩

instance : MonadLift (Except Failure) Action := ⟨fun x => ExceptT.mk (pure x)⟩

namespace Action

def note (component : Component) (level : Level) (message : String) : Action Unit :=
  modify fun w => w.note ⟨component, level, message⟩

/-- What a path leads to, if it leads anywhere; only a name that is too long is a failure. -/
def node? (p : Path) : Action (Option Node) := do
  match (← get).node p with
  | .ok n => return some n
  | .error .nameTooLong => throw .system
  | .error _ => return none

def exists? (p : Path) : Action Bool := return (← node? p).isSome

def isFile (p : Path) : Action Bool := return match ← node? p with
  | some (.file _) => true
  | _ => false

def isDirectory (p : Path) : Action Bool := return match ← node? p with
  | some .directory => true
  | _ => false

/-- The next random suffix. -/
def suffix : Action String := do
  let w ← get
  let (cs, source) := w.source.draw suffixLength
  set { w with source }
  return String.ofList cs

end Action

end ScoreGate
