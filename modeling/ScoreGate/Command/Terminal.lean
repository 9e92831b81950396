import ScoreGate.Console
import ScoreGate.Settings.Load

/-!
# Commands

A command is an action that prints on a console and that ends with an exit code.  What it printed before it stopped stays
printed.

* `Terminal`: a workspace and what was printed.
* `Command`: what commands are written in.
* `Command.say`, `Command.refuse`, `Command.attempt`: printing, ending with an error line, and turning expected
  failures into such a line.
-/

namespace ScoreGate

/-! ### Exit codes -/

namespace ExitCode

def success : Nat := 0

/-- A failure that nothing expects. -/
def crash : Nat := 1

def badSettings : Nat := 81

def pathNotFound : Nat := 82

def internal : Nat := 100

end ExitCode

/-! ### Commands -/

variable [Console]

/-- A workspace and what was printed, in this order. -/
structure Terminal where
  workspace : Workspace
  printed : List (Output Console.Text)

/-- Why a command stops before its end. -/
inductive Stop where
  | exit (code : Nat)
  | crash (failure : Failure)
  deriving DecidableEq, Repr

/-- What commands are written in: a result or a reason to stop, and the terminal as it is afterwards. -/
abbrev Command := ExceptT Stop (StateM Terminal)

instance : MonadLift (Except Failure) Command := ⟨fun x => ExceptT.mk (pure (x.mapError Stop.crash))⟩

instance : MonadLift (Except Fault) Command := ⟨fun x => ExceptT.mk (pure (x.mapError (Stop.crash ∘ Failure.fault)))⟩

namespace Command

/-- Runs an action on the workspace; its failure is a result. -/
def attempted (act : Action α) : Command (Except Failure α) := do
  let t ← getThe Terminal
  let (r, w) := act.run t.workspace
  modifyThe Terminal fun t => { t with workspace := w }
  return r

/-- Runs an action; its failure stops the command. -/
def perform (act : Action α) : Command α := do
  match ← attempted act with
  | .ok a => return a
  | .error f => throw (.crash f)

instance : MonadLift Action Command := ⟨perform⟩

/-! ### Printing -/

/-- Prints something, unless the console fails to. -/
def put (o : Output Console.Text) : Command Unit := do
  Console.print o
  modifyThe Terminal fun t => { t with printed := t.printed ++ [o] }

/-- Prints marked-up text as a line. -/
def say (markup : String) : Command Unit := do put (.line (← Console.read markup))

/-- Prints several marked-up lines. -/
def sayAll (markups : List String) : Command Unit := markups.forM say

/-- Prints a line across the console with a marked-up title. -/
def sayRule (markup : String) : Command Unit := do put (.rule (← Console.read markup))

/-- Prints a table of marked-up cells. -/
def sayTable (columns : List Column) (rows : List (List String)) : Command Unit := do
  let texts : Except Failure (List (List Console.Text)) := rows.mapM fun row => row.mapM Console.read
  put (.table columns (← texts))

/-! ### Expected failures -/

/-- Ends the command with an error line. -/
def refuse (message : String) (code : Nat) : Command α := do
  say (Console.styled "red" "Error:" ++ " " ++ Console.escape message)
  throw (.exit code)

/-- Runs an action whose expected failures end the command with an error line and an exit code. -/
def attempt (act : Action α) (expected : Failure → Option (String × Nat)) : Command α := do
  match ← attempted act with
  | .ok a => return a
  | .error f =>
      match expected f with
      | some (message, code) => refuse message code
      | none => throw (.crash f)

def requirePath (p : Path) : Command Unit := do
  if !(← Action.exists? p) then refuse ("Path not found: " ++ p.text) ExitCode.pathNotFound

/-- Settings that cannot be put together end the command. -/
def settingsFailure (f : Failure) : Option (String × Nat) :=
  match f with
  | .settings _ | .invalidSetting .. => some (f.text, ExitCode.badSettings)
  | _ => none

/-- The settings of a file, if there is one, under some options. -/
def settings (config : Option Path) (options : List Override) : Command Settings :=
  attempt (loadSettings config options) settingsFailure

/-- The value of an option that is a text; nothing if it is not given. -/
def textOption (o : Option String) : Value := (o.map Value.text).getD .null

/-- Stored files that cannot be written, read or removed end the command. -/
def storageFailure (f : Failure) : Option (String × Nat) :=
  match f with
  | .storage .. => some (f.text, ExitCode.internal)
  | _ => none

/-- So do stored records that cannot be used. -/
def recordFailure (f : Failure) : Option (String × Nat) :=
  match f with
  | .storage .. | .malformedRecord .. => some (f.text, ExitCode.internal)
  | _ => none

end Command

end ScoreGate
