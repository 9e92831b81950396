import ScoreGate.Command.Line
import Std.Time.DateTime.Timestamp

/-!
# The program

Runs one command line on the files below the current directory that standard input names, one a line.  They are read
before the command runs, and what the command changed is written back afterwards.
-/

namespace ScoreGate

/-! ### What a command changed -/

/-- The files of a tree with a content that they did not have before. -/
def Tree.writtenSince (before after : Tree) : List (Location × ByteArray) :=
  after.entries.filterMap fun (loc, node) =>
    match node with
    | .file bytes => if before.find? loc = some (.file bytes) then none else some (loc, bytes)
    | .directory => none

/-- The files that are gone. -/
def Tree.removedSince (before after : Tree) : List Location :=
  before.files.filter fun loc => (after.find? loc).isNone

/-- The workspace with a file that is there from the start; a file that cannot stand in it is left out. -/
def Workspace.withFile (w : Workspace) (p : Path) (bytes : ByteArray) : Workspace :=
  match w.makeDirectories p.parent with
  | (made, none) =>
      match made.write p bytes with
      | .ok filled => filled
      | .error _ => w
  | (_, some _) => w

/-! ### The world around it -/

namespace Program

/-- Every variable that a command may look at. -/
def variableNames : List String :=
  (Settings.names ++ Thresholds.names).map variableName ++ Revision.branchVariables ++ Revision.commitVariables ++
    [Check.outputVariable]

/-- How many random bytes are asked for: enough for two identifiers. -/
def randomBytes : Nat := 2 * suffixLength

/-- The characters of identifiers from random bytes. -/
def characters (bytes : ByteArray) : List Char := bytes.toList.map fun b => digit36 (b.toNat % 36)

/-- The lines of standard input. -/
partial def readLines (input : IO.FS.Stream) (lines : List String) : IO (List String) := do
  let l ← input.getLine
  if l.isEmpty then return lines.reverse
  readLines input (String.ofList (dropEndWhile (· = '\n') l.toList) :: lines)

def readVariables : IO (List (String × String)) := do
  let found ← variableNames.mapM fun name => do return (name, ← IO.getEnv name)
  return found.filterMap fun (name, value) => value.map (name, ·)

/-- The workspace of the files that lines name; what cannot be read is left out. -/
def readWorkspace (names : List String) : IO Workspace := do
  let now ← Std.Time.Timestamp.now
  let w : Workspace := {
    tree := .empty
    limits := some .usual
    depth := Document.usualDepth
    refusal := none
    environment := ← readVariables
    repository := .absent
    clock := now.toMillisecondsSinceUnixEpoch.toInt
    source := ⟨characters (← IO.getRandomBytes randomBytes.toUSize), 0⟩
    journal := []
    log := none }
  names.foldlM (fun w (name : String) => do
    try return w.withFile (.ofText name) (← IO.FS.readBinFile name)
    catch _ => return w) w

def writeBack (before after : Tree) : IO Unit := do
  for (loc, bytes) in before.writtenSince after do
    IO.FS.createDirAll (Path.here.join loc.dropLast).text
    IO.FS.writeBinFile (Path.here.join loc).text bytes
  for loc in before.removedSince after do
    IO.FS.removeFile (Path.here.join loc).text

/-- Prints what came of a command line, and the notes that are to be shown. -/
def report (line : List String) (r : LineResult) (journal : List Entry) : IO Unit := do
  IO.print r.printed
  for e in journal do
    if (shownLevel line).rank ≤ e.level.rank then IO.eprintln (e.level.name ++ " " ++ e.message)
  if let some fault := r.usage then IO.eprintln ("Error: " ++ fault.message)
  if let some failure := r.failure then
    IO.eprintln (if failure.text.isEmpty then "Unexpected failure" else "Error: " ++ failure.text)

end Program

end ScoreGate

/-- Runs the command line. -/
def main (line : List String) : IO UInt32 := do
  let names ← ScoreGate.Program.readLines (← IO.getStdin) []
  let w ← ScoreGate.Program.readWorkspace names
  let (r, after) := ScoreGate.runLine line w
  ScoreGate.Program.writeBack w.tree after.tree
  ScoreGate.Program.report line r after.journal
  return r.exitCode.toUInt32
