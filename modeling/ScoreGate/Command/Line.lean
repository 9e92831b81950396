import ScoreGate.Command
import ScoreGate.Command.Arguments
import ScoreGate.Console.Wide

/-!
# Command lines

The outermost layer of the program: it reads a command line as a request and does what is asked on a wide console.  The
first word of a command line names a command, or a group whose command the next word names; options before it are those of
the program.

* `Task`: a command with its options and words.
* `runLine`: what comes of a command line.
-/

namespace ScoreGate

/-- Why a line comes to no command: it is answered at once, or it cannot be read. -/
inductive Early where
  | answered (text : String)
  | usage (fault : UsageFault)
  | nulInPath

def Early.ofFault : LineFault → Early
  | .usage fault => .usage fault
  | .nulInPath => .nulInPath

/-! ### Commands -/

/-- How many words a command takes, all of them paths. -/
inductive WordUse where
  | none
  /-- one, which is the current directory if it is not given -/
  | optional
  | required (name : String)
  deriving DecidableEq, Repr

/-- The word of a line that may have only one, if it has one. -/
def onlyWord : List String → Except LineFault (Option String)
  | [] => .ok Option.none
  | [s] => do
      checkWord s
      return some s
  | s :: t :: _ => do
      checkWord s
      throw (.usage (.unexpectedWord t))

def WordUse.path (u : WordUse) (words : List String) : Except LineFault Path :=
  match u with
  | .none =>
      match words with
      | [] => .ok .here
      | s :: _ => .error (.usage (.unexpectedWord s))
  | .optional => do
      match ← onlyWord words with
      | some s => return .ofText s
      | Option.none => return .here
  | .required name => do
      match ← onlyWord words with
      | some s => return .ofText s
      | Option.none => throw (.usage (.missingWord name))

/-- A command: its name, the options and words it takes, and what they ask for. -/
structure Task where
  name : String
  forms : List OptionForm
  words : WordUse
  request : Arguments → Path → Request

namespace Task

def helpForm : OptionForm := ⟨"help", none, .switch⟩

/-- What is printed when help is asked for. -/
def usageLine (words : String) : String := "Usage: perf-sentinel " ++ words ++ "\n"

/-- What the rest of a command's line asks for. -/
def read (t : Task) (line : List String) : Except Early Request := do
  let p ← (Parts.ofLine (helpForm :: t.forms) true line).mapError Early.usage
  if p.options.any fun o => o.1.name = helpForm.name then
    throw (.answered (usageLine (t.name ++ " [OPTIONS]")))
  let a ← (readArguments t.forms line).mapError Early.ofFault
  return t.request a (← (t.words.path a.words).mapError Early.ofFault)

end Task

namespace Arguments

def path? (a : Arguments) (name : String) : Option Path := (a.text? name).map .ofText

/-- The number of an option that is not below a bound. -/
def atLeast? (a : Arguments) (least : Int) (name : String) : Option {n : Int // least ≤ n} :=
  match a.value name with
  | .number (.int n) => if h : least ≤ n then some ⟨n, h⟩ else none
  | _ => none

def real? (a : Arguments) (name : String) : Option Binary64 :=
  match a.value name with
  | .number (.real x) => some x
  | _ => none

/-- The texts of an option that may be given several times. -/
def texts (a : Arguments) (name : String) : List String :=
  match a.value name with
  | .list items => items.map Value.display
  | _ => []

def store (a : Arguments) : StoreOptions := ⟨a.text? "snapshots-dir", a.path? "config"⟩

def baseline (a : Arguments) : BaselineOptions :=
  { a.store with branch := (a.text? "branch").getD ({} : BaselineOptions).branch }

end Arguments

namespace Task

def configForm : OptionForm := ⟨"config", some 'c', .path⟩

def storeForms : List OptionForm := [⟨"snapshots-dir", none, .text⟩, configForm]

def baselineForms : List OptionForm := ⟨"branch", some 'b', .text⟩ :: storeForms

def bulkForms : List OptionForm := [
  ⟨"extensions", some 'e', .text⟩, ⟨"exclude", some 'x', .texts⟩, ⟨"max-files", none, .integer 1⟩,
  ⟨"summary-only", none, .switch⟩, ⟨"output", some 'o', .path⟩, configForm]

def gateForms : List OptionForm := [
  ⟨"baseline-branch", some 'b', .text⟩, ⟨"snapshots-dir", none, .text⟩, ⟨"max-score-regression", none, .real⟩,
  ⟨"max-high-severity-increase", none, .real⟩, ⟨"max-total-issues-increase", none, .real⟩,
  ⟨"min-score-improvement", none, .real⟩, ⟨"output", none, .text⟩, ⟨"no-fail-on-regression", none, .switch⟩,
  ⟨"no-warn-on-regression", none, .switch⟩, configForm]

def bulkRequest (a : Arguments) (directory : Path) : Request :=
  .bulk ⟨directory, a.text? "extensions", a.texts "exclude", a.atLeast? 1 "max-files", a.isGiven "summary-only",
    a.path? "output", a.path? "config"⟩

def gateRequest (a : Arguments) (root : Path) : Request :=
  .ci ⟨root, a.text? "baseline-branch", a.text? "snapshots-dir", a.real? "max-score-regression",
    a.real? "max-high-severity-increase", a.real? "max-total-issues-increase", a.real? "min-score-improvement",
    a.text? "output", a.isGiven "no-fail-on-regression", a.isGiven "no-warn-on-regression", a.path? "config"⟩

/-- The commands that stand by themselves. -/
def single : List Task := [
  ⟨"analyze", [⟨"json", none, .switch⟩], .required "FILE", fun a file => .analyze ⟨file, a.isGiven "json"⟩⟩,
  ⟨"bulk", bulkForms, .optional, bulkRequest⟩,
  ⟨"ci", gateForms, .optional, gateRequest⟩]

def groups : List (String × List Task) := [
  ("baseline", [
    ⟨"save", baselineForms, .optional, fun a root => .saveBaseline root a.baseline⟩,
    ⟨"show", baselineForms, .none, fun a _ => .showBaseline a.baseline⟩]),
  ("snapshots", [
    ⟨"list", ⟨"last", some 'n', .integer 1⟩ :: storeForms, .none, fun a _ =>
      .listSnapshots { a.store with last := (a.atLeast? 1 "last").getD ({} : ListOptions).last }⟩,
    ⟨"cleanup", ⟨"max-age-days", none, .integer 0⟩ :: storeForms, .none, fun a _ =>
      .cleanSnapshots { a.store with maxAgeDays := a.atLeast? 0 "max-age-days" }⟩])]

end Task

/-! ### Finding the command -/

def versionLine : String := "perf-sentinel 0.1.0\n"

/-- The options that are answered at once, in the order in which they stand. -/
def answeredAtOnce (words : String) (options : List (OptionForm × String)) : Option String :=
  options.findSome? fun o =>
    if o.1.name = "version" then some versionLine
    else if o.1.name = Task.helpForm.name then some (Task.usageLine words)
    else none

/-- The options before a command, and the words from it on; an option that is answered at once ends the line. -/
def readHead (forms : List OptionForm) (words : String) (line : List String) : Except Early Parts := do
  let p ← (Parts.ofLine forms false line).mapError Early.usage
  match answeredAtOnce words p.options with
  | some answer => throw (.answered answer)
  | none => return p

/-- Refuses a word that names no command.  One that begins with neither a letter nor a numeral is read as an option
first, together with what follows it. -/
def refuseWord (forms : List OptionForm) (words : String) (word : String) (rest : List String) : Except Early α := do
  if word.toList.head?.any fun c => !isWordChar c || c = '_' then
    let _ ← readHead forms words (word :: rest)
  throw (.usage (.unknownCommand word))

/-- What the line after the name of a group asks for. -/
def readGroup (group : String) (tasks : List Task) (line : List String) : Except Early Request := do
  let forms := [Task.helpForm]
  let usage := group ++ " COMMAND [OPTIONS]"
  let p ← readHead forms usage line
  match p.words with
  | [] => throw (.usage .missingCommand)
  | word :: rest =>
      match tasks.find? fun t => t.name = word with
      | some t => t.read rest
      | none => refuseWord forms usage word rest

/-- What a word names: a reader of what follows it. -/
def namedCommand? (word : String) : Option (List String → Except Early Request) :=
  match Task.single.find? fun t => t.name = word with
  | some t => some t.read
  | none => (Task.groups.find? fun g => g.1 = word).map fun g => readGroup g.1 g.2

/-! ### The options of the program -/

def programForms : List OptionForm := [
  ⟨"verbose", some 'v', .switch⟩, ⟨"quiet", some 'q', .switch⟩, ⟨"log-file", none, .text⟩,
  ⟨"version", none, .switch⟩, Task.helpForm]

/-- How a command line is used. -/
def programUsage : String := "[OPTIONS] COMMAND"

def ProgramOptions.ofParts (options : List (OptionForm × String)) : ProgramOptions :=
  let has (name : String) : Bool := options.any fun o => o.1.name = name
  ⟨has "verbose", has "quiet", ((options.filter fun o => o.1.name = "log-file").getLast?).map (·.2)⟩

/-- The options of the program, and what the rest of the line asks for. -/
def readLine (line : List String) : Except Early (ProgramOptions × Except Early Request) := do
  let p ← readHead programForms programUsage line
  match p.words with
  | [] => throw (.usage .missingCommand)
  | word :: rest =>
      match namedCommand? word with
      | none => refuseWord programForms programUsage word rest
      | some read => return (.ofParts p.options, read rest)

def shownLevel (line : List String) : Level :=
  match Parts.ofLine programForms false line with
  | .ok p => (ProgramOptions.ofParts p.options).level
  | .error _ => .warning

/-! ### Results -/

/-- What came of a command line. -/
structure LineResult where
  exitCode : Nat
  printed : String
  /-- why the command line cannot be read -/
  usage : Option UsageFault
  failure : Option Failure
  deriving Repr

namespace LineResult

def ofEarly : Early → LineResult
  | .answered text => ⟨ExitCode.success, text, none, none⟩
  | .usage fault => ⟨2, "", some fault, none⟩
  | .nulInPath => ⟨ExitCode.crash, "", none, some (.fault (.badValue .nulInPath))⟩

def ofCommand (r : @CommandResult Console.wide) : LineResult :=
  letI := Console.wide
  ⟨r.exitCode, joinText "" (r.printed.map Screen.show), none, r.failure⟩

end LineResult

/-- What comes of a command line.  The file for notes is opened before the line of the command is read. -/
def runLine (line : List String) (w : Workspace) : LineResult × Workspace :=
  match readLine line with
  | .error early => (.ofEarly early, w)
  | .ok (options, .ok request) =>
      let (r, w) := @runCommand Console.wide request options w
      (.ofCommand r, w)
  | .ok (options, .error early) =>
      match options.open.run w with
      | (.ok _, w) => (.ofEarly early, { w with log := none })
      | (.error failure, w) => (⟨ExitCode.crash, "", none, some failure⟩, w)

end ScoreGate
