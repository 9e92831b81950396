import ScoreGate.Command.Terminal
import ScoreGate.Discovery
import ScoreGate.Document.Printer
import ScoreGate.Report

/-!
# Analysing from the command line

* `Command.analyze`: one file, with all its issues, as text or as a document.
* `Command.bulk`: all sources below a directory, with the score of the project.
-/

namespace ScoreGate

/-! ### Options -/

structure AnalyzeOptions where
  file : Path
  /-- a document instead of text -/
  json : Bool := false

structure BulkOptions where
  directory : Path
  /-- a list with commas -/
  extensions : Option String := none
  exclude : List String := []
  maxFiles : Option {n : Int // 1 ≤ n} := none
  summaryOnly : Bool := false
  output : Option Path := none
  config : Option Path := none

namespace Command

variable [Console]

/-! ### One file -/

/-- The lines about what was found in a file and how it scores. -/
def analysisHead (a : FileAnalysis) : List String :=
  let c := a.counts
  let s := a.score
  let points (p : Percent) : String := p.value.text
  let band := scoreBand s.total.value
  ["File: " ++ Console.styled "bold" (Console.escape a.path),
    "Issues: " ++ toString c.total ++ " (" ++ Severity.high.label ++ " " ++ toString c.high ++ ", " ++
      Severity.medium.label ++ " " ++ toString c.medium ++ ", " ++ Severity.low.label ++ " " ++ toString c.low ++ ")",
    "",
    "Overall score:  " ++ Console.styled "bold" (points s.total) ++ "/100 (" ++ s.grade.letter ++ ")",
    "Memory safety:  " ++ points s.breakdown.memoryLeaks ++ "/100",
    "Performance:    " ++ points s.breakdown.performance ++ "/100",
    "Code quality:   " ++ points s.breakdown.codeQuality ++ "/100",
    "\n" ++ band.1 ++ " Grade: " ++ s.grade.letter ++ "  " ++ band.2]

def issueLines (i : Issue) : List String := [
  "  " ++ i.kind.icon ++ " Line " ++ toString i.line ++ ": " ++ Console.escape i.message.display,
  "     " ++ Console.styled "dim" (Console.escape i.suggestion.display)]

def severityLines (a : FileAnalysis) (s : Severity) : List String :=
  let issues := a.issuesWith s
  if issues.isEmpty then []
  else ("\n" ++ Console.styled "bold" (s.label ++ " priority")) :: issues.flatMap issueLines

def sayAnalysis (a : FileAnalysis) : Command Unit := do
  say ""
  sayRule (Console.styled "bold cyan" "Performance Analysis")
  sayAll (analysisHead a)
  if a.issues.isEmpty then say ("\n" ++ Console.styled "green" "No performance issues found.")
  else sayAll ([Severity.high, .medium, .low].flatMap (severityLines a))

/-- A file that cannot be read ends the command. -/
def accessFailure (f : Failure) : Option (String × Nat) :=
  match f with
  | .fileAccess path cause => some (path ++ ": " ++ cause.label, ExitCode.pathNotFound)
  | _ => none

def analyze (o : AnalyzeOptions) : Command Unit := do
  requirePath o.file
  let analysis ← attempt (analyzeFile o.file) accessFailure
  if o.json then put (.document (Document.indented analysis.toValue))
  else sayAnalysis analysis

/-! ### All files -/

/-- Each extension with a dot before it. -/
def normalExtensions (extensions : List String) : List String :=
  extensions.map fun e => if e.toList.head? = some '.' then e else "." ++ e

def bulkOptions (o : BulkOptions) : List Override :=
  [.value ("extensions", (o.extensions.map fun s => Settings.texts (normalExtensions (commaItems s))).getD .null),
    .value ("max_files", (o.maxFiles.map fun n => Value.int n.1).getD .null)]

def ProjectScore.toValue (p : ProjectScore) : Value :=
  .table [("total", .int p.total), ("grade", .text p.grade.letter), ("bestFile", .text p.bestFile),
    ("worstFile", .text p.worstFile), ("totalFiles", .int p.totalFiles), ("averageScore", .int p.averageScore),
    ("filesWithIssues", .int p.filesWithIssues)]

def bulkDocument (p : ProjectScore) (as : List FileAnalysis) : Value :=
  .table [("projectScore", ProjectScore.toValue p), ("files", .list (as.map FileAnalysis.toValue))]

def writeBulk (output : Path) (p : ProjectScore) (as : List FileAnalysis) : Command Unit := do
  match (← getThe Terminal).workspace.write output (Document.indented (bulkDocument p as)).toUTF8 with
  | .ok w => modifyThe Terminal fun t => { t with workspace := w }
  | .error o =>
      let fault : SystemFault := ⟨o, output.text, none⟩
      refuse ("Cannot write " ++ output.text ++ ": " ++ fault.text) ExitCode.internal
  say (Console.styled "green" ("Results written to " ++ Console.escape output.text))

def analysisColumns : List Column := [
  .onLeft "File" 30, .onRight "Issues" "", .onRight "High" "red", .onRight "Medium" "yellow", .onRight "Low" "green",
  .onRight "Score" "", .onLeft "Grade" 0]

def analysisRow (a : FileAnalysis) : List String :=
  let c := a.counts
  [Console.escape a.path, toString c.total, toString c.high, toString c.medium, toString c.low, a.score.total.value.text,
    a.score.grade.letter]

/-- Analyses with the most issues first; equal ones stay in their order. -/
def byIssues (as : List FileAnalysis) : List FileAnalysis :=
  as.mergeSort fun a b => b.counts.total ≤ a.counts.total

/-- Prints the score of a project. -/
def sayProject (p : ProjectScore) : Command Unit := do
  let band := scoreBand (.int p.total)
  say ""
  sayRule (Console.styled "bold cyan" "Project Quality Score")
  sayAll [
    "Overall score:    " ++ Console.styled "bold" (toString p.total) ++ "/100 (" ++ p.grade.letter ++ ")",
    "Files analyzed:   " ++ toString p.totalFiles,
    "Files with issues: " ++ toString p.filesWithIssues,
    "Best file:        " ++ Console.escape p.bestFile,
    "Worst file:       " ++ Console.escape p.worstFile,
    "\n" ++ band.1 ++ " Project grade: " ++ p.grade.letter ++ "  " ++ band.2]

def excludePatterns (s : Settings) (further : List String) : Except Fault Value := do
  return .list ((← s.excludePatterns.elements) ++ further.map .text)

/-- Analyses all sources below a directory. -/
def bulk (o : BulkOptions) : Command Unit := do
  requirePath o.directory
  let s ← settings o.config (bulkOptions o)
  let patterns ← excludePatterns s o.exclude
  let as ← analyzeFiles (← findSources o.directory s.extensions patterns (some s.maxFiles))
  let project ← projectScore as
  if let some output := o.output then writeBulk output project as
  if !o.summaryOnly && !as.isEmpty then
    say ""
    sayTable analysisColumns ((byIssues as).map analysisRow)
  sayProject project

end Command

end ScoreGate
