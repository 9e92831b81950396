import ScoreGate.Command.Terminal
import ScoreGate.Report.Comment

/-!
# Reports on the console

What a report prints: its verdict and points, its messages as lists, and how many files went which way.
-/

namespace ScoreGate

variable [Console]

def Verdict.style : Verdict → String
  | .pass => "green"
  | .warning => "yellow"
  | .fail => "red"

def screenList (heading style : String) (items : List String) : List String :=
  if items.isEmpty then []
  else ("\n" ++ Console.styled ("bold " ++ style) heading) ::
    items.map fun i => "  • " ++ Console.styled style (Console.escape i)

/-- The marked-up lines about what got better. -/
def improvementMarkup (better : Delta) : Except Fault (List String) := do
  return ["  • Performance score improved by " ++
      Console.styled "green" (← (← better.averageScore.toNumber).fixedText 2) ++ " points",
    "  • " ++ Console.styled "green" (toString better.files.length) ++ " files show improvements"]

/-- Prints what got better, if anything did. -/
def Report.tellImprovements (r : Report) : Command Unit := do
  if r.hasImprovements then
    Command.say ("\n" ++ Console.styled "bold green" "Improvements")
    Command.sayAll (← improvementMarkup r.details.improvement)

def Report.footMarkup (r : Report) : List String := [
  "\n" ++ Console.styled "bold" "Detailed metrics",
  "  Files with regressions:  " ++ Console.styled "red" (toString r.details.regression.files.length),
  "  Files with improvements: " ++ Console.styled "green" (toString r.details.improvement.files.length),
  "  Unchanged files:         " ++ Console.styled "dim" (toString r.details.unchanged.length),
  ""]

def Report.tell (r : Report) : Command Unit := do
  Command.say ""
  Command.sayRule (Console.styled "bold blue" "Performance Alert Report")
  Command.sayAll [
    "",
    "Status:  " ++ Console.styled r.verdict.style (String.ofList (r.verdict.name.toList.map Char.toUpper)),
    "Score:   " ++ Console.styled "bold" r.summary.score.value.text ++ "/100",
    "Message: " ++ Console.escape r.summary.message.display]
  Command.sayAll (screenList "Critical issues" "red" r.critical ++ screenList "Warnings" "yellow" r.warnings)
  r.tellImprovements
  Command.sayAll (screenList "Recommendations" "blue" r.recommendations ++ r.footMarkup)

end ScoreGate
