import ScoreGate.Report

/-!
# Comments

The body of a comment on a change that is up for review: headings and lists of a report as marked-up lines.
-/

namespace ScoreGate

/-- A heading with a list under it, if there is anything to list. -/
def commentList (heading : String) (items : List String) : List String :=
  if items.isEmpty then [] else heading :: items.map ("- " ++ ·) ++ [""]

/-- The lines about what got better. -/
def improvementLines (better : Delta) : Except Fault (List String) := do
  return ["- Performance score improved by " ++ (← (← better.averageScore.toNumber).fixedText 2) ++ " points",
    "- " ++ toString better.files.length ++ " files show improvements"]

/-- The comment on a report; `number` names the change it stands under, if it counts as true. -/
def Report.comment (r : Report) (number : Value) : Except Fault String := do
  let d := r.details
  let improved ← if r.hasImprovements then improvementLines d.improvement else pure []
  let head := ["## Performance Check " ++ r.verdict.emoji, "", "**Status:** " ++ r.verdict.heading,
    "**Score:** " ++ r.summary.score.value.text ++ "/100", ""]
  let metrics := ["### 📊 Metrics", "- Files with regressions: " ++ toString d.regression.files.length,
    "- Files with improvements: " ++ toString d.improvement.files.length,
    "- Unchanged files: " ++ toString d.unchanged.length]
  let foot := if number.isTrue then ["", "---", "*Generated by perf-sentinel for PR #" ++ number.display ++ "*"] else []
  let all := head ++ commentList "### ❌ Critical Issues" r.critical ++
    commentList "### ⚠️ Warnings" r.warnings ++
    (if r.hasImprovements then "### ✅ Improvements" :: improved ++ [""] else []) ++
    commentList "### 💡 Recommendations" r.recommendations ++ metrics ++ foot
  return joinText "\n" all ++ "\n"

end ScoreGate
