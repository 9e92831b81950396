import ScoreGate.Proofs.Coherence

/-!
# Texts that go on

A text that goes on after a line feed keeps its lines, with their numbers.  So what was found line by line is found first
again, of every severity there is at least as much as before, and the score falls.

* `issuesOnLines_append`: the issues of the lines that there were come first.
* `FileAnalysis.Worsens`: what the analysis of such a text has of the earlier one; `appending_never_improves`.
-/

namespace ScoreGate

theorem issuesOnLines_append (path : String) (cs more : List Char) :
    issuesOnLines path cs <+: issuesOnLines path (cs ++ '\n' :: more) := by
  have hlines : lines (cs ++ '\n' :: more) = lines cs ++ lines more := splitOn_append '\n' cs more
  unfold issuesOnLines
  rw [hlines, issuesOfLines_append]
  exact List.prefix_append _ _

/-- What the analysis of a text that went on has of the earlier one. -/
structure FileAnalysis.Worsens (path old new : String) (a b : FileAnalysis) : Prop where
  /-- both analyses list what is found line by line and then what is found in the whole -/
  parts : a.issues = issuesOnLines path old.toList ++ fileIssues path old.toList ∧
    b.issues = issuesOnLines path new.toList ++ fileIssues path new.toList
  /-- what was found line by line comes first again -/
  onLines : issuesOnLines path old.toList <+: issuesOnLines path new.toList
  high : a.counts.high ≤ b.counts.high
  medium : a.counts.medium ≤ b.counts.medium
  low : a.counts.low ≤ b.counts.low
  score : a.score.Falls b.score

/-- Appending text never raises a score. -/
theorem appending_never_improves (content more path : String) :
    FileAnalysis.Worsens path content (content ++ "\n" ++ more) (analyzeText content path)
      (analyzeText (content ++ "\n" ++ more) path) := by
  have htext : (content ++ "\n" ++ more).toList = content.toList ++ '\n' :: more.toList := by simp
  have hmore : NoMore (analyzeText content path).issues (analyzeText (content ++ "\n" ++ more) path).issues := by
    show NoMore (textIssues path content.toList) (textIssues path (content ++ "\n" ++ more).toList)
    rw [htext]
    exact textIssues_append path _ _
  have hsize : (lines content.toList).length ≤ (lines (content ++ "\n" ++ more).toList).length := by
    rw [htext, lines, lines, splitOn_append, List.length_append]
    omega
  have honLines := issuesOnLines_append path content.toList more.toList
  exact {
    parts := ⟨rfl, rfl⟩
    onLines := by rwa [htext]
    high := hmore .high
    medium := hmore .medium
    low := hmore .low
    score := computeScore_falls hmore hsize }

end ScoreGate
