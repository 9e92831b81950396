import ScoreGate.Analysis
import ScoreGate.Proofs.Components
import ScoreGate.Proofs.Order
import ScoreGate.Snapshot

/-!
# Files that grow

A text that goes on after a line feed keeps its lines, and every rule looks at one line or asks for more of something
than there may be.  So of every severity there are at least as many issues as before, and neither the bonus for a file
without issues nor the one for its size makes up for them: the score does not rise.

* `Continues`: a text is kept, or goes on with further lines.
* `textIssues_continues`: the issues of such a text.
* `analyzeText_worsens`: what a snapshot keeps of it.
-/

namespace ScoreGate

/-- A text is kept, or goes on with further lines. -/
def Continues (old new : String) : Prop := new = old ∨ ∃ more, new = old ++ "\n" ++ more

/-! ### Issues -/

/-- Of no severity there are more issues in the first list. -/
def NoMore (issues issues' : List Issue) : Prop :=
  ∀ s : Severity, issues.countP (fun i => i.severity = s) ≤ issues'.countP fun i => i.severity = s

namespace NoMore

variable {is is' js js' : List Issue}

theorem refl (is : List Issue) : NoMore is is := fun _ => le_rfl

theorem append (h : NoMore is is') (h' : NoMore js js') : NoMore (is ++ js) (is' ++ js') := by
  intro s
  rw [List.countP_append, List.countP_append]
  exact Nat.add_le_add (h s) (h' s)

theorem append_right (is js : List Issue) : NoMore is (is ++ js) := by
  intro s
  rw [List.countP_append]
  exact Nat.le_add_right _ _

/-- An issue that is given under a condition, against one of the same severity under a weaker condition. -/
theorem of_imp {p q : Prop} [Decidable p] [Decidable q] {i j : Issue} (h : p → q) (hseverity : i.severity = j.severity) :
    NoMore (if p then [i] else []) (if q then [j] else []) := by
  intro s
  split_ifs with hp hq hq
  · simp [List.countP_cons, hseverity]
  · exact absurd (h hp) hq
  · exact Nat.zero_le _
  · exact le_rfl

end NoMore

theorem issuesOfLines_append (components : Bool) (before : ℕ) (ls ms : List (List Char)) :
    issuesOfLines components before (ls ++ ms) =
      issuesOfLines components before ls ++ issuesOfLines components (before + ls.length) ms := by
  induction ls generalizing before with
  | nil => rfl
  | cons l ls ih =>
    rw [List.cons_append, issuesOfLines, issuesOfLines, ih, List.append_assoc, List.length_cons]
    congr 3
    omega

/-- The rules about a whole text ask for more of something than there may be. -/
theorem fileIssues_append (path : String) (cs more : List Char) :
    NoMore (fileIssues path cs) (fileIssues path (cs ++ '\n' :: more)) := by
  have hlines : lines (cs ++ '\n' :: more) = lines cs ++ lines more := splitOn_append '\n' cs more
  refine (NoMore.append (NoMore.append ?_ ?_) ?_)
  · refine NoMore.of_imp (fun h => ?_) rfl
    rw [hlines, List.length_append]
    omega
  · refine NoMore.of_imp (fun h => ?_) rfl
    rw [hlines, countImports, List.countP_append]
    exact Nat.lt_add_right _ h
  · split_ifs
    · refine NoMore.append (NoMore.of_imp (fun h => h.trans_le (countComponents_append cs more)) rfl) ?_
      refine NoMore.of_imp (fun h => ?_) rfl
      rw [Bool.and_eq_true] at h ⊢
      exact ⟨h.1, callsHookFrom_append false h.2 _⟩
    · exact NoMore.refl _

theorem textIssues_append (path : String) (cs more : List Char) :
    NoMore (textIssues path cs) (textIssues path (cs ++ '\n' :: more)) := by
  have hlines : lines (cs ++ '\n' :: more) = lines cs ++ lines more := splitOn_append '\n' cs more
  rw [textIssues, textIssues, hlines, issuesOfLines_append]
  exact (NoMore.append_right _ _).append (fileIssues_append path cs more)

/-! ### Scores -/

/-- On more lines there are no more points for the size. -/
theorem sizeBonus_antitone {x y : Number} (h : x.le y = true) : sizeBonus y ≤ sizeBonus x := by
  have hshort : y.lt (.int shortFileLines) = true → x.lt (.int shortFileLines) = true := Number.lt_of_le_of_lt h
  have hlong : (Number.int longFileLines).lt x = true → (Number.int longFileLines).lt y = true :=
    fun hx => Number.lt_of_lt_of_le hx h
  unfold sizeBonus
  by_cases hy : y.lt (.int shortFileLines) = true
  · rw [if_pos hy, if_pos (hshort hy)]
  · rw [if_neg hy]
    split_ifs with hly hx hlx hx hlx
    all_goals first | omega | exact absurd (hlong hlx) hly

/-- More issues cost more, and only a file without issues gains the bonus for that. -/
theorem IssueCounts.points_antitone {is js : List Issue} (h : NoMore is js) {size size' : ℤ} (hsize : size' ≤ size) :
    (IssueCounts.of js).points size' ≤ (IssueCounts.of is).points size := by
  have hhigh : (IssueCounts.of is).high ≤ (IssueCounts.of js).high := h .high
  have hmedium : (IssueCounts.of is).medium ≤ (IssueCounts.of js).medium := h .medium
  have hlow : (IssueCounts.of is).low ≤ (IssueCounts.of js).low := h .low
  have hclean : (if (IssueCounts.of js).total = 0 then cleanBonus else 0) ≤
      if (IssueCounts.of is).total = 0 then cleanBonus else 0 := by
    by_cases hjs : (IssueCounts.of js).total = 0
    · have his : (IssueCounts.of is).total = 0 := by
        rw [total] at hjs ⊢
        omega
      rw [if_pos hjs, if_pos his]
    · rw [if_neg hjs]
      exact Nat.zero_le _
  rw [points, points]
  generalize (if (IssueCounts.of js).total = 0 then cleanBonus else 0) = new at hclean ⊢
  generalize (if (IssueCounts.of is).total = 0 then cleanBonus else 0) = old at hclean ⊢
  simp only [Severity.deduction]
  omega

def textPoints (path : String) (cs : List Char) : ℕ :=
  (Max.max 0 (Min.min 100 ((IssueCounts.of (textIssues path cs)).points (sizeBonus (.int (lines cs).length))))).toNat

theorem textPoints_le (path : String) (cs : List Char) : textPoints path cs ≤ 100 := by
  rw [textPoints]
  omega

theorem textPoints_append (path : String) (cs more : List Char) :
    textPoints path (cs ++ '\n' :: more) ≤ textPoints path cs := by
  have hsize : (lines cs).length ≤ (lines (cs ++ '\n' :: more)).length := by
    rw [lines, lines, splitOn_append, List.length_append]
    exact Nat.le_add_right _ _
  have hlines : (Number.int (lines cs).length).le (.int (lines (cs ++ '\n' :: more)).length) = true :=
    Number.int_le_int.mpr (by exact_mod_cast hsize)
  have hpoints := IssueCounts.points_antitone (textIssues_append path cs more) (sizeBonus_antitone hlines)
  rw [textPoints, textPoints]
  omega

theorem analyzeText_score (content path : String) :
    (analyzeText content path).summary.score = .int (textPoints path content.toList) := by
  rw [textPoints, Int.toNat_of_nonneg (by omega)]
  rfl

/-! ### Summaries -/

/-- The same file later: at least as many issues, and a score that is not higher. -/
structure FileSummary.Worsens (f g : FileSummary) : Prop where
  path : g.path = f.path
  total : f.total ≤ g.total
  high : f.high ≤ g.high
  score : ∃ m n : ℕ, f.score = .int m ∧ g.score = .int n ∧ m ≤ 100 ∧ n ≤ m

/-- What a snapshot keeps of a text that goes on. -/
theorem analyzeText_worsens {old new : String} (h : Continues old new) (path : String) :
    (analyzeText old path).summary.Worsens (analyzeText new path).summary := by
  have hissues : NoMore (textIssues path old.toList) (textIssues path new.toList) ∧
      textPoints path new.toList ≤ textPoints path old.toList := by
    rcases h with rfl | ⟨more, rfl⟩
    · exact ⟨NoMore.refl _, le_rfl⟩
    · have hlist : (old ++ "\n" ++ more).toList = old.toList ++ '\n' :: more.toList := by simp
      rw [hlist]
      exact ⟨textIssues_append path _ _, textPoints_append path _ _⟩
  obtain ⟨hmore, hpoints⟩ := hissues
  refine ⟨rfl, ?_, hmore .high, _, _, analyzeText_score old path, analyzeText_score new path, textPoints_le path _, hpoints⟩
  exact Nat.add_le_add (Nat.add_le_add (hmore .high) (hmore .medium)) (hmore .low)

end ScoreGate
