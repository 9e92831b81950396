import ScoreGate.Proofs.Grading

/-!
# Analyses that agree with themselves

An analysis lists what was found line by line, and then what the rules about the whole text found.  Its counts are those of
the list, its score is that of the counts, and the rule about large files and the points for the size draw the line at the
same number of lines.

* `issuesOnLines`: what is found line by line; `mem_issuesOfLines`: which rule found what where.
* `points_of_long`: a long file has an issue for its size and loses points for it once more.
* `FileAnalysis.Coherent`: what ties an analysis together; `analyzeText_coherent`.
-/

namespace ScoreGate

/-! ### Issues of lines -/

section Lines

variable {components : Bool} {before : ℕ} {ls : List (List Char)} {i : Issue}

def issuesOnLines (path : String) (cs : List Char) : List Issue := issuesOfLines (isComponentFile path) 0 (lines cs)

theorem mem_issuesOfLines : i ∈ issuesOfLines components before ls ↔
    ∃ k l r, ls[k]? = some l ∧ r ∈ rulesFor components l ∧ i = r.issueAt ⟨before + k + 1, Nat.succ_pos _⟩ := by
  induction ls generalizing before with
  | nil => simp [issuesOfLines]
  | cons l ls ih =>
    rw [issuesOfLines, List.mem_append, ih]
    constructor
    · rintro (hi | ⟨k, m, r, hm, hr, rfl⟩)
      · obtain ⟨r, hr, rfl⟩ := List.mem_map.mp hi
        exact ⟨0, l, r, rfl, hr, rfl⟩
      · refine ⟨k + 1, m, r, hm, hr, ?_⟩
        congr 2
        omega
    · rintro ⟨_ | k, m, r, hm, hr, rfl⟩
      · obtain rfl : l = m := Option.some.inj hm
        exact Or.inl (List.mem_map.mpr ⟨r, hr, rfl⟩)
      · refine Or.inr ⟨k, m, r, hm, hr, ?_⟩
        congr 2
        omega

theorem line_of_mem_issuesOfLines (h : i ∈ issuesOfLines components before ls) :
    before < i.line ∧ i.line ≤ before + ls.length := by
  obtain ⟨k, l, r, hl, -, rfl⟩ := mem_issuesOfLines.mp h
  have hk : k < ls.length := (List.getElem?_eq_some_iff.mp hl).1
  show before < before + k + 1 ∧ before + k + 1 ≤ before + ls.length
  omega

theorem pairwise_issuesOfLines (components : Bool) (before : ℕ) (ls : List (List Char)) :
    (issuesOfLines components before ls).Pairwise fun i j => i.line ≤ j.line := by
  induction ls generalizing before with
  | nil => exact .nil
  | cons l ls ih =>
    have hhere : ∀ i ∈ lineIssues components ⟨before + 1, before.succ_pos⟩ l, i.line = before + 1 := by
      intro i hi
      obtain ⟨r, -, rfl⟩ := List.mem_map.mp hi
      rfl
    rw [issuesOfLines, List.pairwise_append]
    refine ⟨List.pairwise_of_forall_mem_list fun i hi j hj => ?_, ih (before + 1), fun i hi j hj => ?_⟩
    · rw [hhere i hi, hhere j hj]
    · have hj := line_of_mem_issuesOfLines hj
      rw [hhere i hi]
      omega

end Lines

/-! ### Issues of the whole text -/

section Whole

variable {path : String} {cs : List Char}

/-- Every rule about the whole text gives at most one issue. -/
theorem length_fileIssues_le (path : String) (cs : List Char) : (fileIssues path cs).length ≤ 4 := by
  have hone : ∀ {p : Prop} [Decidable p] (i : Issue), (if p then [i] else []).length ≤ 1 := by
    intro p _ i
    split_ifs <;> simp
  have hlarge : (largeFileIssues (lines cs).length).length ≤ 1 := hone _
  have himports : (importIssues (countImports (lines cs))).length ≤ 1 := hone _
  have hcomponents : (componentIssues (countComponents cs)).length ≤ 1 := hone _
  have hhooks : (hookIssues (!isHookFile path && callsHook cs)).length ≤ 1 := hone _
  unfold fileIssues
  split_ifs
  · simp only [List.length_append]
    omega
  · simp only [List.length_append, List.length_nil]
    omega

theorem mem_fileIssues {i : Issue} (h : i ∈ fileIssues path cs) :
    i ∈ largeFileIssues (lines cs).length ∨ i ∈ importIssues (countImports (lines cs)) ∨
      i ∈ componentIssues (countComponents cs) ∨ i ∈ hookIssues (!isHookFile path && callsHook cs) := by
  unfold fileIssues at h
  rcases List.mem_append.mp h with h | h
  · exact (List.mem_append.mp h).imp_right Or.inl
  · split_ifs at h
    · exact Or.inr (Or.inr (List.mem_append.mp h))
    · cases h

/-- The issues about the whole text stand on its first line. -/
theorem line_of_mem_fileIssues {i : Issue} (h : i ∈ fileIssues path cs) : i.line = 1 := by
  have hone : ∀ {p : Prop} [Decidable p] {message suggestion : String} {s : Severity} {k : IssueKind},
      i ∈ (if p then [Issue.onFile message suggestion s k] else []) → i.line = 1 := by
    intro p _ message suggestion s k hi
    split_ifs at hi
    · obtain rfl := List.mem_singleton.mp hi
      rfl
    · cases hi
  rcases mem_fileIssues h with h | h | h | h
  · exact hone h
  · exact hone h
  · exact hone h
  · exact hone h

/-- A large file is reported, and no other rule says so. -/
theorem largeFile_iff : (∃ i ∈ textIssues path cs, i.message = .text "Large file") ↔ largeFileLines < (lines cs).length := by
  constructor
  · rintro ⟨i, hi, hmessage⟩
    by_contra hshort
    rcases List.mem_append.mp hi with hi | hi
    · obtain ⟨k, l, r, -, hr, rfl⟩ := mem_issuesOfLines.mp hi
      have hother : ∀ r ∈ LineRule.all, r.message ≠ "Large file" := by decide
      have hall : r ∈ LineRule.all := by
        unfold rulesFor at hr
        split_ifs at hr
        · cases hr
        · exact List.mem_of_mem_filter hr
      exact hother r hall (Value.text.inj hmessage)
    -- each of the other rules for a whole file has one message of its own
    · rcases mem_fileIssues hi with hi | hi | hi | hi
      · rw [largeFileIssues, if_neg hshort] at hi
        cases hi
      · unfold importIssues at hi
        split_ifs at hi
        · obtain rfl := List.mem_singleton.mp hi
          simp [Issue.onFile, Issue.onLine] at hmessage
        · cases hi
      · unfold componentIssues at hi
        split_ifs at hi
        · obtain rfl := List.mem_singleton.mp hi
          simp [Issue.onFile, Issue.onLine] at hmessage
        · cases hi
      · unfold hookIssues at hi
        split_ifs at hi
        · obtain rfl := List.mem_singleton.mp hi
          simp [Issue.onFile, Issue.onLine] at hmessage
        · cases hi
  · intro hlong
    refine ⟨.onFile "Large file"
      ("File has " ++ toString (lines cs).length ++ " lines. Consider splitting into smaller components/modules")
      .medium .warning, ?_, rfl⟩
    simp [textIssues, fileIssues, largeFileIssues, hlong]

end Whole

/-! ### Scores of long files -/

/-- The rule for whole files and the score draw the line at the same size. -/
theorem largeFileLines_eq : largeFileLines = longFileLines := rfl

theorem sizeBonus_eq_penalty {n : ℕ} : sizeBonus (.int n) = -10 ↔ longFileLines < n := by
  simp only [sizeBonus, Number.int_lt_int, shortFileLines, longFileLines]
  split_ifs
  · simp only [false_iff]
    omega
  · simp only [true_iff]
    omega
  · simp only [false_iff]
    omega

/-- A long file has an issue of medium severity for its size and loses points for it once more. -/
theorem points_of_long (path : String) {cs : List Char} (h : longFileLines < (lines cs).length) :
    (IssueCounts.of (textIssues path cs)).points (sizeBonus (.int (lines cs).length)) ≤ 82 := by
  have hmedium : 0 < (IssueCounts.of (textIssues path cs)).medium := by
    apply List.countP_pos_iff.mpr
    refine ⟨.onFile "Large file"
      ("File has " ++ toString (lines cs).length ++ " lines. Consider splitting into smaller components/modules")
      .medium .warning, ?_, rfl⟩
    simp [textIssues, fileIssues, largeFileIssues, largeFileLines_eq, h]
  have hnotClean : (IssueCounts.of (textIssues path cs)).total ≠ 0 := by
    unfold IssueCounts.total
    omega
  rw [IssueCounts.points, sizeBonus_eq_penalty.mpr h, if_neg hnotClean]
  simp only [Severity.deduction]
  omega

/-! ### Coherence -/

/-- What ties the analysis of a text together. -/
structure FileAnalysis.Coherent (content path : String) (a : FileAnalysis) : Prop where
  /-- there is one line more than there are line feeds -/
  totalLines : a.totalLines = content.toList.count '\n' + 1
  /-- first comes what is found line by line, then at most four issues about the whole, all on the first line -/
  issues : ∃ whole, a.issues = issuesOnLines path content.toList ++ whole ∧ whole.length ≤ 4 ∧ ∀ i ∈ whole, i.line = 1
  /-- what is found on a line is what a rule finds that matches it -/
  found : ∀ i, i ∈ issuesOnLines path content.toList ↔ ∃ k l r, (lines content.toList)[k]? = some l ∧
    r ∈ rulesFor (isComponentFile path) l ∧ i = r.issueAt ⟨k + 1, k.succ_pos⟩
  inOrder : (issuesOnLines path content.toList).Pairwise fun i j => i.line ≤ j.line
  within : ∀ i ∈ issuesOnLines path content.toList, 1 ≤ i.line ∧ i.line ≤ a.totalLines
  high : a.counts.high = (a.issuesWith .high).length
  medium : a.counts.medium = (a.issuesWith .medium).length
  low : a.counts.low = (a.issuesWith .low).length
  sum : a.counts.total = a.counts.high + a.counts.medium + a.counts.low
  total : a.counts.total = a.issues.length
  /-- the score is that of the issues, and also that of their counts by the rule for any numbers -/
  score : a.score = computeScore a.issues (.int a.totalLines) ∧
    scoreNumbers (.int a.counts.high) (.int a.counts.medium) (.int a.counts.low) (.int a.totalLines) = .ok a.score
  /-- a file is reported to be large exactly if it loses points for its size, which is above 500 lines -/
  large : (∃ i ∈ a.issues, i.message = .text "Large file") ↔ 500 < a.totalLines
  penalty : sizeBonus (.int a.totalLines) = -10 ↔ 500 < a.totalLines
  capped : 500 < a.totalLines → a.score.total.value.le 82 = true

/-- Every analysis of a text agrees with itself and with the text. -/
theorem analyzeText_coherent (content path : String) : (analyzeText content path).Coherent content path := by
  have hfilter : ∀ s, (analyzeText content path).issues.countP (fun i => i.severity = s) =
      ((analyzeText content path).issuesWith s).length := fun _ => List.countP_eq_length_filter
  exact {
    totalLines := length_splitOn '\n' content.toList
    issues := ⟨fileIssues path content.toList, rfl, length_fileIssues_le _ _, fun _ => line_of_mem_fileIssues⟩
    found := fun i => by
      rw [issuesOnLines, mem_issuesOfLines]
      simp only [Nat.zero_add]
    inOrder := pairwise_issuesOfLines _ _ _
    within := fun i hi => by
      have hline := line_of_mem_issuesOfLines hi
      rw [Nat.zero_add] at hline
      exact hline
    high := hfilter .high
    medium := hfilter .medium
    low := hfilter .low
    sum := rfl
    total := IssueCounts.total_of _
    score := ⟨rfl, scoreNumbers_counts _ _⟩
    large := largeFile_iff
    penalty := sizeBonus_eq_penalty
    capped := fun hlong => by
      have hpoints := points_of_long path hlong
      show (Percent.clamp _).value.le (.int 82) = true
      rw [Percent.clamp, Number.int_le_int]
      omega }

end ScoreGate
