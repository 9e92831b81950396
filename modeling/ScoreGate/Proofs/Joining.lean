import ScoreGate.Proofs.Appending
import ScoreGate.Proofs.Marks

/-!
# Texts put together

Two texts with a line feed between them have the lines of the first and then those of the second.  A line rule looks at
one line, and imports are counted by lines.  So what is found line by line is what is found in the first text and then what
is found in the second, further down by the lines of the first; and the imports add up.  No line joins the two: not even
where the first text ends in a line feed, or where one of them is empty.

* `Issue.moved`, `issuesOfLines_moved`: the same issues further down.
* `importStarts`: the imports of a text, counted without taking it apart into lines; `countImports_lines`.
* `FileAnalysis.Joins`, `analyses_join`: the analysis of two texts put together.
-/

namespace ScoreGate

/-! ### Issues further down -/

/-- The same issue so many lines further down. -/
def Issue.moved (n : ℕ) (i : Issue) : Issue := { i with line := i.line + n, line_pos := Nat.add_pos_left i.line_pos n }

theorem LineRule.moved_issueAt (r : LineRule) (n before : ℕ) :
    (r.issueAt ⟨before + 1, before.succ_pos⟩).moved n = r.issueAt ⟨before + n + 1, Nat.succ_pos _⟩ := by
  simp only [issueAt, Issue.onLine, Issue.moved]
  congr 1
  omega

/-- Lines that follow further ones have the same issues further down. -/
theorem issuesOfLines_moved (components : Bool) (n before : ℕ) (ls : List (List Char)) :
    issuesOfLines components (before + n) ls = (issuesOfLines components before ls).map (Issue.moved n) := by
  induction ls generalizing before with
  | nil => rfl
  | cons l ls ih =>
    have hline : lineIssues components ⟨before + n + 1, Nat.succ_pos _⟩ l =
        (lineIssues components ⟨before + 1, before.succ_pos⟩ l).map (Issue.moved n) := by
      simp only [lineIssues, List.map_map, Function.comp_def, LineRule.moved_issueAt]
    rw [issuesOfLines, issuesOfLines, List.map_append, hline, ← ih, Nat.add_right_comm]

/-! ### Imports -/

/-- The places of a text at which an import begins a line; `atStart` says whether the text itself begins one. -/
def importStarts (atStart : Bool) : List Char → ℕ
  | [] => 0
  | c :: cs =>
      (if atStart && "import".toList.isPrefixOf (c :: cs) then 1 else 0) + importStarts (c = '\n') cs

/-- What a text begins with, its first line begins with, unless it goes beyond that line. -/
theorem isPrefixOf_of_lines {needle cs l : List Char} {ls : List (List Char)} (hneedle : '\n' ∉ needle)
    (h : lines cs = l :: ls) : needle.isPrefixOf cs = needle.isPrefixOf l := by
  have hjoin : joinWith ['\n'] (l :: ls) = cs := by
    rw [← h]
    exact joinWith_splitOn '\n' cs
  cases ls with
  | nil => rw [← hjoin, joinWith]
  | cons m ms =>
    rw [← hjoin, joinWith_cons l (List.cons_ne_nil m ms), List.append_assoc, List.singleton_append]
    exact isPrefixOf_append_sep hneedle l _

/-- Imports are counted by lines: those of a text that begins a line, and those of the rest of one. -/
theorem importStarts_eq (cs : List Char) :
    importStarts true cs = countImports (lines cs) ∧ importStarts false cs = countImports (lines cs).tail := by
  induction cs with
  | nil => exact ⟨rfl, rfl⟩
  | cons c cs ih =>
    obtain ⟨l, ls, hlines⟩ : ∃ l ls, lines (c :: cs) = l :: ls := List.exists_cons_of_ne_nil (splitOn_ne_nil '\n' _)
    -- the next character begins a line exactly if this one is a line feed
    have htail : importStarts (c = '\n') cs = countImports ls := by
      by_cases hc : c = '\n'
      · rw [lines, splitOn, if_pos hc] at hlines
        obtain ⟨-, rfl⟩ := List.cons.inj hlines
        rw [decide_eq_true hc]
        exact ih.1
      · rw [lines, splitOn, if_neg hc] at hlines
        rw [decide_eq_false hc, ih.2, lines]
        split at hlines
        · next hnil => exact absurd hnil (splitOn_ne_nil '\n' cs)
        · next m ms hcons =>
          obtain ⟨-, rfl⟩ := List.cons.inj hlines
          rw [hcons, List.tail_cons]
    rw [importStarts, importStarts, htail, hlines, List.tail_cons, Bool.true_and, Bool.false_and,
      isPrefixOf_of_lines (by decide) hlines, countImports, countImports, List.countP_cons, Nat.add_comm]
    exact ⟨rfl, Nat.zero_add _⟩

/-- The imports of a text are those that begin a line of it. -/
theorem countImports_lines (cs : List Char) : countImports (lines cs) = importStarts true cs := (importStarts_eq cs).1.symm

theorem countImports_append (ls ms : List (List Char)) : countImports (ls ++ ms) = countImports ls + countImports ms :=
  List.countP_append

/-! ### Analyses -/

/-- What the analysis of two texts put together, with a line feed between them, has of theirs. -/
structure FileAnalysis.Joins (path first second : String) (a b joined : FileAnalysis) : Prop where
  /-- every one of them lists what is found line by line, and then what is found in the whole -/
  parts : a.issues = issuesOnLines path first.toList ++ fileIssues path first.toList ∧
    b.issues = issuesOnLines path second.toList ++ fileIssues path second.toList ∧
    joined.issues = issuesOnLines path (first ++ "\n" ++ second).toList ++ fileIssues path (first ++ "\n" ++ second).toList
  /-- line by line there is found what is in the first text, and then what is in the second, further down by the lines of
  the first -/
  onLines : issuesOnLines path (first ++ "\n" ++ second).toList =
    issuesOnLines path first.toList ++ (issuesOnLines path second.toList).map (Issue.moved a.totalLines)
  totalLines : joined.totalLines = a.totalLines + b.totalLines
  /-- the imports add up, where they are counted by the places at which a line begins with one -/
  imports : importStarts true (first ++ "\n" ++ second).toList =
    importStarts true first.toList + importStarts true second.toList
  /-- this is the number that is asked for in the whole, besides the number of lines -/
  whole : ∃ others, fileIssues path (first ++ "\n" ++ second).toList =
    largeFileIssues (a.totalLines + b.totalLines) ++
      importIssues (importStarts true first.toList + importStarts true second.toList) ++ others ∧
    ∀ i ∈ others, i.message ≠ .text "Large file" ∧ i.message ≠ .text "Many imports"

/-- The rules about components and hooks have other issues than those about lines and imports. -/
theorem message_of_components {path : String} {cs : List Char} {i : Issue}
    (h : i ∈ if isComponentFile path then
      componentIssues (countComponents cs) ++ hookIssues (!isHookFile path && callsHook cs) else []) :
    i.message ≠ .text "Large file" ∧ i.message ≠ .text "Many imports" := by
  unfold componentIssues hookIssues at h
  split_ifs at h <;> simp at h
  · rcases h with rfl | rfl <;> simp [Issue.onFile, Issue.onLine]
  · obtain rfl := h
    simp [Issue.onFile, Issue.onLine]
  · obtain rfl := h
    simp [Issue.onFile, Issue.onLine]

/-- The analysis of two texts put together is made of theirs. -/
theorem analyses_join (first second path : String) :
    FileAnalysis.Joins path first second (analyzeText first path) (analyzeText second path)
      (analyzeText (first ++ "\n" ++ second) path) := by
  have htext : (first ++ "\n" ++ second).toList = first.toList ++ '\n' :: second.toList := by simp
  have hlines : lines (first ++ "\n" ++ second).toList = lines first.toList ++ lines second.toList := by
    rw [htext]
    exact splitOn_append '\n' first.toList second.toList
  have hcount : countImports (lines (first ++ "\n" ++ second).toList) =
      importStarts true first.toList + importStarts true second.toList := by
    rw [hlines, countImports_append, countImports_lines, countImports_lines]
  exact {
    parts := ⟨rfl, rfl, rfl⟩
    onLines := by
      rw [issuesOnLines, hlines, issuesOfLines_append, issuesOfLines_moved]
      rfl
    totalLines := by
      show (lines (first ++ "\n" ++ second).toList).length = _
      rw [hlines, List.length_append]
      rfl
    imports := by rw [← countImports_lines, hcount]
    whole := by
      refine ⟨_, ?_, fun i => @message_of_components path (first ++ "\n" ++ second).toList i⟩
      rw [fileIssues, hcount, hlines, List.length_append]
      rfl }

/-- The first text ends in a line feed, and what stands on the second line of the other is found on the fourth. -/
example : ((analyzeText ("import x\n" ++ "\n" ++ "import y\nsetTimeout(f)") "a.ts").issues.map (·.line)) = [4] ∧
    importStarts true ("import x\n" ++ "\n" ++ "import y\nsetTimeout(f)").toList = 2 := by
  decide +kernel

end ScoreGate
