import ScoreGate.Proofs.Growth
import ScoreGate.Proofs.Running

/-!
# Scores that fall

The letter of a total is the first whose least total is reached, so a lower total has no better letter.  More issues and
more lines take from the total and from every axis and give nothing back: what is gained by a file without issues or by a
short one is gained by the file with fewer.

* `Grade.rank_of`: the place of a letter is where the search for it ends; `Grade.rank_of_antitone`.
* `scoreNumbers_counts`: for counts the rule for any numbers gives the score of the counts.
* `Score.Falls`: a score that is nowhere higher, with a letter that is not better.
* `computeScore_falls_of_le`: more issues on more lines.
* `computeScore_antitone`: the same for lists of issues, whatever their order.
-/

namespace ScoreGate

/-! ### Letters -/

namespace Grade

/-- Among different letters, the one that a search finds stands where the search ended. -/
theorem idxOf_found (reaches : ℕ × Grade → Bool) (last : Grade) : ∀ es : List (ℕ × Grade),
    (es.map Prod.snd ++ [last]).Nodup →
      (es.map Prod.snd ++ [last]).idxOf (match es.find? reaches with | some e => e.2 | none => last) = es.findIdx reaches
  | [], _ => by simp
  | e :: es, h => by
    obtain ⟨hnew, hrest⟩ := List.nodup_cons.mp h
    by_cases he : reaches e = true
    · simp [List.find?_cons_of_pos he, List.findIdx_cons, he]
    · have ih := idxOf_found reaches last es hrest
      have hfound : (match es.find? reaches with | some e => e.2 | none => last) ∈ es.map Prod.snd ++ [last] := by
        rcases hs : es.find? reaches with _ | d
        · simp
        · exact List.mem_append_left _ (List.mem_map_of_mem (List.mem_of_find?_eq_some hs))
      rw [List.find?_cons_of_neg he, List.findIdx_cons, ← ih, List.map_cons, List.cons_append, List.idxOf_cons_ne]
      · simp [he]
      · intro heq
        rw [← heq] at hfound
        exact hnew hfound

/-- The place of a letter is the number of least totals before the first that is reached. -/
theorem rank_of (total : Number) : (of total).rank = cutoffs.findIdx fun entry => (Number.int entry.1).le total :=
  idxOf_found _ .f cutoffs (by decide)

/-- A lower total has no better letter. -/
theorem rank_of_antitone {x y : Number} (h : x.le y = true) : (of y).rank ≤ (of x).rank := by
  rw [rank_of, rank_of]
  apply List.findIdx_le_findIdx
  intro entry _ hx
  exact Number.le_trans hx h

end Grade

/-! ### Scores of counts -/

namespace Number

theorem min_int (m k : ℤ) : Number.min (.int m) (.int k) = .int (Min.min m k) := by
  unfold Number.min
  by_cases h : k < m
  · rw [if_pos (int_lt_int.mpr h), min_eq_right h.le]
  · rw [if_neg (mt int_lt_int.mp h), min_eq_left (not_lt.mp h)]

theorem max_int (m k : ℤ) : Number.max (.int m) (.int k) = .int (Max.max m k) := by
  unfold Number.max
  by_cases h : m < k
  · rw [if_pos (int_lt_int.mpr h), max_eq_right h.le]
  · rw [if_neg (mt int_lt_int.mp h), max_eq_left (not_lt.mp h)]

/-- Rounding by way of a floating-point number leaves the integers of a score as they are. -/
theorem roundHalfUp_percent {k : ℤ} (h0 : 0 ≤ k) (h1 : k ≤ 100) : (Number.int k).roundHalfUp = .ok k := by
  have hall : ∀ n ∈ List.range 101, (Number.int n).roundHalfUp = .ok (n : ℤ) := by decide +kernel
  obtain ⟨n, rfl⟩ := Int.eq_ofNat_of_zero_le h0
  exact hall n (List.mem_range.mpr (by omega))

end Number

theorem Percent.check_clamp (name : String) (k : ℤ) : check name (.int (Max.max 0 (Min.min 100 k))) = .ok (clamp k) :=
  dif_pos (clamp k).within

theorem Severity.axisNumber_int (s : Severity) (name : String) (k : ℕ) : s.axisNumber name (.int k) = .ok (s.axis k) := by
  have hlost : 0 ≤ (k : ℤ) * s.axisDeduction := by positivity
  have hmax : Number.max 0 (.int (100 - (k : ℤ) * s.axisDeduction)) =
      .int (Max.max 0 (Min.min 100 (100 - (k : ℤ) * s.axisDeduction))) := by
    rw [min_eq_right (by omega)]
    exact Number.max_int 0 _
  have hround : (Number.int (Max.max 0 (Min.min 100 (100 - (k : ℤ) * s.axisDeduction)))).roundHalfUp = .ok _ :=
    Number.roundHalfUp_percent (by omega) (by omega)
  show ((Number.max 0 (.int (100 - (k : ℤ) * s.axisDeduction))).roundHalfUp >>= fun left =>
    Percent.check name (.int left)) = _
  rw [hmax, hround, ok_bind, Percent.check_clamp, axis, Nat.cast_mul]

theorem scoreNumbers_counts (c : IssueCounts) (lines : Number) :
    scoreNumbers (.int c.high) (.int c.medium) (.int c.low) lines = .ok (.ofCounts c (sizeBonus lines)) := by
  have hclean : (if (Number.int (↑c.high + ↑c.medium + ↑c.low)).same 0 = true then cleanBonus else 0) =
      if c.total = 0 then cleanBonus else 0 := by
    refine if_congr ?_ rfl rfl
    show (Number.le _ (.int 0) && (Number.int 0).le _) = true ↔ _
    rw [Bool.and_eq_true, Number.int_le_int, Number.int_le_int, IssueCounts.total]
    omega
  have hcut : ∀ raw : ℤ, Number.max 0 (Number.min 100 (.int raw)) = .int (Max.max 0 (Min.min 100 raw)) := by
    intro raw
    show Number.max (.int 0) (Number.min (.int 100) (.int raw)) = _
    rw [Number.min_int, Number.max_int]
  simp only [scoreNumbers, Number.mul, Number.add, Number.sub, Number.combine, Number.toInt?, ok_bind, hclean, hcut]
  rw [Number.roundHalfUp_percent (by omega) (by omega)]
  simp only [ok_bind, Severity.axisNumber_int, Percent.check_clamp, pure_eq_ok, Score.ofCounts, IssueCounts.points,
    Nat.cast_add, Nat.cast_mul, Nat.cast_ofNat]

/-! ### Totals and axes -/

theorem Percent.clamp_mono {m n : ℤ} (h : m ≤ n) : (clamp m).value.le (clamp n).value = true := by
  rw [clamp, clamp, Number.int_le_int]
  omega

/-- What is left of an axis does not grow with the issues. -/
theorem Severity.axis_antitone (s : Severity) {m n : ℕ} (h : m ≤ n) : (s.axis n).value.le (s.axis m).value = true := by
  unfold axis
  apply Percent.clamp_mono
  have hlost : m * s.axisDeduction ≤ n * s.axisDeduction := Nat.mul_le_mul_right _ h
  omega

/-- The second score is nowhere above the first, and its letter is not better. -/
structure Score.Falls (s t : Score) : Prop where
  total : t.total.value.le s.total.value = true
  memoryLeaks : t.breakdown.memoryLeaks.value.le s.breakdown.memoryLeaks.value = true
  performance : t.breakdown.performance.value.le s.breakdown.performance.value = true
  codeQuality : t.breakdown.codeQuality.value.le s.breakdown.codeQuality.value = true
  grade : s.grade.rank ≤ t.grade.rank

/-- Of no severity fewer issues, on no fewer lines: the score falls. -/
theorem computeScore_falls_of_le {is js : List Issue} (h : NoMore is js) {x y : Number} (hsize : x.le y = true) :
    (computeScore is x).Falls (computeScore js y) := by
  have hpoints := IssueCounts.points_antitone h (sizeBonus_antitone hsize)
  have htotal := Percent.clamp_mono hpoints
  exact {
    total := htotal
    memoryLeaks := Severity.axis_antitone .high (h .high)
    performance := Severity.axis_antitone .medium (h .medium)
    codeQuality := Severity.axis_antitone .low (h .low)
    grade := Grade.rank_of_antitone htotal }

theorem computeScore_falls {is js : List Issue} (h : NoMore is js) {m n : ℕ} (hsize : m ≤ n) :
    (computeScore is (.int m)).Falls (computeScore js (.int n)) :=
  computeScore_falls_of_le h (Number.int_le_int.mpr (by exact_mod_cast hsize))

/-! ### Scores of lists of issues -/

/-- Points are a whole number from 0 to 100. -/
def Percent.IsPoints (p : Percent) : Prop := ∃ n : ℕ, n ≤ 100 ∧ p.value = .int n

theorem Percent.isPoints_clamp (k : ℤ) : (clamp k).IsPoints :=
  ⟨(Max.max 0 (Min.min 100 k)).toNat, by omega, by rw [Int.toNat_of_nonneg (by omega)]; rfl⟩

/-- What a score says of some issues on so many lines. -/
structure Score.Rates (issues : List Issue) (lines : Number) (s : Score) : Prop where
  /-- it is also what the rule for any numbers gives for the counts -/
  counted : let c := IssueCounts.of issues
    scoreNumbers (.int c.high) (.int c.medium) (.int c.low) lines = .ok s
  total : s.total.IsPoints
  memoryLeaks : s.breakdown.memoryLeaks.IsPoints
  performance : s.breakdown.performance.IsPoints
  codeQuality : s.breakdown.codeQuality.IsPoints
  /-- the letter is that of the total -/
  grade : s.grade = .of s.total.value

theorem computeScore_rates (issues : List Issue) (lines : Number) : (computeScore issues lines).Rates issues lines where
  counted := scoreNumbers_counts _ lines
  total := Percent.isPoints_clamp _
  memoryLeaks := Percent.isPoints_clamp _
  performance := Percent.isPoints_clamp _
  codeQuality := Percent.isPoints_clamp _
  grade := rfl

/-- A score rests on how many issues there are of each severity, and not on their order. -/
theorem computeScore_perm {xs ys : List Issue} (h : xs.Perm ys) (lines : Number) :
    computeScore xs lines = computeScore ys lines := by
  have hcount : ∀ s : Severity, xs.countP (fun i => i.severity = s) = ys.countP fun i => i.severity = s :=
    fun s => h.countP_eq _
  have hcounts : IssueCounts.of xs = IssueCounts.of ys := by
    simp only [IssueCounts.of, hcount]
  rw [computeScore, computeScore, hcounts]

/-- Issues that are found again, in whatever order, perhaps among others and on as many lines or more, never raise a score.
The total and the three axes are whole numbers from 0 to 100, each at most what it was, and the letter, which is that of the
total, stands where it stood among the letters or later.  The same issues on as many lines have the same score. -/
theorem computeScore_antitone {xs ys : List Issue} {m n : Number} (hissues : xs.Subperm ys) (hlines : m.le n = true) :
    (computeScore xs m).Rates xs m ∧ (computeScore ys n).Rates ys n ∧
      (computeScore xs m).Falls (computeScore ys n) ∧
      (xs.Perm ys → ∀ lines, computeScore xs lines = computeScore ys lines) := by
  have hmore : NoMore xs ys := fun s => hissues.countP_le _
  exact ⟨computeScore_rates xs m, computeScore_rates ys n, computeScore_falls_of_le hmore hlines, computeScore_perm⟩

/-- A timer in a short file, and the same timer after two other issues in a long one: 90 points and 71. -/
theorem computeScore_antitone_timer :
    let issue (s : Severity) : Issue := .onLine ⟨3, by decide⟩ "" "" s .warning
    let old := computeScore [issue .high] (.int 50)
    let new := computeScore [issue .low, issue .low, issue .high] (.int 600)
    old.Falls new ∧ old.total.value = .int 90 ∧ new.total.value = .int 71 ∧ old.grade = .aPlus ∧ new.grade = .b := by
  intro issue old new
  have hissues : [issue .high].Subperm [issue .low, issue .low, issue .high] :=
    List.Sublist.subperm (.cons _ (.cons _ (.refl _)))
  have hfalls := (computeScore_antitone hissues (Number.int_le_int.mpr (by decide : (50 : ℤ) ≤ 600))).2.2.1
  exact ⟨hfalls, by decide +kernel, by decide +kernel, by decide +kernel, by decide +kernel⟩

end ScoreGate
