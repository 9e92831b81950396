import ScoreGate.Check
import ScoreGate.Proofs.Judgement
import ScoreGate.Proofs.Records

/-!
# The decision on two snapshots

What is said about two snapshots depends on the signed differences of their metrics and on the files that both have.
The one-sided amounts of a comparison are cut off at zero, but no limit is below zero, so the cut changes no check; and
a warning for a score drop asks that the drop is within its limit, which it is whenever nothing failed.

* `changes_ok`: the files of a comparison, with the change of each.
* `lt_rise`, `lt_excess`: the cut is not seen by a limit.
* `judge_compareSnapshots`: the verdict, the points and the exit code.
-/

namespace ScoreGate

/-! ### The files of a comparison -/

section Files

variable {x y : Number}

/-- A score from 0 to 100 is a number of ordinary size. -/
theorem Number.Bounded.of_isPercent (h : x.isPercent = true) : x.Bounded := by
  rw [Number.isPercent, Bool.and_eq_true] at h
  exact ⟨h.1, Number.le_trans h.2 (by decide +kernel)⟩

theorem Number.sub_ok (hx : x.Bounded) (hy : y.Bounded) : ∃ z, x.sub y = .ok z := by
  obtain ⟨r, hr⟩ := hx.toReal_ok
  obtain ⟨u, hu⟩ := hy.toReal_ok
  rw [Number.sub, Number.combine, hr, hu]
  split
  · exact ⟨_, rfl⟩
  · exact ⟨_, rfl⟩

/-- Two scores that are numbers are always told apart. -/
theorem classify_ok (hx : x.Bounded) (hy : y.Bounded) : ∃ change, classify (.number x) (.number y) = .ok change := by
  obtain ⟨z, hz⟩ := Number.sub_ok hy hx
  simp only [classify, Value.toNumber, ok_bind, hz, pure_eq_ok]
  split_ifs
  · exact ⟨_, rfl⟩
  · exact ⟨_, rfl⟩
  · exact ⟨_, rfl⟩

variable {baseline current : List FileSummary}

/-- The changes are those of the files of the baseline that the current files have a score for. -/
theorem changes_ok (h : ∀ f ∈ baseline, ∃ change, changeOf? current f = .ok change) :
    ∃ entries, changes baseline current = .ok entries ∧ ∀ path change, (path, change) ∈ entries ↔
      ∃ f ∈ baseline, f.path = path ∧ changeOf? current f = .ok (some change) := by
  choose! change hchange using h
  have hall : (baseline.mapM fun old => do return (old.path, ← changeOf? current old)) =
      Except.ok (baseline.map fun f => (f.path, change f)) :=
    mapM_eq_ok fun f hf => by rw [hchange f hf]; rfl
  refine ⟨_, by rw [changes, hall]; rfl, ?_⟩
  intro path c
  simp only [List.mem_filterMap, List.mem_map, Option.map_eq_some_iff, Prod.mk.injEq]
  constructor
  · rintro ⟨_, ⟨f, hf, rfl⟩, d, hd, rfl, rfl⟩
    exact ⟨f, hf, rfl, by rw [hchange f hf, ← hd]⟩
  · rintro ⟨f, hf, rfl, hc⟩
    rw [hchange f hf, Except.ok.injEq] at hc
    exact ⟨_, ⟨f, hf, rfl⟩, c, hc, rfl, rfl⟩

theorem mem_pathsOf {entries : List (Value × Change)} {change : Change} {path : Value} :
    path ∈ pathsOf change entries ↔ (path, change) ∈ entries := by
  simp [pathsOf]

end Files

/-! ### The amounts of a comparison -/

section Amounts

variable {limit : Number}

/-- A limit that is not negative does not see that an amount is cut off at zero. -/
theorem lt_rise (h : (0 : Number).le limit = true) (old new : ℤ) : limit.lt (rise old new) = limit.lt (.int (new - old)) :=
  Number.lt_max h

theorem lt_excess (h : (0 : Number).le limit = true) (high low : Binary64) :
    limit.lt (excess high low) = limit.lt (.real (high.sub low)) := by
  refine Number.lt_max ?_
  rw [Number.le, Number.place_zero_real]
  exact h

theorem rise_bounded {old new : ℤ} (hold : 0 ≤ old) (hnew : 0 ≤ new) (hbound : new ≤ 10 ^ 300) :
    (rise old new).Bounded := by
  rw [rise, Number.max]
  split_ifs with h
  · have hlt : 0 < new - old := Number.int_lt_int.mp h
    exact .of_int hlt.le ((sub_le_self new hold).trans hbound)
  · exact .of_int le_rfl (hnew.trans hbound)

/-- The amount of a score drop is a number, and not below zero. -/
theorem zero_le_excess (high low : Binary64) : (0 : Number).le (excess high low) = true := by
  rw [excess, Number.max]
  split_ifs with h
  · rw [Number.lt, Number.place_zero_real] at h
    exact Place.le_of_lt h
  · decide +kernel

theorem excess_toReal (high low : Binary64) : ∃ x, (excess high low).toReal = .ok x := by
  rw [excess, Number.max]
  split_ifs
  · exact ⟨_, rfl⟩
  · exact ⟨_, rfl⟩

variable {t : Thresholds} {high low : Binary64}

/-- A drop above zero is within its limit once the limit is not passed, so it counts as it stands. -/
theorem countMild_excess (ht : (0 : Number).le t.maxScoreRegression = true)
    (hnot : t.maxScoreRegression.lt (.real (high.sub low)) = false) (files : List Value) :
    t.countMild (excess high low) files = ((0 : Number).lt (.real (high.sub low))).toNat + (!files.isEmpty).toNat := by
  have hwithin : (excess high low).le t.maxScoreRegression = true := by
    refine Place.le_of_not_lt (Number.le_refl_of_nonneg (zero_le_excess high low)) (Number.le_refl_of_nonneg ht) ?_
    have := lt_excess ht high low
    rw [hnot] at this
    exact this
  rw [Thresholds.countMild, hwithin, Bool.and_true, lt_excess (by decide +kernel)]

end Amounts

/-! ### The decision -/

/-- A snapshot as it is recorded: each file once, under its path and with a score from 0 to 100, and no count below zero
or of unusual size. -/
structure Snapshot.Recorded (s : Snapshot) : Prop where
  check : s.check = .ok s
  paths : ∀ f ∈ s.files, ∃ p, f.path = .text p
  scores : ∀ f ∈ s.files, ∃ x, f.score = .number x ∧ x.isPercent = true
  highIssues : 0 ≤ s.metrics.highIssues ∧ s.metrics.highIssues ≤ 10 ^ 300
  totalIssues : 0 ≤ s.metrics.totalIssues ∧ s.metrics.totalIssues ≤ 10 ^ 300

/-- Some file that both snapshots have is classified as regressed. -/
def Snapshot.HasRegressed (b s : Snapshot) : Prop :=
  ∃ f ∈ b.files, ∃ g ∈ s.files, g.path = f.path ∧ classify f.score g.score = .ok .regressed

section Decision

variable {b s : Snapshot} {t : Thresholds}

theorem changeOf?_eq_some (hs : s.Recorded) {f g : FileSummary} (hg : g ∈ s.files) (hpath : g.path = f.path) :
    changeOf? s.files f = (classify f.score g.score).map some := by
  obtain ⟨x, hx, -⟩ := hs.scores g hg
  have hfile := Snapshot.file?_eq_some hs.check hs.paths hg
  rw [hpath] at hfile
  have hscore : scoreOf? s.files f.path = some g.score := by
    rw [scoreOf?, show (s.files.find? fun h => h.path.sameName f.path) = some g from hfile]
    rfl
  rw [changeOf?, hscore, hx]

theorem changeOf?_eq_none (hb : b.Recorded) (hs : s.Recorded) {f : FileSummary} (hf : f ∈ b.files)
    (hpath : ∀ g ∈ s.files, g.path ≠ f.path) : changeOf? s.files f = .ok none := by
  have hscore : scoreOf? s.files f.path = none := by
    rw [scoreOf?, Option.map_eq_none_iff, List.find?_eq_none]
    intro g hg
    obtain ⟨p, hp⟩ := hb.paths f hf
    obtain ⟨q, hq⟩ := hs.paths g hg
    have := hpath g hg
    rw [hp, hq] at this ⊢
    simpa using this
  rw [changeOf?, hscore]

theorem changeOf?_ok (hb : b.Recorded) (hs : s.Recorded) {f : FileSummary} (hf : f ∈ b.files) :
    ∃ change, changeOf? s.files f = .ok change := by
  by_cases h : ∃ g ∈ s.files, g.path = f.path
  · obtain ⟨g, hg, hpath⟩ := h
    obtain ⟨x, hx, bx⟩ := hb.scores f hf
    obtain ⟨y, hy, yb⟩ := hs.scores g hg
    obtain ⟨change, hc⟩ := classify_ok (.of_isPercent bx) (.of_isPercent yb)
    exact ⟨some change, by rw [changeOf?_eq_some hs hg hpath, hx, hy, hc]; rfl⟩
  · push Not at h
    exact ⟨none, changeOf?_eq_none hb hs hf h⟩

/-- The comparison exists, and its regressed files are those that both snapshots have and that regressed. -/
theorem compareSnapshots_ok (hb : b.Recorded) (hs : s.Recorded) : ∃ c, compareSnapshots b s = .ok c ∧
    c.regression.averageScore = .number (excess b.metrics.averageScore s.metrics.averageScore) ∧
    c.regression.highIssues = .number (rise b.metrics.highIssues s.metrics.highIssues) ∧
    c.regression.totalIssues = .number (rise b.metrics.totalIssues s.metrics.totalIssues) ∧
    c.improvement.averageScore = .number (excess s.metrics.averageScore b.metrics.averageScore) ∧
    (∀ f ∈ c.regression.files, ∃ p, f = .text p) ∧ (c.regression.files ≠ [] ↔ b.HasRegressed s) := by
  obtain ⟨entries, hentries, hmem⟩ := changes_ok fun f hf => changeOf?_ok hb hs hf
  refine ⟨_, by rw [compareSnapshots, hentries]; rfl, rfl, rfl, rfl, rfl, ?_, ?_⟩
  · intro path hpath
    obtain ⟨f, hf, rfl, -⟩ := (hmem path .regressed).mp (mem_pathsOf.mp hpath)
    exact hb.paths f hf
  · constructor
    · intro hne
      obtain ⟨path, hpath⟩ := List.exists_mem_of_ne_nil _ hne
      obtain ⟨f, hf, rfl, hchange⟩ := (hmem path .regressed).mp (mem_pathsOf.mp hpath)
      -- a file of the baseline regresses only if the other snapshot has it
      by_cases h : ∃ g ∈ s.files, g.path = f.path
      · obtain ⟨g, hg, hpath⟩ := h
        refine ⟨f, hf, g, hg, hpath, ?_⟩
        rw [changeOf?_eq_some hs hg hpath] at hchange
        rcases hc : classify f.score g.score with e | change
        · simp [hc, Except.map] at hchange
        · simpa [hc, Except.map] using hchange
      · push Not at h
        rw [changeOf?_eq_none hb hs hf h] at hchange
        simp at hchange
    · rintro ⟨f, hf, g, hg, hpath, hchange⟩
      have hregressed : changeOf? s.files f = .ok (some .regressed) := by
        rw [changeOf?_eq_some hs hg hpath, hchange]
        rfl
      exact List.ne_nil_of_mem (mem_pathsOf.mpr ((hmem f.path .regressed).mpr ⟨f, hf, rfl, hregressed⟩))

/-- A check that comes to a report stops the build exactly when the report failed and the settings say so. -/
theorem Check.run_exitCode {c : Check} {w w' : Workspace} {o : Outcome} {r : Report} (h : c.run.exec w = (.ok o, w'))
    (hr : o.report = some r) : o.exitCode = if r.verdict = .fail ∧ c.settings.failOnRegression.isTrue = true then 1 else 0 := by
  simp only [run, Action.exec_bind_eq_ok] at h
  obtain ⟨branch, u₁, -, commit, u₂, -, _, u₃, -, analyses, u₄, -, _, u₅, -, h⟩ := h
  split_ifs at h with hempty
  · -- nothing was analysed, so there is no report
    simp only [Action.exec_bind_eq_ok, Action.exec_pure, Prod.mk.injEq, Except.ok.injEq] at h
    obtain ⟨_, _, -, rfl, -⟩ := h
    cases hr
  · simp only [judgeAnalyses, Action.exec_bind_eq_ok, Action.exec_pure, Prod.mk.injEq, Except.ok.injEq] at h
    obtain ⟨snapshot, _, -, limit, _, -, report, _, -, formats, _, -, written, _, -, _, _, -, rfl, -⟩ := h
    cases hr
    simp only [Report.blocks, Bool.and_eq_true, decide_eq_true_eq]

/-- The verdict on two snapshots is a failure exactly when a signed difference is above its limit, a warning exactly when
it is no failure but the score dropped or a file regressed, and it passes otherwise.  A condition of a failure costs 20
points and one of a warning 10; a run that comes to this report stops the build only if it failed. -/
theorem judge_compareSnapshots (hb : b.Recorded) (hs : s.Recorded) (ht : t.Bounded) :
    let high := t.maxHighIncrease.lt (.int (s.metrics.highIssues - b.metrics.highIssues))
    let total := t.maxTotalIncrease.lt (.int (s.metrics.totalIssues - b.metrics.totalIssues))
    let score := t.maxScoreRegression.lt (.real (b.metrics.averageScore.sub s.metrics.averageScore))
    let drop := (0 : Number).lt (.real (b.metrics.averageScore.sub s.metrics.averageScore))
    let regressed : ℕ := open Classical in if b.HasRegressed s then 1 else 0
    let critical := high = true ∨ total = true ∨ score = true
    let mild := drop = true ∨ b.HasRegressed s
    ∃ c r, compareSnapshots b s = .ok c ∧ judge (some c) t = .ok r ∧
      (r.verdict = .fail ↔ critical) ∧ (r.verdict = .warning ↔ ¬critical ∧ mild) ∧
      (r.verdict = .pass ↔ ¬critical ∧ ¬mild) ∧
      (critical → r.summary.score.value = .int (100 - 20 * (high.toNat + total.toNat + score.toNat))) ∧
      (¬critical → mild → r.summary.score.value = .int (100 - 10 * (drop.toNat + regressed))) ∧
      (¬critical → ¬mild → r.summary.score.value = .int 100) ∧
      (r.blocks = true ↔ critical) ∧ (r.warns = true ↔ ¬critical ∧ mild) ∧
      ∀ (check : Check) (w w' : Workspace) (o : Outcome), check.run.exec w = (.ok o, w') → o.report = some r →
        (o.exitCode = 1 ↔ critical ∧ check.settings.failOnRegression.isTrue = true) ∧
          (o.exitCode ≠ 1 → o.exitCode = 0) := by
  intro high total score drop regressed critical mild
  obtain ⟨c, hc, haverage, hhigh, htotal, hbetter, hpaths, hregressed⟩ := compareSnapshots_ok hb hs
  obtain ⟨r, hr, hj⟩ := judge_ok haverage hhigh htotal hbetter (excess_toReal _ _) (excess_toReal _ _)
    (rise_bounded hb.highIssues.1 hs.highIssues.1 hs.highIssues.2).isWritable
    (rise_bounded hb.totalIssues.1 hs.totalIssues.1 hs.totalIssues.2).isWritable ht hpaths
  obtain ⟨hfail, hwarning, hpass, hcost, hmildCost⟩ := hj.decides (t.countAbove_le_three ..) (t.countMild_le_two ..)
  -- limits are not negative, so it does not matter that amounts are cut off at zero
  have habove : t.countAbove (excess b.metrics.averageScore s.metrics.averageScore)
      (rise b.metrics.highIssues s.metrics.highIssues) (rise b.metrics.totalIssues s.metrics.totalIssues) =
      high.toNat + total.toNat + score.toNat := by
    rw [Thresholds.countAbove, lt_excess ht.maxScoreRegression.nonneg, lt_rise ht.maxHighIncrease.nonneg,
      lt_rise ht.maxTotalIncrease.nonneg, Nat.add_assoc, Nat.add_comm]
  rw [habove] at hfail hwarning hpass hcost hmildCost
  have hcritical : critical ↔ 0 < high.toNat + total.toNat + score.toNat := by
    simp only [critical]
    rcases high with _ | _ <;> rcases total with _ | _ <;> rcases score with _ | _ <;> simp
  have hzero : ¬critical ↔ high.toNat + total.toNat + score.toNat = 0 := by
    rw [hcritical]
    omega
  -- once no limit is passed, a drop is within its limit and counts as it stands
  have hsigns : ¬critical → t.countMild (excess b.metrics.averageScore s.metrics.averageScore) c.regression.files =
      drop.toNat + regressed := by
    intro hno
    simp only [critical, not_or, Bool.not_eq_true] at hno
    rw [countMild_excess ht.maxScoreRegression.nonneg hno.2.2]
    congr 1
    simp only [regressed]
    split_ifs with h
    · simpa using hregressed.mpr h
    · simpa using mt hregressed.mp h
  have hmild : mild ↔ 0 < drop.toNat + regressed := by
    simp only [mild, regressed]
    rcases drop with _ | _ <;> split_ifs with h <;> simp [h]
  have hwarning' : r.verdict = .warning ↔ ¬critical ∧ mild := by
    rw [hwarning, ← hzero, hmild]
    exact and_congr_right fun hno => by rw [hsigns hno]
  have hpass' : r.verdict = .pass ↔ ¬critical ∧ ¬mild := by
    rw [hpass, ← hzero, hmild]
    exact and_congr_right fun hno => by rw [hsigns hno]; omega
  rw [← hcritical] at hfail hcost
  rw [← hzero] at hmildCost
  refine ⟨c, r, hc, hr, hfail, hwarning', hpass', ?_, ?_, ?_, ?_, ?_, ?_⟩
  · intro h
    rw [hcost h]
    push_cast
    rfl
  · intro hno _
    rw [hmildCost hno, hsigns hno]
    push_cast
    rfl
  · intro hno hnone
    rw [hmildCost hno, hsigns hno, show drop.toNat + regressed = 0 by rw [hmild] at hnone; omega]
    rfl
  · rw [Report.blocks, decide_eq_true_eq, hfail]
  · rw [Report.warns, decide_eq_true_eq, hwarning']
  · intro check w w' o hrun ho
    rw [check.run_exitCode hrun ho, ← hfail]
    split_ifs with h <;> simp [h]

/-- A rise that is exactly at its limit is no failure, and a regressed file is a warning even where the mean is as before. -/
theorem judge_compareSnapshots_at_limit :
    let snapshot (score high : ℤ) : Snapshot := ⟨"s", 0, "main", "c", ⟨1, high, high, 0, 0, .ofInt 90, .ofInt 90, .ofInt 90,
      .ofInt 90⟩, [⟨.text "a.ts", 3, 3, 0, 0, .int score, .text "A", .full⟩], Store.runtime⟩
    ∃ c r, compareSnapshots (snapshot 90 1) (snapshot 80 3) = .ok c ∧ judge (some c) .default = .ok r ∧
      r.verdict = .warning ∧ r.summary.score.value = .int 90 := by
  intro snapshot
  have hrecorded : ∀ score high : ℤ, 0 ≤ score → score ≤ 100 → 0 ≤ high → high ≤ 3 → (snapshot score high).Recorded := by
    intro score high h0 h1 h2 h3
    have hbound : high ≤ 10 ^ 300 := h3.trans (by decide +kernel)
    refine ⟨rfl, by simp [snapshot], ?_, ⟨h2, hbound⟩, ⟨h2, hbound⟩⟩
    simp only [snapshot, List.mem_singleton, forall_eq]
    exact ⟨.int score, rfl, Percent.isPercent_int ⟨h0, h1⟩⟩
  have hlimits : Thresholds.default.Bounded := by
    refine ⟨⟨?_, ?_⟩, ⟨?_, ?_⟩, ⟨?_, ?_⟩⟩ <;> decide +kernel
  have hregressed : (snapshot 90 1).HasRegressed (snapshot 80 3) :=
    ⟨_, List.mem_singleton_self _, _, List.mem_singleton_self _, rfl, rfl⟩
  obtain ⟨c, r, hc, hr, -, hwarning, -, -, hpoints, -⟩ := judge_compareSnapshots
    (hrecorded 90 1 (by decide) (by decide) (by decide) (by decide))
    (hrecorded 80 3 (by decide) (by decide) (by decide) (by decide)) hlimits
  have hnone : ¬(Thresholds.default.maxHighIncrease.lt (.int (3 - 1)) = true ∨
      Thresholds.default.maxTotalIncrease.lt (.int (3 - 1)) = true ∨
      Thresholds.default.maxScoreRegression.lt (.real ((Binary64.ofInt 90).sub (.ofInt 90))) = true) := by
    decide +kernel
  have hdrop : (0 : Number).lt (.real ((Binary64.ofInt 90).sub (.ofInt 90))) = false := by decide +kernel
  refine ⟨c, r, hc, hr, hwarning.mpr ⟨hnone, Or.inr hregressed⟩, ?_⟩
  rw [hpoints hnone (Or.inr hregressed), if_pos hregressed]
  simp only [snapshot, hdrop, Bool.toNat_false]
  rfl

end Decision

end ScoreGate
