import ScoreGate.Proofs.Judgement

/-!
# A worse comparison is never judged milder

Only the regression counts: a comparison that is worse in each of its amounts, held against limits that are no looser,
is judged at least as severely.  Nothing that improved can mask it, since no improvement enters the two counts that a
report rests on.

* `Thresholds.countAbove_mono`, `Thresholds.countMild_mono`: the two counts; a sign may turn into a limit that is
  passed, but does not get lost.
* `judge_mono`: the verdicts, the points and the critical messages of two reports.
-/

namespace ScoreGate

/-! ### Comparisons side by side -/

/-- The amounts of a comparison are numbers of ordinary size, and its regressed files have names. -/
structure Comparison.Bounded (c : Comparison) : Prop where
  totalIssues : c.regression.totalIssues.IsBounded
  highIssues : c.regression.highIssues.IsBounded
  averageScore : c.regression.averageScore.IsBounded
  betterScore : c.improvement.averageScore.IsBounded
  files : ∀ f ∈ c.regression.files, ∃ s, f = .text s

/-- One value is a number that is at most another. -/
def Value.AtMost (v w : Value) : Prop := ∃ x y, v = .number x ∧ w = .number y ∧ x.le y = true

/-- One movement is at most as far as another, in every amount and in the number of files. -/
structure Delta.AtMost (d e : Delta) : Prop where
  totalIssues : d.totalIssues.AtMost e.totalIssues
  highIssues : d.highIssues.AtMost e.highIssues
  averageScore : d.averageScore.AtMost e.averageScore
  files : d.files.length ≤ e.files.length

/-- No limit that fails a comparison is looser than the other's. -/
structure Thresholds.NoLooser (t u : Thresholds) : Prop where
  maxScoreRegression : t.maxScoreRegression.le u.maxScoreRegression = true
  maxHighIncrease : t.maxHighIncrease.le u.maxHighIncrease = true
  maxTotalIncrease : t.maxTotalIncrease.le u.maxTotalIncrease = true

/-! ### The two counts -/

section Counts

variable {x x' y y' z z' limit limit' : Number} {t u : Thresholds} {files files' : List Value}

/-- A larger number is above a smaller limit whenever the others were so. -/
theorem Number.toNat_lt_mono (hx : x.le x' = true) (hl : limit'.le limit = true) :
    (limit.lt x).toNat ≤ (limit'.lt x').toNat := by
  apply Bool.toNat_le_toNat
  intro h
  exact Number.lt_of_le_of_lt hl (Number.lt_of_lt_of_le h hx)

theorem Thresholds.countAbove_mono (hu : u.NoLooser t) (hx : x.le x' = true) (hy : y.le y' = true)
    (hz : z.le z' = true) : t.countAbove x y z ≤ u.countAbove x' y' z' := by
  have h1 := Number.toNat_lt_mono hx hu.maxScoreRegression
  have h2 := Number.toNat_lt_mono hy hu.maxHighIncrease
  have h3 := Number.toNat_lt_mono hz hu.maxTotalIncrease
  simp only [Thresholds.countAbove]
  omega

/-- Where no limit is passed, no sign gets lost. -/
theorem Thresholds.countMild_mono_of_nonneg (hlimit : (0 : Number).le u.maxScoreRegression = true)
    (hx' : (0 : Number).le x' = true) (h0 : u.countAbove x' y' z' = 0) (hx : x.le x' = true)
    (hfiles : files ≠ [] → files' ≠ []) : t.countMild x files ≤ u.countMild x' files' := by
  have habove : u.maxScoreRegression.lt x' = false := by
    simp only [Thresholds.countAbove] at h0
    have h1 : (u.maxScoreRegression.lt x').toNat = 0 := by omega
    simpa using h1
  have hbelow : x'.le u.maxScoreRegression = true :=
    Place.le_of_not_lt (Number.le_refl_of_nonneg hx') (Number.le_refl_of_nonneg hlimit) habove
  have h1 : ((0 : Number).lt x && x.le t.maxScoreRegression).toNat ≤
      ((0 : Number).lt x' && x'.le u.maxScoreRegression).toNat := by
    apply Bool.toNat_le_toNat
    intro h
    rw [Bool.and_eq_true] at h ⊢
    exact ⟨Number.lt_of_lt_of_le h.1 hx, hbelow⟩
  have h2 : (!files.isEmpty).toNat ≤ (!files'.isEmpty).toNat := by
    apply Bool.toNat_le_toNat
    intro h
    simpa using hfiles (by simpa using h)
  simp only [Thresholds.countMild]
  omega

theorem Thresholds.countMild_mono (hlimit : u.maxScoreRegression.Bounded) (hx' : x'.Bounded)
    (h0 : u.countAbove x' y' z' = 0) (hx : x.le x' = true) (hfiles : files.length ≤ files'.length) :
    t.countMild x files ≤ u.countMild x' files' := by
  refine countMild_mono_of_nonneg hlimit.nonneg hx'.nonneg h0 hx fun hne => ?_
  rw [← List.length_pos_iff] at hne ⊢
  exact hne.trans_le hfiles

end Counts

/-! ### Two reports -/

section Reports

variable {m n m' n' : ℕ} {r r' : Report}

/-- How severe a verdict is depends on the two counts only. -/
theorem Judged.rank_mono (h : Judged m n r) (h' : Judged m' n' r') (hm : m ≤ m') (hn : m' = 0 → n ≤ n') :
    r.verdict.rank ≤ r'.verdict.rank := by
  rw [h.verdict_eq, h'.verdict_eq]
  split_ifs <;> simp only [Verdict.rank] <;> omega

/-- Two signs cost as many points as one limit that is passed, so the points fall where a sign turns into one. -/
theorem Judged.points_antitone (h : Judged m n r) (h' : Judged m' n' r') (hm : m ≤ m') (hn : m' = 0 → n ≤ n')
    (htwo : n ≤ 2) : r'.summary.score.value.le r.summary.score.value = true := by
  rw [h.points_eq, h'.points_eq, Number.int_le_int]
  split_ifs <;> omega

end Reports

section Monotone

variable {c c' : Comparison} {t t' : Thresholds}

/-- A comparison that is worse in every amount, under limits that are no looser, has a verdict at least as severe, no
more points and at least as many critical messages. -/
theorem judge_mono (hc : c.Bounded) (hc' : c'.Bounded) (ht : t.Bounded) (ht' : t'.Bounded)
    (hworse : c.regression.AtMost c'.regression) (hlimits : t'.NoLooser t) :
    ∃ r r', judge (some c) t = .ok r ∧ judge (some c') t' = .ok r' ∧ r.verdict.rank ≤ r'.verdict.rank ∧
      r'.summary.score.value.le r.summary.score.value = true ∧ r.critical.length ≤ r'.critical.length := by
  obtain ⟨x, x', hx, hx', hxx⟩ := hworse.averageScore
  obtain ⟨y, y', hy, hy', hyy⟩ := hworse.highIssues
  obtain ⟨z, z', hz, hz', hzz⟩ := hworse.totalIssues
  have bounded : ∀ {v : Value} {x : Number}, v = .number x → v.IsBounded → x.Bounded := by
    rintro _ _ rfl ⟨x, he, hb⟩
    cases he
    exact hb
  obtain ⟨b, hb, bb⟩ := hc.betterScore
  obtain ⟨b', hb', bb'⟩ := hc'.betterScore
  have bx' := bounded hx' hc'.averageScore
  obtain ⟨r, hr, hj⟩ := judge_ok hx hy hz hb (bounded hx hc.averageScore).toReal_ok bb.toReal_ok
    (bounded hy hc.highIssues).isWritable (bounded hz hc.totalIssues).isWritable ht hc.files
  obtain ⟨r', hr', hj'⟩ := judge_ok hx' hy' hz' hb' bx'.toReal_ok bb'.toReal_ok
    (bounded hy' hc'.highIssues).isWritable (bounded hz' hc'.totalIssues).isWritable ht' hc'.files
  -- only where nothing is critical do mild signs count, so they are compared under that condition
  have habove := Thresholds.countAbove_mono hlimits hxx hyy hzz
  have hmild : t'.countAbove x' y' z' = 0 → t.countMild x c.regression.files ≤ t'.countMild x' c'.regression.files :=
    fun h0 => Thresholds.countMild_mono ht'.maxScoreRegression bx' h0 hxx hworse.files
  refine ⟨r, r', hr, hr', hj.rank_mono hj' habove hmild,
    hj.points_antitone hj' habove hmild (t.countMild_le_two x _), ?_⟩
  rw [hj.length_critical, hj'.length_critical]
  exact habove

/-- Two signs and one limit that is passed leave the same points: a drop of 3 with a regressed file, and a drop of 6. -/
theorem judge_mono_of_drops :
    let drop (points : ℤ) (files : List Value) : Comparison :=
      { Comparison.zero with regression := { Delta.zero with averageScore := .int points, files } }
    ∃ r r', judge (some (drop 3 [.text "a.ts"])) .default = .ok r ∧ judge (some (drop 6 [.text "b.ts"])) .default = .ok r' ∧
      r.verdict.rank ≤ r'.verdict.rank ∧ r'.summary.score.value.le r.summary.score.value = true ∧
      r.critical.length ≤ r'.critical.length := by
  have hlimits : Thresholds.default.Bounded := by
    refine ⟨⟨?_, ?_⟩, ⟨?_, ?_⟩, ⟨?_, ?_⟩⟩ <;> decide +kernel
  have hdrop : ∀ (points : ℤ) (file : String), 0 ≤ points → points ≤ 10 ^ 300 →
      ({ Comparison.zero with regression := { Delta.zero with averageScore := .int points, files := [.text file] } } :
        Comparison).Bounded := by
    intro points file h0 h1
    have hzero : (Number.int 0).Bounded := Number.Bounded.of_int le_rfl (by norm_num)
    exact ⟨⟨_, rfl, hzero⟩, ⟨_, rfl, hzero⟩, ⟨_, rfl, Number.Bounded.of_int h0 h1⟩, ⟨_, rfl, by constructor <;> decide +kernel⟩,
      by simp⟩
  refine judge_mono (hdrop 3 "a.ts" (by decide) (by decide +kernel)) (hdrop 6 "b.ts" (by decide) (by decide +kernel))
    hlimits hlimits ⟨?_, ?_, ?_, le_rfl⟩ ⟨?_, ?_, ?_⟩
  · exact ⟨_, _, rfl, rfl, by decide +kernel⟩
  · exact ⟨_, _, rfl, rfl, by decide +kernel⟩
  · exact ⟨_, _, rfl, rfl, by decide +kernel⟩
  all_goals decide +kernel

end Monotone

end ScoreGate
