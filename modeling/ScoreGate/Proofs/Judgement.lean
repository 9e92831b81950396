import ScoreGate.Proofs.Order
import ScoreGate.Proofs.Rounding
import ScoreGate.Proofs.Running
import ScoreGate.Report

/-!
# What a report says

A comparison whose amounts are numbers of ordinary size is always judged: every check has a text for what it finds.
The report is then determined by two counts, the limits that the regression is above and the milder signs of one.

* `judged_of_judge`: a report has one critical message a limit and one warning a sign.
* `judge_ok`: the report exists.
* `Judged.verdict_eq`, `Judged.points_eq`: its verdict and its points, from the two counts.
-/

namespace ScoreGate

/-! ### Numbers of ordinary size -/

/-- A number from zero to `10^300`; the value that is no number is not among them. -/
structure Number.Bounded (x : Number) : Prop where
  nonneg : (0 : Number).le x = true
  le_bound : x.le (.int (10 ^ 300)) = true

namespace Number.Bounded

variable {x : Number}

theorem natAbs_le {n : ℤ} (h : (Number.int n).Bounded) : n.natAbs ≤ 10 ^ 300 := by
  have h0 : (0 : ℤ) ≤ n := Number.int_le_int.mp h.nonneg
  have h1 : n ≤ 10 ^ 300 := Number.int_le_int.mp h.le_bound
  omega

theorem of_int {n : ℤ} (h0 : 0 ≤ n) (h1 : n ≤ 10 ^ 300) : (Number.int n).Bounded :=
  ⟨Number.int_le_int.mpr h0, Number.int_le_int.mpr h1⟩

/-- Such a number has a floating-point form. -/
theorem toReal_ok (h : x.Bounded) : ∃ r, x.toReal = .ok r := by
  cases x with
  | flag b => exact ⟨_, rfl⟩
  | real r => exact ⟨r, rfl⟩
  | int n =>
    refine Number.toReal_int (h.natAbs_le.trans_lt ?_)
    calc 10 ^ 300 = (10 ^ 3) ^ 100 := by rw [← pow_mul]
      _ < (2 ^ 10) ^ 100 := Nat.pow_lt_pow_left (by norm_num) (by norm_num)
      _ = 2 ^ (10 * 100) := (pow_mul 2 10 100).symm
      _ ≤ 2 ^ 1023 := Nat.pow_le_pow_right (by norm_num) (by norm_num)

/-- Such a number has a written form. -/
theorem isWritable (h : x.Bounded) : x.isWritable = true := by
  cases x with
  | flag b => rfl
  | real r => rfl
  | int n =>
    rw [Number.isWritable, Number.writtenBound, decide_eq_true_eq, Nat.pow_eq]
    exact h.natAbs_le.trans_lt (Nat.pow_lt_pow_right (by norm_num) (by norm_num))

end Number.Bounded

/-- A value that is a number of ordinary size. -/
def Value.IsBounded (v : Value) : Prop := ∃ x, v = .number x ∧ x.Bounded

/-- The three limits that fail a comparison are numbers of ordinary size; nothing is asked of the fourth. -/
structure Thresholds.Bounded (t : Thresholds) : Prop where
  maxScoreRegression : t.maxScoreRegression.Bounded
  maxHighIncrease : t.maxHighIncrease.Bounded
  maxTotalIncrease : t.maxTotalIncrease.Bounded

/-! ### The checks, one by one -/

variable {x limit : Number} {l : List String}

/-- The text of a number is there when its floating-point form is. -/
theorem fixedText_ok (h : ∃ r, x.toReal = .ok r) (places : ℕ) : ∃ s, x.fixedText places = .ok s := by
  obtain ⟨r, hr⟩ := h
  exact ⟨r.fixedText places, by rw [Number.fixedText, hr]; rfl⟩

theorem generalText_ok (h : ∃ r, x.toReal = .ok r) : ∃ s, x.generalText = .ok s := by
  obtain ⟨r, hr⟩ := h
  exact ⟨r.generalText, by rw [Number.generalText, hr]; rfl⟩

/-- A check has messages where its finding has a text. -/
theorem exists_of_check {found : Bool} {told : Except Fault (List String)} (h : ∃ l, told = .ok l) :
    ∃ l, (if found = true then told else .ok []) = .ok l := by
  obtain ⟨l, hl⟩ := h
  rcases found with _ | _
  · exact ⟨[], rfl⟩
  · exact ⟨l, hl⟩

/-- A check that tells its finding in one message has one exactly if there is a finding. -/
theorem length_of_check {found : Bool} {told : Except Fault (List String)} (hone : ∀ m, told = .ok m → m.length = 1)
    (h : (if found = true then told else .ok []) = .ok l) : l.length = found.toNat := by
  rcases found with _ | _
  · cases h
    rfl
  · exact hone l h

theorem scoreCritical_ok (hx : ∃ r, x.toReal = .ok r) (hl : ∃ r, limit.toReal = .ok r) :
    ∃ l, scoreCritical (.number x) limit = .ok l := by
  obtain ⟨s, hs⟩ := fixedText_ok hx 2
  obtain ⟨u, hu⟩ := generalText_ok hl
  simp only [scoreCritical, Value.toNumber, ok_bind, hs, hu, pure_eq_ok]
  exact exists_of_check ⟨_, rfl⟩

theorem length_of_scoreCritical (h : scoreCritical (.number x) limit = .ok l) : l.length = (limit.lt x).toNat := by
  simp only [scoreCritical, Value.toNumber, ok_bind] at h
  refine length_of_check (fun m hm => ?_) h
  simp only [bind_eq_ok, pure_eq_ok, Except.ok.injEq] at hm
  obtain ⟨_, -, _, -, rfl⟩ := hm
  rfl

theorem countCritical_ok (what : String) (hx : x.isWritable = true) (hl : ∃ r, limit.toReal = .ok r) :
    ∃ l, countCritical what (.number x) limit = .ok l := by
  obtain ⟨u, hu⟩ := generalText_ok hl
  simp only [countCritical, Value.toNumber, Number.written, if_pos hx, ok_bind, hu, pure_eq_ok]
  exact exists_of_check ⟨_, rfl⟩

theorem length_of_countCritical {what : String} (h : countCritical what (.number x) limit = .ok l) :
    l.length = (limit.lt x).toNat := by
  simp only [countCritical, Value.toNumber, ok_bind] at h
  refine length_of_check (fun m hm => ?_) h
  simp only [bind_eq_ok, pure_eq_ok, Except.ok.injEq] at hm
  obtain ⟨_, -, _, -, rfl⟩ := hm
  rfl

theorem improvementAdvice_ok (hx : ∃ r, x.toReal = .ok r) (limit : Number) :
    ∃ l, improvementAdvice (.number x) limit = .ok l := by
  obtain ⟨s, hs⟩ := fixedText_ok hx 2
  simp only [improvementAdvice, Value.toNumber, ok_bind, hs, pure_eq_ok]
  exact exists_of_check ⟨_, rfl⟩

theorem scoreWarning_ok (hx : ∃ r, x.toReal = .ok r) (limit : Number) : ∃ l, scoreWarning (.number x) limit = .ok l := by
  obtain ⟨s, hs⟩ := fixedText_ok hx 2
  simp only [scoreWarning, Value.toNumber, ok_bind, hs, pure_eq_ok]
  exact exists_of_check ⟨_, rfl⟩

theorem length_of_scoreWarning (h : scoreWarning (.number x) limit = .ok l) :
    l.length = ((0 : Number).lt x && x.le limit).toNat := by
  simp only [scoreWarning, Value.toNumber, ok_bind] at h
  refine length_of_check (fun m hm => ?_) h
  simp only [bind_eq_ok, pure_eq_ok, Except.ok.injEq] at hm
  obtain ⟨_, -, rfl⟩ := hm
  rfl

theorem length_regressedWarning (files : List Value) : (regressedWarning files).length = (!files.isEmpty).toNat := by
  cases files <;> rfl

theorem mapM_listedPath : ∀ {files : List Value}, (∀ f ∈ files, ∃ s, f = .text s) → ∃ ss, files.mapM listedPath = .ok ss
  | [], _ => ⟨[], rfl⟩
  | f :: files, h => by
    obtain ⟨s, rfl⟩ := h f (by simp)
    have hrest : ∀ g ∈ files, ∃ s, g = .text s := fun g hg => h g (by simp [hg])
    obtain ⟨ss, hss⟩ := mapM_listedPath hrest
    exact ⟨s :: ss, by rw [List.mapM_cons, hss]; rfl⟩

theorem regressedAdvice_ok {files : List Value} (h : ∀ f ∈ files, ∃ s, f = .text s) :
    ∃ l, regressedAdvice files = .ok l := by
  obtain ⟨ss, hss⟩ := mapM_listedPath fun f hf => h f (List.mem_of_mem_take (i := maxFilesListed) hf)
  simp only [regressedAdvice, hss, ok_bind, pure_eq_ok]
  by_cases he : files.isEmpty = true
  · exact ⟨[], if_pos he⟩
  · exact ⟨_, if_neg he⟩

/-! ### The report -/

/-- How many limits the three amounts of a regression are above. -/
def Thresholds.countAbove (t : Thresholds) (average high total : Number) : ℕ :=
  (t.maxScoreRegression.lt average).toNat + (t.maxHighIncrease.lt high).toNat + (t.maxTotalIncrease.lt total).toNat

/-- How many milder signs of a regression there are: a score drop within its limit, and regressed files. -/
def Thresholds.countMild (t : Thresholds) (average : Number) (files : List Value) : ℕ :=
  ((0 : Number).lt average && average.le t.maxScoreRegression).toNat + (!files.isEmpty).toNat

/-- A report with so many critical messages and warnings, and what follows from them. -/
structure Judged (critical warnings : ℕ) (r : Report) : Prop where
  length_critical : r.critical.length = critical
  length_warnings : r.warnings.length = warnings
  verdict : r.verdict = verdictOf r.critical r.warnings
  points : r.summary.score = pointsOf r.critical r.warnings

section

variable {c : Comparison} {t : Thresholds} {average high total better : Number} {r : Report}

/-- Whatever the limits, a report has one critical message a limit that is passed and one warning a milder sign. -/
theorem judged_of_judge (haverage : c.regression.averageScore = .number average)
    (hhigh : c.regression.highIssues = .number high) (htotal : c.regression.totalIssues = .number total)
    (h : judge (some c) t = .ok r) : Judged (t.countAbove average high total) (t.countMild average c.regression.files) r := by
  simp only [judge, haverage, hhigh, htotal, bind_eq_ok, pure_eq_ok, Except.ok.injEq] at h
  obtain ⟨l₁, h₁, l₂, h₂, l₃, h₃, _, -, l₄, h₄, _, -, _, -, rfl⟩ := h
  refine ⟨?_, ?_, rfl, rfl⟩
  · simp only [List.length_append, length_of_scoreCritical h₁, length_of_countCritical h₂, length_of_countCritical h₃,
      Thresholds.countAbove]
  · simp only [List.length_append, length_of_scoreWarning h₄, length_regressedWarning, Thresholds.countMild]

/-- Every check has a text for what it finds, where the amounts and the limits have one. -/
theorem judge_exists (haverage : c.regression.averageScore = .number average)
    (hhigh : c.regression.highIssues = .number high) (htotal : c.regression.totalIssues = .number total)
    (hbetter : c.improvement.averageScore = .number better)
    (raverage : ∃ r, average.toReal = .ok r) (rbetter : ∃ r, better.toReal = .ok r)
    (whigh : high.isWritable = true) (wtotal : total.isWritable = true)
    (laverage : ∃ r, t.maxScoreRegression.toReal = .ok r) (lhigh : ∃ r, t.maxHighIncrease.toReal = .ok r)
    (ltotal : ∃ r, t.maxTotalIncrease.toReal = .ok r) (hfiles : ∀ f ∈ c.regression.files, ∃ s, f = .text s) :
    ∃ r, judge (some c) t = .ok r := by
  obtain ⟨l₁, h₁⟩ := scoreCritical_ok raverage laverage
  obtain ⟨l₂, h₂⟩ := countCritical_ok "High severity issues" whigh lhigh
  obtain ⟨l₃, h₃⟩ := countCritical_ok "Total issues" wtotal ltotal
  obtain ⟨l₄, h₄⟩ := improvementAdvice_ok rbetter t.minScoreImprovement
  obtain ⟨l₅, h₅⟩ := scoreWarning_ok raverage t.maxScoreRegression
  obtain ⟨l₆, h₆⟩ := regressedAdvice_ok hfiles
  exact ⟨_, by simp only [judge, haverage, hhigh, htotal, hbetter, h₁, h₂, h₃, h₄, h₅, h₆, Value.toNumber, ok_bind,
    pure_eq_ok]; rfl⟩

/-- A comparison whose amounts and limits are of ordinary size has a report. -/
theorem judge_ok (haverage : c.regression.averageScore = .number average)
    (hhigh : c.regression.highIssues = .number high) (htotal : c.regression.totalIssues = .number total)
    (hbetter : c.improvement.averageScore = .number better)
    (raverage : ∃ r, average.toReal = .ok r) (rbetter : ∃ r, better.toReal = .ok r)
    (whigh : high.isWritable = true) (wtotal : total.isWritable = true) (ht : t.Bounded)
    (hfiles : ∀ f ∈ c.regression.files, ∃ s, f = .text s) :
    ∃ r, judge (some c) t = .ok r ∧
      Judged (t.countAbove average high total) (t.countMild average c.regression.files) r := by
  obtain ⟨r, hr⟩ := judge_exists haverage hhigh htotal hbetter raverage rbetter whigh wtotal
    ht.maxScoreRegression.toReal_ok ht.maxHighIncrease.toReal_ok ht.maxTotalIncrease.toReal_ok hfiles
  exact ⟨r, hr, judged_of_judge haverage hhigh htotal hr⟩

end

namespace Judged

variable {m n : ℕ} {r : Report}

theorem verdict_eq (h : Judged m n r) : r.verdict = if 0 < m then .fail else if 0 < n then .warning else .pass := by
  rw [h.verdict, verdictOf, ← h.length_critical, ← h.length_warnings]
  rcases r.critical with _ | ⟨a, as⟩ <;> rcases r.warnings with _ | ⟨b, bs⟩ <;> simp

/-- The points of a report are those that its messages leave. -/
theorem points_eq (h : Judged m n r) : r.summary.score.value = .int (
    if 0 < m then Max.max 0 (100 - 20 * (m : ℤ)) else if 0 < n then Max.max 50 (100 - 10 * (n : ℤ)) else 100) := by
  have hv := h.verdict_eq
  rw [h.verdict] at hv
  rw [h.points, pointsOf, hv]
  split_ifs with hm hn
  · rw [h.length_critical]
    simp only [Percent.clamp]
    congr 1
    push_cast
    omega
  · rw [h.length_warnings]
    simp only [Percent.clamp]
    congr 1
    push_cast
    omega
  · rfl

/-- With at most three limits and two signs there is no floor to the points: each critical message costs 20, and where
there is none each warning costs 10. -/
theorem decides (h : Judged m n r) (hm : m ≤ 3) (hn : n ≤ 2) :
    (r.verdict = .fail ↔ 0 < m) ∧ (r.verdict = .warning ↔ m = 0 ∧ 0 < n) ∧ (r.verdict = .pass ↔ m = 0 ∧ n = 0) ∧
      (0 < m → r.summary.score.value = .int (100 - 20 * (m : ℤ))) ∧
      (m = 0 → r.summary.score.value = .int (100 - 10 * (n : ℤ))) := by
  rw [h.verdict_eq, h.points_eq]
  refine ⟨?_, ?_, ?_, fun hpos => ?_, fun hzero => ?_⟩
  · split_ifs <;> simp only [true_iff, false_iff] <;> omega
  · split_ifs <;> simp only [true_iff, false_iff] <;> omega
  · split_ifs <;> simp only [true_iff, false_iff] <;> omega
  · rw [if_pos hpos]
    congr 1
    omega
  · rw [if_neg (by omega)]
    congr 1
    split_ifs <;> omega

end Judged

/-! ### Bounds of the counts -/

theorem Thresholds.countAbove_le_three (t : Thresholds) (average high total : Number) :
    t.countAbove average high total ≤ 3 := by
  have h1 := Bool.toNat_le (t.maxScoreRegression.lt average)
  have h2 := Bool.toNat_le (t.maxHighIncrease.lt high)
  have h3 := Bool.toNat_le (t.maxTotalIncrease.lt total)
  simp only [Thresholds.countAbove]
  omega

theorem Thresholds.countMild_le_two (t : Thresholds) (average : Number) (files : List Value) :
    t.countMild average files ≤ 2 := by
  have h1 := Bool.toNat_le ((0 : Number).lt average && average.le t.maxScoreRegression)
  have h2 := Bool.toNat_le (!files.isEmpty)
  simp only [Thresholds.countMild]
  omega

end ScoreGate
