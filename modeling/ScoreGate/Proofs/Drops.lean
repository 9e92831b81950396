import ScoreGate.Proofs.Comparing
import ScoreGate.Proofs.Nearest
import ScoreGate.Proofs.Validity

/-!
# Drops that are seen

A lower average is a positive drop, however small the difference: two floating-point numbers that differ do so by at
least the smallest of them, so rounding does not lose the difference.  A positive drop is above its limit or within it,
unless the limit is no number, which is on neither side of anything.

* `Binary64.zero_lt_sub`: the difference of two finite numbers is positive where the exact one is.
* `judge_pass_iff_of_drop`: when a report passes although the average dropped.
-/

namespace ScoreGate

/-! ### Differences -/

namespace Binary64

/-- The smallest positive number. -/
def smallest : ℚ := mkRat 1 (Nat.pow 2 (1074 : ℤ).toNat)

theorem smallest_eq : smallest = 2 ^ (-1074 : ℤ) := by
  rw [smallest, Rat.mkRat_eq_div, two_zpow_toNat (by norm_num), Int.cast_one, zpow_neg, one_div]

theorem smallest_pos : 0 < smallest := by
  rw [smallest_eq]
  positivity

/-- A finite number is a whole number of the smallest ones. -/
theorem finiteValue_eq_mul {e : ℤ} (he : -1074 ≤ e) (negative : Bool) (m : ℕ) :
    ∃ k : ℤ, finiteValue negative m e = k * smallest := by
  have hpositive : finiteValue false m e = (m * 2 ^ (e + 1074).toNat : ℤ) * smallest := by
    push_cast
    rw [finiteValue_eq, smallest_eq, ← zpow_natCast, Int.toNat_of_nonneg (by omega), mul_assoc, ← zpow_add₀ (by norm_num),
      add_neg_cancel_right]
  cases negative
  · exact ⟨_, hpositive⟩
  · refine ⟨-(m * 2 ^ (e + 1074).toNat), ?_⟩
    rw [← Bool.not_false, finiteValue_not, hpositive]
    push_cast
    ring

/-- The number nearest to a ratio is positive from the smallest number on. -/
theorem zero_lt_ofRat {q : ℚ} (h : smallest ≤ q) : (Place.point 0).lt (ofRat q).place = true := by
  have hsmallest : (Place.point 0).lt (ofRat smallest).place = true := by decide +kernel
  exact Place.lt_of_lt_of_le hsmallest (ofRat_mono h)

/-- The difference of two finite numbers is positive where the exact difference is. -/
theorem zero_lt_sub {x y : Binary64} {p q : ℚ} (hx : x.place = .point p) (hy : y.place = .point q) (h : q < p) :
    (Place.point 0).lt (x.sub y).place = true := by
  have hwhole : ∀ {x : Binary64} {p : ℚ}, x.place = .point p → ∃ k : ℤ, p = k * smallest := by
    intro x p hx
    rcases x with _ | a | ⟨a, m, e, hc⟩
    · cases hx
    · cases a <;> cases hx
    · obtain rfl := Place.point.inj hx
      exact finiteValue_eq_mul hc.2.1 a m
  obtain ⟨k, rfl⟩ := hwhole hx
  obtain ⟨l, rfl⟩ := hwhole hy
  have hkl : l + 1 ≤ k := by exact_mod_cast lt_of_mul_lt_mul_right h smallest_pos.le
  rw [place_sub hx hy]
  refine zero_lt_ofRat ?_
  rw [← sub_mul]
  refine le_mul_of_one_le_left smallest_pos.le ?_
  have : ((l + 1 : ℤ) : ℚ) ≤ k := by exact_mod_cast hkl
  push_cast at this
  linarith

end Binary64

/-! ### Snapshots with scores -/

/-- The scores of the files and their average lie between 0 and 100; nothing is asked of paths and counts. -/
structure Snapshot.Scored (s : Snapshot) : Prop where
  scores : ∀ f ∈ s.files, ∃ x, f.score = .number x ∧ x.isPercent = true
  average : (Number.real s.metrics.averageScore).isPercent = true

section Scored

variable {b s : Snapshot} {x : Number}

theorem Number.place_of_isPercent (h : x.isPercent = true) : ∃ q, x.place = .point q := by
  rw [isPercent, Bool.and_eq_true] at h
  obtain ⟨h0, h1⟩ := h
  rcases hx : x.place with _ | _ | q | _
  case point => exact ⟨q, rfl⟩
  all_goals
    rw [le, hx] at h0 h1
    exact absurd (And.intro h0 h1) (by decide +kernel)

theorem Snapshot.Scored.compares (hb : b.Scored) (hs : s.Scored) : ∃ c, compareSnapshots b s = .ok c := by
  refine compareSnapshots_eq_ok.mpr fun f hf => ?_
  obtain ⟨x, hx, hpercent⟩ := hb.scores f hf
  rcases hscore : scoreOf? s.files f.path with _ | v
  · exact ⟨none, by rw [changeOf?, hscore]⟩
  · obtain ⟨g, hg, rfl⟩ := Option.map_eq_some_iff.mp hscore
    obtain ⟨y, hy, hpercent'⟩ := hs.scores g (List.mem_of_find?_eq_some hg)
    obtain ⟨change, hchange⟩ := classify_ok (.of_isPercent hpercent) (.of_isPercent hpercent')
    refine ⟨some change, ?_⟩
    rw [changeOf?, hscore, hx, hy]
    exact congrArg (Except.map some) hchange

/-- Where the average is lower than before, the drop that a comparison sees is positive. -/
theorem Snapshot.Scored.zero_lt_excess (hb : b.Scored) (hs : s.Scored)
    (hdrop : (Number.real s.metrics.averageScore).lt (.real b.metrics.averageScore) = true) :
    (0 : Number).lt (excess b.metrics.averageScore s.metrics.averageScore) = true := by
  obtain ⟨p, hp⟩ := Number.place_of_isPercent hb.average
  obtain ⟨q, hq⟩ := Number.place_of_isPercent hs.average
  rw [lt_excess (by decide +kernel)]
  refine Binary64.zero_lt_sub hp hq ?_
  simpa [Number.lt, Place.lt, hp, hq] using hdrop

end Scored

/-! ### Reports on a drop -/

section Drops

variable {b s : Snapshot} {t : Thresholds} {es : List (String × Value)} {limit : Number}

/-- A limit that was taken does not see that a rise is cut off at zero. -/
theorem lt_rise_of_taken (h : limit.isNegative = false) (old new : ℤ) :
    limit.lt (rise old new) = limit.lt (.int (new - old)) := by
  rcases Thresholds.nonneg_or_nan h with hnonneg | rfl
  · exact lt_rise hnonneg old new
  · rfl

/-- A rise of a count has a text where the difference of the counts has one. -/
theorem rise_isWritable_of_sub {old new : ℤ} (h : (Number.int (new - old)).isWritable = true) :
    (rise old new).isWritable = true := by
  rw [rise, Number.max]
  split_ifs
  · exact h
  · decide +kernel

/-- A positive drop is above its limit or within it, unless the limit is no number. -/
theorem Thresholds.countMild_pos_iff {x : Number} (ht : t.Sound) (hx : (0 : Number).lt x = true) {files : List Value}
    (hwithin : t.maxScoreRegression.lt x = false) :
    t.countMild x files = 0 ↔ t.maxScoreRegression = .real .nan ∧ files = [] := by
  have hle : x.le t.maxScoreRegression = false ↔ t.maxScoreRegression = .real .nan := by
    rcases nonneg_or_nan ht.maxScoreRegression with hnonneg | hnan
    · have hle : x.le t.maxScoreRegression = true :=
        Place.le_of_not_lt (Number.le_refl_of_nonneg (Place.le_of_lt hx)) (Number.le_refl_of_nonneg hnonneg) hwithin
      rw [hle]
      refine iff_of_false (by simp) ?_
      intro hnan
      rw [hnan] at hnonneg
      revert hnonneg
      decide +kernel
    · rw [hnan]
      refine iff_of_true ?_ rfl
      rw [Number.le]
      rcases x.place <;> rfl
  rw [countMild, hx, Bool.true_and, Nat.add_eq_zero_iff, Bool.toNat_eq_zero, Bool.toNat_eq_zero, hle]
  simp

/-- Whatever limits were taken: where the average is lower than before, a report passes only if the limit of the drop is no
number, no count is above its limit and no file regressed.  The report exists where the counts and the limits have texts and
the paths are texts. -/
theorem judge_pass_iff_of_drop (hb : b.Scored) (hs : s.Scored) (ht : Thresholds.ofEntries es = .ok t)
    (hdrop : (Number.real s.metrics.averageScore).lt (.real b.metrics.averageScore) = true) :
    ∃ c, compareSnapshots b s = .ok c ∧
      (∀ r, judge (some c) t = .ok r → (r.verdict = .pass ↔ t.maxScoreRegression = .real .nan ∧
        t.maxHighIncrease.lt (.int (s.metrics.highIssues - b.metrics.highIssues)) = false ∧
        t.maxTotalIncrease.lt (.int (s.metrics.totalIssues - b.metrics.totalIssues)) = false ∧ c.regression.files = [])) ∧
      ((∃ x, t.maxScoreRegression.toReal = .ok x) → (∃ x, t.maxHighIncrease.toReal = .ok x) →
        (∃ x, t.maxTotalIncrease.toReal = .ok x) →
        (Number.int (s.metrics.highIssues - b.metrics.highIssues)).isWritable = true →
        (Number.int (s.metrics.totalIssues - b.metrics.totalIssues)).isWritable = true →
        (∀ f ∈ b.files, ∃ p, f.path = .text p) → ∃ r, judge (some c) t = .ok r) := by
  have hsound := Thresholds.sound_of_entries ht
  obtain ⟨c, hc⟩ := hb.compares hs
  obtain ⟨haverage, hhigh, htotal, hbetter⟩ := compareSnapshots_amounts hc
  have hpositive := hb.zero_lt_excess hs hdrop
  refine ⟨c, hc, fun r hr => ?_, fun rscore rhigh rtotal whigh wtotal hpaths => ?_⟩
  · have hj := judged_of_judge haverage hhigh htotal hr
    rw [hj.verdict_eq, ← lt_rise_of_taken hsound.maxHighIncrease, ← lt_rise_of_taken hsound.maxTotalIncrease]
    have habove : t.countAbove (excess b.metrics.averageScore s.metrics.averageScore)
        (rise b.metrics.highIssues s.metrics.highIssues) (rise b.metrics.totalIssues s.metrics.totalIssues) = 0 ↔
        t.maxScoreRegression.lt (excess b.metrics.averageScore s.metrics.averageScore) = false ∧
          t.maxHighIncrease.lt (rise b.metrics.highIssues s.metrics.highIssues) = false ∧
          t.maxTotalIncrease.lt (rise b.metrics.totalIssues s.metrics.totalIssues) = false := by
      rw [Thresholds.countAbove, Nat.add_eq_zero_iff, Nat.add_eq_zero_iff, Bool.toNat_eq_zero, Bool.toNat_eq_zero,
        Bool.toNat_eq_zero, and_assoc]
    -- the report fails, warns or passes, and only where it passes do all four conditions hold
    split_ifs with hcritical hmild
    · refine iff_of_false (by simp) ?_
      rintro ⟨hnan, h₂, h₃, -⟩
      have h₁ : t.maxScoreRegression.lt (excess b.metrics.averageScore s.metrics.averageScore) = false := by
        rw [hnan]
        rfl
      exact hcritical.ne' (habove.mpr ⟨h₁, h₂, h₃⟩)
    · obtain ⟨hwithin, -, -⟩ := habove.mp (Nat.eq_zero_of_not_pos hcritical)
      refine iff_of_false (by simp) ?_
      rintro ⟨hnan, -, -, hfiles⟩
      exact hmild.ne' ((Thresholds.countMild_pos_iff hsound hpositive hwithin).mpr ⟨hnan, hfiles⟩)
    · obtain ⟨hwithin, h₂, h₃⟩ := habove.mp (Nat.eq_zero_of_not_pos hcritical)
      obtain ⟨hnan, hfiles⟩ :=
        (Thresholds.countMild_pos_iff hsound hpositive hwithin).mp (Nat.eq_zero_of_not_pos hmild)
      exact iff_of_true rfl ⟨hnan, h₂, h₃, hfiles⟩
  · refine judge_exists haverage hhigh htotal hbetter (excess_toReal _ _) (excess_toReal _ _)
      (rise_isWritable_of_sub whigh) (rise_isWritable_of_sub wtotal) rscore rhigh rtotal fun path hpath => ?_
    obtain ⟨f, hf, rfl, -⟩ := (mem_pathsOf_iff_exists hc .regressed).mp hpath
    exact hpaths f hf

/-- A limit that is no number is taken, and then a drop of ten points passes. -/
theorem judge_pass_iff_of_drop_no_limit :
    let snapshot (score : ℤ) : Snapshot := ⟨"s", 0, "main", "c", ⟨0, 0, 0, 0, 0, .ofInt score, .ofInt score, .ofInt score,
      .ofInt score⟩, [], ⟨.null, .null, .null⟩⟩
    ∃ t c r, Thresholds.ofEntries [("max_score_regression", .real .nan)] = .ok t ∧
      compareSnapshots (snapshot 90) (snapshot 80) = .ok c ∧ judge (some c) t = .ok r ∧ r.verdict = .pass := by
  intro snapshot
  have ht : Thresholds.ofEntries [("max_score_regression", .real .nan)] =
      .ok { Thresholds.default with maxScoreRegression := .real .nan } := by rfl
  obtain ⟨c, hc, hpass, hexists⟩ := judge_pass_iff_of_drop (b := snapshot 90) (s := snapshot 80)
    ⟨by simp [snapshot], by decide +kernel⟩ ⟨by simp [snapshot], by decide +kernel⟩ ht (by decide +kernel)
  obtain ⟨r, hr⟩ := hexists ⟨_, rfl⟩ ⟨_, rfl⟩ ⟨_, rfl⟩ (by decide +kernel) (by decide +kernel) (by simp [snapshot])
  refine ⟨_, c, r, ht, hc, hr, (hpass r hr).mpr ⟨rfl, by decide +kernel, by decide +kernel, ?_⟩⟩
  simp only [compareSnapshots, snapshot, changes, List.mapM_nil, pure_eq_ok, ok_bind, Except.ok.injEq] at hc
  rw [← hc]
  rfl

end Drops

end ScoreGate
