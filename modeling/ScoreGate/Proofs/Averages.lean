import ScoreGate.Proofs.Nearest

/-!
# Averages of whole scores

The mean of whole scores is the number nearest to their exact mean, rounded once.  Where every score falls, the mean does
not rise, and the score drop against a baseline, cut off at zero, does not shrink.

* `mean_eq_ok`: the mean of whole scores.
* `mean_mono`: means of scores side by side.
* `Metrics.Totals`: what the metrics of some summaries are, field by field.
* `excess_antitone`: the score drop against a fixed average.
-/

namespace ScoreGate

/-! ### Whole scores -/

namespace Value

/-- A value that is this whole number, as an integer or as a flag. -/
def IsWhole (v : Value) (n : ℕ) : Prop := ∃ x, v = .number x ∧ x.toInt? = some (n : ℤ)

/-- A value that is a whole number up to 100. -/
def IsScore (v : Value) : Prop := ∃ n ≤ 100, v.IsWhole n

def whole : Value → ℕ
  | .number x => (x.toInt?.getD 0).toNat
  | _ => 0

def wholeSum (vs : List Value) : ℕ := (vs.map whole).sum

variable {v : Value} {n : ℕ}

theorem IsWhole.whole_eq (h : v.IsWhole n) : v.whole = n := by
  obtain ⟨x, rfl, hx⟩ := h
  rw [whole, hx]
  rfl

theorem IsScore.isWhole (h : v.IsScore) : v.IsWhole v.whole := by
  obtain ⟨n, -, hn⟩ := h
  rwa [hn.whole_eq]

theorem IsScore.whole_le (h : v.IsScore) : v.whole ≤ 100 := by
  obtain ⟨n, hle, hn⟩ := h
  rwa [hn.whole_eq]

end Value

theorem Percent.isScore_clamp (k : ℤ) : (Value.number (clamp k).value).IsScore :=
  ⟨(Max.max 0 (Min.min 100 k)).toNat, by omega, _, rfl, by rw [Int.toNat_of_nonneg (by omega)]; rfl⟩

theorem Percent.isScore_iff (p : Percent) : (Value.number p.value).IsScore ↔ ∃ k, p.value.toInt? = some k := by
  constructor
  · rintro ⟨n, -, x, hvalue, hx⟩
    obtain rfl : p.value = x := Value.number.inj hvalue
    exact ⟨n, hx⟩
  · rintro ⟨k, hk⟩
    have hwithin := p.within
    rw [Number.isPercent, Bool.and_eq_true, Number.le, Number.le, Number.place_of_toInt? hk] at hwithin
    have h0 : 0 ≤ k := Number.int_le_int.mp hwithin.1
    have h1 : k ≤ 100 := Number.int_le_int.mp hwithin.2
    exact ⟨k.toNat, by omega, _, rfl, by rw [hk, Int.toNat_of_nonneg h0]⟩

/-! ### Means -/

section Means

variable {vs vs' : List Value}

open Value (wholeSum)

theorem Number.add_whole {s n : ℤ} {x : Number} (hx : x.toInt? = some n) : (Number.int s).add x = .ok (.int (s + n)) := by
  rw [add, combine, hx]
  rfl

theorem foldlM_whole (h : ∀ v ∈ vs, v.IsScore) (s : ℤ) :
    vs.foldlM (fun (s : Number) v => do s.add (← v.toNumber)) (.int s) = .ok (.int (s + wholeSum vs)) := by
  induction vs generalizing s with
  | nil => simp [wholeSum]
  | cons v vs ih =>
    obtain ⟨x, hv, hx⟩ := (h v (by simp)).isWhole
    rw [List.foldlM_cons, show v.toNumber = .ok x by rw [hv]; rfl, ok_bind, Number.add_whole hx, ok_bind,
      ih fun w hw => h w (by simp [hw]), show wholeSum (v :: vs) = v.whole + wholeSum vs from rfl, Nat.cast_add, add_assoc]

theorem exact_mean_le (h : ∀ v ∈ vs, v.IsScore) (hne : vs ≠ []) : (wholeSum vs : ℚ) / vs.length ≤ 100 := by
  have hlength : 0 < vs.length := List.length_pos_iff.mpr hne
  have hsum : wholeSum vs ≤ vs.length * 100 := by
    have := List.sum_le_card_nsmul (vs.map Value.whole) 100 fun n hn => by
      obtain ⟨v, hv, rfl⟩ := List.mem_map.mp hn
      exact (h v hv).whole_le
    simpa [wholeSum] using this
  rw [div_le_iff₀ (by exact_mod_cast hlength)]
  exact_mod_cast hsum.trans_eq (Nat.mul_comm _ _)

theorem lt_of_le_hundred {q : ℚ} (h : q ≤ 100) : q < 2 ^ (1023 : ℤ) :=
  calc q ≤ 100 := h
    _ < 2 ^ (7 : ℤ) := by norm_num
    _ ≤ 2 ^ (1023 : ℤ) := zpow_le_zpow_right₀ (by norm_num) (by norm_num)

theorem mean_eq_ok (h : ∀ v ∈ vs, v.IsScore) (hne : vs ≠ []) :
    mean vs = .ok (.ofRatio false (wholeSum vs) vs.length) ∧
      ∃ p, (Binary64.ofRatio false (wholeSum vs) vs.length).place = .point p := by
  obtain ⟨m, e, hc, hfinite⟩ := Binary64.ofRatio_eq_finite false (List.length_pos_iff.mpr hne)
    (lt_of_le_hundred (exact_mean_le h hne))
  have hsum : vs.foldlM (fun (s : Number) v => do s.add (← v.toNumber)) 0 =
      .ok (.int (wholeSum vs)) := by
    rw [show (0 : Number) = .int 0 from rfl, foldlM_whole h, zero_add]
  have hpos : decide ((wholeSum vs : ℤ) < 0) = false := decide_eq_false (by omega)
  refine ⟨?_, _, congrArg Binary64.place hfinite⟩
  rw [mean, if_neg (by simpa using hne), hsum, ok_bind]
  simp only [Number.divNat, Number.toInt?, Int.natAbs_natCast, hpos, hfinite]

/-- A mean of whole scores lies where they lie; where there are none it is full. -/
theorem mean_within (h : ∀ v ∈ vs, v.IsScore) : ∃ x q, mean vs = .ok x ∧ x.place = .point q ∧ 0 ≤ q ∧ q ≤ 100 := by
  have hfull : (Binary64.ofRatio false 100 1).place = .point 100 := by decide +kernel
  by_cases hne : vs = []
  · subst hne
    exact ⟨_, 100, rfl, hfull, by norm_num, le_rfl⟩
  · obtain ⟨hmean, q, hq⟩ := mean_eq_ok h hne
    have hlength : 0 < vs.length := List.length_pos_iff.mpr hne
    have hlow := Binary64.zero_le_ofRatio (wholeSum vs) hlength
    have hhigh := Binary64.ofRatio_mono (a := wholeSum vs) (c := 100) hlength Nat.one_pos (by
      simpa using exact_mean_le h hne)
    rw [hq] at hlow hhigh
    rw [hfull] at hhigh
    exact ⟨_, q, hmean, hq, by simpa [Place.le] using hlow, by simpa [Place.le] using hhigh⟩

theorem mean_finite (h : ∀ v ∈ vs, v.IsScore) : ∃ x p, mean vs = .ok x ∧ x.place = .point p := by
  obtain ⟨x, p, hx, hp, -⟩ := mean_within h
  exact ⟨x, p, hx, hp⟩

theorem mean_ok (h : ∀ v ∈ vs, v.IsScore) : ∃ x, mean vs = .ok x := by
  obtain ⟨x, _, hx, -⟩ := mean_finite h
  exact ⟨x, hx⟩

theorem mean_mono (h : ∀ v ∈ vs, v.IsScore) (h' : ∀ v ∈ vs', v.IsScore) (hlength : vs'.length = vs.length)
    (hsum : wholeSum vs' ≤ wholeSum vs) {x x' : Binary64} (hx : mean vs = .ok x)
    (hx' : mean vs' = .ok x') : x'.place.le x.place = true := by
  by_cases hne : vs = []
  · obtain ⟨full, p, hfull, hp⟩ := mean_finite h
    obtain rfl : vs' = [] := List.length_eq_zero_iff.mp (hlength.trans (List.length_eq_zero_iff.mpr hne))
    rw [hne] at hx hfull
    rw [hx] at hx' hfull
    rw [← Except.ok.inj hx', Except.ok.inj hfull, hp]
    exact decide_eq_true le_rfl
  · have hpos := List.length_pos_iff.mpr hne
    have hne' : vs' ≠ [] := List.length_pos_iff.mp (hlength ▸ hpos)
    rw [(mean_eq_ok h hne).1, Except.ok.injEq] at hx
    rw [(mean_eq_ok h' hne').1, Except.ok.injEq] at hx'
    rw [← hx, ← hx', hlength]
    refine Binary64.ofRatio_mono hpos hpos ?_
    gcongr

end Means

/-! ### Scores of analyses -/

namespace FileAnalysis

/-- The counts of an analysis are those of its issues, and every score is whole. -/
structure Scored (a : FileAnalysis) : Prop where
  counts : a.counts = .of a.issues
  total : (Value.number a.score.total.value).IsScore
  performance : (Value.number a.score.breakdown.performance.value).IsScore
  memory : (Value.number a.score.breakdown.memoryLeaks.value).IsScore
  quality : (Value.number a.score.breakdown.codeQuality.value).IsScore

theorem scored_analyzeText (content path : String) : (analyzeText content path).Scored :=
  ⟨rfl, Percent.isScore_clamp _, Percent.isScore_clamp _, Percent.isScore_clamp _, Percent.isScore_clamp _⟩

end FileAnalysis

/-! ### Metrics -/

/-- The metrics of some summaries: sums of their counts, and means of their scores. -/
structure Metrics.Totals (files : List FileSummary) (m : Metrics) : Prop where
  totalFiles : m.totalFiles = files.length
  totalIssues : m.totalIssues = ((files.map (·.total)).sum : ℕ)
  highIssues : m.highIssues = ((files.map (·.high)).sum : ℕ)
  mediumIssues : m.mediumIssues = ((files.map (·.medium)).sum : ℕ)
  lowIssues : m.lowIssues = ((files.map (·.low)).sum : ℕ)
  averageScore : mean (files.map (·.score)) = .ok m.averageScore
  performance : mean (files.map fun f => .number f.breakdown.performance.value) = .ok m.performanceScore
  memory : mean (files.map fun f => .number f.breakdown.memoryLeaks.value) = .ok m.memoryScore
  quality : mean (files.map fun f => .number f.breakdown.codeQuality.value) = .ok m.codeQualityScore

theorem Metrics.ofSummaries_iff {files : List FileSummary} {m : Metrics} : ofSummaries files = .ok m ↔ Totals files m := by
  have hsum : ∀ count : FileSummary → ℕ, files.foldr (fun f n => count f + n) 0 = (files.map count).sum := by
    intro count
    rw [List.sum_eq_foldr, List.foldr_map]
  simp only [ofSummaries, bind_eq_ok, pure_eq_ok, Except.ok.injEq, hsum]
  constructor
  · rintro ⟨_, haverage, _, hperformance, _, hmemory, _, hquality, rfl⟩
    exact ⟨rfl, rfl, rfl, rfl, rfl, haverage, hperformance, hmemory, hquality⟩
  · intro h
    refine ⟨_, h.averageScore, _, h.performance, _, h.memory, _, h.quality, ?_⟩
    rw [← h.totalIssues, ← h.highIssues, ← h.mediumIssues, ← h.lowIssues, ← h.totalFiles]

theorem Metrics.ofSummaries_ok {as : List FileAnalysis} (h : ∀ a ∈ as, a.Scored) :
    ∃ metrics, ofSummaries (as.map FileAnalysis.summary) = .ok metrics := by
  have hmean : ∀ {g : FileSummary → Value}, (∀ a ∈ as, (g a.summary).IsScore) →
      ∃ x, mean ((as.map FileAnalysis.summary).map g) = .ok x :=
    fun hg => mean_ok (List.forall_mem_map.mpr (List.forall_mem_map.mpr hg))
  obtain ⟨average, haverage⟩ := hmean (g := (·.score)) fun a ha => (h a ha).total
  obtain ⟨performance, hperformance⟩ := hmean (g := fun f => .number f.breakdown.performance.value)
    fun a ha => (h a ha).performance
  obtain ⟨memory, hmemory⟩ := hmean (g := fun f => .number f.breakdown.memoryLeaks.value) fun a ha => (h a ha).memory
  obtain ⟨quality, hquality⟩ := hmean (g := fun f => .number f.breakdown.codeQuality.value) fun a ha => (h a ha).quality
  exact ⟨⟨_, _, _, _, _, average, performance, memory, quality⟩,
    ofSummaries_iff.mpr ⟨rfl, rfl, rfl, rfl, rfl, haverage, hperformance, hmemory, hquality⟩⟩

theorem Binary64.eq_finite_of_place {x : Binary64} {q : ℚ} (h : x.place = .point q) :
    ∃ a m e hc, x = .finite a m e hc ∧ finiteValue a m e = q := by
  rcases x with _ | a | ⟨a, m, e, hc⟩
  · cases h
  · cases a <;> cases h
  · exact ⟨a, m, e, hc, rfl, Place.point.inj h⟩

/-- A number of ordinary size is rounded to an integer. -/
theorem Number.roundHalfUp_ok {x : Binary64} {q : ℚ} (h : x.place = .point q) (h0 : 0 ≤ q) (h1 : q ≤ 100) :
    ∃ n, (Number.real x).roundHalfUp = .ok n := by
  obtain ⟨a, m, e, hc, rfl, hq⟩ := Binary64.eq_finite_of_place h
  have hhalf : (Binary64.ofRatio false 1 2).place = .point (1 / 2) := by decide +kernel
  obtain ⟨b, k, f, hc', hb, hvalue⟩ := Binary64.eq_finite_of_place hhalf
  have hsize : |q + 1 / 2| < 2 ^ (1023 : ℤ) := by
    rw [abs_of_nonneg (by linarith)]
    calc q + 1 / 2 ≤ 101 := by linarith
      _ < 2 ^ (7 : ℤ) := by norm_num
      _ ≤ 2 ^ (1023 : ℤ) := zpow_le_zpow_right₀ (by norm_num) (by norm_num)
  rw [← Binary64.natAbs_num_div_den] at hsize
  obtain ⟨m', e', hc'', hsum⟩ := Binary64.ofRatio_eq_finite (decide (q + 1 / 2 < 0)) (q + 1 / 2).den_pos hsize
  have hne : q + 1 / 2 ≠ 0 := by linarith
  have hadd : (Binary64.finite a m e hc).add (Binary64.ofRatio false 1 2) =
      .finite (decide (q + 1 / 2 < 0)) m' e' hc'' := by
    simp only [hb, Binary64.add, hq, hvalue, if_neg hne, Binary64.ofRat, hsum]
  simp only [roundHalfUp, toReal, ok_bind, hadd]
  exact ⟨_, rfl⟩

theorem projectScore_ok {as : List FileAnalysis} (h : ∀ a ∈ as, a.Scored) : ∃ p, projectScore as = .ok p := by
  rcases as with _ | ⟨a, as⟩
  · exact ⟨_, rfl⟩
  · have hscores : ∀ v ∈ (a :: as).map (fun a => Value.number a.score.total.value), v.IsScore :=
      List.forall_mem_map.mpr fun b hb => (h b hb).total
    obtain ⟨x, q, hmean, hq, h0, h1⟩ := mean_within hscores
    obtain ⟨n, hn⟩ := Number.roundHalfUp_ok hq h0 h1
    simp only [projectScore, hmean, ok_bind, hn, pure_eq_ok]
    exact ⟨_, rfl⟩

/-! ### Score drops -/

section Drops

variable {b x x' : Binary64} {p q q' : ℚ}

/-- Against a fixed average, a lower one is at least as much of a drop. -/
theorem excess_antitone (hb : b.place = .point p) (hx : x.place = .point q) (hx' : x'.place = .point q') (h : q' ≤ q) :
    (excess b x).le (excess b x') = true := by
  refine Number.max_mono (by decide +kernel) ?_
  rw [Number.le, Number.place, Number.place, Binary64.place_sub hb hx, Binary64.place_sub hb hx']
  exact Binary64.ofRat_mono (sub_le_sub_left h p)

end Drops

end ScoreGate
