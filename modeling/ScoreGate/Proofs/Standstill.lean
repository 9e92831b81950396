import ScoreGate.Check
import ScoreGate.Proofs.Decision

/-!
# Where nothing has moved

Two snapshots with the same files and metrics differ in nothing that a comparison looks at.  All amounts are zero, every
file is unchanged, and the report passes under any limits that are not negative.  It can be written in every format.

* `compareSnapshots_still`: the comparison of two such snapshots.
* `judge_still`: the report on it.
* `Check.outputFile_passed`: its written forms.
-/

namespace ScoreGate

/-! ### Amounts -/

section Amounts

theorem rise_self (n : ℤ) : rise n n = .int 0 := by
  rw [rise, Int.sub_self]
  rfl

theorem Binary64.finiteValue_not (negative : Bool) (m : ℕ) (e : ℤ) :
    finiteValue (!negative) m e = -finiteValue negative m e := by
  cases negative <;> simp [finiteValue, Rat.neg_mkRat]

theorem Binary64.finite_sub_self (a : Bool) (m : ℕ) (e : ℤ) (h : Canonical m e) :
    (finite a m e h).sub (finite a m e h) = .zero false := by
  simp only [sub, neg, add, finiteValue_not, add_neg_cancel, if_true]
  cases a <;> rfl

/-- A number less itself is zero, unless it has no difference to itself. -/
theorem Binary64.sub_self (x : Binary64) : x.sub x = .nan ∨ x.sub x = .zero false := by
  rcases x with _ | a | ⟨a, m, e, h⟩
  · exact Or.inl rfl
  · refine Or.inl ?_
    cases a <;> rfl
  · exact Or.inr (finite_sub_self a m e h)

theorem excess_self (x : Binary64) : excess x x = .real (.zero false) := by
  have hlt : (Number.real (.zero false)).lt (.real (x.sub x)) = false := by
    rw [Number.lt, Number.place_zero_real]
    rcases x.sub_self with h | h
    · rw [h]
      rfl
    · rw [h, Number.place_zero_real]
      rfl
  rw [excess, Number.max, hlt]
  rfl

theorem not_lt_zero {limit : Number} (h : limit.isNegative = false) :
    limit.lt (.int 0) = false ∧ limit.lt (.real (.zero false)) = false := by
  have hzero : limit.lt (0 : Number) = false := h
  exact ⟨hzero, by rw [Number.lt, Number.place_zero_real]; exact hzero⟩

end Amounts

/-! ### The comparison -/

/-- Nothing has moved, and these files are unchanged. -/
def Comparison.still (files : List Value) : Comparison := ⟨.zero, .zero, files⟩

/-- A snapshot of files that were analysed: each is named once, by a text, and has a whole score. -/
structure Snapshot.Analysed (s : Snapshot) : Prop where
  check : s.check = .ok s
  paths : ∀ f ∈ s.files, ∃ p, f.path = .text p
  scores : ∀ f ∈ s.files, ∃ n, f.score = .number (.int n)

section Comparison

variable {b s : Snapshot}

theorem classify_self (n : ℤ) : classify (.int n) (.int n) = .ok .unchanged := by
  simp only [classify, Value.toNumber, ok_bind, Number.sub, Number.combine, Number.toInt?, Int.sub_self]
  rfl

theorem changeOf?_self (hb : b.Analysed) {f : FileSummary} (hf : f ∈ b.files) :
    changeOf? b.files f = .ok (some .unchanged) := by
  have hfile : (b.files.find? fun g => g.path.sameName f.path) = some f := Snapshot.file?_eq_some hb.check hb.paths hf
  obtain ⟨n, hn⟩ := hb.scores f hf
  have hscore : scoreOf? b.files f.path = some (.int n) := by
    rw [scoreOf?, hfile, Option.map_some, hn]
  rw [changeOf?, hscore, hn]
  simp only [classify_self]
  rfl

theorem changes_self (hb : b.Analysed) : changes b.files b.files = .ok (b.files.map fun f => (f.path, .unchanged)) := by
  have hall : (b.files.mapM fun old => do return (old.path, ← changeOf? b.files old)) =
      .ok (b.files.map fun f => (f.path, some .unchanged)) := by
    refine mapM_eq_ok fun f hf => ?_
    rw [changeOf?_self hb hf]
    rfl
  rw [changes, hall]
  simp only [ok_bind, pure_eq_ok, List.filterMap_map]
  exact congrArg Except.ok (congrFun List.filterMap_eq_map _)

/-- Against a snapshot with the same files and metrics nothing has moved, and every file is unchanged. -/
theorem compareSnapshots_still (hb : b.Analysed) (hfiles : s.files = b.files) (hmetrics : s.metrics = b.metrics) :
    compareSnapshots b s = .ok (.still (b.files.map (·.path))) := by
  have hpaths : ∀ change, pathsOf change (b.files.map fun f => (f.path, Change.unchanged)) =
      if change = .unchanged then b.files.map (·.path) else [] := by
    intro change
    rw [pathsOf, List.filter_map, List.map_map]
    split_ifs with h
    · simp [h, Function.comp_def]
    · simp [Function.comp_def, Ne.symm h]
  rw [compareSnapshots, hfiles, hmetrics, changes_self hb]
  simp only [ok_bind, pure_eq_ok, rise_self, excess_self, hpaths]
  rfl

end Comparison

/-! ### Written forms of snapshots -/

section Written

variable {b s : Snapshot}

theorem Snapshot.isWritable_toValue (s : Snapshot) : s.toValue.isWritable = ((Number.int s.timestamp).isWritable &&
    (s.metrics.toValue.isWritable && (Value.areWritable (s.files.map FileSummary.toValue) &&
      s.environment.toValue.isWritable))) := by
  simp only [Snapshot.toValue, Value.isWritable, Value.entriesWritable, Bool.true_and, Bool.and_true]

theorem Snapshot.isWritable_still (hb : b.toValue.isWritable = true) (hfiles : s.files = b.files)
    (hmetrics : s.metrics = b.metrics) (htime : (Number.int s.timestamp).isWritable = true)
    (henvironment : s.environment.toValue.isWritable = true) : s.toValue.isWritable = true := by
  rw [isWritable_toValue, Bool.and_eq_true, Bool.and_eq_true, Bool.and_eq_true] at hb ⊢
  exact ⟨htime, hmetrics ▸ hb.2.1, hfiles ▸ hb.2.2.1, henvironment⟩

theorem Snapshot.isWritable_length (hcheck : b.check = .ok b) (hb : b.toValue.isWritable = true) :
    (Number.int b.files.length).isWritable = true := by
  obtain ⟨-, htotal, -⟩ := check_eq_ok.mp hcheck
  rw [isWritable_toValue, Bool.and_eq_true, Bool.and_eq_true] at hb
  have hmetrics := hb.2.1
  simp only [Metrics.toValue, Value.isWritable, Value.entriesWritable, Bool.and_eq_true] at hmetrics
  rw [← htotal]
  exact hmetrics.1

end Written

/-! ### The report -/

/-- No limit of these is negative. -/
structure Thresholds.Sound (t : Thresholds) : Prop where
  maxScoreRegression : t.maxScoreRegression.isNegative = false
  maxHighIncrease : t.maxHighIncrease.isNegative = false
  maxTotalIncrease : t.maxTotalIncrease.isNegative = false
  minScoreImprovement : t.minScoreImprovement.isNegative = false

def Report.passed (files : List Value) : Report where
  summary := ⟨.pass, .text Verdict.pass.sentence, .full⟩
  critical := []
  warnings := []
  recommendations := []
  hasRegressions := false
  hasImprovements := false
  details := .still files

section Report

variable {t : Thresholds}

theorem judge_still (ht : t.Sound) (files : List Value) : judge (some (.still files)) t = .ok (.passed files) := by
  have hscore := (not_lt_zero ht.maxScoreRegression).2
  have hhigh := (not_lt_zero ht.maxHighIncrease).1
  have htotal := (not_lt_zero ht.maxTotalIncrease).1
  have hbetter := (not_lt_zero ht.minScoreImprovement).2
  have hdrop : (0 : Number).lt (.real (.zero false)) = false := (@not_lt_zero 0 rfl).2
  simp only [judge, Comparison.still, Delta.zero, scoreCritical, countCritical, improvementAdvice, scoreWarning,
    Value.toNumber, ok_bind, hscore, hhigh, htotal, hbetter, hdrop]
  rfl

theorem passed_isWritable {files : List Value} (hfiles : ∀ f ∈ files, ∃ p, f = .text p)
    (hlength : (Number.int files.length).isWritable = true) : (Report.passed files).toValue.isWritable = true := by
  have hnames : ∀ {vs : List Value}, (∀ f ∈ vs, ∃ p, f = .text p) → Value.areWritable vs = true := by
    intro vs hvs
    induction vs with
    | nil => rfl
    | cons v vs ih =>
      obtain ⟨p, rfl⟩ := hvs v (by simp)
      exact ih fun f hf => hvs f (by simp [hf])
  have hfull : Percent.full.value.isWritable = true := by decide +kernel
  have hzero : (Number.int 0).isWritable = true := by decide +kernel
  simp only [Report.toValue, Report.passed, Summary.toValue, Comparison.entries, Comparison.still, Delta.toValue, Delta.zero,
    Value.isWritable, Value.entriesWritable, Value.areWritable, List.map_nil, hnames hfiles, hlength, hfull, hzero,
    Bool.and_true]
  rfl

end Report

namespace Check

theorem outputFile_passed {files : List Value} (hfiles : ∀ f ∈ files, ∃ p, f = .text p)
    (hlength : (Number.int files.length).isWritable = true) (format id : String) :
    ∃ output, outputFile format (.passed files) id = .ok output := by
  rw [outputFile]
  split_ifs
  · have hwritten : (Report.passed files).toValue.checkWritable = .ok () := if_pos (passed_isWritable hfiles hlength)
    rw [hwritten]
    exact ⟨_, rfl⟩
  · exact ⟨_, rfl⟩
  · exact ⟨_, rfl⟩

end Check

end ScoreGate
