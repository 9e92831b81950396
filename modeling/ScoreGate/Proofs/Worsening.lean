import ScoreGate.Proofs.Averages
import ScoreGate.Proofs.Comparing
import ScoreGate.Proofs.Growth
import ScoreGate.Proofs.Histories
import ScoreGate.Proofs.Recording
import ScoreGate.Proofs.Severity

/-!
# Adding code never helps

Two snapshots of the same files, the second of texts that go on, are held against one baseline.  In the second there are
no fewer issues, the average is no higher, and a file that has regressed in the first has regressed.  So every sign of a
regression stays one or turns into a limit that is passed, and the verdict is at least as severe.

* `Snapshot.Whole`: what is recorded of files with whole scores.
* `Snapshot.Worsens`: one snapshot after another, file by file.
* `judges_growth`: the two reports.
-/

namespace ScoreGate

/-! ### Whole scores -/

/-- A snapshot of files that were analysed with whole scores, and written. -/
structure Snapshot.Whole (s : Snapshot) : Prop where
  check : s.check = .ok s
  paths : ∀ f ∈ s.files, ∃ p, f.path = .text p
  scores : ∀ f ∈ s.files, ∃ n, f.score.IsWhole n
  average : ∃ q, s.metrics.averageScore.place = .point q
  highIssues : 0 ≤ s.metrics.highIssues ∧ (Number.int s.metrics.highIssues).isWritable = true
  totalIssues : 0 ≤ s.metrics.totalIssues ∧ (Number.int s.metrics.totalIssues).isWritable = true

section Records

variable {files : List FileSummary} {x : Snapshot}

theorem Metrics.ofSummaries_eq_ok {m : Metrics} (h : Metrics.ofSummaries files = .ok m) :
    m.totalFiles = files.length ∧ m.totalIssues = ((files.map (·.total)).sum : ℕ) ∧
      m.highIssues = ((files.map (·.high)).sum : ℕ) ∧ mean (files.map (·.score)) = .ok m.averageScore := by
  have htotals := ofSummaries_iff.mp h
  exact ⟨htotals.totalFiles, htotals.totalIssues, htotals.highIssues, htotals.averageScore⟩

/-- The summary of a file that was analysed with a whole score. -/
structure FileSummary.IsWhole (f : FileSummary) : Prop where
  path : ∃ p, f.path = .text p
  score : f.score.IsScore

theorem isScore_scores (h : ∀ f ∈ files, f.IsWhole) : ∀ v ∈ files.map (·.score), v.IsScore :=
  List.forall_mem_map.mpr fun f hf => (h f hf).score

theorem Store.Records.whole (h : Store.Records files x) (hwritten : x.toValue.isWritable = true)
    (hwhole : ∀ f ∈ files, f.IsWhole) : x.Whole := by
  obtain ⟨-, htotal, hhigh, haverage⟩ := Metrics.ofSummaries_eq_ok h.counted
  obtain ⟨average, q, hmean, hq⟩ := mean_finite (isScore_scores hwhole)
  rw [haverage, Except.ok.injEq] at hmean
  have hmetrics : x.metrics.toValue.isWritable = true := by
    rw [Snapshot.isWritable_toValue, Bool.and_eq_true, Bool.and_eq_true] at hwritten
    exact hwritten.2.1
  simp only [Metrics.toValue, Value.isWritable, Value.entriesWritable, Bool.and_eq_true] at hmetrics
  refine ⟨h.check, ?_, ?_, ⟨q, by rw [hmean, hq]⟩, ⟨?_, hmetrics.2.2.1⟩, ⟨?_, hmetrics.2.1⟩⟩
  · rw [h.listed]
    exact fun f hf => (hwhole f hf).path
  · rw [h.listed]
    exact fun f hf => ⟨_, (hwhole f hf).score.isWhole⟩
  · rw [hhigh]
    exact Int.natCast_nonneg _
  · rw [htotal]
    exact Int.natCast_nonneg _

end Records

/-! ### The report on whole scores -/

section Judged

variable {b x : Snapshot} {c : Comparison} {t : Thresholds}

theorem rise_isWritable {old new : ℤ} (hold : 0 ≤ old) (hnew : (Number.int new).isWritable = true) :
    (rise old new).isWritable = true := by
  rw [rise, Number.max]
  split_ifs with h
  · have hlt : 0 < new - old := Number.int_lt_int.mp h
    simp only [Number.isWritable, decide_eq_true_eq] at hnew ⊢
    omega
  · decide +kernel

theorem Snapshot.Whole.compares (hb : b.Whole) (hx : x.Whole) : ∃ c, compareSnapshots b x = .ok c := by
  refine (compareSnapshots_eq_ok_iff hx.check).mpr fun f g hshare => ?_
  obtain ⟨m, i, hi, hm⟩ := hb.scores f hshare.1
  obtain ⟨n, j, hj, hn⟩ := hx.scores g hshare.2.1
  exact Or.inr ⟨i, j, hi, hj, Or.inl ⟨m, n, hm, hn⟩⟩

theorem Snapshot.Whole.regressed_texts (hb : b.Whole) (hc : compareSnapshots b x = .ok c) :
    ∀ path ∈ c.regression.files, ∃ p, path = .text p := by
  intro path hpath
  obtain ⟨f, hf, rfl, -⟩ := (mem_pathsOf_iff_exists hc .regressed).mp hpath
  exact hb.paths f hf

/-- Two snapshots with whole scores can be compared, and the comparison is judged by its amounts and its regressed
files. -/
theorem Snapshot.Whole.judged (hb : b.Whole) (hx : x.Whole) (ht : t.Bounded) : ∃ c r, compareSnapshots b x = .ok c ∧
    judge (some c) t = .ok r ∧ Judged (t.countAbove (excess b.metrics.averageScore x.metrics.averageScore)
      (rise b.metrics.highIssues x.metrics.highIssues) (rise b.metrics.totalIssues x.metrics.totalIssues))
      (t.countMild (excess b.metrics.averageScore x.metrics.averageScore) c.regression.files) r := by
  obtain ⟨c, hc⟩ := hb.compares hx
  obtain ⟨haverage, hhigh, htotal, hbetter⟩ := compareSnapshots_amounts hc
  obtain ⟨r, hr, hj⟩ := judge_ok haverage hhigh htotal hbetter (excess_toReal _ _) (excess_toReal _ _)
    (rise_isWritable hb.highIssues.1 hx.highIssues.2) (rise_isWritable hb.totalIssues.1 hx.totalIssues.2) ht
    (hb.regressed_texts hc)
  exact ⟨c, r, hc, hr, hj⟩

end Judged

/-! ### One snapshot after another -/

/-- The same files later: no fewer issues, no higher average, and every file has become worse or stayed as it was. -/
structure Snapshot.Worsens (x y : Snapshot) : Prop where
  totalIssues : x.metrics.totalIssues ≤ y.metrics.totalIssues
  highIssues : x.metrics.highIssues ≤ y.metrics.highIssues
  average : y.metrics.averageScore.place.le x.metrics.averageScore.place = true
  files : ∀ f ∈ x.files, ∃ g ∈ y.files, f.Worsens g

section Worsens

variable {b x y : Snapshot} {c d : Comparison} {t : Thresholds}

theorem rise_mono (old : ℤ) {new new' : ℤ} (h : new ≤ new') : (rise old new).le (rise old new') = true :=
  Number.max_mono (by decide +kernel) (Number.int_le_int.mpr (by omega))

theorem changeOf?_whole {f g : FileSummary} {m n : ℕ} (hx : x.check = .ok x) (hshare : b.Share x f g)
    (hf : f.score.IsWhole m) (hg : g.score.IsWhole n) : changeOf? x.files f =
      .ok (some (if n = m then .unchanged else if n < m then .regressed else .improved)) := by
  obtain ⟨i, hi, hm⟩ := hf
  obtain ⟨j, hj, hn⟩ := hg
  rw [changeOf?_of_share hx hshare, hi, hj, if_neg (by simp), classify_whole hm hn]
  simp only [Except.map, Int.ofNat_inj, Int.ofNat_lt]

theorem changeOf?_eq_regressed {f g : FileSummary} {m n : ℕ} (hx : x.check = .ok x) (hshare : b.Share x f g)
    (hf : f.score.IsWhole m) (hg : g.score.IsWhole n) : changeOf? x.files f = .ok (some .regressed) ↔ n < m := by
  rw [changeOf?_whole hx hshare hf hg]
  simp only [Except.ok.injEq, Option.some.injEq]
  split_ifs with heq hlt <;> simp <;> omega

theorem Snapshot.Worsens.regressed (h : x.Worsens y) (hb : b.Whole) (hx : x.Whole) (hy : y.Whole)
    (hc : compareSnapshots b x = .ok c) (hd : compareSnapshots b y = .ok d) (hne : c.regression.files ≠ []) :
    d.regression.files ≠ [] := by
  obtain ⟨path, hpath⟩ := List.exists_mem_of_ne_nil _ hne
  obtain ⟨f, hf, rfl, hchange⟩ := (mem_pathsOf_iff_exists hc .regressed).mp hpath
  obtain ⟨k, hk⟩ := hb.scores f hf
  by_cases hshare : ∃ g, b.Share x f g
  · obtain ⟨g, hshare⟩ := hshare
    obtain ⟨g', hg', hworse⟩ := h.files g hshare.2.1
    obtain ⟨m, n, hm, hn, -, hle⟩ := hworse.score
    have hfallen := (changeOf?_eq_regressed hx.check hshare hk ⟨_, hm, rfl⟩).mp hchange
    have hshare' : b.Share y f g' := ⟨hf, hg', by rw [hworse.path, hshare.2.2]⟩
    have hchange' := (changeOf?_eq_regressed hy.check hshare' hk ⟨_, hn, rfl⟩).mpr (hle.trans_lt hfallen)
    exact List.ne_nil_of_mem ((mem_pathsOf_iff hb.check hd hf .regressed).mpr hchange')
  · rw [changeOf?_of_not_share hf fun g hg => hshare ⟨g, hg⟩] at hchange
    cases hchange

/-- Against one baseline and under the same limits, the later snapshot is judged at least as severely. -/
theorem Snapshot.Worsens.judged (h : x.Worsens y) (hb : b.Whole) (hx : x.Whole) (hy : y.Whole) (ht : t.Bounded) :
    ∃ c d r q, compareSnapshots b x = .ok c ∧ compareSnapshots b y = .ok d ∧ judge (some c) t = .ok r ∧
      judge (some d) t = .ok q ∧ r.verdict.rank ≤ q.verdict.rank ∧ q.summary.score.value.le r.summary.score.value = true := by
  obtain ⟨c, r, hc, hr, hjudged⟩ := hb.judged hx ht
  obtain ⟨d, q, hd, hq, hjudged'⟩ := hb.judged hy ht
  obtain ⟨p, hp⟩ := hb.average
  obtain ⟨p₁, hp₁⟩ := hx.average
  obtain ⟨p₂, hp₂⟩ := hy.average
  have hlower := h.average
  rw [hp₁, hp₂] at hlower
  have haverage := excess_antitone hp hp₁ hp₂ (of_decide_eq_true hlower)
  have hlimits : t.NoLooser t := ⟨Number.le_refl_of_nonneg ht.maxScoreRegression.nonneg,
    Number.le_refl_of_nonneg ht.maxHighIncrease.nonneg, Number.le_refl_of_nonneg ht.maxTotalIncrease.nonneg⟩
  have habove := Thresholds.countAbove_mono hlimits haverage (rise_mono b.metrics.highIssues h.highIssues)
    (rise_mono b.metrics.totalIssues h.totalIssues)
  have hmild : ∀ {high total}, t.countAbove (excess b.metrics.averageScore y.metrics.averageScore) high total = 0 →
      t.countMild (excess b.metrics.averageScore x.metrics.averageScore) c.regression.files ≤
        t.countMild (excess b.metrics.averageScore y.metrics.averageScore) d.regression.files := fun h0 =>
    Thresholds.countMild_mono_of_nonneg ht.maxScoreRegression.nonneg (zero_le_excess _ _) h0 haverage
      (h.regressed hb hx hy hc hd)
  exact ⟨c, d, r, q, hc, hd, hr, hq, hjudged.rank_mono hjudged' habove hmild,
    hjudged.points_antitone hjudged' habove hmild (t.countMild_le_two _ _)⟩

end Worsens

/-! ### Files that grow -/

def summariesOf (files : List (String × String)) : List FileSummary :=
  files.map fun f => (analyzeText f.2 f.1).summary

theorem summariesOf_eq_map (files : List (String × String)) :
    summariesOf files = (files.map fun f => analyzeText f.2 f.1).map FileAnalysis.summary := by
  rw [List.map_map]
  rfl

/-- Some files later: the same paths, and every text is kept or goes on with further lines. -/
structure GrowInto (old new : List (String × String)) : Prop where
  paths : (old.map Prod.fst).Perm (new.map Prod.fst)
  texts : ∀ f ∈ old, ∀ g ∈ new, g.1 = f.1 → Continues f.2 g.2

/-- Lists with the same keys in some order can be gone through side by side. -/
theorem forall₂_of_perm_map {α γ : Type} {key : α → γ} {xs ys : List α} (h : (xs.map key).Perm (ys.map key)) :
    ∃ zs, List.Forall₂ (fun x y => x ∈ xs ∧ y ∈ ys ∧ key y = key x) xs zs ∧ zs.Perm ys := by
  have hys : List.Forall₂ (fun k y => key y = k) (ys.map key) ys := by
    rw [List.forall₂_map_left_iff, List.forall₂_same]
    exact fun _ _ => rfl
  obtain ⟨zs, hzs, hperm⟩ := List.perm_comp_forall₂ h hys
  rw [List.forall₂_map_left_iff, List.forall₂_iff_zip] at hzs
  refine ⟨zs, List.forall₂_iff_zip.mpr ⟨hzs.1, fun hxy => ?_⟩, hperm⟩
  obtain ⟨hx, hy⟩ := List.of_mem_zip hxy
  exact ⟨hx, hperm.subset hy, hzs.2 hxy⟩

section Growing

variable {old new : List (String × String)} {files files' : List FileSummary} {x y : Snapshot}

/-- File by file, in the order of the first version. -/
theorem GrowInto.worsens (h : GrowInto old new) :
    ∃ mid, List.Forall₂ FileSummary.Worsens (summariesOf old) mid ∧ mid.Perm (summariesOf new) := by
  obtain ⟨mid, hmid, hperm⟩ := forall₂_of_perm_map h.paths
  refine ⟨summariesOf mid, ?_, hperm.map _⟩
  rw [summariesOf, summariesOf, List.forall₂_map_left_iff, List.forall₂_map_right_iff]
  refine hmid.imp fun f g hfg => ?_
  obtain ⟨hf, hg, hpath⟩ := hfg
  rw [hpath]
  exact analyzeText_worsens (h.texts f hf g hg hpath) f.1

theorem summariesOf_whole (files : List (String × String)) : ∀ f ∈ summariesOf files, f.IsWhole := by
  intro f hf
  obtain ⟨⟨path, text⟩, -, rfl⟩ := List.mem_map.mp hf
  exact ⟨⟨path, rfl⟩, textPoints path text.toList, textPoints_le path _, _, analyzeText_score text path, rfl⟩

theorem Store.Records.worsens {mid : List FileSummary} (hx : Store.Records files x) (hy : Store.Records files' y)
    (hfiles : ∀ f ∈ files, f.IsWhole) (hfiles' : ∀ f ∈ files', f.IsWhole)
    (h : List.Forall₂ FileSummary.Worsens files mid) (hperm : mid.Perm files') : x.Worsens y := by
  obtain ⟨-, htotal, hhigh, haverage⟩ := Metrics.ofSummaries_eq_ok hx.counted
  obtain ⟨-, htotal', hhigh', haverage'⟩ := Metrics.ofSummaries_eq_ok hy.counted
  -- sums do not depend on the order, so they are compared over the files one by one
  have hsum : ∀ {count : FileSummary → ℕ}, (∀ f g, f.Worsens g → count f ≤ count g) →
      (files.map count).sum ≤ (files'.map count).sum := by
    intro count hcount
    rw [← (hperm.map count).sum_eq]
    refine List.Forall₂.sum_le_sum ?_
    rw [List.forall₂_map_left_iff, List.forall₂_map_right_iff]
    exact h.imp hcount
  have hfall : Value.wholeSum (files'.map (·.score)) ≤ Value.wholeSum (files.map (·.score)) := by
    rw [Value.wholeSum, Value.wholeSum, List.map_map, List.map_map, ← (hperm.map _).sum_eq]
    refine List.Forall₂.sum_le_sum ?_
    rw [List.forall₂_map_left_iff, List.forall₂_map_right_iff]
    refine h.flip.imp fun g f hworse => ?_
    obtain ⟨m, n, hm, hn, -, hle⟩ := hworse.score
    rw [Function.comp_apply, Function.comp_apply, hm, hn]
    exact hle
  refine ⟨?totalIssues, ?highIssues, ?average, ?files⟩
  case totalIssues =>
    rw [htotal, htotal']
    exact_mod_cast hsum fun f g hworse => hworse.total
  case highIssues =>
    rw [hhigh, hhigh']
    exact_mod_cast hsum fun f g hworse => hworse.high
  case average =>
    refine mean_mono (isScore_scores hfiles) (isScore_scores hfiles') ?_ hfall haverage haverage'
    rw [List.length_map, List.length_map, ← hperm.length_eq, h.length_eq]
  case files =>
    rw [hx.listed, hy.listed]
    intro f hf
    obtain ⟨i, hi, rfl⟩ := List.getElem_of_mem hf
    have hi' : i < mid.length := h.length_eq ▸ hi
    exact ⟨mid[i], hperm.subset (List.getElem_mem hi'), h.get hi hi'⟩

/-- Nothing but the writing of a document keeps these summaries from being recorded: they have metrics, and every snapshot
with them passes the check. -/
def Recordable (files : List FileSummary) : Prop := ∃ metrics, Metrics.ofSummaries files = .ok metrics ∧
  ∀ x : Snapshot, x.files = files → x.metrics = metrics → x.check = .ok x

theorem summariesOf_recordable {files : List (String × String)} (h : (files.map Prod.fst).Nodup) :
    Recordable (summariesOf files) := by
  obtain ⟨metrics, hmetrics⟩ := Metrics.ofSummaries_ok
    (List.forall_mem_map.mpr fun f (_ : f ∈ files) => FileAnalysis.scored_analyzeText f.2 f.1)
  rw [← summariesOf_eq_map] at hmetrics
  have hcount := (Metrics.ofSummaries_eq_ok hmetrics).1
  refine ⟨metrics, hmetrics, fun x hx hm => Snapshot.check_eq_ok.mpr ⟨rfl, by rw [hm, hx, hcount], fun f hf => ?_, ?_⟩⟩
  · obtain ⟨p, hp⟩ := (summariesOf_whole files f (hx ▸ hf)).path
    rw [hp]
    rfl
  · rw [hx, summariesOf, List.pairwise_map]
    exact (List.pairwise_map.mp h).imp fun hne => beq_eq_false_iff_ne.mpr (Ne.symm hne)

/-- A snapshot that some store made of these summaries at some time. -/
def Store.Created (files : List FileSummary) (x : Snapshot) : Prop := ∃ (s : Store) (w v : Workspace) (branch commit : String)
  (environment : Option Provenance), (s.create files branch commit environment).exec w = (.ok x, v)

theorem FileAnalysis.summary_whole {a : FileAnalysis} {k : ℤ} (h : a.score.total.value.toInt? = some k) :
    a.summary.IsWhole :=
  ⟨⟨_, rfl⟩, a.score.total.isScore_iff.mpr ⟨k, h⟩⟩

/-- A snapshot that was made of analyses with whole scores. -/
theorem Store.Created.whole (h : Store.Created files x) (hfiles : ∀ f ∈ files, f.IsWhole) :
    Store.Records files x ∧ x.Whole := by
  obtain ⟨_, _, _, _, _, _, h⟩ := h
  obtain ⟨hrecords, hwritten⟩ := Store.create_records h
  exact ⟨hrecords, hrecords.whole hwritten hfiles⟩

/-- Adding code never helps.  Of files that are named once each, both versions can be recorded; and the snapshots that any
stores make of them, held against a baseline that was made of analyses with whole scores, are compared and judged, the
second at least as severely as the first and with no more points. -/
theorem judges_growth {baseline : List FileAnalysis} {b : Snapshot} {t : Thresholds}
    (hwhole : ∀ a ∈ baseline, ∃ k, a.score.total.value.toInt? = some k)
    (hb : Store.Created (baseline.map FileAnalysis.summary) b) (hdistinct : (old.map Prod.fst).Nodup)
    (hgrow : GrowInto old new) (ht : t.Bounded) :
    Recordable (summariesOf old) ∧ Recordable (summariesOf new) ∧
      ∀ x y, Store.Created (summariesOf old) x → Store.Created (summariesOf new) y →
        ∃ c d r q, compareSnapshots b x = .ok c ∧ compareSnapshots b y = .ok d ∧ judge (some c) t = .ok r ∧
          judge (some d) t = .ok q ∧ r.verdict.rank ≤ q.verdict.rank ∧
          q.summary.score.value.le r.summary.score.value = true := by
  refine ⟨summariesOf_recordable hdistinct, summariesOf_recordable (hgrow.paths.nodup_iff.mp hdistinct), fun x y hx hy => ?_⟩
  have hbaseline : ∀ f ∈ baseline.map FileAnalysis.summary, f.IsWhole := by
    refine List.forall_mem_map.mpr fun a ha => ?_
    obtain ⟨k, hk⟩ := hwhole a ha
    exact FileAnalysis.summary_whole hk
  obtain ⟨hx, hx'⟩ := hx.whole (summariesOf_whole old)
  obtain ⟨hy, hy'⟩ := hy.whole (summariesOf_whole new)
  obtain ⟨mid, hworse, hperm⟩ := hgrow.worsens
  have hworsens := hx.worsens hy (summariesOf_whole old) (summariesOf_whole new) hworse hperm
  exact hworsens.judged (hb.whole hbaseline).2 hx' hy' ht

/-- A file before and after a timer was added that nothing clears. -/
def beforeTimer : List (String × String) := [("a.ts", "let a = 1")]

def afterTimer : List (String × String) := [("a.ts", "let a = 1" ++ "\n" ++ "setTimeout(f)")]

theorem Store.created_of_isOk (s : Store) (w : Workspace) (files : List FileSummary)
    (h : ((s.create files "main" "c" none).exec w).1.isOk = true) : ∃ x, Created files x := by
  rcases hr : (s.create files "main" "c" none).exec w with ⟨e | x, v⟩
  · rw [hr] at h
    cases h
  · exact ⟨x, s, w, v, "main", "c", none, hr⟩

theorem judges_added_timer : ∃ b x y c d r q, Store.Created (summariesOf beforeTimer) b ∧
    Store.Created (summariesOf beforeTimer) x ∧ Store.Created (summariesOf afterTimer) y ∧
    compareSnapshots b x = .ok c ∧ compareSnapshots b y = .ok d ∧ judge (some c) .default = .ok r ∧
    judge (some d) .default = .ok q ∧ r.verdict.rank ≤ q.verdict.rank ∧
    q.summary.score.value.le r.summary.score.value = true := by
  have hlimits : Thresholds.default.Bounded := by
    refine ⟨⟨?_, ?_⟩, ⟨?_, ?_⟩, ⟨?_, ?_⟩⟩ <;> decide +kernel
  have hgrow : GrowInto beforeTimer afterTimer := by
    refine ⟨.refl _, fun f hf g hg _ => ?_⟩
    obtain rfl := List.mem_singleton.mp hf
    obtain rfl := List.mem_singleton.mp hg
    exact Or.inr ⟨_, rfl⟩
  obtain ⟨x, hx⟩ := Store.beside.created_of_isOk Store.blank (summariesOf beforeTimer) (by decide +kernel)
  obtain ⟨y, hy⟩ := Store.beside.created_of_isOk Store.blank (summariesOf afterTimer) (by decide +kernel)
  have hwhole : ∀ a ∈ [analyzeText "let a = 1" "a.ts"], ∃ k, a.score.total.value.toInt? = some k := by
    intro a ha
    obtain rfl := List.mem_singleton.mp ha
    exact ⟨_, rfl⟩
  obtain ⟨-, -, hjudged⟩ := judges_growth hwhole hx (by decide) hgrow hlimits
  obtain ⟨c, d, r, q, h⟩ := hjudged x y hx hy
  exact ⟨x, x, y, c, d, r, q, hx, hx, hy, h⟩

end Growing

end ScoreGate
