import ScoreGate.Proofs.Mirroring
import ScoreGate.Proofs.Worsening

/-!
# An average that moves has a file to point at

Two snapshots of the same files with whole scores have averages of as many scores, each rounded once from the exact mean.  So
an average can only be lower where the scores come to less, and then some file has a lower score.  By how much does not
matter: whole scores that differ do so by more than the tolerance, and the file counts as regressed.

* `Snapshot.Tallied`: a snapshot of whole scores with their mean.
* `exists_regressed`: the file behind a lower average.
* `averages_point_at_files`: the comparison of two snapshots of the same files.
-/

namespace ScoreGate

/-- A snapshot of files that were analysed with whole scores, under the mean of these. -/
structure Snapshot.Tallied (s : Snapshot) : Prop where
  check : s.check = .ok s
  whole : ∀ f ∈ s.files, f.IsWhole
  average : mean (s.files.map (·.score)) = .ok s.metrics.averageScore

theorem Value.IsScore.isPercent {v : Value} (h : v.IsScore) : ∃ x, v = .number x ∧ x.isPercent = true := by
  obtain ⟨n, hle, x, rfl, hx⟩ := h
  have h0 : (Number.int 0).le (.int n) = true := Number.int_le_int.mpr (by omega)
  have h1 : (Number.int n).le (.int 100) = true := Number.int_le_int.mpr (by omega)
  refine ⟨x, rfl, ?_⟩
  rw [Number.isPercent, Number.le, Number.le, Number.place_of_toInt? hx, Bool.and_eq_true]
  exact ⟨h0, h1⟩

theorem Snapshot.Tallied.rated {s : Snapshot} (h : s.Tallied) : s.Rated := by
  obtain ⟨x, p, hx, hp⟩ := mean_finite (isScore_scores h.whole)
  rw [h.average, Except.ok.injEq] at hx
  exact ⟨h.check, fun f hf => (h.whole f hf).score.isPercent, p, by rw [hx, hp]⟩

/-- A snapshot that was made of analyses with whole scores has their mean. -/
theorem Store.Created.tallied {files : List FileSummary} {x : Snapshot} (h : Store.Created files x)
    (hwhole : ∀ f ∈ files, f.IsWhole) : x.files = files ∧ x.Tallied := by
  obtain ⟨hrecords, -⟩ := h.whole hwhole
  obtain ⟨-, -, -, haverage⟩ := Metrics.ofSummaries_eq_ok hrecords.counted
  refine ⟨hrecords.listed, hrecords.check, ?_, ?_⟩
  · rwa [hrecords.listed]
  · rwa [hrecords.listed]

section Same

variable {b s : Snapshot} {c : Comparison}

theorem exists_fallen (hb : b.Tallied) (hpaths : (b.files.map (·.path)).Perm (s.files.map (·.path)))
    (h : Value.wholeSum (s.files.map (·.score)) < Value.wholeSum (b.files.map (·.score))) :
    ∃ f g, b.Share s f g ∧ g.score.whole < f.score.whole := by
  by_contra hnone
  push Not at hnone
  obtain ⟨mid, hmid, hperm⟩ := forall₂_of_perm_map hpaths
  refine absurd h (not_lt.mpr ?_)
  rw [Value.wholeSum, Value.wholeSum, List.map_map, List.map_map, ← (hperm.map _).sum_eq]
  refine List.Forall₂.sum_le_sum ?_
  rw [List.forall₂_map_left_iff, List.forall₂_map_right_iff]
  refine hmid.imp fun f g hfg => hnone f g ⟨hfg.1, hfg.2.1, ?_⟩
  rw [hfg.2.2]
  exact Value.sameName_self ((Snapshot.check_eq_ok.mp hb.check).2.2.1 f hfg.1)

theorem exists_regressed (hb : b.Tallied) (hs : s.Tallied)
    (hpaths : (b.files.map (·.path)).Perm (s.files.map (·.path))) (hc : compareSnapshots b s = .ok c)
    (h : (0 : Number).lt (excess b.metrics.averageScore s.metrics.averageScore) = true) :
    ∃ path, path ∈ c.pathsOf .regressed := by
  by_cases hsum : Value.wholeSum (s.files.map (·.score)) < Value.wholeSum (b.files.map (·.score))
  · obtain ⟨f, g, hshare, hlt⟩ := exists_fallen hb hpaths hsum
    have hold := (hb.whole f hshare.1).score.isWhole
    have hnew := (hs.whole g hshare.2.1).score.isWhole
    exact ⟨f.path, (mem_pathsOf_iff hb.check hc hshare.1 _).mpr ((changeOf?_eq_regressed hs.check hshare hold hnew).mpr hlt)⟩
  · -- scores that come to as much have no lower mean
    obtain ⟨p, hp⟩ := hb.rated.average
    obtain ⟨q, hq⟩ := hs.rated.average
    have hlength : (b.files.map (·.score)).length = (s.files.map (·.score)).length := by
      simpa using hpaths.length_eq
    have hle := mean_mono (isScore_scores hs.whole) (isScore_scores hb.whole) hlength (not_lt.mp hsum) hs.average hb.average
    rw [hp, hq, Place.le, decide_eq_true_eq] at hle
    rw [excess_eq_zero hp hq hle] at h
    exact absurd h (by decide +kernel)

theorem excess_eq_zero_of_not_lt {high low : Binary64} (h : (0 : Number).lt (excess high low) = false) :
    excess high low = .real (.zero false) := by
  rw [excess, Number.max] at h ⊢
  split_ifs at h ⊢ with hlt
  · rw [Number.lt, Number.place_zero_real] at hlt
    rw [Number.lt, hlt] at h
    cases h
  · rfl

theorem pathsOf_eq_nil (hb : b.check = .ok b) (hc : compareSnapshots b s = .ok c)
    (h : ∀ f ∈ b.files, f.path ∈ c.unchanged) {change : Change} (hne : change ≠ .unchanged) : c.pathsOf change = [] := by
  refine List.eq_nil_iff_forall_not_mem.mpr fun path hpath => ?_
  obtain ⟨f, _, hshare, rfl, -⟩ := share_of_mem_pathsOf hc hpath
  have hself := Value.sameName_self ((Snapshot.check_eq_ok.mp hb).2.2.1 f hshare.1)
  rw [pathsOf_disjoint hb hc hne _ hpath _ (h f hshare.1)] at hself
  cases hself

theorem Snapshot.nodup_paths {as : List FileAnalysis} (hb : b.check = .ok b) (hfiles : b.files = as.map FileAnalysis.summary) :
    (as.map (·.path)).Nodup := by
  have hpairwise := (check_eq_ok.mp hb).2.2.2
  rw [hfiles, List.pairwise_map] at hpairwise
  exact List.pairwise_map.mpr (hpairwise.imp fun hname heq => by simp [FileAnalysis.summary, Value.sameName, heq] at hname)

end Same

/-- Snapshots that were made of analyses with whole scores under the same paths can be compared, and the two passes agree: if
the average is lower some file regressed, if it is higher some file improved, and if every file is unchanged it has not
moved. -/
theorem averages_point_at_files {as as' : List FileAnalysis} {b s : Snapshot}
    (hwhole : ∀ a ∈ as, ∃ k, a.score.total.value.toInt? = some k)
    (hwhole' : ∀ a ∈ as', ∃ k, a.score.total.value.toInt? = some k)
    (hb : Store.Created (as.map FileAnalysis.summary) b) (hs : Store.Created (as'.map FileAnalysis.summary) s)
    (hpaths : ∀ path, path ∈ as.map (·.path) ↔ path ∈ as'.map (·.path)) :
    ∃ c x y, compareSnapshots b s = .ok c ∧ c.regression.averageScore = .number x ∧
      c.improvement.averageScore = .number y ∧ ((0 : Number).lt x = true → c.regression.files ≠ []) ∧
      ((0 : Number).lt y = true → c.improvement.files ≠ []) ∧
      ((∀ f ∈ b.files, f.path ∈ c.unchanged) → x = .real (.zero false) ∧ y = .real (.zero false)) := by
  have hsummaries : ∀ {as : List FileAnalysis}, (∀ a ∈ as, ∃ k, a.score.total.value.toInt? = some k) →
      ∀ f ∈ as.map FileAnalysis.summary, f.IsWhole := fun h => List.forall_mem_map.mpr fun a ha =>
    (h a ha).elim fun _ hk => FileAnalysis.summary_whole hk
  obtain ⟨hfiles, hb⟩ := hb.tallied (hsummaries hwhole)
  obtain ⟨hfiles', hs⟩ := hs.tallied (hsummaries hwhole')
  have hperm : (b.files.map (·.path)).Perm (s.files.map (·.path)) := by
    have hnames := (List.perm_ext_iff_of_nodup (Snapshot.nodup_paths hb.check hfiles)
      (Snapshot.nodup_paths hs.check hfiles')).mpr hpaths
    rw [hfiles, hfiles']
    simpa [Function.comp_def, FileAnalysis.summary] using hnames.map Value.text
  obtain ⟨c, hc⟩ := hb.rated.compares hs.rated
  obtain ⟨d, hd⟩ := hs.rated.compares hb.rated
  obtain ⟨hworse, -, -, hbetter⟩ := compareSnapshots_amounts hc
  have hregressed : (0 : Number).lt (excess b.metrics.averageScore s.metrics.averageScore) = true →
      c.pathsOf .regressed ≠ [] := by
    intro h
    obtain ⟨path, hpath⟩ := exists_regressed hb hs hperm hc h
    exact List.ne_nil_of_mem hpath
  have himproved : (0 : Number).lt (excess s.metrics.averageScore b.metrics.averageScore) = true →
      c.pathsOf .improved ≠ [] := by
    -- a file that improved is one that regressed the other way round
    intro h
    obtain ⟨path, hpath⟩ := exists_regressed hs hb hperm.symm hd h
    obtain ⟨path', hpath', -⟩ := exists_mem_mirror hs.rated hb.rated hd hc hpath
    exact List.ne_nil_of_mem hpath'
  refine ⟨c, _, _, hc, hworse, hbetter, hregressed, himproved, fun hall =>
    ⟨excess_eq_zero_of_not_lt ?_, excess_eq_zero_of_not_lt ?_⟩⟩
  · by_contra h
    exact hregressed (by simpa using h) (pathsOf_eq_nil hb.check hc hall (by decide))
  · by_contra h
    exact himproved (by simpa using h) (pathsOf_eq_nil hb.check hc hall (by decide))

/-- Two files, and the same two in another order after a timer was added to one. -/
def twoFiles : List (String × String) := [("a.ts", "let a = 1"), ("b.ts", "let b = 1")]

def twoFilesLater : List (String × String) := [("b.ts", "let b = 1" ++ "\n" ++ "setTimeout(f)"), ("a.ts", "let a = 1")]

/-- The timer lowers the average, and there is a file that regressed. -/
theorem averages_point_at_timer : ∃ b s c x, Store.Created (summariesOf twoFiles) b ∧
    Store.Created (summariesOf twoFilesLater) s ∧ compareSnapshots b s = .ok c ∧
    c.regression.averageScore = .number x ∧ (0 : Number).lt x = true ∧ c.regression.files ≠ [] := by
  obtain ⟨b, hb⟩ := Store.beside.created_of_isOk Store.blank (summariesOf twoFiles) (by decide +kernel)
  obtain ⟨s, hs⟩ := Store.beside.created_of_isOk Store.blank (summariesOf twoFilesLater) (by decide +kernel)
  have hsummaries : ∀ files, summariesOf files = (files.map fun f => analyzeText f.2 f.1).map FileAnalysis.summary :=
    fun files => by rw [List.map_map]; rfl
  have hwhole : ∀ files : List (String × String), ∀ a ∈ files.map fun f => analyzeText f.2 f.1,
      ∃ k, a.score.total.value.toInt? = some k := fun files => List.forall_mem_map.mpr fun _ _ => ⟨_, rfl⟩
  have hmetrics := (hb.whole (summariesOf_whole _)).1.counted
  have hmetrics' := (hs.whole (summariesOf_whole _)).1.counted
  have hdrop : (do
      let old ← Metrics.ofSummaries (summariesOf twoFiles)
      let new ← Metrics.ofSummaries (summariesOf twoFilesLater)
      return (0 : Number).lt (excess old.averageScore new.averageScore)) = .ok true := by
    decide +kernel
  rw [hmetrics, hmetrics'] at hdrop
  rw [hsummaries] at hb hs
  obtain ⟨c, x, y, hc, hx, -, hregressed, -⟩ :=
    averages_point_at_files (hwhole twoFiles) (hwhole twoFilesLater) hb hs fun path => by
      simp [twoFiles, twoFilesLater, analyzeText, or_comm]
  have hpositive : (0 : Number).lt x = true := by
    rw [(compareSnapshots_amounts hc).1, Value.number.injEq] at hx
    rw [← hx]
    exact Except.ok.inj hdrop
  rw [← hsummaries] at hb hs
  exact ⟨b, s, c, x, hb, hs, hc, hx, hpositive, hregressed hpositive⟩

end ScoreGate
