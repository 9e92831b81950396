import ScoreGate.Proofs.Pointing
import ScoreGate.Proofs.Shapes

/-!
# The order of a scan

In which order files were scanned makes no difference.  Sums and means of whole scores are the same in any order, a path
stands for the same file wherever that is listed, and what a report finds rests on amounts and on how many files regressed.
So snapshots of the same analyses in another order have the same metrics, compare with the same amounts and the same files
in every group, and are judged alike.

* `Metrics.ofSummaries_perm`: the same metrics.
* `Store.create_perm`: a new snapshot, or the same failure.
* `compareSnapshots_perm_current`, `Comparison.SameUpToOrder`: comparisons of the same files in another order.
* `findings_congr`: what a report finds.
* `scans_in_any_order`: everything that is said of two scans.
-/

namespace ScoreGate

/-! ### Metrics -/

theorem mean_perm {vs vs' : List Value} (h : ∀ v ∈ vs, v.IsScore) (hperm : vs.Perm vs') : mean vs' = mean vs := by
  by_cases hne : vs = []
  · subst hne
    rw [List.nil_perm.mp hperm]
  · have hne' : vs' ≠ [] := fun hempty => hne (List.perm_nil.mp (hempty ▸ hperm))
    have hsum : Value.wholeSum vs' = Value.wholeSum vs := (hperm.map _).sum_eq.symm
    rw [(mean_eq_ok h hne).1, (mean_eq_ok (fun v hv => h v (hperm.mem_iff.mpr hv)) hne').1, hsum, hperm.length_eq]

/-- Some analyses with whole scores, each under a path of its own. -/
structure IsScan (as : List FileAnalysis) : Prop where
  scored : ∀ a ∈ as, a.Scored
  distinct : (as.map (·.path)).Nodup

theorem IsScan.perm {as as' : List FileAnalysis} (h : IsScan as) (hperm : as.Perm as') : IsScan as' :=
  ⟨fun a ha => h.scored a (hperm.mem_iff.mpr ha), (hperm.map _).nodup_iff.mp h.distinct⟩

theorem Metrics.ofSummaries_perm {as as' : List FileAnalysis} (has : ∀ a ∈ as, a.Scored) (hperm : as.Perm as') :
    ofSummaries (as'.map FileAnalysis.summary) = ofSummaries (as.map FileAnalysis.summary) := by
  obtain ⟨m, hm⟩ := ofSummaries_ok has
  have hfiles := hperm.map FileAnalysis.summary
  have hsum : ∀ count : FileSummary → ℕ, ((as'.map FileAnalysis.summary).map count).sum =
      ((as.map FileAnalysis.summary).map count).sum := fun count => (hfiles.map count).sum_eq.symm
  have hmean : ∀ score : FileSummary → Value, (∀ a ∈ as, (score a.summary).IsScore) →
      mean ((as'.map FileAnalysis.summary).map score) = mean ((as.map FileAnalysis.summary).map score) :=
    fun score h => mean_perm (List.forall_mem_map.mpr (List.forall_mem_map.mpr h)) (hfiles.map score)
  have h := ofSummaries_iff.mp hm
  rw [hm, ofSummaries_iff]
  refine ⟨?totalFiles, ?totalIssues, ?highIssues, ?mediumIssues, ?lowIssues, ?averageScore, ?performance, ?memory, ?quality⟩
  case totalFiles => rw [h.totalFiles, hfiles.length_eq]
  case totalIssues => rw [h.totalIssues, hsum]
  case highIssues => rw [h.highIssues, hsum]
  case mediumIssues => rw [h.mediumIssues, hsum]
  case lowIssues => rw [h.lowIssues, hsum]
  case averageScore => rw [hmean _ fun a ha => (has a ha).total, h.averageScore]
  case performance => rw [hmean _ fun a ha => (has a ha).performance, h.performance]
  case memory => rw [hmean _ fun a ha => (has a ha).memory, h.memory]
  case quality => rw [hmean _ fun a ha => (has a ha).quality, h.quality]

/-! ### New snapshots -/

namespace Store

variable {s : Store} {w : Workspace} {x y : Snapshot}

/-- What saving a new snapshot comes to. -/
theorem keep_result (s : Store) (x : Snapshot) (w : Workspace) : ((s.keep x).exec w).1 =
    match s.snapshotPath x.id with
    | .error fault => .error (.fault fault)
    | .ok p => match x.toValue.checkWritable with
      | .error fault => .error (.fault fault)
      | .ok _ => match (w.replaceFile p x.text.toUTF8).2 with
        | none => .ok x
        | some fault => .error (storageFailure p .write fault) := by
  rw [keep, save]
  simp only [Action.exec_bind, Action.exec_lift_fault, exec_writeDocument]
  rcases s.snapshotPath x.id with fault | p
  · rfl
  simp only [Except.mapError]
  rcases x.toValue.checkWritable with fault | _
  · rfl
  rcases w.replaceFile p x.text.toUTF8 with ⟨v, _ | fault⟩
  · rfl
  · rfl

/-- Whether values can be written does not depend on their order. -/
theorem areWritable_perm {vs vs' : List Value} (h : vs.Perm vs') : Value.areWritable vs' = Value.areWritable vs := by
  have hall : ∀ vs : List Value, Value.areWritable vs = vs.all Value.isWritable := by
    intro vs
    induction vs with
    | nil => rfl
    | cons v vs ih => rw [Value.areWritable, ih, List.all_cons]
  rw [hall, hall]
  exact h.symm.all_eq

/-- Saving a snapshot with its files in another order comes to the same. -/
theorem keep_perm {files : List FileSummary} (h : x.files.Perm files) (s : Store) (w : Workspace) :
    ((s.keep { x with files }).exec w).1 = ((s.keep x).exec w).1.map fun x => { x with files } := by
  have hwritable : ({ x with files } : Snapshot).toValue.isWritable = x.toValue.isWritable := by
    rw [Snapshot.isWritable_toValue, Snapshot.isWritable_toValue, areWritable_perm (h.map FileSummary.toValue)]
  rw [keep_result, keep_result, Value.checkWritable, Value.checkWritable, hwritable]
  simp only
  rcases s.snapshotPath x.id with fault | p
  · rfl
  simp only
  split_ifs
  · simp only [w.replaceFile_fault p ({ x with files } : Snapshot).text.toUTF8 x.text.toUTF8]
    rcases (w.replaceFile p x.text.toUTF8).2 with _ | fault
    · rfl
    · rfl
  · rfl

/-- Analyses in another order are recorded as the same snapshot, but for the order of its files, or for the same reason
not. -/
theorem create_perm {as as' : List FileAnalysis} (h : IsScan as) (hperm : as.Perm as') (s : Store) (w : Workspace)
    (branch commit : String) (environment : Option Provenance) :
    ((s.create (as'.map FileAnalysis.summary) branch commit environment).exec w).1 =
      ((s.create (as.map FileAnalysis.summary) branch commit environment).exec w).1.map
        fun x => { x with files := as'.map FileAnalysis.summary } := by
  obtain ⟨metrics, hmetrics⟩ := Metrics.ofSummaries_ok h.scored
  have hmetrics' := (Metrics.ofSummaries_perm h.scored hperm).trans hmetrics
  have hwarned : warned w (as'.map FileAnalysis.summary) = warned w (as.map FileAnalysis.summary) := by
    rw [warned, warned, List.isEmpty_map, List.isEmpty_map, hperm.isEmpty_eq]
  rw [exec_create, exec_create, Action.exec_bind, Action.exec_bind, exec_draft hmetrics, exec_draft hmetrics', hwarned]
  rcases (s.freeId (idsToTry (warned w (as.map FileAnalysis.summary)))).exec (warned w (as.map FileAnalysis.summary)) with
    ⟨e | id, u⟩
  · rfl
  · have hcheck := @check_of_distinct
      ⟨id, u.clock, branch, commit, metrics, as.map FileAnalysis.summary, environment.getD runtime⟩ as rfl hmetrics h.distinct
    have hcheck' := @check_of_distinct
      ⟨id, u.clock, branch, commit, metrics, as'.map FileAnalysis.summary, environment.getD runtime⟩ as' rfl hmetrics'
      (h.perm hperm).distinct
    simp only [hcheck, hcheck', Except.mapError]
    exact keep_perm (x := ⟨id, u.clock, branch, commit, metrics, as.map FileAnalysis.summary, environment.getD runtime⟩)
      (hperm.map _) s u

end Store

/-! ### Comparisons -/

section Comparisons

variable {b b' x x' : Snapshot} {c d : Comparison}

theorem scoreOf?_perm (hx : x.check = .ok x) (hx' : x'.check = .ok x') (hperm : x.files.Perm x'.files) (path : Value) :
    scoreOf? x'.files path = scoreOf? x.files path := by
  rw [scoreOf?, scoreOf?]
  by_cases hshare : ∃ g ∈ x.files, g.path.sameName path = true
  · obtain ⟨g, hg, hpath⟩ := hshare
    rw [Snapshot.find?_of_sameName hx hg hpath, Snapshot.find?_of_sameName hx' (hperm.mem_iff.mp hg) hpath]
  · have hnone : ∀ files : List FileSummary, files.Perm x.files → (files.find? fun f => f.path.sameName path) = none :=
      fun files hfiles => List.find?_eq_none.mpr fun g hg hpath => hshare ⟨g, hfiles.mem_iff.mp hg, hpath⟩
    rw [hnone _ hperm.symm, hnone _ (.refl _)]

theorem changeOf?_perm (hx : x.check = .ok x) (hx' : x'.check = .ok x') (hperm : x.files.Perm x'.files) (f : FileSummary) :
    changeOf? x'.files f = changeOf? x.files f := by
  rw [changeOf?, changeOf?, scoreOf?_perm hx hx' hperm]

theorem compareSnapshots_perm_current (hx : x.check = .ok x) (hx' : x'.check = .ok x') (hperm : x.files.Perm x'.files)
    (hmetrics : x'.metrics = x.metrics) (b : Snapshot) : compareSnapshots b x' = compareSnapshots b x := by
  have hchanges : changes b.files x'.files = changes b.files x.files := by
    simp only [changes, changeOf?_perm hx hx' hperm]
  rw [compareSnapshots, compareSnapshots, hchanges, hmetrics]

theorem compareSnapshots_baseline (hfiles : b'.files = b.files) (hmetrics : b'.metrics = b.metrics) (x : Snapshot) :
    compareSnapshots b' x = compareSnapshots b x := by
  rw [compareSnapshots, compareSnapshots, hfiles, hmetrics]

/-- Two comparisons with the same amounts, and with the same files in every group. -/
structure Comparison.SameUpToOrder (c d : Comparison) : Prop where
  regression : d.regression.amounts = c.regression.amounts
  improvement : d.improvement.amounts = c.improvement.amounts
  groups : ∀ change, (c.pathsOf change).Perm (d.pathsOf change)

theorem sameUpToOrder (hx : x.check = .ok x) (hx' : x'.check = .ok x') (hold : b.files.Perm b'.files)
    (hnew : x.files.Perm x'.files) (hbmetrics : b'.metrics = b.metrics) (hxmetrics : x'.metrics = x.metrics)
    (hc : compareSnapshots b x = .ok c) (hd : compareSnapshots b' x' = .ok d) : c.SameUpToOrder d := by
  have hgroups : ∀ change, (c.pathsOf change).Perm (d.pathsOf change) := by
    intro change
    rw [pathsOf_eq hc, pathsOf_eq hd]
    simp only [FileSummary.change?, changeOf?_perm hx hx' hnew]
    exact (hold.filter _).map _
  simp only [compareSnapshots, bind_eq_ok, pure_eq_ok, Except.ok.injEq] at hc hd
  obtain ⟨_, -, rfl⟩ := hc
  obtain ⟨_, -, rfl⟩ := hd
  refine ⟨?_, ?_, hgroups⟩
  · simp only [Delta.amounts, hbmetrics, hxmetrics]
  · simp only [Delta.amounts, hbmetrics, hxmetrics]

/-! ### Reports -/

/-- What a report finds: its summary and the messages that explain it. -/
def Report.findings (r : Report) : Summary × List String × List String := (r.summary, r.critical, r.warnings)

theorem findings_congr (h : c.SameUpToOrder d) (hfiles : ∀ f ∈ c.regression.files, ∃ p, f = .text p) (t : Thresholds) :
    (judge (some d) t).map Report.findings = (judge (some c) t).map Report.findings := by
  have hperm : c.regression.files.Perm d.regression.files := h.groups .regressed
  obtain ⟨l, hl⟩ := regressedAdvice_ok hfiles
  obtain ⟨k, hk⟩ := regressedAdvice_ok fun f hf => hfiles f (hperm.mem_iff.mpr hf)
  have hwarning : regressedWarning d.regression.files = regressedWarning c.regression.files := by
    rw [regressedWarning, regressedWarning, hperm.isEmpty_eq, hperm.length_eq]
  have hregression := h.regression
  have himprovement := h.improvement
  simp only [Delta.amounts, List.cons.injEq, and_true] at hregression himprovement
  simp only [judge, hregression, himprovement, hwarning, hl, hk, ok_bind]
  rcases scoreCritical c.regression.averageScore t.maxScoreRegression with fault | l₁
  · rfl
  rcases countCritical "High severity issues" c.regression.highIssues t.maxHighIncrease with fault | l₂
  · rfl
  rcases countCritical "Total issues" c.regression.totalIssues t.maxTotalIncrease with fault | l₃
  · rfl
  rcases improvementAdvice c.improvement.averageScore t.minScoreImprovement with fault | l₄
  · rfl
  rcases scoreWarning c.regression.averageScore t.maxScoreRegression with fault | l₅
  · rfl
  rcases c.improvement.averageScore.toNumber with fault | better
  · rfl
  · rfl

end Comparisons

/-! ### Scans -/

theorem IsScan.whole {as : List FileAnalysis} (h : IsScan as) : ∀ f ∈ as.map FileAnalysis.summary, f.IsWhole :=
  List.forall_mem_map.mpr fun a ha => ⟨⟨a.path, rfl⟩, (h.scored a ha).total⟩

/-- The order of a scan makes no difference.  Analyses with whole scores under different paths have the same metrics in any
order, and are recorded alike.  Snapshots of them, in whatever order, can be compared; the amounts are the same, the groups
hold the same files, and every report finds the same.  Where the baseline is in one order the comparison is the same. -/
theorem scans_in_any_order {old old' new new' : List FileAnalysis} (hold : IsScan old) (hnew : IsScan new)
    (hperm : old.Perm old') (hperm' : new.Perm new') :
    (∃ metrics, Metrics.ofSummaries (old.map FileAnalysis.summary) = .ok metrics ∧
      Metrics.ofSummaries (old'.map FileAnalysis.summary) = .ok metrics) ∧
    (∀ (s : Store) (w : Workspace) branch commit environment,
      ((s.create (old'.map FileAnalysis.summary) branch commit environment).exec w).1 =
        ((s.create (old.map FileAnalysis.summary) branch commit environment).exec w).1.map
          fun x => { x with files := old'.map FileAnalysis.summary }) ∧
    ∀ b b' x x', Store.Created (old.map FileAnalysis.summary) b → Store.Created (old'.map FileAnalysis.summary) b' →
      Store.Created (new.map FileAnalysis.summary) x → Store.Created (new'.map FileAnalysis.summary) x' →
      b'.metrics = b.metrics ∧ ∃ c c', compareSnapshots b x = .ok c ∧ compareSnapshots b' x' = .ok c' ∧
        c.SameUpToOrder c' ∧
        (∀ t, (judge (some c') t).map Report.findings = (judge (some c) t).map Report.findings) ∧
        (∀ t : Thresholds, t.Bounded → ∃ r, judge (some c) t = .ok r) ∧
        (old' = old → c' = c) := by
  obtain ⟨metrics, hmetrics⟩ := Metrics.ofSummaries_ok hold.scored
  refine ⟨⟨metrics, hmetrics, (Metrics.ofSummaries_perm hold.scored hperm).trans hmetrics⟩,
    fun s w branch commit environment => Store.create_perm hold hperm s w branch commit environment, ?_⟩
  intro b b' x x' hb hb' hx hx'
  obtain ⟨hb, hbwhole⟩ := hb.whole hold.whole
  obtain ⟨hb', hbwhole'⟩ := hb'.whole (hold.perm hperm).whole
  obtain ⟨hx, hxwhole⟩ := hx.whole hnew.whole
  obtain ⟨hx', hxwhole'⟩ := hx'.whole (hnew.perm hperm').whole
  have hbmetrics : b'.metrics = b.metrics :=
    hb.metrics_eq ((Metrics.ofSummaries_perm hold.scored hperm).symm.trans hb'.counted)
  have hxmetrics : x'.metrics = x.metrics :=
    hx.metrics_eq ((Metrics.ofSummaries_perm hnew.scored hperm').symm.trans hx'.counted)
  have hbfiles : b.files.Perm b'.files := by
    rw [hb.listed, hb'.listed]
    exact hperm.map _
  have hxfiles : x.files.Perm x'.files := by
    rw [hx.listed, hx'.listed]
    exact hperm'.map _
  obtain ⟨c, hc⟩ := hbwhole.compares hxwhole
  obtain ⟨c', hc'⟩ := hbwhole'.compares hxwhole'
  -- the comparison looks paths up, so it does not see the order but in its groups
  have hsame := sameUpToOrder hx.check hx'.check hbfiles hxfiles hbmetrics hxmetrics hc hc'
  refine ⟨hbmetrics, c, c', hc, hc', hsame, findings_congr hsame (hbwhole.regressed_texts hc), fun t ht => ?_, fun heq => ?_⟩
  · -- the comparison that is judged is the one at hand
    obtain ⟨d, r, hd, hr, -⟩ := hbwhole.judged hxwhole ht
    obtain rfl : d = c := Except.ok.inj (hd.symm.trans hc)
    exact ⟨r, hr⟩
  · -- the groups follow the order of the baseline, which is kept
    have hbase : b'.files = b.files := by rw [hb.listed, hb'.listed, heq]
    rw [compareSnapshots_baseline hbase hbmetrics, compareSnapshots_perm_current hx.check hx'.check hxfiles hxmetrics,
      hc] at hc'
    exact (Except.ok.inj hc').symm

/-- Two files are scanned, and scanned again after a timer was added to one; then both scans are turned around. -/
theorem scans_in_any_order_reversed : ∃ b b' x x' c c', Store.Created (summariesOf twoFiles) b ∧
    Store.Created (summariesOf twoFiles.reverse) b' ∧ Store.Created (summariesOf twoFilesLater) x ∧
    Store.Created (summariesOf twoFilesLater.reverse) x' ∧ b'.metrics = b.metrics ∧ compareSnapshots b x = .ok c ∧
    compareSnapshots b' x' = .ok c' ∧ c.SameUpToOrder c' ∧
    (judge (some c') .default).map Report.findings = (judge (some c) .default).map Report.findings := by
  have hcreated : ∀ files, (Store.beside.create (summariesOf files) "main" "c" none |>.exec Store.blank).1.isOk = true →
      ∃ x, Store.Created (summariesOf files) x :=
    fun files => Store.beside.created_of_isOk Store.blank (summariesOf files)
  obtain ⟨b, hb⟩ := hcreated twoFiles (by decide +kernel)
  obtain ⟨b', hb'⟩ := hcreated twoFiles.reverse (by decide +kernel)
  obtain ⟨x, hx⟩ := hcreated twoFilesLater (by decide +kernel)
  obtain ⟨x', hx'⟩ := hcreated twoFilesLater.reverse (by decide +kernel)
  have hscan : ∀ files : List (String × String), (files.map Prod.fst).Nodup →
      IsScan (files.map fun f => analyzeText f.2 f.1) := fun files hnodup =>
    ⟨List.forall_mem_map.mpr fun _ _ => FileAnalysis.scored_analyzeText _ _, by rwa [List.map_map]⟩
  have hreverse : ∀ files : List (String × String),
      (files.map fun f => analyzeText f.2 f.1).Perm (files.reverse.map fun f => analyzeText f.2 f.1) :=
    fun files => files.reverse_perm.symm.map _
  obtain ⟨-, -, hsame⟩ := scans_in_any_order (hscan twoFiles (by decide)) (hscan twoFilesLater (by decide))
    (hreverse twoFiles) (hreverse twoFilesLater)
  simp only [← summariesOf_eq_map] at hsame
  obtain ⟨hmetrics, c, c', hc, hc', horder, hfindings, -⟩ := hsame b b' x x' hb hb' hx hx'
  exact ⟨b, b', x, x', c, c', hb, hb', hx, hx', hmetrics, hc, hc', horder, hfindings .default⟩

end ScoreGate
