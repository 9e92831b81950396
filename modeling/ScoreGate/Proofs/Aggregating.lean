import ScoreGate.Proofs.Documents
import ScoreGate.Proofs.Drawing

/-!
# What a new snapshot adds up

A new snapshot of analyses keeps one summary of each in their order, and its metrics are the numbers of issues over all files
and the means of their scores.  Where two analyses have the same path, there is no snapshot, and nothing is made.

* `Snapshot.AddsUp`: what a snapshot of analyses holds.
* `Snapshot.checkPaths_twice`: a path that comes twice is found at its second place.
* `Store.create_aggregates`: a new snapshot, or nothing at all.
-/

namespace ScoreGate

/-! ### Analyses -/

/-- An analysis of some text, whatever path it was given since. -/
def FileAnalysis.Produced (a : FileAnalysis) : Prop :=
  ∃ content path, a = { analyzeText content path with path := a.path }

theorem FileAnalysis.Produced.scored {a : FileAnalysis} (h : a.Produced) : a.Scored := by
  obtain ⟨content, path, h⟩ := h
  obtain ⟨hcounts, htotal, hperformance, hmemory, hquality⟩ := scored_analyzeText content path
  rw [h]
  exact ⟨hcounts, htotal, hperformance, hmemory, hquality⟩

/-- The mean of whole scores: the number nearest to it, which lies where they lie, and full where there is none. -/
structure IsAverage (scores : List Value) (x : Binary64) : Prop where
  nearest : scores ≠ [] → x = .ofRatio false (Value.wholeSum scores) scores.length
  full : scores = [] → x = .ofInt 100
  within : ∃ q, x.place = .point q ∧ 0 ≤ q ∧ q ≤ 100

theorem isAverage_of_mean {scores : List Value} {x : Binary64} (h : ∀ v ∈ scores, v.IsScore) (hx : mean scores = .ok x) :
    IsAverage scores x := by
  refine ⟨fun hne => ?_, fun hempty => ?_, ?_⟩
  · rw [(mean_eq_ok h hne).1, Except.ok.injEq] at hx
    exact hx.symm
  · rw [hempty] at hx
    exact (Except.ok.inj hx).symm
  · obtain ⟨y, q, hy, hq, h0, h1⟩ := mean_within h
    rw [hx, Except.ok.injEq] at hy
    exact ⟨q, hy ▸ hq, h0, h1⟩

/-- What a snapshot of analyses holds: a summary of each in their order, how many issues of each severity there are over all
files, and the average of each kind of score. -/
structure Snapshot.AddsUp (as : List FileAnalysis) (x : Snapshot) : Prop where
  files : x.files = as.map FileAnalysis.summary
  totalFiles : x.metrics.totalFiles = as.length
  totalIssues : x.metrics.totalIssues = (as.flatMap (·.issues)).length
  highIssues : x.metrics.highIssues = (as.flatMap (·.issues)).countP (·.severity = .high)
  mediumIssues : x.metrics.mediumIssues = (as.flatMap (·.issues)).countP (·.severity = .medium)
  lowIssues : x.metrics.lowIssues = (as.flatMap (·.issues)).countP (·.severity = .low)
  sum : x.metrics.totalIssues = x.metrics.highIssues + x.metrics.mediumIssues + x.metrics.lowIssues
  averageScore : IsAverage (as.map fun a => .number a.score.total.value) x.metrics.averageScore
  performance : IsAverage (as.map fun a => .number a.score.breakdown.performance.value) x.metrics.performanceScore
  memory : IsAverage (as.map fun a => .number a.score.breakdown.memoryLeaks.value) x.metrics.memoryScore
  quality : IsAverage (as.map fun a => .number a.score.breakdown.codeQuality.value) x.metrics.codeQualityScore

theorem Snapshot.addsUp {as : List FileAnalysis} {x : Snapshot} (has : ∀ a ∈ as, a.Scored)
    (hfiles : x.files = as.map FileAnalysis.summary) (hmetrics : Metrics.ofSummaries x.files = .ok x.metrics) :
    x.AddsUp as := by
  obtain ⟨htotalFiles, htotal, hhigh, hmedium, hlow, haverage, hperformance, hmemory, hquality⟩ :=
    Metrics.ofSummaries_iff.mp hmetrics
  rw [hfiles] at htotalFiles htotal hhigh hmedium hlow haverage hperformance hmemory hquality
  rw [List.length_map] at htotalFiles
  rw [List.map_map] at htotal hhigh hmedium hlow haverage hperformance hmemory hquality
  -- the counts are those of the issues, which are counted over all files at once
  have hcounts : ∀ count : IssueCounts → ℕ, (as.map fun a => count a.counts).sum = (as.map fun a => count (.of a.issues)).sum :=
    fun count => congrArg List.sum (List.map_congr_left fun a ha => congrArg count (has a ha).counts)
  have hlength : (as.map fun a => a.counts.total).sum = (as.flatMap (·.issues)).length := by
    rw [hcounts IssueCounts.total, List.length_flatMap]
    exact congrArg List.sum (List.map_congr_left fun a _ => IssueCounts.total_of a.issues)
  have hcount : ∀ s : Severity, (as.map fun a => a.issues.countP fun i => i.severity = s).sum =
      (as.flatMap (·.issues)).countP fun i => i.severity = s := fun s => List.countP_flatMap.symm
  have htotal' := htotal.trans (congrArg Nat.cast hlength)
  have hhigh' := hhigh.trans (congrArg Nat.cast ((hcounts IssueCounts.high).trans (hcount .high)))
  have hmedium' := hmedium.trans (congrArg Nat.cast ((hcounts IssueCounts.medium).trans (hcount .medium)))
  have hlow' := hlow.trans (congrArg Nat.cast ((hcounts IssueCounts.low).trans (hcount .low)))
  refine ⟨hfiles, htotalFiles, htotal', hhigh', hmedium', hlow', ?_,
    isAverage_of_mean (List.forall_mem_map.mpr fun a ha => (has a ha).total) haverage,
    isAverage_of_mean (List.forall_mem_map.mpr fun a ha => (has a ha).performance) hperformance,
    isAverage_of_mean (List.forall_mem_map.mpr fun a ha => (has a ha).memory) hmemory,
    isAverage_of_mean (List.forall_mem_map.mpr fun a ha => (has a ha).quality) hquality⟩
  rw [htotal', hhigh', hmedium', hlow']
  exact_mod_cast (IssueCounts.total_of (as.flatMap (·.issues))).symm

/-! ### A path that comes twice -/

/-- The first path of a list that came before. -/
def ComesTwice (paths : List String) (p : String) : Prop :=
  ∃ before rest, paths = before ++ p :: rest ∧ before.Nodup ∧ p ∈ before

/-- Going through the paths finds the first that came before. -/
theorem Snapshot.checkPaths_twice {id : String} : ∀ {as : List FileAnalysis} {seen : List Value} {before : List String},
    (∀ p, seen.any (Value.text p).sameName = true ↔ p ∈ before) → before.Nodup →
      ¬(before ++ as.map (·.path)).Nodup → ∃ p, ComesTwice (before ++ as.map (·.path)) p ∧
        checkPaths id seen (as.map FileAnalysis.summary) =
          .error (.invalidInput ("snapshot " ++ id ++ ": duplicate file path " ++ p))
  | [], _, before, _, hbefore, htwice => absurd (by simpa using hbefore) htwice
  | a :: as, seen, before, hseen, hbefore, htwice => by
    have hname : a.summary.path = .text a.path := rfl
    rw [List.map_cons, List.map_cons, checkPaths, hname, if_neg (by simp [Value.isName])]
    by_cases hmem : a.path ∈ before
    · rw [if_pos ((hseen a.path).mpr hmem)]
      exact ⟨a.path, ⟨before, as.map (·.path), rfl, hbefore, hmem⟩, rfl⟩
    · rw [if_neg fun h => hmem ((hseen a.path).mp h), List.append_cons]
      rw [List.map_cons, List.append_cons] at htwice
      refine checkPaths_twice (fun p => ?_) (List.concat_eq_append ▸ hbefore.concat hmem) htwice
      have hsame : (Value.text p).sameName (.text a.path) = true ↔ p = a.path := beq_iff_eq
      rw [List.any_cons, Bool.or_eq_true, hseen, hsame, List.mem_append, List.mem_singleton, or_comm]

theorem Snapshot.check_twice {as : List FileAnalysis} {x : Snapshot} (hfiles : x.files = as.map FileAnalysis.summary)
    (hmetrics : Metrics.ofSummaries x.files = .ok x.metrics) (htwice : ¬(as.map (·.path)).Nodup) :
    ∃ p, ComesTwice (as.map (·.path)) p ∧
      x.check = .error (.invalidInput ("snapshot " ++ x.id ++ ": duplicate file path " ++ p)) := by
  obtain ⟨p, hp, hpaths⟩ := @checkPaths_twice x.id as [] [] (by simp) List.nodup_nil htwice
  have hcount := (Metrics.ofSummaries_iff.mp hmetrics).totalFiles
  refine ⟨p, hp, ?_⟩
  rw [check, if_neg (by simpa using hcount), hfiles, hpaths]
  rfl

namespace Store

variable {s : Store} {u v w : Workspace} {as : List FileAnalysis} {environment : Option Provenance}

/-! ### New snapshots of analyses -/

/-- Drawing ids leaves the tree as it is, and stops only where the file system refuses the name of a document. -/
theorem freeId_drawn (hw : w.DrawsDigits) (s : Store) (fuel : ℕ) : (s.freeId fuel).Ends w
    (fun id u => IsDrawn w.clock id ∧ u.tree = w.tree)
    fun e u => u.tree = w.tree ∧ e = .system ∧ ∃ id, IsDrawn w.clock id ∧ w.Refuses ((Slot.snapshot id).path s) := by
  have hdraw : ∀ v, w.Follows v ∧ v.tree = w.tree →
      generateId.Ends v (fun id u => IsDrawn w.clock id ∧ w.Follows u ∧ u.tree = w.tree) fun _ _ => False := by
    rintro v ⟨hv, htree⟩
    obtain ⟨hid, hu⟩ := (generateId_draws hw hv).ok (exec_generateId v)
    exact .of_ok (exec_generateId v) ⟨hid, hu, htree⟩
  refine (freeId_draws hdraw (fun _ h => h.isId) fuel ⟨Workspace.follows_frame.refl w, rfl⟩).mono
    (fun _ _ h => ⟨h.1, h.2.2⟩) ?_
  rintro e u ⟨⟨hu, htree⟩, rfl, id, hid, hlong⟩
  exact ⟨htree, rfl, id, hid, hu.refuses (Workspace.refuses_of_locate hlong)⟩

/-- Why analyses are not recorded of which two have the same path: that is said, or the file system refuses the name of the
new document before. -/
inductive Rejection (s : Store) (w : Workspace) (as : List FileAnalysis) : Failure → Prop
  | twice {id p : String} (hid : IsDrawn w.clock id) (h : ComesTwice (as.map (·.path)) p) :
      Rejection s w as (.fault (.invalidInput ("snapshot " ++ id ++ ": duplicate file path " ++ p)))
  | refused {id : String} (hid : IsDrawn w.clock id) (h : w.Refuses ((Slot.snapshot id).path s)) :
      Rejection s w as .system

theorem draft_twice (has : ∀ a ∈ as, a.Scored) (hw : w.DrawsDigits) (htwice : ¬(as.map (·.path)).Nodup)
    (branch commit : String) : (s.draft (as.map FileAnalysis.summary) branch commit environment).Ends w (fun _ _ => False)
      fun e v => v.tree = w.tree ∧ s.Rejection w as e := by
  obtain ⟨metrics, hmetrics⟩ := Metrics.ofSummaries_ok has
  have hwarned : warned w (as.map FileAnalysis.summary) = w := by
    refine if_neg fun hempty => htwice ?_
    rw [List.isEmpty_map, List.isEmpty_iff] at hempty
    simp [hempty]
  have hexec := @exec_draft s w _ branch commit environment _ hmetrics
  have hdrawn := freeId_drawn hw s (idsToTry w)
  rw [hwarned] at hexec
  rcases hr : (s.freeId (idsToTry w)).exec w with ⟨e | id, u⟩
  · obtain ⟨htree, rfl, id, hid, hrefused⟩ := hdrawn.error hr
    rw [hr] at hexec
    exact .of_error hexec ⟨htree, .refused hid hrefused⟩
  · obtain ⟨hid, htree⟩ := hdrawn.ok hr
    obtain ⟨p, hp, hcheck⟩ := @Snapshot.check_twice as
      ⟨id, u.clock, branch, commit, metrics, as.map FileAnalysis.summary, environment.getD runtime⟩ rfl hmetrics htwice
    rw [hr] at hexec
    simp only [hcheck] at hexec
    exact .of_error hexec ⟨htree, .twice hid hp⟩

theorem create_addsUp (has : ∀ a ∈ as, a.Scored) (hw : w.DrawsDigits) (hlog : w.HasLog) (branch commit : String) :
    (s.create (as.map FileAnalysis.summary) branch commit environment).Ends w
      (fun x v => x.AddsUp as ∧ v.node ((Slot.snapshot x.id).path s) = .ok (.file x.text.toUTF8) ∧
        (4 ≤ w.depth → (environment.getD runtime).toValue.Fits 3 → (s.load x.id).exec v = (.ok (some x), v)))
      fun _ _ => True := by
  have hstart : w.Adds ⟨w.IsLog, fun _ => True, fun _ => True⟩ w := .refl fun f hf => ⟨⟨f, hf, rfl⟩, hlog f hf⟩
  have hdraw : ∀ u, w.Notes u → (s.freeId (idsToTry u)).Ends u (fun id _ => IsDrawn w.clock id) fun _ _ => True := by
    intro u hu
    have hdigits : u.DrawsDigits := by
      rw [Workspace.DrawsDigits, hu.source]
      exact hw
    refine (freeId_drawn hdigits s _).mono (fun id _ hid => ?_) fun _ _ _ => trivial
    rw [← hu.clock]
    exact hid.1
  have hadds := @create_adds _ s w w _ (as.map FileAnalysis.summary) branch commit environment hstart hdraw
    (fun _ _ => trivial) (fun _ _ => trivial) fun _ _ _ _ => trivial
  refine ⟨fun {x v} hx => ?_, fun _ => trivial⟩
  obtain ⟨hid, hv, hplaced⟩ := hadds.ok hx
  obtain ⟨hfiles, hmetrics, henvironment, hcheck, hwritable⟩ := create_eq_ok hx
  refine ⟨Snapshot.addsUp has hfiles (hfiles ▸ hmetrics), hplaced.file, fun hdepth hfits => ?_⟩
  have hread : Readable v.depth x :=
    Document.read_indented (fits_of_analyses hfiles (henvironment ▸ hfits)) hwritable (hv.depth ▸ hdepth)
  rw [load, Action.exec_bind_ok (Action.exec_lift_ok (snapshotPath_eq_ok hid.isId)), exec_readDocument_answer]
  exact congrArg (·, v) (answerOf_of_node hplaced.file hcheck hread)

/-- Analyses with different paths can be recorded, if their numbers have written forms. -/
theorem creatable_of_analyses {clock : ℤ} (has : ∀ a ∈ as, a.Scored) (hnodup : (as.map (·.path)).Nodup)
    (hwritable : ∀ x : Snapshot, x.AddsUp as → x.timestamp = clock → x.environment = environment.getD runtime →
      x.toValue.isWritable = true) : Creatable (as.map FileAnalysis.summary) environment clock := by
  obtain ⟨metrics, hmetrics⟩ := Metrics.ofSummaries_ok has
  refine ⟨metrics, hmetrics, fun x hfiles hx htime henvironment => ?_⟩
  have hcounted : Metrics.ofSummaries x.files = .ok x.metrics := by rw [hfiles, hx, hmetrics]
  exact ⟨check_of_distinct hfiles hcounted hnodup, hwritable x (Snapshot.addsUp has hfiles hcounted) htime henvironment⟩

/-- Analyses of which two have the same path are not recorded: that is said, and nothing is made or changed.  Otherwise the
snapshot that is returned and the one that is stored hold one summary for each analysis in their order and add up over all
their issues and scores.  And there is such a snapshot, if nothing is in its way and its numbers have written forms. -/
theorem create_aggregates (has : ∀ a ∈ as, a.Produced) (hw : w.DrawsDigits) (hlog : w.HasLog) (branch commit : String)
    (environment : Option Provenance) :
    (¬(as.map (·.path)).Nodup → (s.create (as.map FileAnalysis.summary) branch commit environment).Ends w
      (fun _ _ => False) fun e v => v.tree = w.tree ∧ s.Rejection w as e) ∧
    ((as.map (·.path)).Nodup →
      (s.create (as.map FileAnalysis.summary) branch commit environment).Ends w
        (fun x v => x.AddsUp as ∧ v.node ((Slot.snapshot x.id).path s) = .ok (.file x.text.toUTF8) ∧
          (4 ≤ w.depth → (environment.getD runtime).toValue.Fits 3 → (s.load x.id).exec v = (.ok (some x), v)))
        (fun _ _ => True) ∧
      ((∀ x : Snapshot, x.AddsUp as → x.timestamp = w.clock → x.environment = environment.getD runtime →
          x.toValue.isWritable = true) →
        ∀ k, s.Supply w → s.FirstFree w k → s.Accessible w (idAt w k) →
          ∃ x v, (s.create (as.map FileAnalysis.summary) branch commit environment).exec w = (.ok x, v))) := by
  have hscored : ∀ a ∈ as, a.Scored := fun a ha => (has a ha).scored
  refine ⟨fun htwice => ?_, fun hnodup => ⟨create_addsUp hscored hw hlog branch commit, fun hwritable k hs hk haccess => ?_⟩⟩
  · exact .congr (exec_create ..) (.bind (draft_twice hscored hw htwice branch commit) fun _ _ hnever => hnever.elim)
  · exact hk.creates hs haccess (creatable_of_analyses hscored hnodup hwritable) branch commit

/-- The analysis of a text that issues were found in. -/
def logging (path : String) : FileAnalysis := analyzeText "console.log(1)\nvar a = 1\n" path

/-- Twice the same path, and two paths. -/
theorem create_aggregates_crowded :
    (∃ e v, (beside.create ([logging "a.ts", logging "a.ts"].map FileAnalysis.summary) "main" "c" none).exec crowded =
      (.error e, v) ∧ v.tree = crowded.tree) ∧
    ∃ x v, (beside.create ([logging "a.ts", logging "b.ts"].map FileAnalysis.summary) "main" "c" none).exec crowded =
      (.ok x, v) ∧ x.AddsUp [logging "a.ts", logging "b.ts"] ∧ (beside.load x.id).exec v = (.ok (some x), v) := by
  have hproduced : ∀ path, (logging path).Produced := fun path => ⟨_, path, rfl⟩
  have hlog : crowded.HasLog := nofun
  constructor
  · have htwice := (@create_aggregates beside crowded [logging "a.ts", logging "a.ts"] (by simp [hproduced])
      crowded_supply.digits hlog "main" "c" none).1 (by simp)
    rcases hr : (beside.create ([logging "a.ts", logging "a.ts"].map FileAnalysis.summary) "main" "c" none).exec crowded with
      ⟨e | x, v⟩
    · exact ⟨e, v, rfl, (htwice.error hr).1⟩
    · exact (htwice.ok hr).elim
  · obtain ⟨hends, hcreates⟩ := (@create_aggregates beside crowded [logging "a.ts", logging "b.ts"] (by simp [hproduced])
      crowded_supply.digits hlog "main" "c" none).2 (by decide +kernel)
    obtain ⟨k, hk⟩ := crowded_supply.firstFree
    obtain rfl := crowded_firstFree hk
    have hwritable : ∀ x : Snapshot, x.AddsUp [logging "a.ts", logging "b.ts"] → x.timestamp = crowded.clock →
        x.environment = runtime → x.toValue.isWritable = true := by
      intro x hx htime henvironment
      have hmetrics : x.metrics.toValue.isWritable = true := by
        simp only [Metrics.toValue, Value.int, Value.real, Value.isWritable, Value.entriesWritable, hx.totalFiles, hx.totalIssues,
          hx.highIssues, hx.mediumIssues, hx.lowIssues, Number.isWritable, Bool.and_true]
        decide +kernel
      rw [Snapshot.isWritable_toValue, hmetrics, htime, henvironment, hx.files]
      decide +kernel
    obtain ⟨x, v, hexec⟩ := hcreates hwritable 1 crowded_supply hk crowded_accessible
    obtain ⟨hadds, -, hloads⟩ := hends.ok hexec
    exact ⟨x, v, hexec, hadds, hloads (by decide) fits_runtime⟩

end Store

end ScoreGate
