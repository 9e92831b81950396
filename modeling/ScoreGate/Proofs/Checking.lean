import ScoreGate.Command.Snapshots
import ScoreGate.Proofs.Decision
import ScoreGate.Proofs.Surprises

/-!
# How checks and store operations end

A check, and every operation on a store, ends with a result, with a failure of stored files or records, or with one that
nobody expects.  Each of the latter has its cause in what the operation starts from: a setting of another kind than its
own, two snapshots that cannot be compared, a number without a written form, a document that is nested too deeply, or a
name that the file system does not take.

* `Workspace.Notes`: a workspace that only notes were added to.
* `Store.ReportSurprise`, `Store.ListSurprise`, `Store.CleanSurprise`: why store operations fail unexpectedly.
* `Check.Surprise`: why checks do, with `Check.capture` as the run so far; `Check.run_surprises`.
-/

namespace ScoreGate

/-! ### Notes -/

/-- Some notes were taken and nothing else was done. -/
def Workspace.Notes (w v : Workspace) : Prop := ∃ es : List Entry, v = es.foldl Workspace.note w

theorem Workspace.notes_frame : Action.Frame Workspace.Notes := by
  refine ⟨fun _ => ⟨[], rfl⟩, ?_⟩
  rintro u _ _ ⟨es, rfl⟩ ⟨fs, rfl⟩
  exact ⟨es ++ fs, List.foldl_append.symm⟩

theorem Workspace.notes_note (w : Workspace) (e : Entry) : w.Notes (w.note e) := ⟨[e], rfl⟩

namespace Store

variable {s : Store} {u v w : Workspace} {x : Snapshot} {branch : String}

/-! ### Baselines -/

theorem hasNul_of_baseline (h : (s.baselinePath branch).HasNul) : s.root.HasNul := by
  refine Path.HasNul.of_join h fun name hname => ?_
  simp only [List.mem_cons, List.not_mem_nil, or_false] at hname
  rcases hname with rfl | rfl
  · decide
  · rw [String.toList_append, String.toList_append, List.mem_append, List.mem_append, not_or, not_or]
    exact ⟨⟨by decide, not_mem_percentQuoted (by decide) (by decide) branch⟩, by decide⟩

/-- A snapshot that can be written becomes a baseline, or a stored file cannot be written, unless the path of the store holds
a NUL. -/
theorem saveBaseline_surprises (hx : x.toValue.isWritable = true) : (s.saveBaseline x branch).Ends w (fun _ _ => True)
    fun e _ => e.IsStorage ∨ e = nulFailure ∧ s.root.HasNul := by
  rw [saveBaseline]
  refine .bind (writeDocument_surprises.mono (fun _ _ h => h) ?_) fun _ _ _ => .note trivial
  rintro e _ (hstorage | hunwritable | hnul)
  · exact Or.inl hstorage
  · rw [hx] at hunwritable
    cases hunwritable
  · exact Or.inr ⟨rfl, hasNul_of_baseline hnul⟩

theorem loadBaseline_surprises : (s.loadBaseline branch).Ends w
    (fun found v => answer w (s.baselinePath branch) = .ok found ∧ w.Notes v)
    fun e _ => e.IsStorage ∨ e.IsRecord ∨ Escapes w (s.baselinePath branch) e := by
  rw [loadBaseline]
  have hread := exec_readDocument_answer w (s.baselinePath branch)
  have hreads := reads_answer w (s.baselinePath branch)
  rcases hanswer : answer w (s.baselinePath branch) with e | found
  · rw [hanswer] at hread hreads
    refine .of_error (Action.exec_bind_error hread _) ?_
    cases hreads with
    | malformed => exact Or.inr (Or.inl trivial)
    | directory => exact Or.inl trivial
    | escaped why => exact Or.inr (Or.inr why)
  · rw [hanswer] at hread
    refine .bind_ok hread ?_
    split_ifs
    · exact .bind_ok (Action.exec_note ..) (.pure ⟨rfl, Workspace.notes_note w _⟩)
    · exact .pure ⟨rfl, Workspace.notes_frame.refl w⟩

/-! ### Reports -/

/-- Why there is no report on a snapshot against the baseline of a branch, apart from stored files and records. -/
inductive ReportSurprise (s : Store) (w : Workspace) (x : Snapshot) (branch : String) (t : Thresholds) : Failure → Prop
  | escaped {e : Failure} (h : Escapes w (s.baselinePath branch) e) : ReportSurprise s w x branch t e
  | incomparable {b : Snapshot} {fault : Fault} (hb : answer w (s.baselinePath branch) = .ok (some b))
      (h : compareSnapshots b x = .error fault) : ReportSurprise s w x branch t (.fault fault)
  | unjudged {b : Snapshot} {c : Comparison} {fault : Fault} (hb : answer w (s.baselinePath branch) = .ok (some b))
      (hc : compareSnapshots b x = .ok c) (h : judge (some c) t = .error fault) : ReportSurprise s w x branch t (.fault fault)

end Store

/-! ### Reports -/

/-- A report whose score rise is a number that can be written out. -/
def Report.Told (r : Report) : Prop := ∃ n y, r.details.improvement.averageScore = .number n ∧ n.toReal = .ok y

theorem told_of_judge {b x : Snapshot} {c : Comparison} {t : Thresholds} {r : Report} (hc : compareSnapshots b x = .ok c)
    (h : judge (some c) t = .ok r) : r.Told := by
  obtain ⟨y, hy⟩ := excess_toReal x.metrics.averageScore b.metrics.averageScore
  have hdetails : r.details = c := by
    simp only [judge, bind_eq_ok, pure_eq_ok, Except.ok.injEq] at h
    obtain ⟨_, -, _, -, _, -, _, -, _, -, _, -, _, -, rfl⟩ := h
    rfl
  exact ⟨_, y, by rw [hdetails, (compareSnapshots_amounts hc).2.2.2], hy⟩

theorem told_noBaseline : Report.noBaseline.Told := ⟨_, _, rfl, rfl⟩

theorem fixedText_of_told {r : Report} (h : r.Told) (places : ℕ) :
    ∃ n, r.details.improvement.averageScore.toNumber = .ok n ∧ ∃ y : Binary64, n.fixedText places = .ok (y.fixedText places) := by
  obtain ⟨n, y, hn, hy⟩ := h
  exact ⟨n, by rw [hn]; rfl, y, by rw [Number.fixedText, hy]; rfl⟩

namespace Store

variable {s : Store} {u v w : Workspace} {x : Snapshot} {branch : String} {t : Thresholds}

/-- A snapshot is held against the baseline of a branch, or there is a reason why not. -/
theorem report_surprises : (s.report x branch t).Ends w (fun r _ => r.Told)
    fun e _ => e.IsStorage ∨ e.IsRecord ∨ s.ReportSurprise w x branch t e := by
  rw [report]
  have hcompare : (s.compare x branch).Ends w
      (fun found _ => ∀ p, found = some p → answer w (s.baselinePath branch) = .ok (some p.1) ∧
        compareSnapshots p.1 x = .ok p.2)
      fun e _ => e.IsStorage ∨ e.IsRecord ∨ s.ReportSurprise w x branch t e := by
    rw [compare]
    refine .bind (loadBaseline_surprises.mono (fun _ _ h => h.1) fun e _ h => h.imp_right (Or.imp_right .escaped)) ?_
    rintro (_ | b) v hb
    · exact .pure (by simp)
    · refine .bind (P := fun c _ => compareSnapshots b x = .ok c) (.lift_fault (fun _ h => h) fun fault h => ?_) fun c v hc => ?_
      · exact Or.inr (Or.inr (.incomparable hb h))
      · refine .bind_ok (Action.exec_note ..) (.pure ?_)
        rintro _ ⟨⟩
        exact ⟨hb, hc⟩
  refine .bind hcompare fun found v hfound => ?_
  -- the verdict is the same with the warning noted before it and without
  have hjudge : ∀ u, (liftM (judge (found.map (·.2)) t) : Action Report).Ends u (fun r _ => r.Told)
      fun e _ => e.IsStorage ∨ e.IsRecord ∨ s.ReportSurprise w x branch t e := by
    intro u
    rcases found with _ | ⟨b, c⟩
    · exact .of_ok rfl told_noBaseline
    · obtain ⟨hb, hc⟩ := hfound _ rfl
      exact .lift_fault (fun r hr => told_of_judge hc hr) fun fault h => Or.inr (Or.inr (.unjudged hb hc h))
  have hrest : ∀ u, (do
      let report ← liftM (judge (found.map (·.2)) t)
      Action.note .report .info ("Alert report for " ++ x.id ++ " vs " ++ branch ++ ": " ++
        report.verdict.name ++ " (" ++ report.summary.score.value.text ++ "/100)")
      return report : Action Report).Ends u (fun r _ => r.Told)
        fun e _ => e.IsStorage ∨ e.IsRecord ∨ s.ReportSurprise w x branch t e :=
    fun u => .bind (hjudge u) fun r _ hr => .bind_ok (Action.exec_note ..) (.pure hr)
  split_ifs
  · exact .bind_ok (Action.exec_note ..) (hrest _)
  · exact hrest v

/-! ### Listing and cleaning up -/

/-- Why snapshots cannot be listed: the file system refuses the name of the directory or of a document, or a document is
nested too deeply or holds a number out of range. -/
inductive ListSurprise (s : Store) (w : Workspace) : Failure → Prop
  | root (h : w.locate s.root = .error .nameTooLong) : ListSurprise s w .system
  | document {v : Workspace} {name : String} {e : Failure} (hv : w.Notes v) (hname : name ∈ s.listedNames w)
      (h : Escapes v (s.root.child name) e) : ListSurprise s w e

theorem ListSurprise.not_isStorage {e : Failure} (h : s.ListSurprise w e) : ¬e.IsStorage := by
  rcases h with _ | ⟨_, _, _ | _ | _⟩ <;> exact id

theorem readListed_surprises (name : String) (hv : w.Notes v) : (s.readListed name).Ends v (fun _ u => w.Notes u)
    fun e _ => Escapes v (s.root.child name) e := by
  have hreads := reads_answer v (s.root.child name)
  have hread := exec_readDocument_answer v (s.root.child name)
  have hnote : ∀ e, w.Notes (v.note e) := fun e => Workspace.notes_frame.trans hv (Workspace.notes_note v e)
  generalize answer v (s.root.child name) = r at hreads hread
  rw [readListed]
  cases hreads with
  | absent => exact .of_ok (Action.exec_tryCatch_ok hread) hv
  | found => exact .of_ok (Action.exec_tryCatch_ok hread) hv
  | malformed => exact .of_ok (Action.exec_tryCatch_error hread) (hnote _)
  | directory => exact .of_ok (Action.exec_tryCatch_error hread) (hnote _)
  | @escaped e why =>
    have hescapes := why
    refine .congr (Action.exec_tryCatch_error hread) ?_
    cases why <;> exact .of_error (Action.exec_throw _) hescapes

theorem list_surprises : s.list.Ends w (fun _ _ => True) fun e _ => s.ListSurprise w e := by
  by_cases hlong : w.locate s.root = .error .nameTooLong
  · exact .of_error (exec_list_refused hlong) (.root hlong)
  by_cases hroot : w.node s.root = .ok .directory
  · have hpass : ((s.listedNames w).filterMapM s.readListed).Ends w (fun _ _ => True) fun e _ => s.ListSurprise w e := by
      refine (Action.Ends.filterMapM_keeps (I := w.Notes) (fun name hname v hv => ?_)
        (Workspace.notes_frame.refl w)).mono (fun _ _ _ => trivial) fun _ _ h => h
      exact (readListed_surprises name hv).mono (fun _ _ hu => hu) fun _ _ h => .document hv hname h
    exact .congr (exec_list hroot) (.bind hpass fun _ _ _ => .pure trivial)
  · exact .of_ok (exec_list_nowhere hlong hroot) trivial

/-- A snapshot that a cleanup is to remove. -/
def Ages (s : Store) (w : Workspace) (maxAge : Number) (x : Snapshot) : Prop := ∃ oldest xs u,
  (Number.int w.clock).sub maxAge = .ok oldest ∧ s.list.exec w = (.ok xs, u) ∧ x ∈ xs ∧ oldest.le (.int x.timestamp) = false

/-- Why snapshots cannot be cleaned up: the age is too large to count with or to write, they cannot be listed, or the id of
an old one names no file or holds a NUL. -/
inductive CleanSurprise (s : Store) (w : Workspace) (maxAge : Number) : Failure → Prop
  | cutoff {fault : Fault} (h : (Number.int w.clock).sub maxAge = .error fault) : CleanSurprise s w maxAge (.fault fault)
  | listing {e : Failure} (h : s.ListSurprise w e) : CleanSurprise s w maxAge e
  | id {x : Snapshot} {fault : Fault} (hx : s.Ages w maxAge x) (h : s.snapshotPath x.id = .error fault) :
      CleanSurprise s w maxAge (.fault fault)
  | nul {x : Snapshot} {p : Path} (hx : s.Ages w maxAge x) (hp : s.snapshotPath x.id = .ok p) (h : p.HasNul) :
      CleanSurprise s w maxAge nulFailure
  | unwritable {fault : Fault} (h : maxAge.written = .error fault) : CleanSurprise s w maxAge (.fault fault)

theorem hasNul_of_write {p : Path} {bytes : ByteArray} (h : w.write p bytes = .error .nulInName) : p.HasNul := by
  rw [Workspace.write] at h
  rcases htarget : w.target p with o | loc
  · rw [htarget, error_bind, Except.error.injEq] at h
    exact hasNul_of_target (h ▸ htarget)
  · rw [htarget] at h
    cases h

theorem hasNul_of_remove {p : Path} (h : w.remove p = .error .nulInName) : p.HasNul :=
  hasNul_of_bind_locate (fun loc => by split <;> nofun) h

theorem removeAll_surprises {maxAge : Number} : ∀ {xs : List Snapshot} {v : Workspace}, (∀ x ∈ xs, s.Ages w maxAge x) →
    (s.removeAll xs).Ends v (fun _ _ => True) fun e _ => e.IsStorage ∨ s.CleanSurprise w maxAge e
  | [], _, _ => .pure trivial
  | x :: xs, v, h => by
    have hx := h x (by simp)
    have hrest : ∀ {v}, (s.removeAll xs).Ends v (fun _ _ => True) fun e _ => e.IsStorage ∨ s.CleanSurprise w maxAge e :=
      removeAll_surprises fun y hy => h y (List.mem_cons_of_mem x hy)
    rw [removeAll]
    rcases hpath : s.snapshotPath x.id with fault | p
    · exact .of_error (Action.exec_bind_error (Action.exec_lift_fault _) _) (Or.inr (.id hx hpath))
    · refine .bind_ok (Action.exec_lift_ok rfl) (.bind_ok Action.exec_get ?_)
      rcases hremove : v.remove p with o | u
      · cases o
        case missing => exact hrest
        case nulInName => exact .of_error (Action.exec_throw _) (Or.inr (.nul hx hpath (hasNul_of_remove hremove)))
        all_goals exact .of_error (Action.exec_throw _) (Or.inl trivial)
      · exact .bind_ok (Action.exec_set u) (.bind hrest fun _ _ _ => .pure trivial)

theorem cleanup_surprises (maxAge : Number) : (s.cleanup maxAge).Ends w (fun _ _ => True)
    fun e _ => e.IsStorage ∨ s.CleanSurprise w maxAge e := by
  rw [cleanup]
  refine .bind_ok Action.exec_get ?_
  refine .bind (P := fun oldest v => w = v ∧ (Number.int w.clock).sub maxAge = .ok oldest)
    (.lift_fault (fun _ h => ⟨rfl, h⟩) fun _ h => Or.inr (.cutoff h)) ?_
  rintro oldest _ ⟨rfl, holdest⟩
  refine .bind (P := fun xs u => s.list.exec w = (.ok xs, u)) ⟨fun h => h, fun h => Or.inr (.listing (list_surprises.error h))⟩
    fun xs u hxs => ?_
  have hages : ∀ x ∈ xs.filter fun x => !oldest.le (.int x.timestamp), s.Ages w maxAge x := by
    intro x hx
    obtain ⟨hmem, hle⟩ := List.mem_filter.mp hx
    exact ⟨oldest, xs, u, holdest, hxs, hmem, by simpa using hle⟩
  refine .bind (removeAll_surprises hages) fun removed v _ => ?_
  split_ifs
  · refine .bind (.lift_fault (P := fun _ _ => True) (fun _ _ => trivial) fun _ h => Or.inr (.unwritable h)) fun _ _ _ => ?_
    exact .bind_ok (Action.exec_note ..) (.pure trivial)
  · exact .pure trivial

end Store

/-! ### Checks -/

theorem branchOf_cases (v : Value) : (∃ branch, v = .text branch ∧ branchOf v = .ok branch) ∨
    (∀ branch, v ≠ .text branch) ∧ branchOf v = .error .wrongKind := by
  cases v <;> simp [branchOf]

theorem Settings.store_cases (s : Settings) : (∃ t, s.snapshotsDir = .text t ∧ s.store = .ok ⟨.ofText t⟩) ∨
    (∀ t, s.snapshotsDir ≠ .text t) ∧ s.store = .error .wrongKind := by
  rw [store]
  cases s.snapshotsDir <;> simp [Path.ofValue]

namespace Check

variable {c : Check} {u v w : Workspace}

/-- A run until the analyses are recorded. -/
def capture (c : Check) : Action Snapshot := do
  let (branch, commit, analyses) ← c.observe
  c.store.create (analyses.map FileAnalysis.summary) branch commit none

/-- Why a check comes to no end, apart from stored files and records: the version control fails, the sources cannot be looked
for, the analyses cannot be recorded, the branch of the baseline is no text, there is no report, the report has no written
form, or the path of the store holds a NUL. -/
inductive Surprise (c : Check) (w : Workspace) : Failure → Prop
  | revision {e : Failure} (h : Revision.Surprise w c.root e) : c.Surprise w e
  | scan {asked : String × String} {u : Workspace} {e : Failure} (hu : c.start.exec w = (.ok asked, u))
      (h : ScanSurprise u c.root c.settings.extensions c.settings.excludePatterns e) : c.Surprise w e
  | create {branch commit : String} {as : List FileAnalysis} {u : Workspace} {e : Failure}
      (hu : c.observe.exec w = (.ok (branch, commit, as), u)) (h : c.store.CreateSurprise w as e) : c.Surprise w e
  | branch (h : ∀ branch, c.settings.baselineBranch ≠ .text branch) : c.Surprise w (.fault .wrongKind)
  | report {x : Snapshot} {u : Workspace} {branch : String} {e : Failure} (hu : c.capture.exec w = (.ok x, u))
      (hbranch : c.settings.baselineBranch = .text branch)
      (h : c.store.ReportSurprise u x branch c.settings.limits e) : c.Surprise w e
  | unwritable {x : Snapshot} {u v : Workspace} {branch : String} {r : Report} (hu : c.capture.exec w = (.ok x, u))
      (hbranch : c.settings.baselineBranch = .text branch)
      (hr : (c.store.report x branch c.settings.limits).exec u = (.ok r, v)) (h : r.toValue.isWritable = false) :
      c.Surprise w (.fault (.badValue .hugeInteger))
  | nul (h : c.store.root.HasNul) : c.Surprise w nulFailure

/-- What came of a run: nothing was analysed, or a snapshot was recorded under a new id and judged. -/
inductive Comes (c : Check) (w : Workspace) : Outcome → Prop
  | nothing {o : Outcome} (hsnapshot : o.snapshot = none) (hreport : o.report = none) (hcode : o.exitCode = 0) : c.Comes w o
  | judged {o : Outcome} {x : Snapshot} {r : Report} (hsnapshot : o.snapshot = some x) (hid : Store.IsDrawn w.clock x.id)
      (hreport : o.report = some r) (hr : r.Told) : c.Comes w o

theorem start_ends : c.start.Ends w (fun asked u => c.start.exec w = (.ok asked, u) ∧ w.Follows u)
    fun e _ => Revision.Surprise w c.root e := by
  have hends : c.start.Ends w (fun _ u => w.Follows u) fun e _ => Revision.Surprise w c.root e := by
    rw [start]
    refine .bind ((Revision.branch_ends Workspace.follows_frame Workspace.follows_note c.root).mono (fun _ _ h => h)
      fun _ _ h => h.2) fun branch u hu => ?_
    refine .bind ((Revision.commit_ends Workspace.follows_frame Workspace.follows_note c.root).mono (fun _ _ h => h)
      fun _ _ h => hu.revision h.2) fun commit v hv => ?_
    refine .bind_ok (Action.exec_note ..) (.pure ?_)
    exact Workspace.follows_frame.trans (Workspace.follows_frame.trans hu hv) (Workspace.follows_note v _)
  exact ⟨fun h => ⟨h, hends.ok h⟩, fun h => hends.error h⟩

theorem observe_surprises : c.observe.Ends w (fun seen v => w.Follows v ∧ ∀ a ∈ seen.2.2, a.Scored)
    fun e _ => c.Surprise w e := by
  rw [observe]
  refine .bind (start_ends.mono (fun _ _ h => h) fun _ _ h => .revision h) ?_
  rintro ⟨branch, commit⟩ u ⟨hu, hfollows⟩
  refine .bind (c.analyze_surprises.mono (fun _ _ h => h) fun _ _ h => .scan hu h) ?_
  rintro as v ⟨hv, has⟩
  refine .bind_ok (Action.exec_note ..) (.pure ⟨?_, has⟩)
  exact Workspace.follows_frame.trans (Workspace.follows_frame.trans hfollows hv) (Workspace.follows_note v _)

theorem comment_ok {r : Report} (hr : r.Told) (number : Value) : ∃ s, r.comment number = .ok s := by
  obtain ⟨n, hn, y, hy⟩ := fixedText_of_told hr 2
  have hlines : ∃ ls, improvementLines r.details.improvement = .ok ls := by
    simp only [improvementLines, hn, ok_bind, hy, pure_eq_ok]
    exact ⟨_, rfl⟩
  obtain ⟨ls, hls⟩ := hlines
  rw [Report.comment, hls]
  rcases r.hasImprovements with _ | _
  · exact ⟨_, rfl⟩
  · exact ⟨_, rfl⟩

/-- What the forms of a report fail with: a number without a written form. -/
theorem outputFile_eq_error {r : Report} (hr : r.Told) {format id : String} {fault : Fault}
    (h : outputFile format r id = .error fault) : r.toValue.isWritable = false ∧ fault = .badValue .hugeInteger := by
  obtain ⟨comment, hcomment⟩ := comment_ok hr .null
  rw [outputFile] at h
  split_ifs at h
  · rw [Value.checkWritable] at h
    split_ifs at h with hwritable
    · cases h
    · cases h
      exact ⟨by simpa using hwritable, rfl⟩
  · rw [hcomment] at h
    cases h

/-- Writing the file of a format fails only where writing fails, where the report has no written form, or for a NUL in the
path of the store. -/
theorem writeOutput_surprises {r : Report} {clock : ℤ} {id : String} (hr : r.Told) (hid : Store.IsDrawn clock id)
    (format : Value) : (c.writeOutput r id format).Ends v (fun _ _ => True) fun e _ => e.IsStorage ∨
      r.toValue.isWritable = false ∧ e = .fault (.badValue .hugeInteger) ∨ c.store.root.HasNul ∧ e = Store.nulFailure := by
  refine ends_writeOutput (fun fault hfault => ?_) trivial (fun name content o hfile hwrite => ?_) fun _ _ _ _ _ _ => trivial
  · obtain ⟨hwritable, rfl⟩ := outputFile_eq_error hr hfault
    exact Or.inr (Or.inl ⟨hwritable, rfl⟩)
  have hnul : '\x00' ∉ name.toList := by
    rcases outputFile_name hfile with rfl | rfl
    all_goals
      rw [String.toList_append, String.toList_append, List.mem_append, List.mem_append, not_or, not_or]
      exact ⟨⟨by decide, hid.not_mem_nul⟩, by decide⟩
  by_cases ho : o = .nulInName
  · subst ho
    refine Or.inr (Or.inr ⟨Path.HasNul.of_join (Store.hasNul_of_write hwrite) ?_, rfl⟩)
    rintro _ hmem
    exact List.mem_singleton.mp hmem ▸ hnul
  · rw [Store.storageFailure_of_ne ho]
    exact Or.inl trivial

/-- Telling the build service fails only where writing fails. -/
theorem tellService_surprises (r : Report) : (tellService r).Ends v (fun _ _ => True) fun e _ => e.IsStorage :=
  ends_tellService trivial (fun _ _ _ _ _ _ => trivial) fun _ _ _ _ _ _ => trivial

/-- A check comes to an outcome or fails with a failure of stored files or records, unless there is a reason why not. -/
theorem run_surprises (hw : w.DrawsDigits) (hformats : ∃ items, c.settings.outputFormats.elements = .ok items) :
    c.run.Ends w (fun o _ => c.Comes w o) fun e _ => e.IsStorage ∨ e.IsRecord ∨ c.Surprise w e := by
  obtain ⟨items, hitems⟩ := hformats
  rw [run_eq]
  refine .bind (P := fun seen u => c.observe.exec w = (.ok seen, u) ∧ w.Follows u ∧ ∀ a ∈ seen.2.2, a.Scored)
    ⟨fun h => ⟨h, observe_surprises.ok h⟩, fun h => Or.inr (Or.inr (observe_surprises.error h))⟩ ?_
  rintro ⟨branch, commit, as⟩ u ⟨hobserve, hfollows, has⟩
  simp only
  split_ifs
  · exact .bind_ok (Action.exec_note ..) (.pure (.nothing rfl rfl rfl))
  rw [judgeAnalyses]
  have hcreate := Store.create_surprises (s := c.store) has hw hfollows branch commit
  -- each reason for a failure is told from the start, so what has happened so far is kept as a run of its own
  refine .bind (P := fun x v => c.capture.exec w = (.ok x, v) ∧ Store.IsDrawn w.clock x.id)
    ⟨fun h => ⟨by rw [capture, Action.exec_bind_ok hobserve]; exact h, (hcreate.ok h).1⟩,
      fun h => (hcreate.error h).imp_right fun he => Or.inr (.create hobserve he)⟩ ?_
  rintro x v ⟨hcapture, hid⟩
  rcases branchOf_cases c.settings.baselineBranch with ⟨name, htext, hbranch⟩ | ⟨htext, hbranch⟩
  case inr =>
    rw [hbranch]
    exact .of_error (Action.exec_bind_error (Action.exec_lift_fault _) _) (Or.inr (Or.inr (.branch htext)))
  refine .bind_ok (Action.exec_lift_ok hbranch) ?_
  refine .bind (P := fun r v' => (c.store.report x name c.settings.limits).exec v = (.ok r, v') ∧ r.Told)
    ⟨fun h => ⟨h, Store.report_surprises.ok h⟩,
      fun h => (Store.report_surprises.error h).imp_right (Or.imp_right fun he => .report hcapture htext he)⟩ ?_
  rintro r v₁ ⟨hreport, hr⟩
  refine .bind_ok (Action.exec_lift_ok hitems) ?_
  have houtputs : (items.filterMapM (c.writeOutput r x.id)).Ends v₁ (fun _ _ => True)
      fun e _ => e.IsStorage ∨ e.IsRecord ∨ c.Surprise w e := by
    refine Action.Ends.filterMapM_keeps (I := fun _ => True) (fun format _ _ _ => ?_) trivial
    refine (writeOutput_surprises hr hid format).mono (fun _ _ h => h) ?_
    rintro e _ (hstorage | ⟨hwritable, rfl⟩ | ⟨hnul, rfl⟩)
    · exact Or.inl hstorage
    · exact Or.inr (Or.inr (.unwritable hcapture htext hreport hwritable))
    · exact Or.inr (Or.inr (.nul hnul))
  refine .bind houtputs fun written v₂ _ => ?_
  refine .bind ((tellService_surprises r).mono (fun _ _ h => h) fun _ _ h => Or.inl h) fun _ v₃ _ => ?_
  exact .pure (.judged rfl hid rfl hr)

end Check

end ScoreGate
