import ScoreGate.Proofs.Outputs
import ScoreGate.Proofs.Recording
import ScoreGate.Proofs.Validity

/-!
# Checking an unchanged tree again

The baseline of a check that was recorded holds the summaries of what every later run analyses, as long as nothing
changes that the check reads.  A run writes only files that it does not read, and passes, or some file could not be written.

* `Check.analyses_scored`: what is analysed has whole scores, so the baseline is one of analysed files.
* `Check.judgeAnalyses_ends`, `Check.run_ends`: a run from a settled workspace.
-/

namespace ScoreGate

/-! ### Whole scores -/

theorem mem_of_filterMapM_ok {ε α β : Type} {f : α → Except ε (Option β)} : ∀ {xs : List α} {ys : List β} {y : β},
    xs.filterMapM f = .ok ys → y ∈ ys → ∃ x ∈ xs, f x = .ok (some y)
  | [], ys, y, h, hy => by
    cases h
    simp at hy
  | x :: xs, ys, y, h, hy => by
    rw [List.filterMapM_cons, bind_eq_ok] at h
    obtain ⟨_ | z, hx, h⟩ := h
    · obtain ⟨x', hx', hf⟩ := mem_of_filterMapM_ok h hy
      exact ⟨x', List.mem_cons_of_mem x hx', hf⟩
    · obtain ⟨zs, hzs, h⟩ := bind_eq_ok.mp h
      cases h
      rcases List.mem_cons.mp hy with rfl | hy
      · exact ⟨x, by simp, hx⟩
      · obtain ⟨x', hx', hf⟩ := mem_of_filterMapM_ok hzs hy
        exact ⟨x', List.mem_cons_of_mem x hx', hf⟩

namespace Check

variable {c : Check} {u v w : Workspace} {x : Snapshot} {as : List FileAnalysis} {branch : String}

theorem analyses_scored (h : c.analyses w = .ok as) : ∀ a ∈ as, ∃ n, a.score.total.value = .int n := by
  intro a ha
  obtain ⟨ps, -, h⟩ := bind_eq_ok.mp h
  obtain ⟨read, hread, h⟩ := bind_eq_ok.mp h
  cases h
  obtain ⟨b, hb, rfl⟩ := List.mem_map.mp ha
  have hscore : (b.relativeTo c.root).score = b.score := by
    rw [FileAnalysis.relativeTo]
    split <;> rfl
  obtain ⟨p, -, hp⟩ := mem_of_filterMapM_ok hread hb
  rw [hscore]
  rcases hn : w.node p with o | ⟨_ | bytes⟩
  · rw [hn] at hp
    rcases o <;> cases hp
  · rw [hn] at hp
    cases hp
  · rw [hn, listed, Except.ok.injEq, Option.map_eq_some_iff] at hp
    obtain ⟨s, -, rfl⟩ := hp
    exact ⟨_, rfl⟩

theorem analysed_of_records (h : c.analyses w = .ok as) (hrecords : Store.Records (as.map FileAnalysis.summary) x) :
    x.Analysed := by
  refine ⟨hrecords.check, fun f hf => ?_, fun f hf => ?_⟩
  · rw [hrecords.listed] at hf
    obtain ⟨a, -, rfl⟩ := List.mem_map.mp hf
    exact ⟨a.path, rfl⟩
  · rw [hrecords.listed] at hf
    obtain ⟨a, ha, rfl⟩ := List.mem_map.mp hf
    obtain ⟨n, hn⟩ := analyses_scored h a ha
    exact ⟨n, congrArg Value.number hn⟩

end Check

/-! ### The parts of a run -/

namespace Check

variable {watched : Location → Bool} {c : Check} {u v w : Workspace} {x : Snapshot} {as : List FileAnalysis}
  {branch : String}

/-- A report's name is that of a file beside the snapshots. -/
theorem own_of_outputName {clock : ℤ} {cs : List Char} {name : String}
    (h : name = "report-" ++ Store.drawnId clock cs ++ ".json" ∨ name = "comment-" ++ Store.drawnId clock cs ++ ".md") :
    c.store.Own (c.store.location ++ [name]) := by
  rcases h with rfl | rfl
  · exact .report clock cs
  · exact .comment clock cs

theorem writeOutput_ends (h : w.Same watched v) (hown : ∀ loc, c.store.Own loc → watched loc = false) {r : Report}
    {clock : ℤ} {cs : List Char} {format : Value}
    (hform : ∃ output, outputFile format.display r (Store.drawnId clock cs) = .ok output) :
    (c.writeOutput r (Store.drawnId clock cs) format).Ends v (fun _ u => w.Same watched u)
      fun e u => c.store.WriteFails watched w e ∧ w.Same watched u := by
  obtain ⟨output, houtput⟩ := hform
  refine ends_writeOutput (fun fault hfault => ?_) h (fun _ _ _ _ hwrite => ⟨.output h hwrite, h⟩)
    fun name content hname hdir _ e => ?_
  · rw [houtput] at hfault
    cases hfault
  · have hloc := hown _ (own_of_outputName (outputFile_name hname))
    have hput : w.Same watched { v with tree := v.tree.put _ (.file content.toUTF8) } :=
      h.trans (.put h.apart hloc hdir content.toUTF8 fun _ hf => hf)
    exact hput.trans (Workspace.spares_note watched _ e hput.apart)

theorem tellService_ends (h : w.Same watched v) (r : Report) : (tellService r).Ends v (fun _ u => w.Same watched u)
    fun e u => c.store.WriteFails watched w e ∧ w.Same watched u := by
  refine ends_tellService h (fun _ _ _ hnamed hsome hadd => ⟨.service h hnamed hsome hadd, h⟩)
    fun target loc more hservice hloc hdir => ?_
  subst hloc
  exact h.trans (.put h.apart (h.apart.service target hservice) hdir _ fun _ hf => hf)

/-- The report on a new record of what the baseline holds is that nothing has moved. -/
theorem report_ends {y : Snapshot} {t : Thresholds} (h : w.Same (c.reads branch) v)
    (hbaseline : v.node ((Slot.baseline branch).path c.store) = .ok (.file x.text.toUTF8))
    (hreadable : Store.Readable v.depth x) (hx : x.Analysed) (hfiles : y.files = x.files) (hmetrics : y.metrics = x.metrics)
    (ht : t.Sound) {E : Failure → Workspace → Prop} : (c.store.report y branch t).Ends v
      (fun r u => r = .passed (x.files.map (·.path)) ∧ w.Same (c.reads branch) u) E := by
  have hread : (Store.readDocument ((Slot.baseline branch).path c.store)).exec v = (.ok (some x), v) := by
    rw [Store.exec_readDocument, hbaseline]
    simp only [Store.decode_text _ hx.check hreadable]
    rfl
  have hload : (c.store.loadBaseline branch).exec v = (.ok (some x), v) := by
    rw [Store.loadBaseline, Store.baselinePath_eq, Action.exec_bind_ok hread]
    rfl
  have hnote : ∀ {u}, w.Same (c.reads branch) u → ∀ e, w.Same (c.reads branch) (u.note e) :=
    fun hu e => hu.trans (Workspace.spares_note _ _ e hu.apart)
  have hcompare : (c.store.compare y branch).Ends v
      (fun found u => found = some (x, .still (x.files.map (·.path))) ∧ w.Same (c.reads branch) u) E := by
    rw [Store.compare]
    refine .bind_ok hload (.bind_ok (Action.exec_lift_ok (compareSnapshots_still hx hfiles hmetrics)) ?_)
    exact .bind_ok (Action.exec_note ..) (.pure ⟨rfl, hnote h _⟩)
  rw [Store.report]
  refine .bind hcompare ?_
  rintro _ u ⟨rfl, hu⟩
  refine .bind_ok (Action.exec_lift_ok (judge_still ht _)) ?_
  exact .bind_ok (Action.exec_note ..) (.pure ⟨rfl, hnote hu _⟩)

/-! ### A run -/

/-- What comes of a run where nothing has moved, when these files were analysed. -/
structure Passes (as : List FileAnalysis) (o : Outcome) : Prop where
  analyzed : o.filesAnalyzed = as.length
  recorded : ∃ y, o.snapshot = some y ∧ y.files = as.map FileAnalysis.summary
  report : o.report = some (.passed (as.map fun a => .text a.path))
  blocked : o.blocked = false
  warned : o.warned = false
  exitCode : o.exitCode = 0

/-- The report that nothing has moved since the baseline can be written in any format. -/
theorem Settled.forms (hw : c.Settled branch x w) (format id : String) :
    ∃ output, outputFile format (.passed (x.files.map (·.path))) id = .ok output := by
  obtain ⟨as, -, hrecords⟩ := hw.analyses
  refine outputFile_passed (fun f hf => ?_) ?_ format id
  · rw [hrecords.paths_eq] at hf
    obtain ⟨a, -, rfl⟩ := List.mem_map.mp hf
    exact ⟨a.path, rfl⟩
  · rw [List.length_map]
    exact Snapshot.isWritable_length hrecords.check hw.written

theorem judgeAnalyses_ends (hvalid : c.settings.Valid) (hbranch : branchOf c.settings.baselineBranch = .ok branch)
    (hown : c.Overlooks) (hw : c.Settled branch x w) (has : c.analyses w = .ok as) (h : w.Same (c.reads branch) v)
    (current commit : String) : (c.judgeAnalyses current commit as).Ends v
      (fun o u => Passes as o ∧ w.Same (c.reads branch) u)
      fun e u => c.store.WriteFails (c.reads branch) w e ∧ w.Same (c.reads branch) u := by
  obtain ⟨as', has', hrecords⟩ := hw.analyses
  obtain rfl : as' = as := by
    rw [has', Except.ok.injEq] at has
    exact has
  have hx := analysed_of_records has hrecords
  have hrepeats : Store.Repeats (as'.map FileAnalysis.summary) := ⟨x, hrecords, hw.written⟩
  obtain ⟨items, hitems⟩ := hvalid.formats
  -- recording, reporting, writing the outputs and telling the service, one after the other
  rw [judgeAnalyses]
  refine .bind ((Store.create_ends h hown.reads_own).mono (fun _ _ hy => hy) fun e u he => ⟨he.1 hrepeats rfl, he.2⟩) ?_
  rintro y u ⟨hy, ⟨cs, hid⟩, hu⟩
  refine .bind_ok (Action.exec_lift_ok hbranch) ?_
  have hu' := hw.of_same hu
  refine .bind (report_ends hu hu'.baseline hu'.readable hx (hy.listed.trans hrecords.listed.symm)
    (hrecords.metrics_eq hy.counted) hvalid.limits_sound) ?_
  rintro _ u₁ ⟨rfl, hu₁⟩
  refine .bind_ok (Action.exec_lift_ok hitems) ?_
  have houtputs : (items.filterMapM (c.writeOutput (.passed (x.files.map (·.path))) y.id)).Ends u₁
      (fun _ u₂ => w.Same (c.reads branch) u₂)
      fun e u₂ => c.store.WriteFails (c.reads branch) w e ∧ w.Same (c.reads branch) u₂ := by
    rw [hid]
    exact Action.Ends.filterMapM_keeps
      (fun format _ u₂ hu₂ => writeOutput_ends hu₂ hown.reads_own (hw.forms format.display _)) hu₁
  refine .bind houtputs fun written u₂ hu₂ => .bind (tellService_ends hu₂ _) fun _ u₃ hu₃ => ?_
  refine .pure ⟨⟨rfl, ⟨y, rfl, hy.listed⟩, by rw [hrecords.paths_eq], rfl, rfl, rfl⟩, hu₃⟩

theorem observe_ends (hw : c.Settled branch x w) (has : c.analyses w = .ok as) : c.observe.Ends w
    (fun seen u => seen.2.2 = as ∧ w.Same (c.reads branch) u) fun _ _ => False := by
  have hframe := Workspace.spares_frame (c.reads branch)
  have hspares := Workspace.spares_note (c.reads branch)
  have hnote : ∀ {u}, w.Same (c.reads branch) u → ∀ e, w.Same (c.reads branch) (u.note e) :=
    fun hu e => hu.trans (hspares _ e hu.apart)
  -- the version control answers as long as nothing is disturbed
  have htold : ∀ {u}, w.Same (c.reads branch) u → ∀ e, ¬Revision.Surprise u c.root e := by
    intro u hu e
    obtain ⟨n, hroot⟩ := (hw.of_same hu).firm.root
    exact Revision.not_surprise hu.apart.revision hroot e
  have hstart : c.start.Ends w (fun _ u => w.Same (c.reads branch) u) fun _ _ => False := by
    rw [start]
    refine .bind ((Revision.branch_ends hframe hspares c.root).mono (fun _ _ h => h hw.apart)
      fun e _ h => absurd h.2 (htold (.refl hw.apart) e)) fun current u₁ hu₁ => ?_
    refine .bind ((Revision.commit_ends hframe hspares c.root).mono (fun _ _ h => hu₁.trans (h hu₁.apart))
      fun e _ h => absurd h.2 (htold hu₁ e)) fun commit u₂ hu₂ => ?_
    exact .bind_ok (Action.exec_note ..) (.pure (hnote hu₂ _))
  rw [observe]
  refine .bind hstart ?_
  rintro ⟨current, commit⟩ u hu
  -- what a check reads is as it was, so it analyses what was analysed before
  have hsettled := hw.of_same hu
  obtain ⟨-, hsame⟩ := hw.firm.of_same reads_of_sees hu
  refine .bind (P := fun as' v => as' = as ∧ w.Same (c.reads branch) v)
    ((analyze_ends hsettled.apart hsettled.firm.steady).mono ?_ ?_) fun as' v hv =>
      .bind_ok (Action.exec_note ..) (.pure ⟨hv.1, hnote hv.2 _⟩)
  · rintro as' v ⟨has', hv⟩
    rw [hsame, has, Except.ok.injEq] at has'
    exact ⟨has'.symm, hu.trans hv⟩
  · rintro e v ⟨he, -⟩
    rw [hsame, has] at he
    cases he

namespace Settled

theorem analysed (hw : c.Settled branch x w) :
    ∃ as, as ≠ [] ∧ c.analyses w = .ok as ∧ Store.Records (as.map FileAnalysis.summary) x := by
  obtain ⟨as, has, hrecords⟩ := hw.analyses
  refine ⟨as, ?_, has, hrecords⟩
  rintro rfl
  exact hw.files hrecords.listed

end Settled

/-- A run from a settled workspace passes, or some file cannot be written; the workspace is as settled afterwards. -/
theorem run_ends (hvalid : c.settings.Valid) (hbranch : branchOf c.settings.baselineBranch = .ok branch)
    (hown : c.Overlooks) (hw : c.Settled branch x w) : c.run.Ends w
      (fun o v => (∃ as, as ≠ [] ∧ c.analyses w = .ok as ∧ Passes as o) ∧ w.Same (c.reads branch) v)
      fun e v => c.store.WriteFails (c.reads branch) w e ∧ w.Same (c.reads branch) v := by
  obtain ⟨as, hsome, has, -⟩ := hw.analysed
  rw [run_eq]
  refine .bind ((observe_ends hw has).mono (fun _ _ h => h) fun _ _ h => h.elim) ?_
  rintro ⟨current, commit, as'⟩ u ⟨heq, hu⟩
  obtain rfl : as' = as := heq
  have hfilled : as'.isEmpty = false := by simpa using hsome
  simp only [hfilled, Bool.false_eq_true, if_false]
  exact (judgeAnalyses_ends hvalid hbranch hown hw has hu current commit).mono
    (fun o v h => ⟨⟨as', hsome, has, h.1⟩, h.2⟩) fun _ _ h => h

end Check

end ScoreGate
