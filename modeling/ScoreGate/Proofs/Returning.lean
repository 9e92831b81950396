import ScoreGate.Proofs.Drawing
import ScoreGate.Proofs.Inserting

/-!
# Runs that come to their end

A run of a check writes the document of a new snapshot, the files beside it and what it tells the build service.  Where
nothing is in the way of these files a run returns, and from a settled workspace it then passes.  As each run leaves the
workspace as settled as it was, so does every later one.

* `Check.Unhindered`: nothing is in the way.
* `Check.Unhindered.run_returns`: a run returns.
* `Check.Runs`, `Check.runs_pass`: any number of runs, at any times, with other changes in between.
-/

namespace ScoreGate

/-! ### Recording again -/

namespace Store

/-- Summaries that were recorded and written before can be recorded at any time that can be written. -/
theorem Repeats.creatable {files : List FileSummary} (h : Repeats files) {clock : ℤ}
    (hclock : (Number.int clock).isWritable = true) : Creatable files none clock := by
  obtain ⟨b, hb, hwritable⟩ := h
  refine ⟨b.metrics, hb.counted, fun x hfiles hmetrics htime henvironment => ?_⟩
  have hlisted : x.files = b.files := hfiles.trans hb.listed.symm
  refine ⟨Snapshot.check_of_same hb.check hlisted hmetrics, Snapshot.isWritable_still hwritable hlisted hmetrics ?_ ?_⟩
  · rw [htime]
    exact hclock
  · rw [henvironment]
    rfl

end Store

namespace Check

variable {c : Check} {u v w : Workspace} {x : Snapshot} {as : List FileAnalysis} {branch name : String}

/-! ### Nothing in the way -/

/-- Nothing is in the way of what a run writes: the document of the new id can be written, the file system takes the names of
the files beside it, and a file that the build service names is there. -/
structure Unhindered (c : Check) (w : Workspace) : Prop extends c.Begins w where
  access : c.store.Accessible w (Store.nextId w)
  taken : ∀ name ∈ companions (Store.nextId w), ¬w.Refuses (c.store.root.child name)
  service : ∀ target, w.valueOf? outputVariable = some target → target.isEmpty = false → namesFile target = true ∧
    ∃ loc bytes, w.locate (.ofText target) = .ok loc ∧ w.tree.find? loc = some (.file bytes)

/-- What a run has come to once its snapshot is recorded: it has only added its files, and the store is there. -/
structure Halfway (c : Check) (w v : Workspace) : Prop where
  adds : w.Adds (c.room w (outputNames (Store.nextId w))) v
  root : v.node c.store.root = .ok .directory

/-- It is still so after more was added. -/
theorem Halfway.trans (h : c.Halfway w u) (hv : u.Adds (c.room w (outputNames (Store.nextId w))) v) : c.Halfway w v := by
  obtain ⟨loc, hlocate, hdir⟩ := Workspace.node_eq_ok.mp h.root
  exact ⟨h.adds.trans hv, Workspace.node_eq_ok.mpr ⟨loc, hv.locate hlocate, hv.directory hdir⟩⟩

theorem not_mem_nul_companion {id : String} {clock : ℤ} (hid : Store.IsDrawn clock id) (hname : name ∈ companions id) :
    '\x00' ∉ name.toList := by
  have hdrawn := hid.not_mem_nul
  rcases mem_companions.mp hname with rfl | rfl <;> simp [hdrawn]

namespace Unhindered

/-- The analyses are recorded, also after notes were taken. -/
theorem creates (h : c.Unhindered w) (hu : w.Notes u) {files : List FileSummary} (hfiles : Store.Creatable files none w.clock)
    (branch commit : String) : ∃ x v, (c.store.create files branch commit none).exec u = (.ok x, v) := by
  have hwarned : w.Notes (Store.warned u files) := Workspace.notes_frame.trans hu (Store.warned_notes u files)
  have hid : Store.idAt (Store.warned u files) 0 = Store.nextId w := by
    rw [Store.idAt, Source.after, Store.nextId, Store.nextId, hwarned.clock, hwarned.source]
  have hfree : ∀ {t}, w.Notes t → ¬c.store.Taken t (Store.nextId w) := by
    rintro t ht ⟨n, hn⟩
    obtain ⟨loc, hlocate, hfound⟩ := Workspace.node_eq_ok.mp hn
    obtain rfl := Slot.eq_location hlocate
    exact absurd (hfound.symm.trans (h.free ht)) (by simp)
  obtain ⟨r, hdraws, hr⟩ := Store.draws_first (s := c.store) (w := Store.warned u files) (k := 0)
    (fun i hi => by rw [Nat.le_zero.mp hi, hid]; exact h.isDrawn.isId) (fun _ hi => absurd hi (Nat.not_lt_zero _))
    (hid ▸ hfree hwarned)
  rw [hid] at hr
  rcases hr with ⟨rfl, -⟩ | ⟨-, hlong⟩
  · exact Store.create_ok hfiles h.access h.isDrawn (hfree (Workspace.notes_frame.refl w)) h.log hu
      (Store.exec_freeId hdraws (Nat.le_add_left ..)) branch commit
  · refine absurd (Workspace.refuses_of_locate hlong) ?_
    rw [Workspace.Refuses, (hwarned.adds_notes h.log).limits]
    exact h.access.name

/-- There is no directory in the place of a file beside the document. -/
theorem no_directory (h : c.Unhindered w) (hv : c.Halfway w v) (hname : name ∈ companions (Store.nextId w)) :
    v.tree.find? (c.store.location ++ [name]) ≠ some .directory := by
  intro hdir
  have htakes := hv.adds.takes (c.store.location ++ [name])
  rw [h.unused name (List.mem_cons_of_mem _ hname), hdir] at htakes
  cases htakes with
  | made hway => exact not_passes_child h.access.plain name hway

/-- The files beside the document can be written. -/
theorem writes (h : c.Unhindered w) (hv : c.Halfway w v) (hname : name ∈ companions (Store.nextId w)) (bytes : ByteArray) :
    ∃ t, v.write (c.store.root.child name) bytes = .ok t := by
  obtain ⟨loc, hlocate, hdir⟩ := Workspace.node_eq_ok.mp hv.root
  obtain rfl : loc = c.store.location := Tree.locate_eq_resolve hlocate
  have hrefused : ¬v.Refuses (c.store.root.child name) := by
    rw [Workspace.Refuses, hv.adds.limits]
    exact h.taken name hname
  have hnul : ¬(c.store.root.join [name]).HasNul := fun hnul => Workspace.not_hasNul_of_locate hlocate
    (hnul.of_join fun other hother => List.mem_singleton.mp hother ▸ not_mem_nul_companion h.isDrawn hname)
  have hchild : v.locate (c.store.root.child name) = .ok (c.store.location ++ [name]) :=
    Workspace.locate_join (Tree.locate_eq_ok.mp hlocate).2 hdir (outputName_ne (mem_companions.mp hname)) hrefused hnul
  rcases hn : v.tree.find? (c.store.location ++ [name]) with _ | ⟨_ | old⟩
  · exact ⟨_, by simp only [Workspace.write, Workspace.target, hchild, ok_bind, hn]; rfl⟩
  · exact absurd hn (h.no_directory hv hname)
  · exact ⟨_, by simp only [Workspace.write, Workspace.target, hchild, ok_bind, hn]; rfl⟩

/-- The build service can be told. -/
theorem tells (h : c.Unhindered w) (hv : c.Halfway w v) {target : String} (hnamed : v.valueOf? outputVariable = some target)
    (hsome : target.isEmpty = false) (bytes : ByteArray) : ∃ t, addTo target bytes v = .ok t := by
  rw [Workspace.valueOf?, hv.adds.environment] at hnamed
  obtain ⟨hfile, loc, old, hlocate, hold⟩ := h.service target hnamed hsome
  have htakes := hv.adds.takes loc
  rw [hold] at htakes
  obtain ⟨now, hnow⟩ := htakes.stays_file
  rw [addTo, if_pos hfile]
  exact ⟨_, by simp only [Workspace.append, Workspace.target, hv.adds.locate hlocate, ok_bind, hnow]; rfl⟩

theorem writeOutput_returns (h : c.Unhindered w) (hv : c.Halfway w v) {r : Report} {format : Value}
    (hform : ∃ output, outputFile format.display r (Store.nextId w) = .ok output) :
    (c.writeOutput r (Store.nextId w) format).Ends v (fun _ t => c.Halfway w t) fun _ _ => False := by
  obtain ⟨output, houtput⟩ := hform
  have hreturns : (c.writeOutput r (Store.nextId w) format).Ends v (fun _ _ => True) fun _ _ => False := by
    refine ends_writeOutput (fun fault hfault => ?_) trivial (fun name content o hfile hwrite => ?_) fun _ _ _ _ _ _ => trivial
    · cases hfault.symm.trans houtput
    · obtain ⟨t, ht⟩ := h.writes hv (mem_companions.mpr (outputFile_name hfile)) content.toUTF8
      cases hwrite.symm.trans ht
  have hadds := writeOutput_adds (c := c) (w := w)
    (fun _ hname => List.mem_cons_of_mem (Store.documentName (Store.nextId w)) hname) (.refl hv.adds.log) r format
  exact ⟨fun hexec => hv.trans (hadds.ok hexec), fun hexec => hreturns.error hexec⟩

theorem tellService_returns (h : c.Unhindered w) (hv : c.Halfway w v) (r : Report) :
    (tellService r).Ends v (fun _ _ => True) fun _ _ => False := by
  refine ends_tellService trivial (fun target bytes o hnamed hsome hadd => ?_) fun _ _ _ _ _ _ => trivial
  obtain ⟨t, ht⟩ := h.tells hv hnamed hsome bytes
  cases hadd.symm.trans ht

theorem judgeAnalyses_returns (h : c.Unhindered w) (hvalid : c.settings.Valid)
    (hbranch : branchOf c.settings.baselineBranch = .ok branch) (hown : c.Overlooks) (hw : c.Settled branch x w)
    (has : c.analyses w = .ok as) (hu : w.Notes u) (hsame : w.Same (c.reads branch) u) (current commit : String) :
    (c.judgeAnalyses current commit as).Ends u (fun _ _ => True) fun _ _ => False := by
  obtain ⟨as', has', hrecords⟩ := hw.analyses
  obtain rfl : as' = as := Except.ok.inj (has'.symm.trans has)
  have hcreatable := Store.Repeats.creatable ⟨x, hrecords, hw.written⟩ hw.apart.time
  obtain ⟨items, hitems⟩ := hvalid.formats
  obtain ⟨y, u₁, hcreate⟩ := h.creates hu hcreatable current commit
  obtain ⟨hy, -, hu₁⟩ := (Store.create_ends hsame hown.reads_own).ok hcreate
  obtain ⟨hmakes, hadds, hplaced⟩ := (create_adds h.toBegins hu as' current commit).ok hcreate
  have hhalf : c.Halfway w u₁ := ⟨room_mono hadds fun _ hname => List.mem_singleton.mp hname ▸ List.mem_cons_self ..,
    (Store.node_root_of_taken ⟨_, hplaced.file⟩).1⟩
  have hsettled := hw.of_same hu₁
  -- the report only reads, and finds the baseline as it was
  have hreport := report_ends hu₁ hsettled.baseline hsettled.readable (analysed_of_records has hrecords)
    (hy.listed.trans hrecords.listed.symm) (hrecords.metrics_eq hy.counted) hvalid.limits_sound (E := fun _ _ => False)
  have hnotes := Store.preserves_report (s := c.store) y branch c.settings.limits u₁
  rw [judgeAnalyses]
  refine .bind_ok hcreate (.bind_ok (Action.exec_lift_ok hbranch) ?_)
  refine .bind (P := fun r v => r = .passed (x.files.map (·.path)) ∧ c.Halfway w v)
    ⟨fun hexec => ⟨(hreport.ok hexec).1, ?_⟩, fun hexec => hreport.error hexec⟩ ?_
  · rw [hexec] at hnotes
    exact hhalf.trans (hnotes.adds hhalf.adds.log)
  rintro _ v ⟨rfl, hv⟩
  refine .bind_ok (Action.exec_lift_ok hitems) ?_
  rw [hmakes.id_eq]
  refine .bind (Action.Ends.filterMapM_keeps
    (fun format _ _ ht => h.writeOutput_returns ht (hw.forms format.display _)) hv) fun _ t ht => ?_
  exact .bind (h.tellService_returns ht _) fun _ _ _ => .pure trivial

theorem run_returns (h : c.Unhindered w) (hvalid : c.settings.Valid)
    (hbranch : branchOf c.settings.baselineBranch = .ok branch) (hown : c.Overlooks) (hw : c.Settled branch x w) :
    ∃ o v, c.run.exec w = (.ok o, v) := by
  obtain ⟨as, hsome, has, -⟩ := hw.analysed
  have hends : c.run.Ends w (fun _ _ => True) fun _ _ => False := by
    have hobserve := observe_ends hw has
    have hnotes := c.preserves_observe w
    rw [run_eq]
    refine .bind (P := fun seen u => (seen.2.2 = as ∧ w.Same (c.reads branch) u) ∧ w.Notes u)
      ⟨fun hexec => ⟨hobserve.ok hexec, by rwa [hexec] at hnotes⟩, fun hexec => hobserve.error hexec⟩ ?_
    rintro ⟨current, commit, as'⟩ u ⟨⟨heq, hsame⟩, hu⟩
    obtain rfl : as' = as := heq
    have hfilled : as'.isEmpty = false := by simpa using hsome
    simp only [hfilled, Bool.false_eq_true, if_false]
    exact h.judgeAnalyses_returns hvalid hbranch hown hw has hu hsame current commit
  rcases hexec : c.run.exec w with ⟨e | o, v⟩
  · exact (hends.error hexec).elim
  · exact ⟨o, v, rfl⟩

end Unhindered

/-! ### Any number of runs -/

/-- Runs of a check one after another, each with the workspace that it started from and what came of it, the latest
first.  Each may be at any time, and between them anything may change that the check does not read. -/
inductive Runs (c : Check) (branch : String) (start : Workspace) :
    List (Workspace × Except Failure Outcome) → Workspace → Prop
  | start : Runs c branch start [] start
  | run {runs : List (Workspace × Except Failure Outcome)} {w : Workspace} (before : Runs c branch start runs w) (clock : ℤ)
      (time : (Number.int clock).isWritable = true) :
      Runs c branch start (({ w with clock }, (c.run.exec { w with clock }).1) :: runs) (c.run.exec { w with clock }).2
  | meanwhile {runs : List (Workspace × Except Failure Outcome)} {w v : Workspace} (before : Runs c branch start runs w)
      (same : w.Same (c.reads branch) v) : Runs c branch start runs v

/-- What holds of every run from settled workspaces, and of the workspace that they leave. -/
theorem Runs.settled (hvalid : c.settings.Valid) (hbranch : branchOf c.settings.baselineBranch = .ok branch)
    (hown : c.Overlooks) (hw : c.Settled branch x w) {runs : List (Workspace × Except Failure Outcome)}
    (h : c.Runs branch w runs v) : c.Settled branch x v ∧ ∀ u result, (u, result) ∈ runs →
      (∀ e, result = .error e → c.store.WriteFails (c.reads branch) u e ∧ ¬c.Unhindered u) ∧
        ∀ o, result = .ok o → ∃ as, as ≠ [] ∧ c.analyses u = .ok as ∧ Passes as o := by
  -- the invariant is that the workspace is settled, which a run keeps however it ends
  induction h with
  | start => exact ⟨hw, by simp⟩
  | meanwhile before same ih => exact ⟨ih.1.of_same same, ih.2⟩
  | @run runs w' before clock time ih =>
    have hends := run_ends hvalid hbranch hown (ih.1.of_clock time)
    have hafter : c.Settled branch x (c.run.exec { w' with clock }).2 := by
      rcases hr : c.run.exec { w' with clock } with ⟨e | o, u⟩
      · exact (ih.1.of_clock time).of_same (hends.error hr).2
      · exact (ih.1.of_clock time).of_same (hends.ok hr).2
    refine ⟨hafter, fun u result hmem => ?_⟩
    rcases List.mem_cons.mp hmem with heq | hmem
    · obtain ⟨rfl, rfl⟩ := Prod.mk.inj heq
      refine ⟨fun e he => ⟨(hends.error (Prod.ext he rfl)).1, fun hclear => ?_⟩, fun o ho => (hends.ok (Prod.ext ho rfl)).1⟩
      obtain ⟨o, v, hexec⟩ := hclear.run_returns hvalid hbranch hown (ih.1.of_clock time)
      rw [hexec] at he
      cases he
    · exact ih.2 u result hmem

/-- After the analysis of a tree was recorded as the baseline, every run on the unchanged tree passes with all points and
without a word of warning, names no file but as unchanged, and lets the build go on.  Only a file that cannot be written stops
a run, and a run in whose way nothing is comes to its end. -/
theorem runs_pass (hvalid : c.settings.Valid) (hbranch : branchOf c.settings.baselineBranch = .ok branch)
    (hproper : w.tree.Proper) (hapart : w.Apart (c.reads branch)) (hown : c.Overlooks) {current commit : String}
    {environment : Option Provenance} (hrecord : (c.record current commit environment).exec w = (.ok x, v))
    (hfiles : x.files ≠ []) (hreadable : Store.Readable w.depth x)
    {runs : List (Workspace × Except Failure Outcome)} (hruns : c.Runs branch v runs u) :
    ∀ before result, (before, result) ∈ runs →
      (∀ e, result = .error e → c.store.WriteFails (c.reads branch) before e) ∧
      (c.Unhindered before → ∃ o, result = .ok o) ∧
      ∀ o, result = .ok o → ∃ as r, c.analyses before = .ok as ∧ as ≠ [] ∧ o.filesAnalyzed = as.length ∧
        o.report = some r ∧ r.verdict = .pass ∧ r.summary.score.value = .int 100 ∧ r.critical = [] ∧ r.warnings = [] ∧
        o.exitCode = 0 ∧ r.details.regression.files = [] ∧ r.details.improvement.files = [] ∧
        r.details.unchanged = as.map fun a => .text a.path := by
  intro before result hmem
  have hsettled := (record_settles hbranch hproper hapart hown current commit environment).ok hrecord hfiles hreadable
  obtain ⟨herror, hok⟩ := (hruns.settled hvalid hbranch hown hsettled).2 before result hmem
  refine ⟨fun e he => (herror e he).1, fun hclear => ?_, fun o ho => ?_⟩
  · rcases result with e | o
    · exact absurd hclear (herror e rfl).2
    · exact ⟨o, rfl⟩
  obtain ⟨as, hsome, has, hpasses⟩ := hok o ho
  exact ⟨as, _, has, hsome, hpasses.analyzed, hpasses.report, rfl, rfl, rfl, rfl, hpasses.exitCode, rfl, rfl, rfl⟩

/-! ### A tree of one file -/

theorem overlooks_of_hidden {name : String} {rest : List String} (hhidden : isHiddenDirectory name = true)
    (hstore : c.store.location = c.location ++ name :: rest) : c.Overlooks := by
  have hbelow : ∀ names : List String, names ≠ [] → c.sees (c.store.location ++ names) = false := by
    intro names hnames
    have hdrop : (c.store.location ++ names).drop c.location.length = name :: (rest ++ names) := by
      rw [hstore, List.append_assoc, List.drop_left, List.cons_append]
    have hlast : (name :: (rest ++ names)).dropLast.any isHiddenDirectory = true := by
      rw [List.dropLast_cons_of_ne_nil (by simp [hnames]), List.any_cons, hhidden, Bool.true_or]
    have hne : c.store.location ++ names ≠ c.location := by
      intro h
      rw [h, List.drop_length] at hdrop
      cases hdrop
    simp only [sees, scans, hdrop, hlast, decide_eq_false hne, Bool.not_true, Bool.and_false, Bool.false_and, Bool.or_false]
  constructor
  · rintro _ (⟨clock, cs⟩ | ⟨clock, cs⟩ | ⟨clock, cs⟩ | ⟨n⟩)
    all_goals exact hbelow _ (by simp [Slot.names])
  · rintro _ (⟨b⟩ | ⟨n⟩)
    all_goals exact hbelow _ (by simp [Slot.names])

/-- A check of the working directory under the default settings. -/
def plain : Check := ⟨.default, .here, ⟨.ofText ".performance-snapshots"⟩⟩

/-- A workspace with one source. -/
def single : Workspace := { Store.blank with tree := ⟨[(["a.ts"], .file "let a = 1".toUTF8)]⟩ }

/-- What recording the source leaves. -/
def recorded : Except Failure Snapshot × Workspace := (plain.record "main" "c" none).exec single

/-- The workspace of a later run. -/
def later : Workspace := { recorded.2 with clock := 5 }

/-- Nothing is in the way of that run. -/
theorem unhindered_later : plain.Unhindered later := by
  obtain ⟨hpending, hlog, henvironment, hrefusal, hne, hparent, hnames, hunique⟩ :
      later.source.pending = [] ∧ later.log.isNone = true ∧ later.environment = [] ∧ later.refusal = none ∧
      (∀ e ∈ later.tree.entries, e.1 ≠ []) ∧ (∀ e ∈ later.tree.entries, later.tree.find? e.1.dropLast = some .directory) ∧
      (∀ e ∈ later.tree.entries, ".." ∉ e.1) ∧ (later.tree.entries.map Prod.fst).Nodup := by decide +kernel
  have hproper : later.tree.Proper := ⟨fun e he => Tree.find?_of_mem hunique (hne e he) he, hparent, hnames⟩
  have hsilent : ∀ f, later.log ≠ some f := by
    intro f hf
    rw [hf] at hlog
    cases hlog
  have hnobody : ∀ target, later.valueOf? outputVariable ≠ some target := by
    intro target htarget
    rw [Workspace.valueOf?, henvironment] at htarget
    cases htarget
  obtain ⟨hunused, hmade, hname, htaken⟩ :
      (∀ name ∈ outputNames (Store.nextId later), later.tree.find? (plain.store.location ++ [name]) = none) ∧
      (later.makeDirectories plain.store.root).2 = none ∧
      ¬later.Refuses ((Slot.snapshot (Store.nextId later)).path plain.store) ∧
      ∀ name ∈ companions (Store.nextId later), ¬later.Refuses (plain.store.root.child name) := by decide +kernel
  have hopen : ∀ loc, ¬later.Open loc := by
    rintro loc (⟨f, hf, -⟩ | ⟨target, htarget, -⟩)
    · exact hsilent f hf
    · exact hnobody target htarget
  have hdigits : later.DrawsDigits := by
    intro c hc
    rw [hpending] at hc
    cases hc
  have hbegins : plain.Begins later := ⟨hproper, hunique, hdigits, fun f hf => absurd hf (hsilent f),
    fun loc hloc => absurd hloc (hopen loc), hunused⟩
  exact ⟨hbegins, ⟨hproper, hrefusal, by decide +kernel, hmade, hname⟩, htaken,
    fun target htarget => absurd htarget (hnobody target)⟩

/-- A later run on the recorded source returns and passes. -/
theorem runs_pass_single : ∃ x v, recorded = (.ok x, v) ∧ x.files ≠ [] ∧ Store.Readable 987 x ∧
    ∃ o r, (plain.run.exec { v with clock := 5 }).1 = .ok o ∧ o.filesAnalyzed ≠ 0 ∧ o.report = some r ∧ r.verdict = .pass ∧
      r.warnings = [] ∧ o.exitCode = 0 := by
  have hvalid : plain.settings.Valid := ⟨[], some .default, rfl, fun t ht => ⟨[], by cases ht; decide +kernel⟩⟩
  have hproper : single.tree.Proper := by
    refine ⟨?_, ?_, ?_⟩ <;> decide
  have hapart : single.Apart (plain.reads "main") :=
    ⟨nofun, (fun _ ht => by cases ht), (fun _ hc => by cases hc), by decide +kernel, Repository.absent_speaks⟩
  have hlocation : plain.store.location = plain.location ++ [".performance-snapshots"] := by decide +kernel
  have hown : plain.Overlooks := overlooks_of_hidden (by decide +kernel) hlocation
  have hsome : (recorded.1.map fun x => x.files.isEmpty) = .ok false := by decide +kernel
  have hclear := unhindered_later
  rcases hrecord : recorded with ⟨e | x, v⟩
  · rw [hrecord] at hsome
    cases hsome
  rw [hrecord] at hsome
  rw [later, hrecord] at hclear
  have hfiles : x.files ≠ [] := by
    intro hnil
    simp [Except.map, hnil] at hsome
  have hreadable : Store.Readable 987 x := by
    obtain rfl : recorded.1.toOption.getD Store.plain = x := by
      rw [hrecord]
      rfl
    rw [Store.readable_iff]
    decide +kernel
  have hrun := runs_pass hvalid rfl hproper hapart hown hrecord hfiles hreadable (.run .start 5 (by decide +kernel)) _ _
    (List.mem_singleton_self _)
  obtain ⟨o, ho⟩ := hrun.2.1 hclear
  obtain ⟨as, r, -, hne, hcount, hr, hverdict, -, -, hwarnings, hexit, -⟩ := hrun.2.2 o ho
  exact ⟨x, v, rfl, hfiles, hreadable, o, r, ho, by rw [hcount]; simpa using hne, hr, hverdict, hwarnings, hexit⟩

end Check

end ScoreGate
