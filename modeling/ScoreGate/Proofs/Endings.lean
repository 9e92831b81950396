import ScoreGate.Proofs.Screens

/-!
# How each command ends

For every command: with which result or reason to stop it may end, and why.  An exit code other than zero stands for a path
that is not there, for settings that cannot be put together, for stored files and records, or for a verdict, unless the
console fails before; every other failure escapes, and is named with its cause.

* `Command.AnalyzeEnding`, `Command.BulkEnding`, `Command.GateEnding`: analyses and checks.
* `Command.SaveEnding`, `Command.ShowEnding`, `Command.ListEnding`, `Command.CleanEnding`: baselines and snapshots.
-/

namespace ScoreGate

/-- What stopped an operation is a source that cannot be read. -/
def Failure.IsAccess : Failure → Prop
  | .fileAccess .. => True
  | _ => False

namespace Command

variable [Console] {t : Terminal} {p : Path} {w : Workspace}

/-! ### One file -/

/-- How the analysis of one file ends. -/
inductive AnalyzeEnding (w : Workspace) (p : Path) : Except Stop Unit → Prop
  | done {x : FileAnalysis} {v : Workspace} {r : Except Stop Unit} (h : (analyzeFile p).exec w = (.ok x, v))
      (hr : Finish r) : AnalyzeEnding w p r
  | path {stop : Stop} (h : PathStop w p stop) : AnalyzeEnding w p (.error stop)
  | unread {f : Failure} {v : Workspace} {stop : Stop} (h : (analyzeFile p).exec w = (.error f, v)) (hf : f.IsAccess)
      (hstop : Closing ExitCode.pathNotFound stop) : AnalyzeEnding w p (.error stop)

omit [Console] in
/-- A path that leads somewhere is analysed, or its file cannot be read. -/
theorem analyzeFile_access {n : Node} (hn : w.node p = .ok n) :
    (analyzeFile p).Ends w (fun _ _ => True) fun e _ => e.IsAccess := by
  have hread := exec_readSource p w
  rw [analyzeFile]
  rcases n with _ | bytes
  · rw [hn] at hread
    exact .of_error (Action.exec_bind_error hread _) trivial
  · rcases hutf8 : String.fromUTF8? bytes with _ | s
    · simp only [hn, hutf8] at hread
      exact .of_error (Action.exec_bind_error hread _) trivial
    · simp only [hn, hutf8] at hread
      exact .bind_ok hread (.bind_ok (Action.exec_note ..) (.pure trivial))

theorem analyze_ends {o : AnalyzeOptions} : (analyze o).Ends t (fun _ _ => AnalyzeEnding t.workspace o.file (.ok ()))
    fun stop _ => AnalyzeEnding t.workspace o.file (.error stop) := by
  obtain ⟨p, json⟩ := o
  rw [analyze]
  refine .bind ((requirePath_ends p).mono (fun _ _ h => h) fun _ _ h => .path h) ?_
  rintro _ u ⟨hu, n, hn⟩
  rw [hu] at hn
  have hattempt : (attempt (analyzeFile p) accessFailure).Ends u
      (fun x v => (analyzeFile p).exec t.workspace = (.ok x, v)) fun stop _ => AnalyzeEnding t.workspace p (.error stop) := by
    refine .attempt (F := fun f v => (analyzeFile p).exec t.workspace = (.error f, v))
      ⟨fun h => by rwa [hu] at h, fun h => by rwa [hu] at h⟩ fun f v hf => ?_
    have haccess := (analyzeFile_access hn).error hf
    cases f
    case fileAccess => exact fun _ hstop => .unread hf haccess hstop
    all_goals exact haccess.elim
  refine .bind hattempt fun x v hx => ?_
  have hunheard : ∀ f, Unheard f → AnalyzeEnding t.workspace p (.error (.crash f)) := fun f hf => .done hx (.unheard hf)
  split_ifs
  · exact .tells (tells_put _) (.done hx .done) hunheard
  · exact .tells (tells_sayAnalysis x) (.done hx .done) hunheard

/-! ### All files -/

/-- The analyses of all sources below a directory. -/
def analyses (p : Path) (s : Settings) (patterns : Value) : Action (List FileAnalysis) := do
  analyzeFiles (← findSources p s.extensions patterns (some s.maxFiles))

/-- How the analysis of all files ends. -/
inductive BulkEnding (w : Workspace) (o : BulkOptions) : Except Stop Unit → Prop
  | done {r : Except Stop Unit} (hr : Finish r) : BulkEnding w o r
  | path {stop : Stop} (h : PathStop w o.directory stop) : BulkEnding w o (.error stop)
  | settings {stop : Stop} (h : SettingsStop w o.config (bulkOptions o) stop) : BulkEnding w o (.error stop)
  | unwritten {s : Settings} {patterns : Value} {as : List FileAnalysis} {project : ProjectScore} {v : Workspace}
      {output : Path} {obstacle : Obstacle} {stop : Stop} (hs : Loading w o.config (bulkOptions o) (.ok s))
      (hpatterns : excludePatterns s o.exclude = .ok patterns)
      (has : (analyses o.directory s patterns).exec w = (.ok as, v)) (hproject : projectScore as = .ok project)
      (houtput : o.output = some output)
      (h : v.write output (Document.indented (bulkDocument project as)).toUTF8 = .error obstacle)
      (hstop : Closing ExitCode.internal stop) : BulkEnding w o (.error stop)
  | patterns {s : Settings} {fault : Fault} (hs : Loading w o.config (bulkOptions o) (.ok s))
      (h : excludePatterns s o.exclude = .error fault) : BulkEnding w o (.error (.crash (.fault fault)))
  | scan {s : Settings} {patterns : Value} {e : Failure} (hs : Loading w o.config (bulkOptions o) (.ok s))
      (hpatterns : excludePatterns s o.exclude = .ok patterns) (h : ScanSurprise w o.directory s.extensions patterns e) :
      BulkEnding w o (.error (.crash e))

theorem writeBulk_ends {output : Path} {project : ProjectScore} {as : List FileAnalysis} {E : Stop → Workspace → Prop}
    (h : ∀ o, t.workspace.write output (Document.indented (bulkDocument project as)).toUTF8 = .error o →
      ∀ stop v, Closing ExitCode.internal stop → E stop v)
    (hE : ∀ f v, Unheard f → E (.crash f) v) : (writeBulk output project as).Ends t (fun _ _ => True) E := by
  have hsay : Tells (say (Console.styled "green" ("Results written to " ++ Console.escape output.text))) :=
    tells_say (proper_styled (by decide) (proper_after (by decide) _))
  rw [writeBulk]
  refine .bind (P := fun x v => x.workspace = t.workspace) (.of_ok rfl rfl) ?_
  rintro x u hx
  rw [hx]
  rcases hwrite : t.workspace.write output (Document.indented (bulkDocument project as)).toUTF8 with o | v
  · simp only
    exact .bind (P := fun _ _ => True) (.refuse _ _ fun stop hstop => h o hwrite stop _ hstop) fun _ _ _ =>
      .tells hsay trivial fun f hf => hE f _ hf
  · simp only
    exact .bind (P := fun _ _ => True) (.of_ok rfl trivial) fun _ _ _ => .tells hsay trivial fun f hf => hE f _ hf

/-- What an analysis of all files tells of the analyses: the document if one is asked for, the table and the score. -/
def tellBulk (o : BulkOptions) (as : List FileAnalysis) : Command Unit := do
  let project ← projectScore as
  if let some output := o.output then writeBulk output project as
  if !o.summaryOnly && !as.isEmpty then
    say ""
    sayTable analysisColumns ((byIssues as).map analysisRow)
  sayProject project

/-- The analysis of all files under settings. -/
def bulkUnder (o : BulkOptions) (s : Settings) : Command Unit := do
  let patterns ← excludePatterns s o.exclude
  let as ← analyzeFiles (← findSources o.directory s.extensions patterns (some s.maxFiles))
  tellBulk o as

theorem bulk_eq (o : BulkOptions) : bulk o = (do
    requirePath o.directory
    bulkUnder o (← settings o.config (bulkOptions o))) := rfl

/-- The document is written if one is asked for, or the command ends; everything else is told. -/
theorem tellBulk_ends {o : BulkOptions} {as : List FileAnalysis} {E : Stop → Workspace → Prop}
    (hscored : ∀ a ∈ as, a.Scored)
    (h : ∀ project output obstacle, projectScore as = .ok project → o.output = some output →
      t.workspace.write output (Document.indented (bulkDocument project as)).toUTF8 = .error obstacle →
        ∀ stop v, Closing ExitCode.internal stop → E stop v)
    (hE : ∀ f v, Unheard f → E (.crash f) v) : (tellBulk o as).Ends t (fun _ _ => True) E := by
  obtain ⟨project, hproject⟩ := projectScore_ok hscored
  have hscore := tells_sayProject project
  have htable : Tells (say "" >>= fun _ => sayTable analysisColumns ((byIssues as).map analysisRow)) :=
    (tells_say (Console.Plain.proper (by decide))).bind (tells_sayTable _ (analysisRows_proper _))
  have hrest : ∀ y : Terminal, (do
      if !o.summaryOnly && !as.isEmpty then
        say ""
        sayTable analysisColumns ((byIssues as).map analysisRow)
      sayProject project : Command Unit).Ends y (fun _ _ => True) E := by
    intro y
    simp only
    split_ifs
    · rw [← bind_assoc]
      exact .tells (htable.bind hscore) trivial fun f hf => hE f _ hf
    · exact .tells hscore trivial fun f hf => hE f _ hf
  rw [tellBulk]
  refine .bind (P := fun q y => q = project ∧ y = t.workspace) (.lift_fault (fun q hq => ⟨?_, rfl⟩) fun e he => ?_) ?_
  · exact Except.ok.inj (hq.symm.trans hproject)
  · cases hproject.symm.trans he
  rintro _ y ⟨rfl, hy⟩
  simp only
  split
  · next output houtput =>
    exact .bind (writeBulk_ends (fun o ho => h _ output o hproject houtput (hy ▸ ho)) hE) fun _ y _ => hrest y
  · exact hrest y

theorem bulk_ends {o : BulkOptions} : (bulk o).Ends t (fun _ _ => BulkEnding t.workspace o (.ok ()))
    fun stop _ => BulkEnding t.workspace o (.error stop) := by
  rw [bulk_eq]
  refine .bind ((requirePath_ends o.directory).mono (fun _ _ h => h) fun _ _ h => .path h) ?_
  rintro _ u ⟨hu, -⟩
  refine .bind ((settings_ends o.config (bulkOptions o)).mono (fun _ _ h => h) fun _ _ h => .settings (hu ▸ h)) ?_
  rintro s v ⟨hv, hs, -⟩
  rw [hu] at hv hs
  rw [bulkUnder]
  refine .bind (P := fun patterns x => x = v.workspace ∧ excludePatterns s o.exclude = .ok patterns)
    (.lift_fault (fun _ h => ⟨rfl, h⟩) fun _ h => .patterns hs h) ?_
  rintro patterns x ⟨hx, hpatterns⟩
  rw [hv] at hx
  refine .bind
    (P := fun ps y => (findSources o.directory s.extensions patterns (some s.maxFiles)).exec t.workspace = (.ok ps, y))
    (.perform ⟨fun h => by rwa [hx] at h, fun h => ?_⟩) fun ps y hps => ?_
  · rw [hx] at h
    exact .scan hs hpatterns ((findSources_surprises s.maxFiles).error h)
  have hfound := (findSources_surprises s.maxFiles).ok hps
  have hanalysed : (analyzeFiles ps).Ends y.workspace (fun as z => t.workspace.Follows z ∧ ∀ a ∈ as, a.Scored)
      fun e _ => ScanSurprise t.workspace o.directory s.extensions patterns e := analyzeFiles_surprises hfound.1 hfound.2
  refine .bind (P := fun as z => (analyses o.directory s patterns).exec t.workspace = (.ok as, z) ∧ ∀ a ∈ as, a.Scored)
    (.perform ⟨fun h => ⟨by rw [analyses, Action.exec_bind_ok hps]; exact h, (hanalysed.ok h).2⟩,
      fun h => .scan hs hpatterns (hanalysed.error h)⟩) ?_
  rintro as z ⟨has, hscored⟩
  have htold : (tellBulk o as).Ends z (fun _ _ => True) fun stop _ => BulkEnding t.workspace o (.error stop) :=
    tellBulk_ends hscored (fun _ _ _ hproject houtput h _ _ hstop => .unwritten hs hpatterns has hproject houtput h hstop)
      fun _ _ hf => .done (.unheard hf)
  exact htold.mono (fun _ _ _ => .done .done) fun _ _ h => h

/-! ### Stores -/

section Stores

variable (w) (config : Option Path) (options : List Override)

/-- The settings of a command under some options, and the store that they name. -/
def Opens (s : Settings) (store : Store) : Prop := Loading w config options (.ok s) ∧ s.store = .ok store

/-- Why a command stops before it comes to its store: its settings stop it, or the name of the store is no text. -/
inductive StoreStop : Stop → Prop
  | settings {stop : Stop} (h : SettingsStop w config options stop) : StoreStop stop
  | kind {s : Settings} (hs : Loading w config options (.ok s)) (h : ∀ dir, s.snapshotsDir ≠ .text dir) :
      StoreStop (.crash (.fault .wrongKind))

end Stores

theorem attempt_store {α : Type} {s : Settings} {config : Option Path} {options : List Override} {act : Action α}
    {f : Store → Action α} {expected : Failure → Option (String × ℕ)} {K : Failure → Prop} {E : Stop → Workspace → Prop}
    (hw : t.workspace = w) (hs : Loading w config options (.ok s))
    (hact : ∀ v, act.exec v = ((liftM s.store : Action Store) >>= f).exec v)
    (hexpected : ∀ e, (K e ∧ ∃ m, expected e = some (m, ExitCode.internal)) ∨ ¬K e ∧ expected e = none)
    (hkind : ¬K (.fault .wrongKind)) (hstop : ∀ stop v, StoreStop w config options stop → E stop v)
    (hK : ∀ store e v, Opens w config options s store → (f store).exec w = (.error e, v) → K e →
      ∀ stop, Closing ExitCode.internal stop → E stop v)
    (hescape : ∀ store e v, Opens w config options s store → (f store).exec w = (.error e, v) → ¬K e → E (.crash e) v) :
    (attempt act expected).Ends t
      (fun x v => ∃ store, Opens w config options s store ∧ (f store).exec w = (.ok x, v)) E := by
  have hexec := hact w
  -- either the settings name a directory, and the store is opened there, or nothing comes to be done
  rcases s.store_cases with ⟨dir, -, hstore⟩ | ⟨htext, hstore⟩
  · rw [hstore, Action.exec_bind_ok (Action.exec_lift_ok rfl)] at hexec
    have hopens : Opens w config options s ⟨.ofText dir⟩ := ⟨hs, hstore⟩
    refine (Ends.attempt_internal hexpected (fun e v he hKe => ?_) fun e v he hKe => ?_).mono (fun x v hx => ?_) fun _ _ h => h
    · rw [hw, hexec] at he
      exact hK _ e v hopens he hKe
    · rw [hw, hexec] at he
      exact hescape _ e v hopens he hKe
    · rw [hw, hexec] at hx
      exact ⟨_, hopens, hx⟩
  · have hfail : act.exec w = (.error (.fault .wrongKind), w) := by rw [hexec, hstore]; rfl
    refine (Ends.attempt_internal hexpected (fun e v he hKe => ?_) fun e v he _ => ?_).mono (fun x v hx => ?_) fun _ _ h => h
    · rw [hw, hfail] at he
      cases he
      exact absurd hKe hkind
    · rw [hw, hfail] at he
      cases he
      exact hstop _ _ (.kind hs htext)
    · rw [hw, hfail] at hx
      cases hx

omit [Console] in
theorem exec_make {α : Type} {s : Settings} (w : Workspace) (f : Check → Action α) :
    ((liftM (Check.make s p) : Action Check) >>= f).exec w =
      ((liftM s.store : Action Store) >>= fun store => f ⟨s, p, store⟩).exec w := by
  rw [Check.make]
  rcases s.store with fault | store <;> rfl

/-! ### Checks -/

/-- The exit code of a report: one if it stops the build. -/
def reportCode (s : Settings) (r : Report) : ℕ :=
  if r.verdict = .fail ∧ s.failOnRegression.isTrue = true then 1 else ExitCode.success

/-- How a check ends: the exit code is that of the verdict. -/
inductive GateEnding (w : Workspace) (o : GateOptions) : Except Stop Unit → Prop
  | nothing {s : Settings} {store : Store} {outcome : Outcome} {v : Workspace} {r : Except Stop Unit}
      (hs : Opens w o.config (gateOptions o) s store) (h : (Check.run ⟨s, o.root, store⟩).exec w = (.ok outcome, v))
      (hreport : outcome.report = none) (hr : Finish r) : GateEnding w o r
  | judged {s : Settings} {store : Store} {outcome : Outcome} {v : Workspace} {report : Report} {stop : Stop}
      (hp : ∃ n, w.node o.root = .ok n) (hs : Opens w o.config (gateOptions o) s store)
      (h : (Check.run ⟨s, o.root, store⟩).exec w = (.ok outcome, v)) (hreport : outcome.report = some report)
      (hstop : Closing (reportCode s report) stop) : GateEnding w o (.error stop)
  | path {stop : Stop} (h : PathStop w o.root stop) : GateEnding w o (.error stop)
  | store {stop : Stop} (h : StoreStop w o.config (gateOptions o) stop) : GateEnding w o (.error stop)
  | stored {s : Settings} {store : Store} {f : Failure} {v : Workspace} {stop : Stop}
      (hs : Opens w o.config (gateOptions o) s store) (h : (Check.run ⟨s, o.root, store⟩).exec w = (.error f, v))
      (hf : f.IsStorage ∨ f.IsRecord) (hstop : Closing ExitCode.internal stop) : GateEnding w o (.error stop)
  | surprise {s : Settings} {store : Store} {f : Failure} {v : Workspace} (hs : Opens w o.config (gateOptions o) s store)
      (h : (Check.run ⟨s, o.root, store⟩).exec w = (.error f, v)) (hf : Check.Surprise ⟨s, o.root, store⟩ w f) :
      GateEnding w o (.error (.crash f))

theorem consequence_proper (s : Settings) (o : Outcome) : ∀ m ∈ consequence s o, Console.Proper m := by
  rw [consequence]
  split_ifs
  · rw [List.forall_mem_singleton]
    exact proper_styled (by decide) (Console.Plain.proper (by decide))
  · rw [List.forall_mem_singleton]
    exact proper_styled (by decide) (Console.Plain.proper (by decide))
  · simp

theorem sayOutcome_ends {s : Settings} {o : Outcome} {x : Snapshot} {r : Report} {clock : ℤ} {E : Stop → Workspace → Prop}
    (hs : s.Checked) (hx : Store.IsDrawn clock x.id) (hr : r.Told) (h : ∀ stop v, Closing o.exitCode stop → E stop v) :
    (sayOutcome s o x r).Ends t (fun _ _ => False) E := by
  obtain ⟨items, hitems, -⟩ := hs.outputFormats
  have hid : Console.Plain x.id := Console.plain_of_figures hx.figure
  have hunheard : ∀ (v : Workspace) f, Unheard f → E (.crash f) v := fun v f hf => h _ v (.unheard hf)
  have hwritten : ∀ m ∈ o.written.map (fun p => "Report saved to " ++ Console.escape p.text), Console.Proper m :=
    List.forall_mem_map.mpr fun p _ => proper_after (by decide) _
  have hrest : ∀ u : Terminal, (do
      sayAll (o.written.map fun p => "Report saved to " ++ Console.escape p.text)
      sayAll (consequence s o)
      throw (.exit o.exitCode) : Command Unit).Ends u (fun _ _ => False) E := fun u =>
    .after (tells_sayAll hwritten) (hunheard _) fun v _ =>
      .after (tells_sayAll (consequence_proper s o)) (hunheard _) fun v' _ => .throw (h _ _ .exit)
  rw [sayOutcome]
  refine .after (tells_say (Console.Plain.proper (by simp +decide [hid]))) (hunheard _) fun u _ => ?_
  refine .bind (P := fun _ _ => True) (.lift_fault (fun _ _ => trivial) fun e he => ?_) fun shown v _ => ?_
  · rw [showsReport, hitems] at he
    cases he
  · simp only
    split_ifs
    · exact .after (Report.tells hr) (hunheard _) fun v' _ => hrest v'
    · exact hrest v

/-- The check of a tree ends with the exit code of its verdict, unless it comes to no verdict. -/
theorem gate_ends {o : GateOptions} (hw : t.workspace.DrawsDigits) : (gate o).Ends t
    (fun _ _ => GateEnding t.workspace o (.ok ())) fun stop _ => GateEnding t.workspace o (.error stop) := by
  rw [gate]
  refine .bind ((requirePath_ends o.root).mono (fun _ _ h => h) fun _ _ h => .path h) ?_
  rintro _ u ⟨hu, hp⟩
  refine .bind ((settings_ends o.config (gateOptions o)).mono (fun _ _ h => h) fun _ _ h => .store (.settings (hu ▸ h))) ?_
  rintro s v ⟨hv, hs, hchecked⟩
  rw [hu] at hv hs hp
  -- what a check runs into is sorted once, for whatever store is opened
  have hrun : ∀ store, (Check.run ⟨s, o.root, store⟩).Ends t.workspace
      (fun outcome _ => Check.Comes ⟨s, o.root, store⟩ t.workspace outcome)
      fun e _ => e.IsStorage ∨ e.IsRecord ∨ Check.Surprise ⟨s, o.root, store⟩ t.workspace e :=
    fun store => Check.run_surprises hw (hchecked.outputFormats.imp fun _ h => h.1)
  refine .bind (attempt_store (f := fun store => Check.run ⟨s, o.root, store⟩) hv hs (fun w => ?_) recordFailure_cases
    (by rintro (h | h) <;> exact h) (fun _ _ h => .store h)
    (fun _ _ _ hopens he hK _ hstop => .stored hopens he hK hstop)
    fun store e z hopens he hK => .surprise hopens he ?_) ?_
  · exact exec_make w _
  · exact (or_assoc.mpr ((hrun store).error he)).resolve_left hK
  · rintro outcome z ⟨store, hopens, ho⟩
    have hbranch : Console.Proper ("Branch: " ++ Console.styled "bold" (Console.escape outcome.branch) ++ "  Commit: ") :=
      (proper_last (by decide) (by decide) (Console.proper_escape _)).append (Console.Plain.proper (by decide))
    have hline : Tells (say ("Branch: " ++ Console.styled "bold" (Console.escape outcome.branch) ++ "  Commit: " ++
        Console.escape outcome.commit)) := tells_say (hbranch.append (Console.proper_escape _))
    cases (hrun store).ok ho with
    | nothing hsnapshot hreport =>
      have hunheard : ∀ f, Unheard f → GateEnding t.workspace o (.error (.crash f)) := fun f hf =>
        .nothing hopens ho hreport (.unheard hf)
      refine .after hline hunheard fun z' _ => ?_
      rw [hsnapshot]
      exact .tells (tells_say (proper_styled (by decide) (Console.Plain.proper (by decide))))
        (.nothing hopens ho hreport .done) hunheard
    | judged hsnapshot hid hreport hr =>
      have hcode : ∀ stop, Closing outcome.exitCode stop → GateEnding t.workspace o (.error stop) := by
        rw [Check.run_exitCode ho hreport]
        exact fun _ hstop => .judged hp hopens ho hreport hstop
      refine .after hline (fun f hf => hcode _ (.unheard hf)) fun z' _ => ?_
      rw [hsnapshot, hreport]
      exact (sayOutcome_ends hchecked hid hr fun stop _ hstop => hcode stop hstop).mono (fun _ _ h => h.elim) fun _ _ h => h

/-! ### Baselines -/

/-- How recording a baseline ends. -/
inductive SaveEnding (w : Workspace) (p : Path) (o : BaselineOptions) : Except Stop Unit → Prop
  | done {r : Except Stop Unit} (hr : Finish r) : SaveEnding w p o r
  | path {stop : Stop} (h : PathStop w p stop) : SaveEnding w p o (.error stop)
  | store {stop : Stop} (h : StoreStop w o.config (storeOptions o.toStoreOptions) stop) : SaveEnding w p o (.error stop)
  | stored {s : Settings} {store : Store} {f : Failure} {v : Workspace} {stop : Stop}
      (hs : Opens w o.config (storeOptions o.toStoreOptions) s store)
      (h : (recordBaseline s p o.branch).exec w = (.error f, v)) (hf : f.IsStorage)
      (hstop : Closing ExitCode.internal stop) : SaveEnding w p o (.error stop)
  | scan {s : Settings} {store : Store} {e : Failure} (hs : Opens w o.config (storeOptions o.toStoreOptions) s store)
      (h : ScanSurprise w p s.extensions s.excludePatterns e) : SaveEnding w p o (.error (.crash e))
  | revision {s : Settings} {store : Store} {e : Failure} (hs : Opens w o.config (storeOptions o.toStoreOptions) s store)
      (h : Revision.Surprise w p e) : SaveEnding w p o (.error (.crash e))
  | create {s : Settings} {store : Store} {as : List FileAnalysis} {v : Workspace} {e : Failure}
      (hs : Opens w o.config (storeOptions o.toStoreOptions) s store)
      (has : (Check.analyze ⟨s, p, store⟩).exec w = (.ok as, v)) (h : store.CreateSurprise w as e) :
      SaveEnding w p o (.error (.crash e))
  | nul {s : Settings} {store : Store} (hs : Opens w o.config (storeOptions o.toStoreOptions) s store)
      (h : store.root.HasNul) : SaveEnding w p o (.error (.crash Store.nulFailure))

/-- Recording the analyses of a check as a baseline. -/
def recordIn (s : Settings) (p : Path) (branch : String) (store : Store) : Action (Option Snapshot) := do
  let c : Check := ⟨s, p, store⟩
  let analyses ← c.analyze
  if analyses.isEmpty then return none
  let commit ← Revision.commit p
  let snapshot ← c.store.create (analyses.map FileAnalysis.summary) branch commit none
  c.store.saveBaseline snapshot branch
  return some snapshot

omit [Console] in
theorem recordIn_surprises {s : Settings} {store : Store} {branch : String} (hw : w.DrawsDigits) :
    (recordIn s p branch store).Ends w (fun _ _ => True) fun e _ => e.IsStorage ∨
      ScanSurprise w p s.extensions s.excludePatterns e ∨ Revision.Surprise w p e ∨
      (∃ as v, (Check.analyze ⟨s, p, store⟩).exec w = (.ok as, v) ∧ store.CreateSurprise w as e) ∨
      e = Store.nulFailure ∧ store.root.HasNul := by
  have hanalyze := Check.analyze_surprises (w := w) ⟨s, p, store⟩
  rw [recordIn]
  refine .bind (P := fun as v => (Check.analyze ⟨s, p, store⟩).exec w = (.ok as, v) ∧ w.Follows v ∧ ∀ a ∈ as, a.Scored)
    ⟨fun h => ⟨h, hanalyze.ok h⟩, fun h => Or.inr (Or.inl (hanalyze.error h))⟩ ?_
  rintro as u ⟨has, hfollows, hscored⟩
  split_ifs
  · exact .pure trivial
  refine .bind ((Revision.commit_ends Workspace.follows_frame Workspace.follows_note p).mono (fun _ _ h => h)
    fun _ _ h => Or.inr (Or.inr (Or.inl (hfollows.revision h.2)))) fun commit v hv => ?_
  have hcreate := Store.create_surprises (s := store) hscored hw (Workspace.follows_frame.trans hfollows hv) branch commit
  refine .bind (hcreate.mono (fun _ _ h => h.2) fun _ _ h => h.imp_right fun h =>
    Or.inr (Or.inr (Or.inl ⟨as, u, has, h⟩)))
    fun x y hx => ?_
  refine .bind ((Store.saveBaseline_surprises hx).mono (fun _ _ h => h) fun _ _ h => h.imp_right fun h =>
    Or.inr (Or.inr (Or.inr h)))
    fun _ _ _ => .pure trivial

/-- Recording a baseline ends with an exit code, unless the sources cannot be looked for or the analyses recorded. -/
theorem saveBaseline_ends {o : BaselineOptions} (hw : t.workspace.DrawsDigits) : (saveBaseline p o).Ends t
    (fun _ _ => SaveEnding t.workspace p o (.ok ())) fun stop _ => SaveEnding t.workspace p o (.error stop) := by
  rw [saveBaseline]
  refine .bind ((requirePath_ends p).mono (fun _ _ h => h) fun _ _ h => .path h) ?_
  rintro _ u ⟨hu, -⟩
  refine .bind ((settings_ends o.config _).mono (fun _ _ h => h) fun _ _ h => .store (.settings (hu ▸ h))) ?_
  rintro s v ⟨hv, hs, -⟩
  rw [hu] at hv hs
  have hact : ∀ w, (recordBaseline s p o.branch).exec w =
      ((liftM s.store : Action Store) >>= recordIn s p o.branch).exec w := fun w => exec_make w _
  -- what the command does not catch is a scan, a revision, a record or a NUL that went wrong
  refine .bind (attempt_store (f := recordIn s p o.branch) hv hs hact storageFailure_cases id (fun _ _ h => .store h)
    (fun store e z hopens he hK stop hstop => .stored (v := z) hopens ?_ hK hstop) fun store e z hopens he hK => ?_) ?_
  · rw [hact, hopens.2, Action.exec_bind_ok (Action.exec_lift_ok rfl)]
    exact he
  · rcases (recordIn_surprises hw).error he with h | h | h | ⟨as, y, has, h⟩ | ⟨rfl, h⟩
    · exact absurd h hK
    · exact .scan hopens h
    · exact .revision hopens h
    · exact .create hopens has h
    · exact .nul hopens h
  · have hunheard : ∀ f, Unheard f → SaveEnding t.workspace p o (.error (.crash f)) := fun f hf => .done (.unheard hf)
    rintro (_ | x) z -
    · exact .tells (tells_say (proper_styled (by decide) (Console.Plain.proper (by decide)))) (.done .done) hunheard
    · have hbranch : Console.Proper (Console.styled "green" ("Baseline for " ++ Console.escape o.branch ++ " saved")) :=
        proper_styled (by decide) ((proper_after (by decide) _).append (Console.Plain.proper (by decide)))
      have hcounts : Console.Plain (" (" ++ toString x.metrics.totalFiles ++ " files, average score " ++
          x.metrics.averageScore.fixedText 2 ++ ")") := by simp +decide
      refine .tells (tells_say ?_) (.done .done) hunheard
      simpa only [String.append_assoc] using hbranch.append hcounts.proper

def idLine (id : String) : String := "  Snapshot:  " ++ id

/-- How showing a baseline ends. -/
inductive ShowEnding (w : Workspace) (o : BaselineOptions) : Except Stop Unit → Prop
  | done {r : Except Stop Unit} (hr : Finish r) : ShowEnding w o r
  | store {stop : Stop} (h : StoreStop w o.config (storeOptions o.toStoreOptions) stop) : ShowEnding w o (.error stop)
  | stored {s : Settings} {store : Store} {f : Failure} {v : Workspace} {stop : Stop}
      (hs : Opens w o.config (storeOptions o.toStoreOptions) s store)
      (h : (store.loadBaseline o.branch).exec w = (.error f, v)) (hf : f.IsStorage ∨ f.IsRecord)
      (hstop : Closing ExitCode.internal stop) : ShowEnding w o (.error stop)
  | escaped {s : Settings} {store : Store} {f : Failure} (hs : Opens w o.config (storeOptions o.toStoreOptions) s store)
      (h : Store.Escapes w (store.baselinePath o.branch) f) : ShowEnding w o (.error (.crash f))
  | unstamped {s : Settings} {store : Store} {x : Snapshot} {f : Failure}
      (hs : Opens w o.config (storeOptions o.toStoreOptions) s store)
      (hx : Store.answer w (store.baselinePath o.branch) = .ok (some x)) (h : stampText (.int x.timestamp) = .error f) :
      ShowEnding w o (.error (.crash f))
  | unread {s : Settings} {store : Store} {x : Snapshot} {f : Failure}
      (hs : Opens w o.config (storeOptions o.toStoreOptions) s store)
      (hx : Store.answer w (store.baselinePath o.branch) = .ok (some x)) (h : Console.read (idLine x.id) = .error f) :
      ShowEnding w o (.error (.crash f))

/-- A snapshot is shown, unless its time has no stamp, its id cannot be read as markup or the console fails. -/
theorem saySnapshot_ends {x : Snapshot} {title : String} {E : Stop → Workspace → Prop}
    (hstamp : ∀ e v, stampText (.int x.timestamp) = .error e → E (.crash e) v)
    (hread : ∀ e v, Console.read (idLine x.id) = .error e → E (.crash e) v) (hE : ∀ f v, Unheard f → E (.crash f) v) :
    (saySnapshot x title).Ends t (fun _ _ => True) E := by
  have horigin : Console.Proper ("  Branch:    " ++ Console.escape x.branch ++ "  Commit: " ++ Console.escape x.commit) :=
    ((proper_after (by decide) _).append (Console.Plain.proper (by decide))).append (Console.proper_escape _)
  have htable : Tells (sayTable metricColumns (metricRows x.metrics)) :=
    tells_sayTable _ fun row hrow m hm => (metricRows_plain _ row hrow m hm).proper
  rw [saySnapshot]
  refine .after (tells_say (proper_styled (by decide) (Console.proper_escape _))) (fun f => hE f _) fun u _ => ?_
  refine .bind (P := fun _ _ => True) (.say trivial (fun e => hread e _) fun f => hE f _) fun _ v _ => ?_
  refine .bind (P := fun text _ => Console.Plain text)
    (.lift_failure (fun text htext => plain_stampText htext) fun e => hstamp e _) fun text y htext => ?_
  refine .after (tells_say (Console.Plain.proper (by simp +decide [htext]))) (fun f => hE f _) fun y _ => ?_
  refine .after (tells_say horigin) (fun f => hE f _) fun y _ => ?_
  exact .after (tells_say (Console.Plain.proper (by decide))) (fun f => hE f _) fun y _ => .tells htable trivial fun f => hE f _

/-- Showing a baseline ends with an exit code, unless reading it fails or it cannot be shown. -/
theorem showBaseline_ends {o : BaselineOptions} : (showBaseline o).Ends t (fun _ _ => ShowEnding t.workspace o (.ok ()))
    fun stop _ => ShowEnding t.workspace o (.error stop) := by
  rw [showBaseline]
  refine .bind ((settings_ends o.config _).mono (fun _ _ h => h) fun _ _ h => .store (.settings h)) ?_
  rintro s v ⟨hv, hs, -⟩
  have hload : ∀ store, (Store.loadBaseline store o.branch).Ends t.workspace
      (fun found _ => Store.answer t.workspace (store.baselinePath o.branch) = .ok found)
      fun e _ => e.IsStorage ∨ e.IsRecord ∨ Store.Escapes t.workspace (store.baselinePath o.branch) e :=
    fun store => Store.loadBaseline_surprises.mono (fun _ _ h => h.1) fun _ _ h => h
  have hunheard : ∀ f, Unheard f → ShowEnding t.workspace o (.error (.crash f)) := fun f hf => .done (.unheard hf)
  refine .bind (attempt_store (f := fun store => store.loadBaseline o.branch) hv hs (fun w => rfl)
    recordFailure_cases (by rintro (h | h) <;> exact h) (fun _ _ h => .store h)
    (fun store e z hopens he hK _ hstop => .stored hopens he hK hstop) fun store e z hopens he hK => .escaped hopens ?_) ?_
  · exact (or_assoc.mpr ((hload store).error he)).resolve_left hK
  · rintro found z ⟨store, hopens, hfound⟩
    have hanswer := (hload store).ok hfound
    rcases found with _ | x
    · refine .tells (tells_say (proper_styled (by decide) ?_)) (.done .done) hunheard
      exact (proper_after (by decide) _).append (Console.Plain.proper (by decide))
    · exact (saySnapshot_ends (fun e _ he => .unstamped hopens hanswer he) (fun e _ he => .unread hopens hanswer he)
        fun f _ => hunheard f).mono (fun _ _ _ => .done .done) fun _ _ h => h

/-! ### Snapshots -/

def ListOptions.shown (o : ListOptions) (xs : List Snapshot) : List Snapshot := xs.take o.last.1.toNat

/-- The first eight characters of the commit. -/
def shortCommit (x : Snapshot) : String := String.ofList (x.commit.toList.take 8)

/-- How listing snapshots ends. -/
inductive ListEnding (w : Workspace) (o : ListOptions) : Except Stop Unit → Prop
  | done {r : Except Stop Unit} (hr : Finish r) : ListEnding w o r
  | store {stop : Stop} (h : StoreStop w o.config (storeOptions o.toStoreOptions) stop) : ListEnding w o (.error stop)
  | unlisted {s : Settings} {store : Store} {f : Failure} (hs : Opens w o.config (storeOptions o.toStoreOptions) s store)
      (h : store.ListSurprise w f) : ListEnding w o (.error (.crash f))
  | unstamped {s : Settings} {store : Store} {xs : List Snapshot} {v : Workspace} {x : Snapshot} {f : Failure}
      (hs : Opens w o.config (storeOptions o.toStoreOptions) s store) (hxs : store.list.exec w = (.ok xs, v))
      (hx : x ∈ ListOptions.shown o xs) (h : stampText (.int x.timestamp) = .error f) : ListEnding w o (.error (.crash f))
  | unread {s : Settings} {store : Store} {xs : List Snapshot} {v : Workspace} {x : Snapshot} {cell : String} {f : Failure}
      (hs : Opens w o.config (storeOptions o.toStoreOptions) s store) (hxs : store.list.exec w = (.ok xs, v))
      (hx : x ∈ ListOptions.shown o xs) (hcell : cell = x.id ∨ cell = shortCommit x) (h : Console.read cell = .error f) :
      ListEnding w o (.error (.crash f))

theorem stampText_of_snapshotRow {x : Snapshot} {e : Failure} (h : snapshotRow x = .error e) :
    stampText (.int x.timestamp) = .error e := by
  rw [snapshotRow] at h
  rcases hstamp : stampText (.int x.timestamp) with f | stamp
  · rw [hstamp] at h
    cases h
    rfl
  · rw [hstamp] at h
    cases h

/-- The cells of a row about a snapshot are put together as markup should be, apart from its id and the beginning of its
commit. -/
theorem snapshotRow_proper {x : Snapshot} {row : List String} (hrow : snapshotRow x = .ok row) :
    ∀ m ∈ row, (m = x.id ∨ m = shortCommit x) ∨ Console.Proper m := by
  obtain ⟨stamp, hstamp, hcells⟩ := bind_eq_ok.mp hrow
  rw [pure_eq_ok, Except.ok.injEq] at hcells
  rw [← hcells]
  simp only [List.forall_mem_cons, shortCommit, true_or, or_true, true_and]
  exact ⟨Or.inr (plain_stampText hstamp).proper, Or.inr (Console.proper_escape _), Or.inr (plain_int _).proper,
    Or.inr (plain_int _).proper, Or.inr (plain_fixedText 2 _).proper, by simp⟩

/-- Listing snapshots ends with no exit code but zero, unless listing fails or a row cannot be shown. -/
theorem listSnapshots_ends {o : ListOptions} : (listSnapshots o).Ends t (fun _ _ => ListEnding t.workspace o (.ok ()))
    fun stop _ => ListEnding t.workspace o (.error stop) := by
  rw [listSnapshots]
  refine .bind ((settings_ends o.config _).mono (fun _ _ h => h) fun _ _ h => .store (.settings h)) ?_
  rintro s v ⟨hv, hs, -⟩
  have hlist : ∀ store : Store, store.list.Ends t.workspace (fun _ _ => True) fun e _ => store.ListSurprise t.workspace e :=
    fun store => store.list_surprises
  have hunheard : ∀ f, Unheard f → ListEnding t.workspace o (.error (.crash f)) := fun f hf => .done (.unheard hf)
  refine .bind (attempt_store (f := fun store => store.list) hv hs (fun w => rfl)
    storageFailure_cases id (fun _ _ h => .store h)
    (fun store e z hopens he hK => absurd hK ((hlist store).error he).not_isStorage)
    fun store e z hopens he hK => .unlisted hopens ((hlist store).error he)) ?_
  rintro xs z ⟨store, hopens, hxs⟩
  split_ifs
  · exact .tells (tells_say (proper_styled (by decide) (Console.Plain.proper (by decide)))) (.done .done) hunheard
  · have hrows : (((ListOptions.shown o xs).mapM fun x => (liftM (snapshotRow x) : Command (List String)))).Ends z
        (fun rows y => y = z.workspace ∧ ∀ row ∈ rows, ∃ x ∈ ListOptions.shown o xs, snapshotRow x = .ok row)
        fun stop _ => ListEnding t.workspace o (.error stop) :=
      .mapM fun x hx u hu => .lift_failure (fun row hrow => ⟨hu, hrow⟩) fun e he =>
        .unstamped hopens hxs hx (stampText_of_snapshotRow he)
    refine .bind hrows ?_
    rintro rows y ⟨hy, hrows⟩
    refine .bind (P := fun _ _ => True) (.lift_failure (fun _ _ => trivial) fun e he => ?_) fun table _ _ =>
      .tells (tells_put _) (.done .done) hunheard
    -- a table that cannot be read has a cell that cannot, and that is an id or a commit unless the console fails
    obtain ⟨row, hrow, m, hm, hread⟩ := fails_cells rows e he
    obtain ⟨x, hx, hrow⟩ := hrows row hrow
    rcases snapshotRow_proper hrow m hm with hcell | hproper
    · exact .unread hopens hxs hx hcell hread
    · exact hunheard _ (.unread hproper hread)

/-- How cleaning up ends. -/
inductive CleanEnding (w : Workspace) (o : CleanOptions) : Except Stop Unit → Prop
  | done {r : Except Stop Unit} (hr : Finish r) : CleanEnding w o r
  | store {stop : Stop} (h : StoreStop w o.config (cleanOptions o) stop) : CleanEnding w o (.error stop)
  | stored {s : Settings} {store : Store} {maxAge : Number} {f : Failure} {v : Workspace} {stop : Stop}
      (hs : Opens w o.config (cleanOptions o) s store) (hage : s.maxAge = .ok maxAge)
      (h : (store.cleanup maxAge).exec w = (.error f, v)) (hf : f.IsStorage)
      (hstop : Closing ExitCode.internal stop) : CleanEnding w o (.error stop)
  | age {s : Settings} {store : Store} {fault : Fault} (hs : Opens w o.config (cleanOptions o) s store)
      (h : s.maxAge = .error fault) : CleanEnding w o (.error (.crash (.fault fault)))
  | surprise {s : Settings} {store : Store} {maxAge : Number} {f : Failure} (hs : Opens w o.config (cleanOptions o) s store)
      (hage : s.maxAge = .ok maxAge) (h : store.CleanSurprise w maxAge f) : CleanEnding w o (.error (.crash f))

/-- Cleaning up ends with an exit code, unless the age cannot be counted with or the snapshots cannot be listed and named. -/
theorem cleanSnapshots_ends {o : CleanOptions} : (cleanSnapshots o).Ends t (fun _ _ => CleanEnding t.workspace o (.ok ()))
    fun stop _ => CleanEnding t.workspace o (.error stop) := by
  rw [cleanSnapshots]
  refine .bind ((settings_ends o.config (cleanOptions o)).mono (fun _ _ h => h) fun _ _ h => .store (.settings h)) ?_
  rintro s v ⟨hv, hs, -⟩
  let f (store : Store) : Action (List String) := do store.cleanup (← s.maxAge)
  -- the age is worked out before the cleanup begins
  have hfail : ∀ store e z, (f store).exec t.workspace = (.error e, z) →
      (∃ fault, s.maxAge = .error fault ∧ e = .fault fault) ∨
        ∃ maxAge, s.maxAge = .ok maxAge ∧ (store.cleanup maxAge).exec t.workspace = (.error e, z) := by
    intro store e z he
    simp only [f] at he
    rcases hage : s.maxAge with fault | maxAge
    · rw [hage] at he
      cases he
      exact Or.inl ⟨fault, rfl, rfl⟩
    · rw [hage, Action.exec_bind_ok (Action.exec_lift_ok rfl)] at he
      exact Or.inr ⟨maxAge, rfl, he⟩
  refine .bind (attempt_store (f := f) hv hs (fun w => rfl) storageFailure_cases id (fun _ _ h => .store h)
    (fun store e z hopens he hK => ?_) fun store e z hopens he hK => ?_) fun removed z _ => ?_
  · rcases hfail store e z he with ⟨fault, -, rfl⟩ | ⟨maxAge, hage, hcleanup⟩
    · exact hK.elim
    · exact fun _ hstop => .stored hopens hage hcleanup hK hstop
  · rcases hfail store e z he with ⟨fault, hage, rfl⟩ | ⟨maxAge, hage, hcleanup⟩
    · exact .age hopens hage
    · exact .surprise hopens hage (((store.cleanup_surprises maxAge).error hcleanup).resolve_left hK)
  · exact .tells (tells_say (proper_styled (by decide) (Console.Plain.proper (by simp +decide)))) (.done .done)
      fun f hf => .done (.unheard hf)

end Command

end ScoreGate
