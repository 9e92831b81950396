import ScoreGate.Command
import ScoreGate.Proofs.Endings

/-!
# Exit codes

What is asked of the program ends in one of the ways of its command.  Exit code one without a failure is that of a check whose
verdict blocks the build, and of nothing else; but a failure that escapes ends with the same code.

* `Halts`: how a request ends, and why.
* `Blocks`: what exit code one is reserved for.
* `runCommand_exits`: the exit code of every request.
-/

namespace ScoreGate

open Command

variable [Console] {r : Request} {o : ProgramOptions} {w : Workspace}

/-! ### Endings of all requests -/

/-- How a request ends. -/
inductive RequestEnding (w : Workspace) : Request → Except Stop Unit → Prop
  | analyze {a : AnalyzeOptions} {ending : Except Stop Unit} (h : AnalyzeEnding w a.file ending) :
      RequestEnding w (.analyze a) ending
  | bulk {a : BulkOptions} {ending : Except Stop Unit} (h : BulkEnding w a ending) : RequestEnding w (.bulk a) ending
  | gate {a : GateOptions} {ending : Except Stop Unit} (h : GateEnding w a ending) : RequestEnding w (.ci a) ending
  | save {root : Path} {a : BaselineOptions} {ending : Except Stop Unit} (h : SaveEnding w root a ending) :
      RequestEnding w (.saveBaseline root a) ending
  | show {a : BaselineOptions} {ending : Except Stop Unit} (h : ShowEnding w a ending) : RequestEnding w (.showBaseline a) ending
  | list {a : ListOptions} {ending : Except Stop Unit} (h : ListEnding w a ending) : RequestEnding w (.listSnapshots a) ending
  | clean {a : CleanOptions} {ending : Except Stop Unit} (h : CleanEnding w a ending) :
      RequestEnding w (.cleanSnapshots a) ending

theorem Request.act_ends {t : Terminal} (r : Request) (ht : t.workspace.DrawsDigits) : r.act.Ends t
    (fun _ _ => RequestEnding t.workspace r (.ok ())) fun stop _ => RequestEnding t.workspace r (.error stop) := by
  cases r with
  | analyze a => exact analyze_ends.mono (fun _ _ h => .analyze h) fun _ _ h => .analyze h
  | bulk a => exact bulk_ends.mono (fun _ _ h => .bulk h) fun _ _ h => .bulk h
  | ci a => exact (gate_ends ht).mono (fun _ _ h => .gate h) fun _ _ h => .gate h
  | saveBaseline root a => exact (saveBaseline_ends ht).mono (fun _ _ h => .save h) fun _ _ h => .save h
  | showBaseline a => exact showBaseline_ends.mono (fun _ _ h => .show h) fun _ _ h => .show h
  | listSnapshots a => exact listSnapshots_ends.mono (fun _ _ h => .list h) fun _ _ h => .list h
  | cleanSnapshots a => exact cleanSnapshots_ends.mono (fun _ _ h => .clean h) fun _ _ h => .clean h

/-- How a request with options of the program ends: the file for notes cannot be opened, or the request is done with it. -/
inductive Halts (r : Request) (o : ProgramOptions) (w : Workspace) : Except Stop Unit → Prop
  | log {e : Failure} {v : Workspace} (h : o.open.exec w = (.error e, v)) : Halts r o w (.error (.crash e))
  | request {u : Workspace} {ending : Except Stop Unit} (hopen : o.open.exec w = (.ok (), u))
      (h : RequestEnding u r ending) : Halts r o w ending

omit [Console] in
theorem openLog_ends (file : String) (level : Level) :
    (openLog file level).Ends w (fun _ v => w.DrawsDigits → v.DrawsDigits) fun _ _ => True := by
  generalize hpath : (⟨Path.rootOf file.toList, plainParts (Path.partsOf file.toList)⟩ : Path) = path
  rw [openLog]
  refine .bind_ok Action.exec_get ?_
  simp only [hpath]
  rcases happend : w.append path ByteArray.empty with o | v
  · exact .of_error (Action.exec_throw _) trivial
  rcases hlocate : w.locate path with o | location
  · exact .of_error (Action.exec_throw _) trivial
  · refine .of_ok (Action.exec_set _) fun hdigits => ?_
    obtain ⟨loc, -, hv⟩ := bind_eq_ok.mp happend
    cases hv
    exact hdigits

omit [Console] in
/-- Opening the file for notes leaves the letters that are drawn alone. -/
theorem ProgramOptions.open_ends (o : ProgramOptions) :
    o.open.Ends w (fun _ v => w.DrawsDigits → v.DrawsDigits) fun _ _ => True := by
  rw [ProgramOptions.open]
  split
  · exact .pure id
  · split_ifs
    · exact .pure id
    · exact openLog_ends _ _

theorem Request.run_ends {t : Terminal} (ht : t.workspace.DrawsDigits) : (r.run o).Ends t
    (fun _ _ => Halts r o t.workspace (.ok ())) fun stop _ => Halts r o t.workspace (.error stop) := by
  rw [run]
  refine .bind (P := fun _ v => o.open.exec t.workspace = (.ok (), v)) (.perform ⟨fun h => h, fun h => .log h⟩) ?_
  intro _ u hopen
  exact (r.act_ends (o.open_ends.ok hopen ht)).mono (fun _ _ h => .request hopen h) fun _ _ h => .request hopen h

/-! ### Exit codes -/

/-- The exit codes that a command chooses whatever a check finds. -/
def ordinaryCodes : List ℕ := [ExitCode.success, ExitCode.badSettings, ExitCode.pathNotFound, ExitCode.internal]

/-- A reason to stop that is an exit code of this kind, or a failure that escapes. -/
inductive Stop.Ordinary : Stop → Prop
  | exit {code : ℕ} (h : code ∈ ordinaryCodes) : Stop.Ordinary (.exit code)
  | crash (f : Failure) : Stop.Ordinary (.crash f)

/-- A check comes to a report whose verdict is failing, and failing checks stop the build. -/
inductive Fails (w : Workspace) (a : GateOptions) : Prop
  | judged {s : Settings} {store : Store} {outcome : Outcome} {v : Workspace} {report : Report}
      (hp : ∃ n, w.node a.root = .ok n) (hs : Opens w a.config (gateOptions a) s store)
      (hrun : (Check.run ⟨s, a.root, store⟩).exec w = (.ok outcome, v)) (hreport : outcome.report = some report)
      (hverdict : report.verdict = .fail) (hfail : s.failOnRegression.isTrue = true) : Fails w a

/-- What exit code one is reserved for: the request is a check that fails once the file for notes is open. -/
def Blocks (r : Request) (o : ProgramOptions) (w : Workspace) : Prop :=
  ∃ a u, r = .ci a ∧ o.open.exec w = (.ok (), u) ∧ Fails u a

namespace Command

variable {p : Path} {stop : Stop}

theorem Closing.ordinary {code : ℕ} (h : Closing code stop) (hcode : code ∈ ordinaryCodes) : stop.Ordinary := by
  cases h with
  | exit => exact .exit hcode
  | unheard => exact .crash _

theorem Finish.ordinary (h : Finish (.error stop)) : stop.Ordinary := by
  cases h
  exact .crash _

theorem PathStop.ordinary (h : PathStop w p stop) : stop.Ordinary := by
  cases h with
  | missing _ h => exact h.ordinary (by decide)
  | refused => exact .crash _

section Options

variable {config : Option Path} {options : List Override}

theorem SettingsStop.ordinary (h : SettingsStop w config options stop) : stop.Ordinary := by
  cases h with
  | refused _ _ h => exact h.ordinary (by decide)
  | escaped => exact .crash _

theorem StoreStop.ordinary (h : StoreStop w config options stop) : stop.Ordinary := by
  cases h with
  | settings h => exact h.ordinary
  | kind => exact .crash _

end Options

theorem AnalyzeEnding.ordinary (h : AnalyzeEnding w p (.error stop)) : stop.Ordinary := by
  cases h with
  | done _ h => exact h.ordinary
  | path h => exact h.ordinary
  | unread _ _ h => exact h.ordinary (by decide)

theorem BulkEnding.ordinary {a : BulkOptions} (h : BulkEnding w a (.error stop)) : stop.Ordinary := by
  cases h with
  | done h => exact h.ordinary
  | path h => exact h.ordinary
  | settings h => exact h.ordinary
  | unwritten _ _ _ _ _ _ h => exact h.ordinary (by decide)
  | patterns => exact .crash _
  | scan => exact .crash _

theorem SaveEnding.ordinary {a : BaselineOptions} (h : SaveEnding w p a (.error stop)) : stop.Ordinary := by
  cases h with
  | done h => exact h.ordinary
  | path h => exact h.ordinary
  | store h => exact h.ordinary
  | stored _ _ _ h => exact h.ordinary (by decide)
  | scan => exact .crash _
  | revision => exact .crash _
  | create => exact .crash _
  | nul => exact .crash _

theorem ShowEnding.ordinary {a : BaselineOptions} (h : ShowEnding w a (.error stop)) : stop.Ordinary := by
  cases h with
  | done h => exact h.ordinary
  | store h => exact h.ordinary
  | stored _ _ _ h => exact h.ordinary (by decide)
  | escaped => exact .crash _
  | unstamped => exact .crash _
  | unread => exact .crash _

theorem ListEnding.ordinary {a : ListOptions} (h : ListEnding w a (.error stop)) : stop.Ordinary := by
  cases h with
  | done h => exact h.ordinary
  | store h => exact h.ordinary
  | unlisted => exact .crash _
  | unstamped => exact .crash _
  | unread => exact .crash _

theorem CleanEnding.ordinary {a : CleanOptions} (h : CleanEnding w a (.error stop)) : stop.Ordinary := by
  cases h with
  | done h => exact h.ordinary
  | store h => exact h.ordinary
  | stored _ _ _ _ h => exact h.ordinary (by decide)
  | age => exact .crash _
  | surprise => exact .crash _

variable {a : GateOptions}

/-- A check stops with an exit code of its own only after its verdict. -/
theorem GateEnding.ordinary_or (h : GateEnding w a (.error stop)) : stop.Ordinary ∨ stop = .exit 1 ∧ Fails w a := by
  cases h with
  | nothing _ _ _ h => exact Or.inl h.ordinary
  | judged hp hs h hreport hstop =>
    rw [reportCode] at hstop
    split_ifs at hstop with hfail
    · cases hstop with
      | exit => exact Or.inr ⟨rfl, .judged hp hs h hreport hfail.1 hfail.2⟩
      | unheard => exact Or.inl (.crash _)
    · exact Or.inl (hstop.ordinary (by decide))
  | path h => exact Or.inl h.ordinary
  | store h => exact Or.inl h.ordinary
  | stored _ _ _ h => exact Or.inl (h.ordinary (by decide))
  | surprise => exact Or.inl (.crash _)

theorem PathStop.leads_nowhere (h : PathStop w p stop) : ¬∃ n, w.node p = .ok n := by
  rintro ⟨n, hn⟩
  cases h with
  | missing h => exact absurd hn (h n)
  | refused h =>
    rw [Workspace.node, h] at hn
    cases hn

section Once

variable {config : Option Path} {options : List Override} {s s' : Settings} {store store' : Store}

omit [Console] in
theorem Loading.unique {x x' : Except Failure Settings} (h : Loading w config options x) (h' : Loading w config options x') :
    x' = x :=
  congrArg Prod.fst (h'.symm.trans h)

omit [Console] in
theorem Opens.unique (h : Opens w config options s store) (h' : Opens w config options s' store') :
    s' = s ∧ store' = store := by
  obtain rfl : s' = s := Except.ok.inj (h.1.unique h'.1)
  exact ⟨rfl, Except.ok.inj (h'.2.symm.trans h.2)⟩

theorem StoreStop.opens_nothing (h : StoreStop w config options stop) : ¬Opens w config options s store := by
  intro hs
  cases h with
  | settings h =>
    cases h with
    | refused h => cases hs.1.unique h
    | escaped h => cases hs.1.unique h
  | @kind s' hs' h =>
    obtain rfl : s' = s := Except.ok.inj (hs.1.unique hs')
    rcases s'.store_cases with ⟨dir, hdir, -⟩ | ⟨-, hstore⟩
    · exact absurd hdir (h dir)
    · cases hstore.symm.trans hs.2

end Once

/-- A check that fails stops with exit code one, unless the console fails. -/
theorem GateEnding.closing_of_fails {ending : Except Stop Unit} (h : GateEnding w a ending) (hfails : Fails w a) :
    ∃ stop, ending = .error stop ∧ Closing 1 stop := by
  obtain ⟨hp, hs, hrun, hreport, hverdict, hfail⟩ := hfails
  -- the settings, the store and the outcome of the check are the same in both
  cases h with
  | nothing hs' h hreport' =>
    obtain ⟨rfl, rfl⟩ := hs.unique hs'
    rw [hrun] at h
    cases h
    rw [hreport] at hreport'
    cases hreport'
  | judged _ hs' h hreport' hstop =>
    obtain ⟨rfl, rfl⟩ := hs.unique hs'
    rw [hrun] at h
    cases h
    rw [hreport] at hreport'
    cases hreport'
    rw [reportCode, if_pos ⟨hverdict, hfail⟩] at hstop
    exact ⟨_, rfl, hstop⟩
  | path h => exact absurd hp h.leads_nowhere
  | store h => exact absurd hs h.opens_nothing
  | stored hs' h =>
    obtain ⟨rfl, rfl⟩ := hs.unique hs'
    cases hrun.symm.trans h
  | surprise hs' h =>
    obtain ⟨rfl, rfl⟩ := hs.unique hs'
    cases hrun.symm.trans h

end Command

theorem Halts.ordinary_or {stop : Stop} (h : Halts r o w (.error stop)) :
    stop.Ordinary ∨ stop = .exit 1 ∧ Blocks r o w := by
  cases h with
  | log => exact Or.inl (.crash _)
  | request hopen h =>
    cases h with
    | analyze h => exact Or.inl h.ordinary
    | bulk h => exact Or.inl h.ordinary
    | gate h => exact h.ordinary_or.imp_right fun ⟨hstop, hfails⟩ => ⟨hstop, _, _, rfl, hopen, hfails⟩
    | save h => exact Or.inl h.ordinary
    | «show» h => exact Or.inl h.ordinary
    | list h => exact Or.inl h.ordinary
    | clean h => exact Or.inl h.ordinary

/-- A check that blocks the build stops with exit code one, unless the console fails. -/
theorem Halts.closing_of_blocks {ending : Except Stop Unit} (h : Halts r o w ending) (hblocks : Blocks r o w) :
    ∃ stop, ending = .error stop ∧ Closing 1 stop := by
  obtain ⟨a, u, rfl, hu, hfails⟩ := hblocks
  cases h with
  | log h => cases hu.symm.trans h
  | request hopen h =>
    rw [hu] at hopen
    cases hopen
    cases h with
    | gate h => exact h.closing_of_fails hfails

/-! ### Requests -/

theorem runCommand_eq (r : Request) (o : ProgramOptions) (w : Workspace) :
    (runCommand r o w).1 = .of ((r.run o).exec ⟨w, []⟩).2.printed ((r.run o).exec ⟨w, []⟩).1 := rfl

/-- Every request ends, and for a reason of its command.  One that meets with no failure that escapes ends with exit code 0,
81, 82 or 100, or with 1 if, and only if, it is a check whose verdict blocks the build.  A failure that escapes ends with exit
code 1, although no check blocks the build or the console did not print what the check found. -/
theorem runCommand_exits (r : Request) (o : ProgramOptions) (hw : w.DrawsDigits) : ∃ ending printed, Halts r o w ending ∧
    (runCommand r o w).1 = .of printed ending ∧
    ((runCommand r o w).1.failure = none →
      ((runCommand r o w).1.exitCode ∈ ordinaryCodes ∨ (runCommand r o w).1.exitCode = 1) ∧
        ((runCommand r o w).1.exitCode = 1 ↔ Blocks r o w)) ∧
    ∀ f, (runCommand r o w).1.failure = some f → ending = .error (.crash f) ∧ (runCommand r o w).1.exitCode = 1 ∧
      (Blocks r o w → Unheard f) := by
  rcases hexec : (r.run o).exec ⟨w, []⟩ with ⟨ending, t⟩
  have hends : (r.run o).Ends ⟨w, []⟩ (fun _ _ => Halts r o w (.ok ())) fun stop _ => Halts r o w (.error stop) :=
    r.run_ends hw
  rw [runCommand_eq, hexec]
  -- an exit code of a command, a failure that escapes, or the end of the command
  rcases ending with (code | f) | ⟨⟨⟩⟩
  · have hhalts := hends.error hexec
    have hone : Blocks r o w → code = 1 := by
      intro h
      obtain ⟨stop, hstop, hclosing⟩ := hhalts.closing_of_blocks h
      cases hstop
      cases hclosing
      rfl
    refine ⟨_, t.printed, hhalts, rfl, fun _ => ?_, nofun⟩
    rcases hhalts.ordinary_or with (hcode | _) | ⟨h, hblocks⟩
    · refine ⟨Or.inl hcode, fun (h : code = 1) => ?_, hone⟩
      rw [h] at hcode
      exact absurd hcode (by decide)
    · exact ⟨Or.inr (Stop.exit.inj h), fun _ => hblocks, hone⟩
  · have hhalts := hends.error hexec
    refine ⟨_, t.printed, hhalts, rfl, nofun, ?_⟩
    rintro _ ⟨⟩
    refine ⟨rfl, rfl, fun h => ?_⟩
    obtain ⟨stop, hstop, hclosing⟩ := hhalts.closing_of_blocks h
    cases hstop
    cases hclosing with
    | unheard h => exact h
  · have hhalts := hends.ok hexec
    refine ⟨_, t.printed, hhalts, rfl, fun _ => ⟨Or.inl (List.mem_cons_self ..), nofun, fun h => ?_⟩, nofun⟩
    obtain ⟨stop, hstop, -⟩ := hhalts.closing_of_blocks h
    cases hstop

/-- A project whose file of settings is no text. -/
def undecodable : Workspace := { Store.blank with tree := ⟨[(["perf-sentinel.toml"], .file ⟨#[0xff]⟩)]⟩ }

omit [Console] in
/-- Settings that cannot be decoded end the list of snapshots with the exit code that is reserved for checks. -/
theorem runCommand_exits_undecodable : letI := Console.simple; undecodable.DrawsDigits ∧
    Halts (.listSnapshots {}) {} undecodable (.error (.crash .notUtf8)) ∧
    (runCommand (.listSnapshots {}) {} undecodable).1.exitCode = 1 ∧ ¬Blocks (.listSnapshots {}) {} undecodable := by
  let := Console.simple
  have hdraws : undecodable.DrawsDigits := fun c hc => by cases hc
  have hfails : (runCommand (.listSnapshots {}) {} undecodable).1.failure = some .notUtf8 := by decide +kernel
  obtain ⟨ending, -, hhalts, -, -, hcrash⟩ := runCommand_exits (.listSnapshots {}) {} hdraws
  obtain ⟨rfl, hone, -⟩ := hcrash _ hfails
  refine ⟨hdraws, hhalts, hone, ?_⟩
  rintro ⟨a, u, h, -⟩
  cases h

end ScoreGate
