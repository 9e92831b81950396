import ScoreGate.Proofs.Adding
import ScoreGate.Proofs.Documents
import ScoreGate.Proofs.Endings

/-!
# The branch of a baseline

Saving a baseline, showing it and checking against it find the branch in two ways: the commands about baselines take it
from their own option, and the check takes it from its settings.  So a check is held against the baseline that was just
saved if its settings name the branch under which it was saved; otherwise it is held against what stood under the branch
of its settings before, or against nothing.

* `Store.Spared`: room for everything that a store writes but the baselines of some branches.
* `Store.answer_of_report`: what a report rests on.
* `Command.baselines_meet`: what is shown, and what a check is held against, after a baseline was saved.
-/

namespace ScoreGate

namespace Store

variable {s : Store} {u v w : Workspace} {x y : Snapshot} {branch other : String}

/-! ### What a store writes -/

/-- Room for notes, and for everything that a store writes but the baselines of some branches. -/
def Spared (s : Store) (w : Workspace) (branches : String → Prop) : Room :=
  ⟨fun loc => ∃ f, w.log = some f ∧ loc = f.location,
    fun loc => ∀ b, branches b → loc ≠ (Slot.baseline b).location s, fun _ => True⟩

variable {branches : String → Prop}

theorem LogApart.logsTo (h : s.LogApart w) : w.LogsTo (s.Spared w branches).grows :=
  fun f hf => ⟨⟨f, hf, rfl⟩, (h f hf).2⟩

theorem LogApart.not_grows (h : s.LogApart w) (slot : Slot) : ¬(s.Spared w branches).grows (slot.location s) := by
  rintro ⟨f, hf, heq⟩
  exact (h f hf).1 (heq ▸ slot.prefix_location s)

theorem baseline_iff (hlog : s.LogApart w) (h : w.Adds (s.Spared w branches) v) (hb : branches branch) {bytes : ByteArray} :
    v.tree.find? ((Slot.baseline branch).location s) = some (.file bytes) ↔
      w.tree.find? ((Slot.baseline branch).location s) = some (.file bytes) :=
  (h.takes _).file_iff (hlog.not_grows _) fun hwritten => hwritten branch hb rfl

theorem create_spares {files : List FileSummary} {commit : String} {environment : Option Provenance}
    (h : w.Adds (s.Spared w branches) v) : (s.create files branch commit environment).Ends v
      (fun _ u => w.Adds (s.Spared w branches) u) fun _ u => w.Adds (s.Spared w branches) u := by
  refine (create_adds (P := fun _ => True) h (fun _ _ => ⟨fun _ => trivial, fun _ => trivial⟩) ?_ (fun _ _ => trivial) ?_).mono
    (fun _ _ hx => hx.2.1) fun _ _ he => he
  · intro id _ b _ heq
    cases Slot.location_injective heq
  · intro id _ _ n b _ heq
    exact Slot.baseline_ne_temporary heq.symm

/-! ### Reports -/

/-- A report rests on the comparison with a baseline, or on there being none. -/
def RestsOn (r : Report) (baseline : Option Snapshot) (x : Snapshot) (t : Thresholds) : Prop :=
  match baseline with
  | none => r = .noBaseline
  | some b => r ≠ .noBaseline ∧ ∃ c, compareSnapshots b x = .ok c ∧ judge (some c) t = .ok r

theorem judge_ne_noBaseline {c : Comparison} {t : Thresholds} {r : Report} (h : judge (some c) t = .ok r) :
    r ≠ .noBaseline := by
  have hsentence : ∀ v : Verdict, v.sentence ≠ "No baseline available for comparison" := by
    intro v
    cases v <;> decide
  have hmessage : ∃ v : Verdict, r.summary.message = .text v.sentence := by
    simp only [judge, bind_eq_ok, pure_eq_ok, Except.ok.injEq] at h
    obtain ⟨_, -, _, -, _, -, _, -, _, -, _, -, _, -, rfl⟩ := h
    exact ⟨_, rfl⟩
  rintro rfl
  obtain ⟨v, hv⟩ := hmessage
  exact hsentence v (Value.text.inj hv).symm

theorem answer_of_report {t : Thresholds} {r : Report} (h : (s.report x branch t).exec w = (.ok r, v)) :
    ∃ found, answer w (s.baselinePath branch) = .ok found ∧ RestsOn r found x t := by
  rw [report, Action.exec_bind_eq_ok] at h
  obtain ⟨found, u, hcompare, h⟩ := h
  -- whichever of the two notes is taken, the report is the judgement on what was compared
  have hjudge : judge (found.map (·.2)) t = .ok r := by
    split_ifs at h
    all_goals
      simp only [Action.exec_bind_eq_ok, Action.exec_lift_fault, Action.exec_pure, Prod.mk.injEq, mapError_eq_ok,
        Except.ok.injEq] at h
    · obtain ⟨_, _, -, _, _, ⟨hr, -⟩, _, _, -, rfl, -⟩ := h
      exact hr
    · obtain ⟨_, _, ⟨hr, -⟩, _, _, -, rfl, -⟩ := h
      exact hr
  rw [compare, Action.exec_bind_eq_ok] at hcompare
  obtain ⟨baseline, u', hload, hcompare⟩ := hcompare
  refine ⟨baseline, (loadBaseline_surprises.ok hload).1, ?_⟩
  rcases baseline with _ | b
  · cases hcompare
    exact (Except.ok.inj hjudge).symm
  · simp only [Action.exec_bind_eq_ok, Action.exec_lift_fault, Action.exec_pure, Prod.mk.injEq, mapError_eq_ok,
      Except.ok.injEq] at hcompare
    obtain ⟨c, _, ⟨hc, -⟩, _, _, -, rfl, -⟩ := hcompare
    exact ⟨judge_ne_noBaseline hjudge, c, hc, hjudge⟩

/-! ### Baselines side by side -/

theorem locate_baseline {loc : Location} (h : w.locate ((Slot.baseline branch).path s) = .ok loc) (other : String) :
    w.locate ((Slot.baseline other).path s) = .ok ((Slot.baseline other).location s) ∨
      w.locate ((Slot.baseline other).path s) = .error .nameTooLong := by
  have hpath : ∀ b, (Slot.baseline b).path s = (s.root.child "baselines").child (baselineName b) := by
    simp [Slot.path, Slot.names, Path.join, Path.child]
  have hnul : ¬((Slot.baseline other).path s).HasNul := by
    intro hnul
    obtain ⟨part, hpart, hmem⟩ := hasNul_of_baseline (baselinePath_eq s other ▸ hnul)
    refine Workspace.not_hasNul_of_locate h ⟨part, ?_, hmem⟩
    rw [Slot.path, Path.join, ← List.cons_append]
    exact List.mem_append_left _ hpart
  rw [hpath] at h hnul ⊢
  obtain ⟨dir, hdir, hdirectory⟩ := Tree.directory_of_locateFrom (Tree.locate_eq_ok.mp h).2
  refine (Workspace.locate_join_cases hdir hdirectory (baselineName_ne other) hnul).imp_left fun hok => ?_
  exact hok.trans (congrArg _ (Slot.eq_location ((congrArg w.locate (hpath other)).trans hok)))

theorem answer_baseline {loc : Location} (h : w.locate ((Slot.baseline branch).path s) = .ok loc) {found : Option Snapshot}
    (hfound : answer w (s.baselinePath other) = .ok found) :
    match w.tree.find? ((Slot.baseline other).location s) with
    | some (.file bytes) => ∃ b, found = some b ∧ decode w.depth (s.baselinePath other) bytes = .ok b
    | _ => found = none := by
  rw [answer, exec_readDocument, baselinePath_eq] at hfound
  rw [baselinePath_eq]
  rcases locate_baseline h other with hlocate | hlong
  · rcases hfind : w.tree.find? ((Slot.baseline other).location s) with _ | ⟨_ | bytes⟩
    · have hnode : w.node ((Slot.baseline other).path s) = .error .missing := by
        rw [Workspace.node, hlocate, ok_bind, hfind]
        rfl
      rw [hnode] at hfound
      exact (Except.ok.inj hfound).symm
    · rw [Workspace.node_eq_ok.mpr ⟨_, hlocate, hfind⟩] at hfound
      cases hfound
    · rw [Workspace.node_eq_ok.mpr ⟨_, hlocate, hfind⟩] at hfound
      obtain ⟨b, hb, rfl⟩ := map_eq_ok.mp hfound
      exact ⟨b, rfl, hb⟩
  · rw [Workspace.node_eq_nameTooLong.mpr hlong] at hfound
    cases hfound

theorem saveBaseline_spares (h : w.Adds (s.Spared w (· ≠ branch)) v) : (s.saveBaseline x branch).Ends v
    (fun _ u => w.Adds (s.Spared w (· ≠ branch)) u ∧ s.Places (.baseline branch) x u) fun _ _ => True := by
  rw [saveBaseline, baselinePath_eq]
  refine .bind ((writeDocument_adds h ?_ (fun _ _ => trivial) ?_).mono (fun _ _ hu => hu) fun _ _ _ => trivial) ?_
  · intro b hb heq
    exact hb (Slot.baseline.inj (Slot.location_injective heq)).symm
  · intro _ _ n b _ heq
    exact Slot.baseline_ne_temporary heq.symm
  · rintro _ u ⟨hu, hplaced⟩
    have hlog : u.HasLog := fun f hf => (hu.log f hf).2
    exact .note ⟨hu.note _, hplaced.notes hlog (Workspace.notes_note u _)⟩

end Store

namespace Check

variable {c : Check} {u w : Workspace}

theorem report_of_run (hlog : c.store.LogApart w) {o : Outcome} (h : c.run.exec w = (.ok o, u)) (ho : o.filesAnalyzed ≠ 0) :
    ∃ branch x r v v', c.settings.baselineBranch = .text branch ∧ o.snapshot = some x ∧ o.report = some r ∧
      w.Adds (c.store.Spared w fun _ => True) v ∧ (c.store.report x branch c.settings.limits).exec v = (.ok r, v') := by
  have hobserve := c.preserves_observe w
  rw [run_eq, Action.exec_bind_eq_ok] at h
  obtain ⟨⟨current, commit, as⟩, v, hv, h⟩ := h
  rw [hv] at hobserve
  simp only at h
  split_ifs at h
  · -- nothing was analysed, which the outcome would say
    obtain ⟨_, _, -, h⟩ := Action.exec_bind_eq_ok.mp h
    cases h
    exact absurd rfl ho
  rw [judgeAnalyses, Action.exec_bind_eq_ok] at h
  obtain ⟨x, v₁, hcreate, h⟩ := h
  have hadds : w.Adds (c.store.Spared w fun _ => True) v₁ := (Store.create_spares (hobserve.adds hlog.logsTo)).ok hcreate
  rcases branchOf_cases c.settings.baselineBranch with ⟨branch, htext, hbranch⟩ | ⟨-, hbranch⟩
  · rw [hbranch, Action.exec_bind_ok (Action.exec_lift_ok rfl), Action.exec_bind_eq_ok] at h
    obtain ⟨r, v₂, hreport, h⟩ := h
    simp only [Action.exec_bind_eq_ok, Action.exec_pure, Prod.mk.injEq, Except.ok.injEq] at h
    obtain ⟨_, _, -, _, _, -, _, _, -, rfl, -⟩ := h
    exact ⟨branch, x, r, v₁, v₂, htext, rfl, rfl, hadds, hreport⟩
  · rw [hbranch] at h
    cases h

end Check

namespace Command

variable {p q : Path} {u v w : Workspace} {s s' : Settings} {store : Store} {x : Snapshot} {branch : String}

/-- What was recorded as a baseline stands in its slot and reads back, and the baselines of all other branches are what they
were. -/
theorem recordIn_spares (hlog : store.LogApart w) (h : (recordIn s p branch store).exec w = (.ok (some x), v)) :
    w.Adds (store.Spared w (· ≠ branch)) v ∧ store.Places (.baseline branch) x v ∧ x.check = .ok x ∧
      ∀ depth, 4 ≤ depth → Store.Readable depth x := by
  have hanalyze := Check.preserves_analyze ⟨s, p, store⟩ w
  rw [recordIn, Action.exec_bind_eq_ok] at h
  obtain ⟨as, v₁, has, h⟩ := h
  rw [has] at hanalyze
  split_ifs at h
  · cases h
  rw [Action.exec_bind_eq_ok] at h
  obtain ⟨commit, v₂, hcommit, h⟩ := h
  have hnotes := (Revision.commit_ends Workspace.notes_frame Workspace.notes_note p).ok hcommit
  rw [Action.exec_bind_eq_ok] at h
  obtain ⟨y, v₃, hcreate, h⟩ := h
  have hadds : w.Adds (store.Spared w (· ≠ branch)) v₃ :=
    (Store.create_spares ((Workspace.notes_frame.trans hanalyze hnotes).adds hlog.logsTo)).ok hcreate
  rw [Action.exec_bind_eq_ok] at h
  obtain ⟨_, v₄, hsave, h⟩ := h
  obtain ⟨hsaved, hplaced⟩ := (Store.saveBaseline_spares hadds).ok hsave
  cases h
  exact ⟨hsaved, hplaced, (Store.create_records hcreate).1.check, fun _ hdepth => Store.readable_created hcreate hdepth⟩

/-- A baseline was saved: the options named a store, and what was recorded in it is this snapshot.  A document may be nested
as deep as that of a snapshot is. -/
structure Saves (a : BaselineOptions) (p : Path) (w : Workspace) (store : Store) (x : Snapshot) (v : Workspace) : Prop where
  opens : ∃ s, Opens w a.config (storeOptions a.toStoreOptions) s store ∧
    (recordIn s p a.branch store).exec w = (.ok (some x), v)
  log : store.LogApart w
  deep : 4 ≤ w.depth

/-- A later command starts with the files that another one left. -/
structure Follows (store : Store) (v u : Workspace) : Prop where
  tree : u.tree = v.tree
  limits : u.limits = v.limits
  depth : u.depth = v.depth
  log : store.LogApart u

section Commands

variable [Console] {t : Terminal} {a b : BaselineOptions}

theorem exec_attempt_ok {α : Type} {act : Action α} {expected : Failure → Option (String × ℕ)} {y : α}
    (h : act.exec t.workspace = (.ok y, v)) : (attempt act expected).exec t = (.ok y, { t with workspace := v }) := by
  rw [attempt, exec_bind, exec_attempted, h]
  rfl

theorem exec_showBaseline (hopens : Opens t.workspace b.config (storeOptions b.toStoreOptions) s store)
    (hanswer : Store.answer t.workspace (store.baselinePath b.branch) = .ok (some x)) :
    (showBaseline b).exec t = (saySnapshot x ("Baseline (" ++ b.branch ++ ")")).exec t := by
  have hsettings : (storeSettings b.toStoreOptions).exec t = (.ok s, t) := exec_attempt_ok hopens.1
  have hload : (do (← s.store).loadBaseline b.branch : Action (Option Snapshot)).exec t.workspace =
      (.ok (some x), t.workspace) := by
    rw [hopens.2, Action.exec_bind_ok (Action.exec_lift_ok rfl), Store.loadBaseline,
      Action.exec_bind_ok ((Store.exec_readDocument_answer _ _).trans (congrArg (·, t.workspace) hanswer))]
    rfl
  rw [showBaseline, exec_bind, hsettings]
  simp only
  rw [exec_bind, exec_attempt_ok hload]

/-- After a baseline was saved it is shown under its branch.  A check on the same store rests on it if its settings name
that branch.  If they name another, it rests on what stood there before, and has no baseline where there was no file. -/
theorem baselines_meet (hsave : Saves a p w store x v) (hu : Follows store v u) :
    (∀ (b : BaselineOptions) s t, t.workspace = u → Opens u b.config (storeOptions b.toStoreOptions) s store →
      b.branch = a.branch → (showBaseline b).exec t = (saySnapshot x ("Baseline (" ++ a.branch ++ ")")).exec t) ∧
    ∀ (d : GateOptions) s o u', Opens u d.config (gateOptions d) s store →
      (Check.run ⟨s, d.root, store⟩).exec u = (.ok o, u') → o.filesAnalyzed ≠ 0 →
      ∃ branch y r, s.baselineBranch = .text branch ∧ o.snapshot = some y ∧ o.report = some r ∧
        (branch = a.branch → Store.RestsOn r (some x) y s.limits) ∧
        (branch ≠ a.branch → match w.tree.find? ((Slot.baseline branch).location store) with
          | some (.file bytes) => ∃ z, Store.decode w.depth (store.baselinePath branch) bytes = .ok z ∧
              Store.RestsOn r (some z) y s.limits
          | _ => Store.RestsOn r none y s.limits) := by
  obtain ⟨s₀, -, hrecord⟩ := hsave.opens
  obtain ⟨hadds, hplaced, hcheck, hreads⟩ := recordIn_spares hsave.log hrecord
  -- nothing that happens in between touches the store, so the document is still in its slot
  have hplaced' : store.Places (.baseline a.branch) x u := by
    refine ⟨?_, fun f hf heq => (hu.log f hf).1 (heq ▸ Slot.prefix_location _ _)⟩
    have hfile := hplaced.file
    rwa [Workspace.node, Workspace.locate, ← hu.tree, ← hu.limits] at hfile
  have hreadable : Store.Readable u.depth x := by
    rw [hu.depth, hadds.depth]
    exact hreads _ hsave.deep
  have hanswer : ∀ {u}, store.Places (.baseline a.branch) x u → Store.Readable u.depth x →
      Store.answer u (store.baselinePath a.branch) = .ok (some x) := by
    intro u hplaced hreadable
    rw [Store.answer, Store.exec_readDocument, Store.baselinePath_eq, hplaced.file]
    simp only [Store.decode_text _ hcheck hreadable]
    rfl
  refine ⟨?_, ?_⟩
  · rintro b s t rfl hopens hbranch
    rw [← hbranch] at hanswer hplaced' ⊢
    exact exec_showBaseline hopens (hanswer hplaced' hreadable)
  · intro d s o u' hopens hrun ho
    obtain ⟨branch, y, r, u₁, _, htext, hsnapshot, hreport, hspared, hexec⟩ := Check.report_of_run hu.log hrun ho
    obtain ⟨found, hfound, hrests⟩ := Store.answer_of_report hexec
    have hdepth : u₁.depth = u.depth := hspared.depth
    have hplaced₁ := hplaced'.of_adds hspared (hu.log.not_grows _) fun hwritten => hwritten _ trivial rfl
    refine ⟨branch, y, r, htext, hsnapshot, hreport, ?_, fun hother => ?_⟩
    · rintro rfl
      rw [hanswer hplaced₁ (hdepth ▸ hreadable), Except.ok.injEq] at hfound
      exact hfound ▸ hrests
    · -- what stood there before the baseline was saved stands there while the check reads it
      have hsame : ∀ bytes, u₁.tree.find? ((Slot.baseline branch).location store) = some (.file bytes) ↔
          w.tree.find? ((Slot.baseline branch).location store) = some (.file bytes) := by
        intro bytes
        rw [Store.baseline_iff hu.log hspared trivial, hu.tree, Store.baseline_iff hsave.log hadds hother]
      obtain ⟨loc, hlocate, -⟩ := Workspace.node_eq_ok.mp hplaced₁.file
      have hheld := Store.answer_baseline hlocate hfound
      have hnone : (∀ bytes, w.tree.find? ((Slot.baseline branch).location store) ≠ some (.file bytes)) →
          Store.RestsOn r none y s.limits := by
        intro hno
        rcases hfind : u₁.tree.find? ((Slot.baseline branch).location store) with _ | ⟨_ | bytes⟩
        · rw [hfind] at hheld
          exact hheld ▸ hrests
        · rw [hfind] at hheld
          exact hheld ▸ hrests
        · exact absurd ((hsame bytes).mp hfind) (hno bytes)
      rcases hbefore : w.tree.find? ((Slot.baseline branch).location store) with _ | ⟨_ | bytes⟩
      · exact hnone (by simp [hbefore])
      · exact hnone (by simp [hbefore])
      · rw [(hsame bytes).mpr hbefore] at hheld
        obtain ⟨z, rfl, hdecode⟩ := hheld
        rw [hdepth, hu.depth, hadds.depth] at hdecode
        exact ⟨z, hdecode, hrests⟩

end Commands

/-- A project with one source, whose settings name a branch. -/
def developing : Workspace :=
  { Store.blank with
    tree := ⟨[(["perf-sentinel.toml"], .file "baseline_branch = \"develop\"\n".toUTF8),
      (["a.ts"], .file "let a = 1".toUTF8)]⟩ }

/-- The store of the default settings. -/
def usualStore : Store := ⟨.ofText ".performance-snapshots"⟩

/-- The settings of a command in a workspace. -/
@[irreducible] def settingsIn (w : Workspace) (options : List Override) : Settings :=
  ((loadSettings none options).exec w).1.toOption.getD .default

/-- What saving a baseline without options comes to. -/
@[irreducible] def developed : Except Failure (Option Snapshot) × Workspace :=
  (recordIn (settingsIn developing (storeOptions {})) .here "main" usualStore).exec developing

/-- What a check without options then comes to. -/
@[irreducible] def gated : Except Failure Outcome × Workspace :=
  (Check.run ⟨settingsIn developed.2 (gateOptions { root := .here }), .here, usualStore⟩).exec developed.2

/-- Both branches are those without options: the baseline is shown, and the check has none. -/
theorem baselines_meet_develop : letI := Console.simple; ∃ x o, Saves {} .here developing usualStore x developed.2 ∧
    Follows usualStore developed.2 developed.2 ∧ gated.1 = .ok o ∧ o.filesAnalyzed = 1 ∧ o.report = some .noBaseline ∧
    ∀ t, t.workspace = developed.2 → (showBaseline {}).exec t = (saySnapshot x "Baseline (main)").exec t := by
  let := Console.simple
  have hopens : ∀ w options, ((loadSettings none options).exec w).1.toBool = true ∧
      (settingsIn w options).store = .ok usualStore → Opens w none options (settingsIn w options) usualStore := by
    rintro w options ⟨hok, hstore⟩
    refine ⟨?_, hstore⟩
    change (loadSettings none options).exec w = (.ok (settingsIn w options), w)
    rcases hload : (loadSettings none options).exec w with ⟨e | s, v⟩
    · rw [hload] at hok
      cases hok
    · obtain ⟨rfl, -⟩ := loadSettings_checked.ok hload
      rw [settingsIn, hload]
      rfl
  have hsaves : Opens developing none (storeOptions {}) (settingsIn developing (storeOptions {}))
      usualStore :=
    hopens _ _ (by decide +kernel)
  -- all that is computed about the saved workspace is computed at once
  obtain ⟨hgate, hshow, hbranch, hlog, hsome, hone⟩ :
      (((loadSettings none (gateOptions { root := .here })).exec developed.2).1.toBool = true ∧
        (settingsIn developed.2 (gateOptions { root := .here })).store = .ok usualStore) ∧
      (((loadSettings none (storeOptions {})).exec developed.2).1.toBool = true ∧
        (settingsIn developed.2 (storeOptions {})).store = .ok usualStore) ∧
      (settingsIn developed.2 (gateOptions { root := .here })).baselineBranch = .text "develop" ∧ developed.2.log.isNone = true ∧
      (developed.1.toOption.bind id).isSome = true ∧ gated.1.toOption.map (·.filesAnalyzed) = some 1 := by decide +kernel
  have hgates := hopens developed.2 (gateOptions { root := .here }) hgate
  have hshows := hopens developed.2 (storeOptions {}) hshow
  have hapart : usualStore.LogApart developed.2 := by
    intro f hf
    rw [hf] at hlog
    cases hlog
  obtain ⟨x, hx⟩ : ∃ x, developed.1 = .ok (some x) := by
    rcases hrecord : developed.1 with e | _ | x
    · rw [hrecord] at hsome
      cases hsome
    · rw [hrecord] at hsome
      cases hsome
    · exact ⟨x, rfl⟩
  obtain ⟨o, ho, hcount⟩ : ∃ o, gated.1 = .ok o ∧ o.filesAnalyzed = 1 := by
    rcases hrun : gated.1 with e | o
    · rw [hrun] at hone
      cases hone
    · rw [hrun] at hone
      exact ⟨o, rfl, Option.some.inj hone⟩
  have htitle : "Baseline (" ++ "main" ++ ")" = "Baseline (main)" := by decide +kernel
  have hrecord : (recordIn (settingsIn developing (storeOptions {})) .here "main" usualStore).exec developing =
      (.ok (some x), developed.2) := by
    have hwhole : developed = (.ok (some x), developed.2) := Prod.ext hx rfl
    exact Eq.trans (by rw [developed]) hwhole
  have hsave : Saves {} .here developing usualStore x developed.2 := ⟨⟨_, hsaves, hrecord⟩, nofun, by decide⟩
  have hgated : gated = (.ok o, gated.2) := Prod.ext ho rfl
  have hfollows : Follows usualStore developed.2 developed.2 := ⟨rfl, rfl, rfl, hapart⟩
  obtain ⟨hshown, hchecked⟩ := baselines_meet hsave hfollows
  obtain ⟨branch, y, r, htext, -, hreport, -, hother⟩ :=
    hchecked { root := .here } _ o gated.2 hgates (Eq.trans (by rw [gated]) hgated) (by rw [hcount]; decide)
  rw [hbranch, Value.text.injEq] at htext
  subst htext
  have hnothing : developing.tree.find? ((Slot.baseline "develop").location usualStore) = none := by decide +kernel
  have hrests := hother (by decide)
  rw [hnothing] at hrests
  refine ⟨x, o, hsave, hfollows, ho, hcount, hreport.trans (congrArg some hrests), fun t ht => ?_⟩
  rw [hshown {} _ t ht hshows rfl, htitle]

end Command

end ScoreGate
