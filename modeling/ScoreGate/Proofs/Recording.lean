import ScoreGate.Proofs.Histories
import ScoreGate.Proofs.Rereading
import ScoreGate.Proofs.Standstill

/-!
# Recording a check

A check is recorded when the summaries of its analyses are made a snapshot and that snapshot is made the baseline of
the branch.  All that is written then are the files of the store; a scan that does not pick them up sees the same files
afterwards, and the baseline holds the summaries of what it will analyse again.

* `Source.draw_all`, `Store.freeId_ends`: ids are drawn from what the source gives.
* `Store.WriteFails`: what stops the writing of a file.
* `Store.create_ends`, `Store.saveBaseline_ends`: recording spares what is watched.
* `Check.record_settles`: what a recorded check leaves.
-/

namespace ScoreGate

/-! ### Drawing ids -/

namespace Source

section Draw

variable {P : Char → Prop} {s : Source}

theorem lastDigits36_all (hdigits : ∀ n < 36, P (digit36 n)) : ∀ width n, ∀ c ∈ lastDigits36 width n, P c
  | 0, _ => by simp [lastDigits36]
  | width + 1, n => by
    rw [lastDigits36, List.forall_mem_cons]
    exact ⟨hdigits _ (Nat.mod_lt n (by norm_num)), lastDigits36_all hdigits width (n / 36)⟩

theorem nextChar_all (hdigits : ∀ n < 36, P (digit36 n)) (hs : ∀ c ∈ s.pending, P c) :
    P s.nextChar.1 ∧ ∀ c ∈ s.nextChar.2.pending, P c := by
  rw [nextChar]
  rcases hpending : s.pending with _ | ⟨c, rest⟩
  · have hrest : ∀ c ∈ (lastDigits36 suffixLength s.next).reverse, P c :=
      fun c hc => lastDigits36_all hdigits _ _ c (List.mem_reverse.mp hc)
    rcases hreverse : (lastDigits36 suffixLength s.next).reverse with _ | ⟨c, rest⟩
    · exact ⟨hdigits 0 (by norm_num), by simp⟩
    · rw [hreverse] at hrest
      exact ⟨hrest c (by simp), fun d hd => hrest d (List.mem_cons_of_mem c hd)⟩
  · rw [hpending] at hs
    exact ⟨hs c (by simp), fun d hd => hs d (List.mem_cons_of_mem c hd)⟩

theorem draw_all (hdigits : ∀ n < 36, P (digit36 n)) : ∀ {count : ℕ} {s : Source}, (∀ c ∈ s.pending, P c) →
    (s.draw count).1.length = count ∧ (∀ c ∈ (s.draw count).1, P c) ∧ ∀ c ∈ (s.draw count).2.pending, P c
  | 0, _, hs => ⟨rfl, by simp [draw], hs⟩
  | count + 1, s, hs => by
    obtain ⟨hfirst, hpending⟩ := nextChar_all hdigits hs
    obtain ⟨hlength, hrest, hlast⟩ := @draw_all hdigits count _ hpending
    refine ⟨congrArg (· + 1) hlength, fun c hc => ?_, hlast⟩
    rcases List.mem_cons.mp hc with rfl | hc
    · exact hfirst
    · exact hrest c hc

end Draw

end Source

namespace Store

variable {watched : Location → Bool} {s : Store} {u v w : Workspace}

/-- The id of a snapshot from the time and some characters. -/
def drawnId (clock : ℤ) (cs : List Char) : String := "snapshot-" ++ toString clock ++ "-" ++ String.ofList cs

theorem forall_mem_drawnId {P : Char → Prop} {clock : ℤ} {cs : List Char} (hbegin : ∀ c ∈ "snapshot-".toList, P c)
    (hclock : ∀ c ∈ (toString clock).toList, P c) (hcs : ∀ c ∈ cs, P c) : ∀ c ∈ (drawnId clock cs).toList, P c := by
  have hdash : ∀ c ∈ "-".toList, P c := fun c hc => hbegin c (by simp_all)
  rw [drawnId, String.toList_append, String.toList_append, String.toList_append]
  simp only [List.forall_mem_append]
  exact ⟨⟨⟨hbegin, hclock⟩, hdash⟩, by rwa [String.toList_ofList]⟩

theorem isId_drawnId (clock : ℤ) {cs : List Char} (hcs : ∀ c ∈ cs, c ≠ '/' ∧ c ≠ '\\') : isId (drawnId clock cs) = true := by
  have hclock : ∀ c ∈ (toString clock).toList, c ≠ '/' ∧ c ≠ '\\' := by
    intro c hc
    have hfigure := figure_int hc
    constructor <;> rintro rfl <;> revert hfigure <;> decide
  have hall := forall_mem_drawnId (P := fun c => c ≠ '/' ∧ c ≠ '\\') (by simp) hclock hcs
  refine isId_iff.mpr ⟨?_, fun hslash => (hall _ hslash).1 rfl, fun hslash => (hall _ hslash).2 rfl⟩
  intro hempty
  have hnil := congrArg String.toList hempty
  simp [drawnId] at hnil

/-- Drawing an id takes random characters, and nothing else. -/
theorem generateId_ends (h : w.Same watched v) : generateId.Ends v
    (fun id u => (∃ cs, cs.length = suffixLength ∧ id = drawnId w.clock cs) ∧ isId id = true ∧ w.Same watched u)
    fun _ _ => False := by
  have hdigits : ∀ n < 36, digit36 n ≠ '/' ∧ digit36 n ≠ '\\' := by decide
  obtain ⟨hlength, hdrawn, hpending⟩ := @Source.draw_all _ hdigits suffixLength v.source h.apart.ids
  refine .of_ok (exec_generateId v) ⟨⟨(v.source.draw suffixLength).1, hlength, by rw [← h.clock]; rfl⟩, ?_, ?_⟩
  · exact isId_drawnId v.clock hdrawn
  · exact h.trans ⟨rfl, rfl, rfl, .refl _ _, h.apart.log, h.apart.service, hpending, h.apart.time,
      h.apart.revision⟩

/-! ### Writing files -/

/-- The files of a store that come with a check. -/
inductive Own (s : Store) : Location → Prop
  | document (clock : ℤ) (cs : List Char) : Own s ((Slot.snapshot (drawnId clock cs)).location s)
  | report (clock : ℤ) (cs : List Char) : Own s (s.location ++ ["report-" ++ drawnId clock cs ++ ".json"])
  | comment (clock : ℤ) (cs : List Char) : Own s (s.location ++ ["comment-" ++ drawnId clock cs ++ ".md"])
  | temporary (n : ℕ) : Own s (s.location ++ [Workspace.temporaryName n])

/-- The files of a store that come with a baseline. -/
inductive OwnBaseline (s : Store) : Location → Prop
  | document (branch : String) : OwnBaseline s ((Slot.baseline branch).location s)
  | temporary (n : ℕ) : OwnBaseline s (s.location ++ ["baselines", Workspace.temporaryName n])

/-- What stops the writing of a file: a step of it fails, as long as nothing has changed that is watched, or the file system
refuses the name of a new snapshot. -/
inductive WriteFails (s : Store) (watched : Location → Bool) (w : Workspace) : Failure → Prop
  | document {u v : Workspace} {slot : Slot} {x : Snapshot} {fault : SystemFault} (same : w.Same watched u)
      (stopped : u.replaceFile (slot.path s) x.text.toUTF8 = (v, some fault)) :
      WriteFails s watched w (storageFailure (slot.path s) .write fault)
  | output {u : Workspace} {name content : String} {o : Obstacle} (same : w.Same watched u)
      (stopped : u.write (s.root.child name) content.toUTF8 = .error o) :
      WriteFails s watched w (storageFailure (s.root.child name) .write ⟨o, (s.root.child name).text, none⟩)
  | service {u : Workspace} {target : String} {bytes : ByteArray} {o : Obstacle} (same : w.Same watched u)
      (named : u.valueOf? Check.outputVariable = some target) (some : target.isEmpty = false)
      (stopped : Check.addTo target bytes u = .error o) :
      WriteFails s watched w (.storage target (.write ⟨o, target, none⟩))
  | refused {u : Workspace} {cs : List Char} (same : w.Same watched u) (length : cs.length = suffixLength)
      (long : u.locate ((Slot.snapshot (drawnId w.clock cs)).path s) = .error .nameTooLong) :
      WriteFails s watched w .system

theorem freeId_draws {I : Workspace → Prop} {P : String → Prop} (hdraw : ∀ v, I v → generateId.Ends v (fun id u => P id ∧ I u)
    fun _ _ => False) (hid : ∀ id, P id → isId id = true) (fuel : ℕ) : ∀ {v}, I v → (s.freeId fuel).Ends v
      (fun id u => P id ∧ I u)
      fun e u => I u ∧ e = .system ∧ ∃ id, P id ∧ u.locate ((Slot.snapshot id).path s) = .error .nameTooLong := by
  -- by how many ids may still be tried; any property that drawing keeps is kept
  induction fuel with
  | zero =>
    intro v h
    rw [freeId]
    exact (hdraw v h).mono (fun _ _ hid => hid) fun _ _ hfalse => hfalse.elim
  | succ fuel ih =>
    intro v h
    rw [freeId]
    refine .bind ((hdraw v h).mono (fun _ _ hid => hid) fun _ _ hfalse => hfalse.elim) ?_
    rintro id u ⟨hP, hu⟩
    refine .bind_ok (Action.exec_lift_ok (snapshotPath_eq_ok (hid id hP))) ?_
    refine .bind (Action.Ends.exists?.mono (fun _ _ hx => hx.1) ?_) ?_
    · rintro e u' ⟨rfl, rfl, hlong⟩
      exact ⟨hu, rfl, id, hP, hlong⟩
    · rintro taken _ rfl
      split_ifs
      · exact ih hu
      · exact .pure ⟨hP, hu⟩

theorem freeId_ends (s : Store) (fuel : ℕ) (h : w.Same watched v) : (s.freeId fuel).Ends v
    (fun id u => (∃ cs, cs.length = suffixLength ∧ id = drawnId w.clock cs) ∧ isId id = true ∧ w.Same watched u)
    fun e u => s.WriteFails watched w e ∧ w.Same watched u := by
  have hdraw : ∀ v, w.Same watched v → generateId.Ends v (fun id u =>
      ((∃ cs, cs.length = suffixLength ∧ id = drawnId w.clock cs) ∧ isId id = true) ∧ w.Same watched u) fun _ _ => False :=
    fun v hv => (generateId_ends hv).mono (fun _ _ h => ⟨⟨h.1, h.2.1⟩, h.2.2⟩) fun _ _ h => h
  refine (freeId_draws hdraw (fun _ h => h.2) fuel h).mono (fun _ _ h => ⟨h.1.1, h.1.2, h.2⟩) ?_
  rintro e u ⟨hu, rfl, id, ⟨⟨cs, hlength, rfl⟩, -⟩, hlong⟩
  exact ⟨.refused hu hlength hlong, hu⟩

/-- Writing a document spares what is watched if its location is not.  A document with a written form fails only where
writing fails. -/
theorem writeDocument_ends {x : Snapshot} {slot : Slot} (h : w.Same watched v) (hloc : watched (slot.location s) = false)
    (htemp : ∀ n, watched (Tree.resolve [] (slot.path s).parent.parts ++ [Workspace.temporaryName n]) = false) :
    (writeDocument (slot.path s) x).Ends v (fun _ u => w.Same watched u)
      fun e u => (x.toValue.isWritable = true → s.WriteFails watched w e) ∧ w.Same watched u := by
  have hsame := h.trans
    (@Workspace.same_replaceFile watched v h.apart (slot.path s) x.text.toUTF8 (Slot.location_eq slot s ▸ hloc) htemp)
  refine ends_writeDocument (fun hunwritable => ⟨fun hwritable => ?_, h⟩) (fun _ u hr => ?_) fun _ u fault hr => ?_
  · rw [hunwritable] at hwritable
    cases hwritable
  · rwa [hr] at hsame
  · rw [hr] at hsame
    exact ⟨fun _ => .document h hr, hsame⟩

theorem save_ends {x : Snapshot} {clock : ℤ} {cs : List Char} (h : w.Same watched v)
    (hown : ∀ loc, s.Own loc → watched loc = false) (hdrawn : x.id = drawnId clock cs) (hid : isId x.id = true) :
    (s.save x).Ends v (fun _ u => w.Same watched u)
      fun e u => (x.toValue.isWritable = true → s.WriteFails watched w e) ∧ w.Same watched u := by
  have hloc : watched ((Slot.snapshot x.id).location s) = false := by
    rw [hdrawn]
    exact hown _ (.document clock cs)
  have htemp : ∀ n, watched (Tree.resolve [] ((Slot.snapshot x.id).path s).parent.parts ++
      [Workspace.temporaryName n]) = false := by
    intro n
    rw [Slot.parent_snapshot]
    exact hown _ (.temporary n)
  refine ends_save (fun hnot => ?_) fun _ => (writeDocument_ends h hloc htemp).mono
    (fun _ u hu e => hu.trans (Workspace.spares_note watched u e hu.apart)) fun _ _ h => h
  rw [hid] at hnot
  cases hnot

/-- What a snapshot of some summaries records, at any time and on any branch. -/
structure Records (files : List FileSummary) (x : Snapshot) : Prop where
  listed : x.files = files
  counted : Metrics.ofSummaries files = .ok x.metrics
  check : x.check = .ok x

theorem Records.metrics_eq {files : List FileSummary} {b : Snapshot} {m : Metrics} (hb : Records files b)
    (h : Metrics.ofSummaries files = .ok m) : m = b.metrics := by
  rw [hb.counted, Except.ok.injEq] at h
  exact h.symm

theorem Records.paths_eq {as : List FileAnalysis} {b : Snapshot} (hb : Records (as.map FileAnalysis.summary) b) :
    b.files.map (·.path) = as.map fun a => .text a.path := by
  rw [hb.listed, List.map_map]
  rfl

theorem create_eq_ok {files : List FileSummary} {x : Snapshot} {branch commit : String} {environment : Option Provenance}
    (h : (s.create files branch commit environment).exec w = (.ok x, v)) :
    x.files = files ∧ Metrics.ofSummaries files = .ok x.metrics ∧ x.environment = environment.getD runtime ∧
      x.check = .ok x ∧ x.toValue.isWritable = true := by
  refine (ends_create (D := fun _ _ => True) (E := fun _ _ => True) (P := fun x _ => x.files = files ∧
    Metrics.ofSummaries files = .ok x.metrics ∧ x.environment = environment.getD runtime ∧ x.check = .ok x ∧
      x.toValue.isWritable = true) (fun _ _ => trivial) ⟨fun _ => trivial, fun _ => trivial⟩
      (fun _ _ _ _ _ _ => trivial) fun x u _ hdrafted hcheck => ?_).ok h
  refine ends_save (fun _ => trivial) fun _ =>
    ends_writeDocument (fun _ => trivial) (fun hwritable _ _ _ _ => ?_) fun _ _ _ _ => trivial
  exact ⟨hdrafted.listed, hdrafted.counted, hdrafted.environment, hcheck, hwritable⟩

theorem create_records {files : List FileSummary} {x : Snapshot} {branch commit : String} {environment : Option Provenance}
    (h : (s.create files branch commit environment).exec w = (.ok x, v)) :
    Records files x ∧ x.toValue.isWritable = true := by
  obtain ⟨hfiles, hmetrics, -, hcheck, hwritable⟩ := create_eq_ok h
  exact ⟨⟨hfiles, hmetrics, hcheck⟩, hwritable⟩

/-- Some summaries were recorded and written before. -/
def Repeats (files : List FileSummary) : Prop := ∃ b, Records files b ∧ b.toValue.isWritable = true

/-- A new snapshot of some summaries spares what is watched.  If they were recorded before, only writing can fail. -/
theorem create_ends {files : List FileSummary} {branch commit : String} {environment : Option Provenance}
    (h : w.Same watched v) (hown : ∀ loc, s.Own loc → watched loc = false) :
    (s.create files branch commit environment).Ends v
      (fun x u => Records files x ∧ (∃ cs, x.id = drawnId w.clock cs) ∧ w.Same watched u)
      fun e u => (Repeats files → (environment.getD runtime).toValue.isWritable = true → s.WriteFails watched w e) ∧
        w.Same watched u := by
  have hwarned : w.Same watched (warned v files) :=
    warned_of_note h fun e => h.trans (Workspace.spares_note watched v e h.apart)
  refine ends_create (D := fun id u => (∃ cs, id = drawnId w.clock cs) ∧ isId id = true ∧ w.Same watched u)
    ?metrics ?draw ?refused ?save
  case metrics =>
    refine fun fault hmetrics => ⟨?_, h⟩
    rintro ⟨b, hb, -⟩
    rw [hb.counted] at hmetrics
    cases hmetrics
  case draw =>
    refine (s.freeId_ends _ hwarned).mono ?_ fun _ _ he => ⟨fun _ _ => he.1, he.2⟩
    rintro _ u ⟨⟨cs, -, rfl⟩, hid, hu⟩
    exact ⟨⟨cs, rfl⟩, hid, hu⟩
  case refused =>
    rintro x u ⟨-, -, hu⟩ hdrafted fault hcheck
    refine ⟨?_, hu⟩
    rintro ⟨b, hb, -⟩
    rw [Snapshot.check_of_same hb.check (hdrafted.listed.trans hb.listed.symm) (hb.metrics_eq hdrafted.counted)] at hcheck
    cases hcheck
  case save =>
    rintro x u ⟨⟨cs, hdrawn⟩, hid, hu⟩ hdrafted hcheck
    refine (save_ends hu hown hdrawn hid).mono (fun _ t ht e => ?_) fun e t => ?_
    · exact ⟨⟨hdrafted.listed, hdrafted.counted, hcheck⟩, ⟨cs, hdrawn⟩,
        ht.trans (Workspace.spares_note watched t e ht.apart)⟩
    · rintro ⟨he, ht⟩
      refine ⟨fun hrepeats henvironment => he ?_, ht⟩
      obtain ⟨b, hb, hwritable⟩ := hrepeats
      refine Snapshot.isWritable_still hwritable (hdrafted.listed.trans hb.listed.symm) (hb.metrics_eq hdrafted.counted) ?_ ?_
      · rw [hdrafted.time]
        exact hu.apart.time
      · rw [hdrafted.environment]
        exact henvironment

/-- A baseline that was saved is there, and whoever sees no files of baselines sees nothing new. -/
theorem saveBaseline_ends {seen : Location → Bool} {x : Snapshot} {branch : String} (hw : w.Apart watched)
    (hseen : ∀ loc, seen loc = true → watched loc = true) (hown : ∀ loc, s.OwnBaseline loc → seen loc = false)
    (hbaseline : watched ((Slot.baseline branch).location s) = true) : (s.saveBaseline x branch).Ends w
      (fun _ v => x.toValue.isWritable = true ∧ v.Apart watched ∧ w.Same seen v ∧
        v.node ((Slot.baseline branch).path s) = .ok (.file x.text.toUTF8)) fun _ _ => True := by
  rw [saveBaseline, baselinePath_eq]
  have hloc : seen (Tree.resolve [] ((Slot.baseline branch).path s).parts) = false := by
    rw [← Slot.location_eq]
    exact hown _ (.document branch)
  have htemp : ∀ n, seen (Tree.resolve [] ((Slot.baseline branch).path s).parent.parts ++
      [Workspace.temporaryName n]) = false := by
    intro n
    have hparent := Tree.resolve_concat (show "baselines" ≠ ".." by decide) [] s.root.parts
    have htemporary := hown _ (.temporary n)
    have hpath : ((Slot.baseline branch).path s).parent.parts = s.root.parts ++ ["baselines"] := by
      rw [Slot.parent_baseline, Store.way, Path.join]
    rw [hpath, hparent, List.append_assoc]
    exact htemporary
  -- whoever sees the document sees that it is there; whoever sees no files of baselines sees nothing
  have hwrite : (writeDocument ((Slot.baseline branch).path s) x).Ends w
      (fun _ v => x.toValue.isWritable = true ∧ v.Apart watched ∧ w.Same seen v ∧
        v.node ((Slot.baseline branch).path s) = .ok (.file x.text.toUTF8)) fun _ _ => True := by
    refine ends_writeDocument (fun _ => trivial) (fun hwritable u hr => ?_) fun _ _ _ _ => trivial
    obtain ⟨hapart, hnode⟩ := Workspace.replaceFile_done hw hr
    have hsame := @Workspace.same_replaceFile seen w (hw.mono hseen) _ x.text.toUTF8 hloc htemp
    rw [hr] at hsame
    exact ⟨hwritable, hapart, hsame, hnode⟩
  refine .bind hwrite ?_
  rintro _ v ⟨hwritable, hapart, hsame, hnode⟩
  have hnote : ∀ e, v.Same watched (v.note e) := fun e => Workspace.spares_note watched v e hapart
  have hkept : ∀ e, (v.note e).node ((Slot.baseline branch).path s) = .ok (.file x.text.toUTF8) := by
    intro e
    refine Check.node_eq_of_same (hnote e) hnode ?_
    rw [← Slot.location_eq]
    exact hbaseline
  exact .note ⟨hwritable, (hnote _).apart, hsame.trans ((hnote _).mono hseen), hkept _⟩

end Store

/-! ### What a recorded check leaves -/

namespace Check

variable {c : Check} {v w : Workspace} {x : Snapshot}

/-- The locations that a check reads: those that its scan sees, and the baseline of a branch. -/
def reads (c : Check) (branch : String) (loc : Location) : Bool :=
  c.sees loc || loc = (Slot.baseline branch).location c.store

/-- The scan of a check picks up none of the files that its store writes. -/
structure Overlooks (c : Check) : Prop where
  files : ∀ loc, c.store.Own loc → c.sees loc = false
  baselines : ∀ loc, c.store.OwnBaseline loc → c.sees loc = false

section Reads

variable {branch : String}

theorem reads_of_sees (loc : Location) (h : c.sees loc = true) : c.reads branch loc = true := by
  rw [reads, h, Bool.true_or]

theorem reads_baseline : c.reads branch ((Slot.baseline branch).location c.store) = true := by simp [reads]

/-- A check reads none of the files that its store writes while it runs. -/
theorem Overlooks.reads_own (h : c.Overlooks) (loc : Location) (hown : c.store.Own loc) : c.reads branch loc = false := by
  have hone : ∃ name, loc = c.store.location ++ [name] := by
    cases hown
    all_goals exact ⟨_, rfl⟩
  have hne : loc ≠ (Slot.baseline branch).location c.store := by
    obtain ⟨name, rfl⟩ := hone
    intro heq
    have hnames := List.append_cancel_left heq
    simp [Slot.names] at hnames
  simp [reads, h.files loc hown, hne]

end Reads

/-- The analyses of a check recorded as a snapshot that is made the baseline. -/
def record (c : Check) (branch commit : String) (environment : Option Provenance) : Action Snapshot := do
  let analyses ← c.analyze
  let snapshot ← c.store.create (analyses.map FileAnalysis.summary) branch commit environment
  c.store.saveBaseline snapshot (← branchOf c.settings.baselineBranch)
  return snapshot

/-- The baseline of a branch holds what is analysed. -/
structure Settled (c : Check) (branch : String) (x : Snapshot) (w : Workspace) : Prop where
  apart : w.Apart (c.reads branch)
  firm : c.Firm (c.reads branch) w
  analyses : ∃ as, c.analyses w = .ok as ∧ Store.Records (as.map FileAnalysis.summary) x
  baseline : w.node ((Slot.baseline branch).path c.store) = .ok (.file x.text.toUTF8)
  written : x.toValue.isWritable = true
  readable : Store.Readable w.depth x
  files : x.files ≠ []

namespace Settled

variable {branch : String}

/-- It stays so as long as nothing changes that the check reads. -/
theorem of_same (h : c.Settled branch x w) (hv : w.Same (c.reads branch) v) : c.Settled branch x v := by
  obtain ⟨hfirm, hanalyses⟩ := h.firm.of_same reads_of_sees hv
  refine ⟨hv.apart, hfirm, ?_, ?_, h.written, hv.depth ▸ h.readable, h.files⟩
  · rw [hanalyses]
    exact h.analyses
  · refine node_eq_of_same hv h.baseline ?_
    rw [← Slot.location_eq]
    exact reads_baseline

/-- It stays so at any time that can be written. -/
theorem of_clock (h : c.Settled branch x w) {clock : ℤ} (hclock : (Number.int clock).isWritable = true) :
    c.Settled branch x { w with clock } :=
  ⟨h.apart.of_clock hclock, h.firm.of_clock h.apart clock, h.analyses, h.baseline, h.written, h.readable, h.files⟩

end Settled

/-- After a check was recorded, the baseline holds what is analysed. -/
theorem record_settles {branch : String} (hbranch : branchOf c.settings.baselineBranch = .ok branch)
    (hproper : w.tree.Proper) (hapart : w.Apart (c.reads branch)) (hown : c.Overlooks) (current commit : String)
    (environment : Option Provenance) : (c.record current commit environment).Ends w
      (fun x v => x.files ≠ [] → Store.Readable w.depth x → c.Settled branch x v) fun _ _ => True := by
  have hsteady : ∀ ps, c.sources w = .ok ps → ∀ p ∈ ps, Steady (c.reads branch) w p :=
    fun ps hps => sources_steady hproper reads_of_sees hps
  refine .bind ((analyze_ends hapart hsteady).mono (fun _ _ h => h) fun _ _ _ => trivial) ?_
  rintro as u ⟨has, hu⟩
  refine .bind ((Store.create_ends hu hown.reads_own).mono (fun _ _ h => h) fun _ _ _ => trivial) ?_
  rintro x u' ⟨hrecords, -, hu'⟩
  refine .bind_ok (Action.exec_lift_ok hbranch) ?_
  refine .bind (Store.saveBaseline_ends hu'.apart reads_of_sees hown.baselines reads_baseline) ?_
  rintro _ v ⟨hwritable, hv, hsame, hbaseline⟩
  refine .pure fun hfiles hreadable => ?_
  have hseen : w.Same c.sees v := (hu'.mono reads_of_sees).trans hsame
  -- a record that holds files was made of analyses
  have hsome : as ≠ [] := by
    rintro rfl
    exact hfiles hrecords.listed
  have hfirm : c.Firm c.sees w := .of_proper hproper (fun _ h => h) has hsome
  obtain ⟨hfirm', hanalyses⟩ := hfirm.of_same (fun _ h => h) hseen
  refine ⟨hv, hfirm'.mono reads_of_sees, ⟨as, by rw [hanalyses, has], hrecords⟩, hbaseline, hwritable, ?_, hfiles⟩
  rw [hseen.depth]
  exact hreadable

end Check

end ScoreGate
