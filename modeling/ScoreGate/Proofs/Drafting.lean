import ScoreGate.Proofs.Refinement

/-!
# Saving and creating snapshots

A new snapshot of some summaries is drafted, which draws its id, and then saved.  What creating one comes to follows from
what drawing an id, checking the draft and saving it come to, and what saving comes to from what writing a document does.

* `ends_save`: the rule for saving a snapshot.
* `Store.draft`, `Store.keep`, `exec_create`: the two parts of creating a snapshot.
* `Store.Drafted`, `ends_create`: the rule for creating a snapshot.
-/

namespace ScoreGate

namespace Store

/-! ### Saving -/

theorem ends_save {s : Store} {w : Workspace} {x : Snapshot} {P : Unit → Workspace → Prop} {E : Failure → Workspace → Prop}
    (hrefused : isId x.id = false → E (.fault (.invalidInput ("invalid snapshot id " ++ quoted x.id))) w)
    (hwrite : isId x.id = true →
      (writeDocument ((Slot.snapshot x.id).path s) x).Ends w (fun _ v => ∀ e, P () (v.note e)) E) : (s.save x).Ends w P E := by
  rw [save]
  rcases hid : isId x.id with _ | _
  · have hfault : s.snapshotPath x.id = .error (.invalidInput ("invalid snapshot id " ++ quoted x.id)) :=
      if_neg (by simp [hid])
    rw [hfault]
    exact .of_error (Action.exec_bind_error (Action.exec_lift_fault _) _) (hrefused hid)
  · refine .bind_ok (Action.exec_lift_ok (snapshotPath_eq_ok hid)) ?_
    exact .bind (hwrite hid) fun _ _ hv => .note (hv _)

/-! ### Drafts -/

/-- The new snapshot of some summaries, before it is saved. -/
def draft (s : Store) (files : List FileSummary) (branch commit : String) (environment : Option Provenance) :
    Action Snapshot := do
  let metrics ← Metrics.ofSummaries files
  if files.isEmpty then
    Action.note .store .warning "Creating snapshot with no analyzed files; averages default to 100"
  let id ← s.freeId (idsToTry (← get))
  Snapshot.check ⟨id, (← get).clock, branch, commit, metrics, files, environment.getD runtime⟩

/-- Saves a new snapshot and says so. -/
def keep (s : Store) (x : Snapshot) : Action Snapshot := do
  s.save x
  Action.note .store .info ("Created snapshot " ++ x.id ++ " (" ++ toString x.metrics.totalFiles ++ " files)")
  return x

variable {s : Store} {w : Workspace} {files : List FileSummary} {branch commit : String} {environment : Option Provenance}

/-- A snapshot is created by drafting it and saving it. -/
theorem exec_create (s : Store) (files : List FileSummary) (branch commit : String) (environment : Option Provenance)
    (w : Workspace) : (s.create files branch commit environment).exec w =
      (s.draft files branch commit environment >>= s.keep).exec w := by
  have rest : ∀ metrics v, (do
      let id ← s.freeId (idsToTry (← get))
      let snapshot ← liftM (Snapshot.check
        ⟨id, (← get).clock, branch, commit, metrics, files, environment.getD runtime⟩)
      s.save snapshot
      Action.note .store .info ("Created snapshot " ++ id ++ " (" ++ toString metrics.totalFiles ++ " files)")
      return snapshot : Action Snapshot).exec v = ((do
      let id ← s.freeId (idsToTry (← get))
      liftM (Snapshot.check ⟨id, (← get).clock, branch, commit, metrics, files, environment.getD runtime⟩) :
        Action Snapshot) >>= s.keep).exec v := by
    intro metrics v
    simp only [Action.exec_bind, Action.exec_get, Action.exec_lift_fault]
    rcases (s.freeId (idsToTry v)).exec v with ⟨e | id, u⟩
    · rfl
    · simp only
      -- the note names the id that was drawn and the metrics, which are those of the draft that passes its check
      rcases hcheck : Snapshot.check ⟨id, u.clock, branch, commit, metrics, files, environment.getD runtime⟩ with e | x
      · rfl
      · obtain ⟨rfl, -⟩ := Snapshot.check_eq_ok.mp hcheck
        simp only [keep, Action.exec_bind, Except.mapError]
  rw [create, draft, bind_assoc]
  rcases Metrics.ofSummaries files with e | metrics
  · rfl
  · refine (Action.exec_bind_ok (Action.exec_lift_ok rfl) _).trans
      (.trans ?_ (Action.exec_bind_ok (Action.exec_lift_ok rfl) _).symm)
    simp only
    split_ifs
    · rw [bind_assoc, Action.exec_bind_ok (Action.exec_note ..), Action.exec_bind_ok (Action.exec_note ..)]
      exact rest metrics _
    · exact rest metrics w

/-- The workspace in which the id of a new snapshot is drawn: that nothing was analysed is noted. -/
def warned (w : Workspace) (files : List FileSummary) : Workspace :=
  if files.isEmpty then
    w.note ⟨.store, .warning, "Creating snapshot with no analyzed files; averages default to 100"⟩
  else w

/-- What holds of a workspace and stays true with a note holds where the id is drawn. -/
theorem warned_of_note {Q : Workspace → Prop} (hw : Q w) (hnote : ∀ e, Q (w.note e)) : Q (warned w files) := by
  rw [warned]
  split_ifs
  · exact hnote _
  · exact hw

theorem exec_draft {metrics : Metrics} (hmetrics : Metrics.ofSummaries files = .ok metrics) :
    (s.draft files branch commit environment).exec w =
      match (s.freeId (idsToTry (warned w files))).exec (warned w files) with
      | (.ok id, u) => ((Snapshot.check
          ⟨id, u.clock, branch, commit, metrics, files, environment.getD runtime⟩).mapError Failure.fault, u)
      | (.error e, u) => (.error e, u) := by
  have rest : ∀ v, (do
      let id ← s.freeId (idsToTry (← get))
      liftM (Snapshot.check ⟨id, (← get).clock, branch, commit, metrics, files, environment.getD runtime⟩) :
        Action Snapshot).exec v = match (s.freeId (idsToTry v)).exec v with
      | (.ok id, u) => ((Snapshot.check
          ⟨id, u.clock, branch, commit, metrics, files, environment.getD runtime⟩).mapError Failure.fault, u)
      | (.error e, u) => (.error e, u) := by
    intro v
    simp only [Action.exec_bind, Action.exec_get, Action.exec_lift_fault]
    rcases (s.freeId (idsToTry v)).exec v with ⟨e | id, u⟩ <;> rfl
  rw [draft, Action.exec_bind_ok (Action.exec_lift_ok hmetrics), warned]
  simp only
  split_ifs
  · rw [Action.exec_bind_ok (Action.exec_note ..)]
    exact rest _
  · exact rest w

/-! ### The rule for creating a snapshot -/

/-- The draft of a snapshot of some summaries, in the workspace that drawing its id has left. -/
structure Drafted (files : List FileSummary) (environment : Option Provenance) (x : Snapshot) (u : Workspace) : Prop where
  listed : x.files = files
  counted : Metrics.ofSummaries files = .ok x.metrics
  time : x.timestamp = u.clock
  environment : x.environment = environment.getD runtime

variable {D : String → Workspace → Prop} {P : Snapshot → Workspace → Prop} {E : Failure → Workspace → Prop}

/-- Where drawing an id ends well or with a failure, so does a draft, and one that passes its check is as it was drafted. -/
theorem ends_draft (hmetrics : ∀ fault, Metrics.ofSummaries files = .error fault → E (.fault fault) w)
    (hdraw : (s.freeId (idsToTry (warned w files))).Ends (warned w files) D E)
    (hrefused : ∀ x u, D x.id u → Drafted files environment x u → ∀ fault, x.check = .error fault → E (.fault fault) u) :
    (s.draft files branch commit environment).Ends w
      (fun x u => D x.id u ∧ Drafted files environment x u ∧ x.check = .ok x) E := by
  rcases hm : Metrics.ofSummaries files with fault | metrics
  · exact .of_error (Action.exec_bind_error (by rw [hm]; exact Action.exec_lift_fault _) _) (hmetrics fault hm)
  have hexec := @exec_draft s w files branch commit environment metrics hm
  rcases hid : (s.freeId (idsToTry (warned w files))).exec (warned w files) with ⟨e | id, u⟩
  · rw [hid] at hexec
    exact .of_error hexec (hdraw.error hid)
  simp only [hid] at hexec
  generalize hx : (⟨id, u.clock, branch, commit, metrics, files, environment.getD runtime⟩ : Snapshot) = x at hexec
  have hD : D x.id u := by
    rw [← hx]
    exact hdraw.ok hid
  have hdrafted : Drafted files environment x u := by
    rw [← hx]
    exact ⟨rfl, hm, rfl, rfl⟩
  rcases hcheck : x.check with fault | y
  · rw [hcheck] at hexec
    exact .of_error hexec (hrefused x u hD hdrafted fault hcheck)
  · obtain ⟨rfl, -⟩ := Snapshot.check_eq_ok.mp hcheck
    rw [hcheck] at hexec
    exact .of_ok hexec ⟨hD, hdrafted, hcheck⟩

/-- What creating a snapshot comes to, from what drawing its id, checking the draft and saving it come to. -/
theorem ends_create (hmetrics : ∀ fault, Metrics.ofSummaries files = .error fault → E (.fault fault) w)
    (hdraw : (s.freeId (idsToTry (warned w files))).Ends (warned w files) D E)
    (hrefused : ∀ x u, D x.id u → Drafted files environment x u → ∀ fault, x.check = .error fault → E (.fault fault) u)
    (hsave : ∀ x u, D x.id u → Drafted files environment x u → x.check = .ok x →
      (s.save x).Ends u (fun _ v => ∀ e, P x (v.note e)) E) : (s.create files branch commit environment).Ends w P E := by
  refine .congr (exec_create ..) (.bind (ends_draft hmetrics hdraw hrefused) ?_)
  rintro x u ⟨hD, hdrafted, hcheck⟩
  exact .bind (hsave x u hD hdrafted hcheck) fun _ _ hv => .bind_ok (Action.exec_note ..) (.pure (hv _))

end Store

end ScoreGate
