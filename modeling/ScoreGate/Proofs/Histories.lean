import ScoreGate.Proofs.Drafting

/-!
# Histories of a store

Every call of a store takes the files of a shelf to the files of the shelf that its answer makes of it, so after any
history the files are those of the shelf of the answers.  A loading therefore gives what the shelf has, except where the
file system refuses the name or the store has made a directory of that name.

* `Holds.save`, `Holds.create`, `Holds.saveBaseline`, `Holds.cleanup`: one rule for every call.
* `Holds.perform`: any call, against the shelf after its answer.
* `History.serves`: after any history, loading gives what the shelf has.
-/

namespace ScoreGate

namespace Store

variable {s : Store} {u v w : Workspace}

/-! ### Listing and drawing ids -/

theorem isSnapshotName_temporaryName (n : ℕ) : isSnapshotName (Workspace.temporaryName n) = false := by
  simp [isSnapshotName, foreignBeginnings, Workspace.temporaryName, List.isPrefixOf]

theorem exec_generateId (w : Workspace) : generateId.exec w =
    (.ok ("snapshot-" ++ toString w.clock ++ "-" ++ String.ofList (w.source.draw suffixLength).1),
      { w with source := (w.source.draw suffixLength).2 }) := by
  simp only [generateId, Action.suffix, Action.exec_bind, Action.exec_get, Action.exec_set, Action.exec_pure]

section Quiet

variable {R : Workspace → Workspace → Prop} (hR : Action.Frame R) (hnote : ∀ w e, R w (w.note e))
include hR

theorem preserves_node? (p : Path) : Action.Preserves R (Action.node? p) := by
  intro w
  rw [Action.exec_node?]
  exact hR.refl w

theorem preserves_isDirectory (p : Path) : Action.Preserves R (Action.isDirectory p) :=
  .bind hR (preserves_node? hR p) fun _ => .pure hR _

theorem preserves_readDocument (p : Path) : Action.Preserves R (readDocument p) := by
  intro w
  rw [exec_readDocument]
  exact hR.refl w

include hnote in
theorem preserves_readListed (s : Store) (name : String) : Action.Preserves R (s.readListed name) := by
  refine .tryCatch hR (preserves_readDocument hR _) fun e => ?_
  cases e
  case malformedRecord => exact .bind hR (.note hnote _ _ _) fun _ => .pure hR _
  case storage => exact .bind hR (.note hnote _ _ _) fun _ => .pure hR _
  all_goals exact .throw hR _

include hnote in
/-- A listing reads and notes, and nothing else. -/
theorem preserves_list (s : Store) : Action.Preserves R s.list := by
  refine .bind hR (preserves_isDirectory hR s.root) fun b => ?_
  rcases b with _ | _
  · exact .pure hR _
  · refine .bind hR (.get hR) fun w => ?_
    rcases w.locate s.root with o | directory
    · exact .pure hR _
    · exact .bind hR (.filterMapM hR (preserves_readListed hR hnote s) _) fun _ => .pure hR _

/-- Drawing ids reads and takes random characters, and nothing else. -/
theorem preserves_freeId (hsource : ∀ (w : Workspace) source, R w { w with source }) (s : Store) (fuel : ℕ) :
    Action.Preserves R (s.freeId fuel) := by
  have hdraw : Action.Preserves R generateId := by
    intro w
    rw [exec_generateId]
    exact hsource w _
  induction fuel with
  | zero =>
    rw [freeId]
    exact hdraw
  | succ fuel ih =>
    rw [freeId]
    refine .bind hR hdraw fun id => ?_
    refine .bind hR (.lift_fault hR _) fun p => ?_
    have hexists : Action.Preserves R (Action.exists? p) :=
      .bind hR (preserves_node? hR p) fun _ => .pure hR _
    refine .bind hR hexists fun b => ?_
    split_ifs
    · exact ih
    · exact .pure hR _

theorem preserves_removeAll : ∀ {xs : List Snapshot}, (∀ x ∈ xs, isId x.id = true →
    ∀ {w v : Workspace}, w.remove ((Slot.snapshot x.id).path s) = .ok v → R w v) → Action.Preserves R (s.removeAll xs)
  | [], _ => .pure hR _
  | x :: xs, h => by
    have hrest : Action.Preserves R (s.removeAll xs) := preserves_removeAll fun y hy => h y (List.mem_cons_of_mem x hy)
    intro w
    rw [removeAll]
    by_cases hid : isId x.id = true
    · rw [Action.exec_bind_ok (Action.exec_lift_ok (snapshotPath_eq_ok hid)), Action.exec_bind_ok Action.exec_get]
      rcases hremove : w.remove ((Slot.snapshot x.id).path s) with o | v
      · cases o
        case missing => exact hrest w
        all_goals exact hR.refl w
      · have hgoes : Action.Preserves R (s.removeAll xs >>= fun removed => pure (x.id :: removed)) :=
          .bind hR hrest fun _ => .pure hR _
        simp only
        rw [Action.exec_bind_ok (Action.exec_set v)]
        exact hR.trans (h x (by simp) hid hremove) (hgoes v)
    · rw [snapshotPath, if_neg hid]
      exact hR.refl w

include hnote in
/-- A cleanup reads, notes and removes documents. -/
theorem preserves_cleanup (hremove : ∀ {id : String}, isId id = true →
    ∀ {w v : Workspace}, w.remove ((Slot.snapshot id).path s) = .ok v → R w v) (maxAge : Number) :
    Action.Preserves R (s.cleanup maxAge) := by
  refine .bind hR (.get hR) fun now => .bind hR (.lift_fault hR _) fun oldest => ?_
  refine .bind hR (preserves_list hR hnote s) fun xs => ?_
  refine .bind hR (preserves_removeAll hR fun _ _ hid => hremove hid) fun removed => ?_
  split_ifs
  · exact .bind hR (.lift_fault hR _) fun age => .bind hR (.note hnote _ _ _) fun _ => .pure hR _
  · exact .pure hR _

end Quiet

/-- The random characters are no part of a store. -/
theorem leaves_source (s : Store) (w : Workspace) (source : Source) : s.Leaves w { w with source } :=
  fun h => ⟨rfl, rfl, fun _ _ => Iff.rfl, fun _ h => h, fun _ h => Or.inl h, h⟩

namespace Holds

variable {torn : Prop} {slots : Slot → Option Snapshot}

theorem readListed_eq (h : s.Holds torn w slots) {name : String} (hname : isSnapshotName name = true) {x : Snapshot}
    (hx : ((s.readListed name).exec w).1 = .ok (some x)) : slots (.snapshot x.id) = some x := by
  have hread : ((readDocument (s.root.child name)).exec w).1 = .ok (some x) := by
    rw [readListed, Action.exec_tryCatch] at hx
    rcases hr : (readDocument (s.root.child name)).exec w with ⟨e | y, v⟩
    · rw [hr] at hx
      cases e <;> cases hx
    · rwa [hr] at hx
  rw [exec_readDocument] at hread
  rcases hn : w.node (s.root.child name) with o | ⟨_ | bytes⟩
  · rw [hn] at hread
    cases o <;> cases hread
  · rw [hn] at hread
    cases hread
  · rw [hn] at hread
    obtain ⟨loc, hloc, hfind⟩ := Workspace.node_eq_ok.mp hn
    have hdots : name ≠ ".." := by
      rintro rfl
      revert hname
      decide
    have hspelled : loc = s.location ++ [name] :=
      (Tree.locate_eq_resolve hloc).trans (Tree.resolve_concat hdots [] s.root.parts)
    subst hspelled
    rcases h.files (List.prefix_append _ _) hfind with ⟨slot, y, hslot, hy⟩ | ⟨-, directory, n, htemp⟩
    · have hnames : [name] = slot.names := List.append_cancel_left hslot
      rcases slot with id | branch
      · rw [hslot] at hfind
        obtain ⟨hcheck, hreadable, ⟨hid, -⟩, -, hfile⟩ := h.stored hy
        rw [hfind, Option.some.injEq, Node.file.injEq] at hfile
        rw [hfile] at hread
        simp only [decode_text _ hcheck hreadable, Except.map, Except.ok.injEq, Option.some.injEq] at hread
        rw [← hread, hid, hy]
      · simp [Slot.names] at hnames
    · -- a temporary file is not listed
      obtain ⟨-, heq⟩ := List.append_inj' htemp rfl
      rw [List.singleton_inj] at heq
      rw [heq, isSnapshotName_temporaryName] at hname
      cases hname

theorem list_eq (h : s.Holds torn w slots) {xs : List Snapshot} (hl : s.list.exec w = (.ok xs, v)) :
    ∀ x ∈ xs, slots (.snapshot x.id) = some x := by
  simp only [list, Action.exec_bind_eq_ok] at hl
  obtain ⟨b, u, hb, hl⟩ := hl
  have hu : s.Keeps w u := by
    have hkeeps := preserves_isDirectory s.leaves_frame s.root w h.log
    rwa [hb] at hkeeps
  rcases b with _ | _
  · cases hl
    simp
  · simp only [if_true, Action.exec_bind, Action.exec_get] at hl
    rcases hroot : u.locate s.root with o | directory
    · rw [hroot] at hl
      cases hl
      simp
    · simp only [hroot, Action.exec_bind] at hl
      rcases hpass : ((snapshotNames u.tree directory).filterMapM s.readListed).exec u with ⟨e | found, v'⟩
      · rw [hpass] at hl
        cases hl
      · rw [hpass] at hl
        -- reading notes warnings, so what is on the shelf is carried along from name to name
        have hstep : ∀ name ∈ snapshotNames u.tree directory, ∀ v, s.Keeps w v → (s.readListed name).Ends v
            (fun r v' => s.Keeps w v' ∧ ∀ x, r = some x → slots (.snapshot x.id) = some x) fun _ _ => True := by
          intro name hname v hv
          have hname' : isSnapshotName name = true := by
            rw [snapshotNames, List.mem_mergeSort] at hname
            exact List.of_mem_filter hname
          have hleaves := preserves_readListed s.leaves_frame s.leaves_note s name v hv.log
          refine ⟨fun {r v'} hr => ?_, fun _ => trivial⟩
          rw [hr] at hleaves
          refine ⟨hv.trans hleaves, ?_⟩
          rintro x rfl
          exact (h.of_keeps hv).readListed_eq hname' (by rw [hr])
        obtain ⟨-, hfound⟩ := (Action.Ends.filterMapM_collects hstep hu).ok hpass
        cases hl
        intro x hx
        exact hfound x (List.mem_mergeSort.mp hx)

/-! ### The calls -/

/-- What only notes, reads and makes directories leaves the slots as they were. -/
theorem leave {α : Type} {a : Action α} (h : s.Holds torn w slots) (ha : Action.Preserves s.Leaves a) :
    a.Ends w (fun _ v => s.Keeps w v) fun e v => s.Holds (torn ∨ e = nulFailure) v slots :=
  (Action.Ends.of_preserves ha w).mono (fun _ _ hv => hv h.log) fun _ _ hv => (h.of_keeps (hv h.log)).of_torn Or.inl

/-- Writing the document of a slot puts the snapshot in the slot, or fails and leaves the slots as they were. -/
theorem write (h : s.Holds torn w slots) {slot : Slot} {x : Snapshot} (hcheck : x.check = .ok x) (hfits : slot.Fits x) :
    (writeDocument (slot.path s) x).Ends w
      (fun _ v => Readable w.depth x → s.Holds torn v (Function.update slots slot (some x)))
      fun e v => s.Holds (torn ∨ e = nulFailure) v slots := by
  rcases hw : (writeDocument (slot.path s) x).exec w with ⟨e | ⟨⟨⟩⟩, v⟩
  · exact Action.Ends.of_error hw (h.write_error hw)
  · exact Action.Ends.of_ok hw fun hread => h.write_ok hcheck hread hfits hw

theorem save (h : s.Holds torn w slots) {x : Snapshot} (hcheck : x.check = .ok x) : (s.save x).Ends w
    (fun _ v => Readable w.depth x → s.Holds torn v (Function.update slots (.snapshot x.id) (some x)))
    fun e v => s.Holds (torn ∨ e = nulFailure) v slots := by
  refine ends_save (fun _ => h.of_torn Or.inl) fun hid => ?_
  have hfits : (Slot.snapshot x.id).Fits x := ⟨rfl, hid⟩
  refine (h.write hcheck hfits).mono (fun _ u hu e hread => ?_) fun _ _ he => he
  exact (hu hread).of_keeps (s.leaves_note u e (hu hread).log)

theorem saveBaseline (h : s.Holds torn w slots) {x : Snapshot} (hcheck : x.check = .ok x) (branch : String) :
    (s.saveBaseline x branch).Ends w
      (fun _ v => Readable w.depth x → s.Holds torn v (Function.update slots (.baseline branch) (some x)))
      fun e v => s.Holds (torn ∨ e = nulFailure) v slots := by
  have hfits : (Slot.baseline branch).Fits x := trivial
  rw [Store.saveBaseline, baselinePath_eq]
  refine Action.Ends.bind (h.write hcheck hfits) fun _ u hu => Action.Ends.note fun hread => ?_
  exact (hu hread).of_keeps (s.leaves_note u _ (hu hread).log)

theorem create (h : s.Holds torn w slots) (files : List FileSummary) (branch commit : String)
    (environment : Option Provenance) : (s.create files branch commit environment).Ends w
      (fun x v => Readable w.depth x → s.Holds torn v (Function.update slots (.snapshot x.id) (some x)))
      fun e v => s.Holds (torn ∨ e = nulFailure) v slots := by
  have hwarned : s.Keeps w (warned w files) := warned_of_note (.refl h.log) fun e => s.leaves_note w e h.log
  refine ends_create (D := fun _ u => s.Keeps w u) (fun _ _ => h.of_torn Or.inl) ?_
    (fun _ _ hu _ _ _ => (h.of_keeps hu).of_torn Or.inl) ?_
  · have hdraw := (h.of_keeps hwarned).leave (preserves_freeId s.leaves_frame s.leaves_source s (idsToTry (warned w files)))
    exact hdraw.mono (fun _ _ hu => hwarned.trans hu) fun _ _ he => he
  · intro x u hu _ hcheck
    refine ((h.of_keeps hu).save hcheck).mono (fun _ v hv e hread => ?_) fun _ _ he => he
    have hv := hv (hu.depth ▸ hread)
    exact hv.of_keeps (s.leaves_note v e hv.log)

theorem cleanup (h : s.Holds torn w slots) {maxAge : Number} (hage : maxAge.isWritable = true) :
    (s.cleanup maxAge).Ends w
      (fun ids v => s.Holds torn v fun slot => if ∃ id ∈ ids, slot = .snapshot id then none else slots slot)
      fun e v => s.Holds (torn ∨ e = nulFailure) v slots := by
  refine .bind (h.leave (.get s.leaves_frame)) fun v₁ u₁ h₁ => ?_
  refine .bind ((h.of_keeps h₁).leave (.lift_fault s.leaves_frame _)) fun oldest u₂ h₂ => ?_
  have hu₂ := h.of_keeps (h₁.trans h₂)
  rcases hlist : s.list.exec u₂ with ⟨e | xs, u⟩
  · have hkeeps := preserves_list s.leaves_frame s.leaves_note s u₂ hu₂.log
    rw [hlist] at hkeeps
    exact .of_error (Action.exec_bind_error hlist _) ((hu₂.of_keeps hkeeps).of_torn Or.inl)
  · have hkeeps := preserves_list s.leaves_frame s.leaves_note s u₂ hu₂.log
    rw [hlist] at hkeeps
    have hu := hu₂.of_keeps hkeeps
    -- what was listed is on the shelf, so each old document is in the slot of its id and can be removed
    have hold : ∀ x ∈ xs.filter fun x => !oldest.le (.int x.timestamp), s.Removable u x.id :=
      fun x hx => hu.removable (hu₂.list_eq hlist x (List.mem_of_mem_filter hx))
    obtain ⟨ids, v, hexec, hremoved, hids, -⟩ := removeAll_spec hold
    have hv : s.Holds torn v fun slot => if ∃ id ∈ ids, slot = .snapshot id then none else slots slot := by
      refine hu.removed hremoved (fun id hid => ?_) fun _ => rfl
      obtain ⟨x, hx, rfl⟩ := List.mem_map.mp (hids hid)
      exact hold x hx
    have hwritten : maxAge.written = .ok maxAge.text := if_pos hage
    refine Action.Ends.bind_ok hlist (Action.Ends.bind_ok hexec ?_)
    split_ifs
    · refine Action.Ends.bind_ok (Action.exec_lift_ok hwritten) ?_
      refine Action.Ends.bind_ok (Action.exec_note ..) (Action.Ends.pure ?_)
      exact hv.of_keeps (s.leaves_note v _ hv.log)
    · exact Action.Ends.pure hv

end Holds

/-! ### Answers -/

section Answers

variable {σ : Shelf}

theorem at_stored (σ : Shelf) (x : Snapshot) :
    (σ.after (.ok (.stored x))).at = Function.update σ.at (.snapshot x.id) (some x) := by
  funext slot
  rcases slot with id | branch
  · simp [Shelf.at, Shelf.after, Function.update_apply]
  · simp [Shelf.at, Shelf.after]

theorem at_kept (σ : Shelf) (b : String) (x : Snapshot) :
    (σ.after (.ok (.kept b x))).at = Function.update σ.at (.baseline b) (some x) := by
  funext slot
  rcases slot with id | branch
  · simp [Shelf.at, Shelf.after]
  · simp [Shelf.at, Shelf.after, Function.update_apply]

theorem at_removed (σ : Shelf) (ids : List String) :
    (σ.after (.ok (.removed ids))).at = fun slot => if ∃ id ∈ ids, slot = .snapshot id then none else σ.at slot := by
  funext slot
  rcases slot with id | branch
  · simp [Shelf.at, Shelf.after]
  · simp [Shelf.at, Shelf.after]

theorem baselines_perform {c : Call} (hc : ∀ x b, c ≠ .saveBaseline x b) (w : Workspace) :
    (σ.after ((c.perform s).exec w).1).baselines = σ.baselines := by
  cases c with
  | save x =>
    rw [Call.perform, Action.exec_bind]
    rcases (s.save x).exec w with ⟨_ | _, v⟩ <;> rfl
  | create files branch commit environment =>
    rw [Call.perform, Action.exec_bind]
    rcases (s.create files branch commit environment).exec w with ⟨_ | _, v⟩ <;> rfl
  | saveBaseline x b => exact absurd rfl (hc x b)
  | cleanup maxAge =>
    rw [Call.perform, Action.exec_bind]
    rcases (s.cleanup maxAge).exec w with ⟨_ | _, v⟩ <;> rfl

/-- The call for a baseline answers with a change of this one baseline, if it changes anything. -/
theorem perform_saveBaseline (x : Snapshot) (b : String) (w : Workspace) :
    (σ.after (((Call.saveBaseline x b).perform s).exec w).1).snapshots = σ.snapshots ∧
      ∀ other, other ≠ b → (σ.after (((Call.saveBaseline x b).perform s).exec w).1).baselines other = σ.baselines other := by
  rw [Call.perform, Action.exec_bind]
  rcases (s.saveBaseline x b).exec w with ⟨_ | _, v⟩
  · exact ⟨rfl, fun _ _ => rfl⟩
  · exact ⟨rfl, fun other hother => if_neg hother⟩

/-- How a call ends: with a change that is made on the shelf, or with a failure and the shelf as it was. -/
theorem Holds.ends {torn : Prop} (h : s.Holds torn w σ.at) {c : Call} (sound : c.Sound) : (c.perform s).Ends w
    (fun change v => change.Readable w.depth → s.Holds torn v (σ.after (.ok change)).at)
    fun e v => s.Holds (torn ∨ e = nulFailure) v σ.at := by
  cases c with
  | save x =>
    refine Action.Ends.bind (h.save sound) fun _ v hv => Action.Ends.pure fun hread => ?_
    rw [at_stored]
    exact hv hread
  | create files branch commit environment =>
    refine Action.Ends.bind (h.create files branch commit environment) fun x v hv => Action.Ends.pure fun hread => ?_
    rw [at_stored]
    exact hv hread
  | saveBaseline x branch =>
    refine Action.Ends.bind (h.saveBaseline sound branch) fun _ v hv => Action.Ends.pure fun hread => ?_
    rw [at_kept]
    exact hv hread
  | cleanup maxAge =>
    refine Action.Ends.bind (h.cleanup sound) fun ids v hv => Action.Ends.pure fun _ => ?_
    rw [at_removed]
    exact hv

/-- The files after a call are those of the shelf after its answer. -/
theorem Holds.perform {torn : Prop} (h : s.Holds torn w σ.at) {c : Call} (sound : c.Sound)
    (readable : ∀ change, ((c.perform s).exec w).1 = .ok change → change.Readable w.depth) :
    s.Holds (torn ∨ ((c.perform s).exec w).1 = .error nulFailure) ((c.perform s).exec w).2
      (σ.after ((c.perform s).exec w).1).at := by
  have hends := h.ends sound
  rcases hr : (c.perform s).exec w with ⟨e | change, v⟩
  · exact (hends.error hr).of_torn (Or.imp_right fun he => by rw [he])
  · exact (hends.ok hr (readable change (by rw [hr]))).of_torn Or.inl

end Answers

/-! ### Histories -/

/-- Nothing is where the store will be, and the log file, if there is one, is elsewhere. -/
def Fresh (s : Store) (w : Workspace) : Prop :=
  (∀ loc, s.location <+: loc → w.tree.find? loc = none) ∧ s.LogApart w

theorem Fresh.holds (h : s.Fresh w) : s.Holds False w Shelf.empty.at := by
  refine ⟨?stored, ?files, ?directories, h.2⟩
  case stored =>
    intro slot x hx
    cases slot <;> cases hx
  case files =>
    intro loc bytes hloc hfile
    simp [h.1 loc hloc] at hfile
  case directories =>
    intro loc hloc hdir
    simp [h.1 loc hloc] at hdir

/-- Whether there is a baseline is noted, which does not change the result. -/
theorem loadBaseline_result (branch : String) (w : Workspace) : ((s.loadBaseline branch).exec w).1 =
    ((readDocument ((Slot.baseline branch).path s)).exec w).1 := by
  rw [loadBaseline, baselinePath_eq, Action.exec_bind]
  rcases (readDocument ((Slot.baseline branch).path s)).exec w with ⟨e | found, v⟩
  · rfl
  · rcases found with _ | x <;> rfl

namespace History

variable {start : Workspace} {answers : List (Except Failure Change)}

/-- After any history the files of the store are those of the shelf of its answers. -/
theorem holds (fresh : s.Fresh start) (history : History s start answers w) :
    s.Holds (.error nulFailure ∈ answers) w (Shelf.of answers).at := by
  induction history with
  | start => exact fresh.holds.of_torn False.elim
  | call before clock c sound readable ih =>
    refine ((ih.of_clock clock).perform sound readable).of_torn ?_
    rintro (hbefore | hnow)
    · exact List.mem_cons_of_mem _ hbefore
    · exact List.mem_cons.mpr (Or.inl hnow.symm)

/-- After any history, loading gives what the shelf of the answers has, and every call leaves the rest of the shelf alone.
The exceptions are names that the file system refuses, names of directories on the way of the store itself, and, after
a call met a NUL in a name, the names of the temporary files that it left. -/
theorem serves (history : History s start answers w) (fresh : s.Fresh start) :
    (∀ id, isId id = true → (.error nulFailure ∈ answers → ¬".tmp-".toList <+: id.toList) →
      (s.load id).exec w = (s.served w (.snapshot id) ((Shelf.of answers).snapshots id), w)) ∧
    (∀ branch, ((s.loadBaseline branch).exec w).1 = s.served w (.baseline branch) ((Shelf.of answers).baselines branch)) ∧
    (∀ (slot : Slot) found, s.served w slot found = .ok found ↔
      w.locate (slot.path s) ≠ .error .nameTooLong ∧ w.node (slot.path s) ≠ .ok .directory) ∧
    (∀ slot : Slot, w.node (slot.path s) = .ok .directory → s.way.Passes (slot.location s)) ∧
    (∀ c : Call, (∀ x b, c ≠ .saveBaseline x b) → ∀ clock,
      ((Shelf.of answers).after ((c.perform s).exec { w with clock }).1).baselines = (Shelf.of answers).baselines) ∧
    ∀ x b clock, let after := (Shelf.of answers).after (((Call.saveBaseline x b).perform s).exec { w with clock }).1
      after.snapshots = (Shelf.of answers).snapshots ∧
        ∀ other, other ≠ b → after.baselines other = (Shelf.of answers).baselines other := by
  have hholds := holds fresh history
  refine ⟨fun id hid htorn => ?_, fun branch => ?_, fun slot found => s.served_eq_ok w slot found,
    fun slot => hholds.passes_way, fun c hc clock => baselines_perform hc _, fun x b clock => perform_saveBaseline x b _⟩
  · rw [load, snapshotPath_eq_ok hid, Action.exec_bind_ok (Action.exec_lift_fault _)]
    exact hholds.read (.snapshot id) fun ht directory n heq => htorn ht (Slot.begins_of_temporary heq)
  · rw [loadBaseline_result, hholds.read (.baseline branch) fun _ directory n => Slot.baseline_ne_temporary]
    rfl

end History

/-! ### A history -/

def blank : Workspace where
  tree := .empty
  limits := some .usual
  depth := 987
  refusal := none
  environment := []
  repository := .absent
  clock := 0
  source := ⟨[], 0⟩
  journal := []
  log := none

/-- A snapshot of no files. -/
def plain : Snapshot where
  id := "a"
  timestamp := 1
  branch := "main"
  commit := "c"
  metrics := ⟨0, 0, 0, 0, 0, .ofInt 100, .ofInt 100, .ofInt 100, .ofInt 100⟩
  files := []
  environment := runtime

/-- A store in the working directory. -/
def beside : Store := ⟨.ofText "s"⟩

theorem fresh_blank : beside.Fresh blank := by
  refine ⟨fun loc hloc => ?_, fun f hf => (by cases hf)⟩
  rcases loc with _ | ⟨name, rest⟩
  · exact absurd (List.prefix_nil.mp hloc) (by decide)
  · rfl

theorem eq_stored {x : Snapshot} {change : Change} (h : (((Call.save x).perform s).exec w).1 = .ok change) :
    change = .stored x := by
  rw [Call.perform, Action.exec_bind] at h
  rcases hr : (s.save x).exec w with ⟨e | ⟨⟨⟩⟩, v⟩
  · rw [hr] at h
    cases h
  · rw [hr] at h
    cases h
    rfl

theorem serves_saved : ∃ w, beside.Fresh blank ∧ beside.History blank [.ok (.stored plain)] w ∧
    (beside.load "a").exec w = (.ok (some plain), w) ∧ ((beside.loadBaseline "a").exec w).1 = .ok none := by
  have hread : Readable 987 plain := by
    rw [readable_iff]
    decide +kernel
  have hok : (((Call.save plain).perform beside).exec blank).1.isOk = true := by decide +kernel
  have hanswer : (((Call.save plain).perform beside).exec blank).1 = .ok (.stored plain) := by
    rcases hr : (((Call.save plain).perform beside).exec blank).1 with e | change
    · rw [hr] at hok
      cases hok
    · rw [eq_stored hr]
  have hcall : beside.History blank ((((Call.save plain).perform beside).exec blank).1 :: [])
      (((Call.save plain).perform beside).exec blank).2 :=
    History.call .start 0 (.save plain) rfl fun change hchange => by
      rw [eq_stored hchange]
      exact hread
  rw [hanswer] at hcall
  obtain ⟨hload, hbaseline, hserved, -⟩ := hcall.serves fresh_blank
  refine ⟨_, fresh_blank, hcall, ?_, ?_⟩
  · rw [hload "a" (by decide) (by simp), (hserved (.snapshot "a") _).mpr (by decide +kernel)]
    rfl
  · rw [hbaseline "a", (hserved (.baseline "a") _).mpr (by decide +kernel)]
    rfl

end Store

end ScoreGate
