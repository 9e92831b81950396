import ScoreGate.Proofs.Shapes

/-!
# Documents, written whole or not at all

A call that writes a document leaves the whole document or nothing.  If the file system refuses a step, or something is in
the way, the call fails and every file is as it was.  If nothing is in the way the call returns, and then the target holds
the document and every other file is as it was, but for notes in a log file.

* `Store.Submits`: a document that can be handed to the file system.
* `Store.Admits`: nothing is in the way of a slot.
* `writeDocument_whole`, `Admits.writeDocument_ok`: what writing a document leaves, and when it returns.
* `keepsFiles_draft`: a new snapshot before it is saved.
* `Store.Call.writes_whole_or_not_at_all`: every call that writes a document.
-/

namespace ScoreGate

namespace Slot

variable {slot : Slot} {s : Store}

/-- A document is a file in the directory above it. -/
theorem path_eq_join (slot : Slot) (s : Store) : ∃ p name, name ≠ ".." ∧ slot.path s = p.join [name] ∧
    (slot.path s).parent = p := by
  cases slot with
  | snapshot id => exact ⟨_, _, (Store.documentName_ne id).1, rfl, parent_snapshot id s⟩
  | baseline branch =>
    exact ⟨s.way, _, Store.baselineName_ne branch, by simp [path, names, Path.join, Store.way], parent_baseline branch s⟩

/-- Below a root without steps up there are none either. -/
theorem no_dots (hdots : ".." ∉ s.root.parts) (slot : Slot) : ".." ∉ (slot.path s).parts := by
  cases slot with
  | snapshot id =>
    have hname := (Store.documentName_ne id).1
    simp [path, names, Path.join, hdots, hname.symm]
  | baseline branch =>
    have hname := Store.baselineName_ne branch
    simp [path, names, Path.join, hdots, hname.symm]

end Slot

namespace Store

variable {s : Store} {u v w : Workspace} {slot : Slot} {x : Snapshot}

/-! ### Documents -/

/-- A document that can be handed to the file system: its slot can be named, its numbers have written forms, and there is no
NUL in its path. -/
structure Submits (s : Store) (slot : Slot) (x : Snapshot) : Prop where
  fits : slot.Fits x
  written : x.toValue.isWritable = true
  path : ¬(slot.path s).HasNul

/-- What a workspace is like after a document was written to a slot. -/
structure Wrote (s : Store) (slot : Slot) (x : Snapshot) (w v : Workspace) : Prop where
  document : v.tree.find? (slot.location s) = some (.file x.text.toUTF8)
  apart : ¬v.IsLog (slot.location s)
  others : w.KeepsFiles (· = slot.location s) v

theorem Wrote.note (h : s.Wrote slot x w v) (e : Entry) : s.Wrote slot x w (v.note e) :=
  ⟨by rw [Workspace.find?_note (fun f hf heq => h.apart ⟨f, hf, heq⟩), h.document], h.apart, h.others.trans (.note v e)⟩

/-- What a workspace is like after a document was not written to a slot, and the failure: it is one of stored files, and the
files are the same. -/
structure WroteNothing (s : Store) (slot : Slot) (w : Workspace) (e : Failure) (v : Workspace) : Prop where
  failure : ∃ fault, e = .storage (slot.path s).text (.write fault)
  files : ∀ loc bytes, v.tree.find? loc = some (.file bytes) ↔ w.tree.find? loc = some (.file bytes)

/-- A document that can be handed to the file system is written whole or not at all. -/
theorem writeDocument_whole (h : s.Submits slot x) :
    (writeDocument (slot.path s) x).Ends w (fun _ v => s.Wrote slot x w v) (s.WroteNothing slot w) := by
  refine ends_writeDocument (fun hunwritable => ?_) (fun _ v hr => ?_) fun _ v fault hr => ?_
  · rw [h.written] at hunwritable
    cases hunwritable
  · obtain ⟨hdocument, hapart, hothers⟩ := Workspace.replaceFile_done_keeps hr
    rw [← Slot.location_eq] at hdocument hapart hothers
    exact ⟨hdocument, hapart, hothers⟩
  · have hnul : fault.obstacle ≠ .nulInName := fun hnul => h.path (hasNul_of_replaceFile hr hnul)
    exact ⟨⟨fault, storageFailure_of_ne hnul⟩, Workspace.replaceFile_undone hr hnul⟩

theorem refusal_of_writeDocument (h : (writeDocument (slot.path s) x).exec w = (.ok (), v)) : w.refusal = none := by
  rw [exec_writeDocument] at h
  rcases hcheck : x.toValue.checkWritable with e | _
  · rw [hcheck] at h
    cases h
  rw [hcheck] at h
  rcases hr : w.replaceFile (slot.path s) x.text.toUTF8 with ⟨u, _ | fault⟩
  · rcases hrefusal : w.refusal with _ | step
    · rfl
    · exact absurd hrefusal (Workspace.allows_of_replaceFile hr step)
  · rw [hr] at h
    cases h

/-- Nothing is in the way of a document: the file system refuses no step and not the name, the directories above are there
or can be made, and in the place of the document there is none. -/
structure Admits (s : Store) (slot : Slot) (w : Workspace) : Prop where
  willing : w.refusal = none
  plain : ".." ∉ s.root.parts
  directories : (w.makeDirectories (slot.path s).parent).2 = none
  name : ¬w.Refuses (slot.path s)
  place : w.tree.find? (slot.location s) ≠ some .directory

/-- A document is written where nothing is in its way. -/
theorem Admits.writeDocument_ok (h : s.Admits slot w) (hx : s.Submits slot x) :
    ∃ v, (writeDocument (slot.path s) x).exec w = (.ok (), v) := by
  obtain ⟨p, name, hname, hpath, hparent⟩ := slot.path_eq_join s
  obtain ⟨hwilling, hplain, hdirectories, hrefused, hplace⟩ := h
  have hdots := slot.no_dots hplain
  have hnul := hx.path
  rw [Slot.location_eq, Tree.resolve_of_no_dots hdots, List.nil_append] at hplace
  rw [hparent] at hdirectories
  rw [hpath] at hrefused hnul hplace hdots
  obtain ⟨v, hv⟩ := Workspace.replaceFile_ok hwilling (fun hmem => hdots (List.mem_append_left _ hmem)) hdirectories hname
    hrefused hnul hplace x.text.toUTF8
  refine ⟨v, ?_⟩
  rw [exec_writeDocument, show x.toValue.checkWritable = .ok () from if_pos hx.written]
  simp only [hpath, hv]

/-! ### New snapshots -/

variable {files : List FileSummary} {branch commit : String} {environment : Option Provenance}

/-- A draft takes notes and draws ids, and changes no file but the log file. -/
theorem keepsFiles_draft (written : Location → Prop) (w : Workspace) :
    w.KeepsFiles written ((s.draft files branch commit environment).exec w).2 := by
  have hR := Workspace.KeepsFiles.frame written
  suffices h : Action.Preserves (Workspace.KeepsFiles written) (s.draft files branch commit environment) from h w
  refine Action.Ends.preserves fun w => ?_
  have hwarned : w.KeepsFiles written (warned w files) := warned_of_note (hR.refl w) (Workspace.KeepsFiles.note w)
  have hdraw := Action.Ends.of_preserves (preserves_freeId hR (fun _ _ => .of_same) s (idsToTry (warned w files)))
    (warned w files)
  exact (ends_draft (D := fun _ u => w.KeepsFiles written u) (fun _ _ => hR.refl w)
    (hdraw.mono (fun _ _ hu => hR.trans hwarned hu) fun _ _ hu => hR.trans hwarned hu) fun _ _ hu _ _ _ => hu).mono
      (fun _ _ h => h.1) fun _ _ h => h

/-! ### Calls -/

namespace Call

variable {c : Call}

/-- A call comes to write the document of a snapshot to a slot: at once, or after the snapshot was drafted. -/
inductive Writes (s : Store) (w : Workspace) : Call → Slot → Snapshot → Workspace → Prop
  | save (x : Snapshot) : Writes s w (.save x) (.snapshot x.id) x w
  | saveBaseline (x : Snapshot) (branch : String) : Writes s w (.saveBaseline x branch) (.baseline branch) x w
  | create {files : List FileSummary} {branch commit : String} {environment : Option Provenance} {x : Snapshot}
      {u : Workspace} (drafted : (s.draft files branch commit environment).exec w = (.ok x, u)) :
      Writes s w (.create files branch commit environment) (.snapshot x.id) x u

/-- Until then nothing is written but notes. -/
theorem Writes.keeps (h : c.Writes s w slot x u) (written : Location → Prop) : w.KeepsFiles written u := by
  cases h with
  | save => exact .of_same
  | saveBaseline => exact .of_same
  | @create files branch commit environment x u drafted =>
    have hkept := @keepsFiles_draft s files branch commit environment written w
    rwa [drafted] at hkept

theorem Writes.ends {P : Workspace → Prop} {E : Failure → Workspace → Prop} (h : c.Writes s w slot x u) (hfits : slot.Fits x)
    (hnote : ∀ v e, P v → P (v.note e)) (hdocument : (writeDocument (slot.path s) x).Ends u (fun _ => P) E) :
    (c.perform s).Ends w (fun _ => P) E := by
  have hsave : ∀ {x}, isId x.id = true → (writeDocument ((Slot.snapshot x.id).path s) x).Ends u (fun _ => P) E →
      (s.save x).Ends u (fun _ => P) E := fun hid hwrite =>
    .bind_ok (Action.exec_lift_ok (snapshotPath_eq_ok hid)) (.bind hwrite fun _ v hv => .note (hnote v _ hv))
  cases h with
  | save => exact .bind (hsave hfits.2 hdocument) fun _ _ hv => .pure hv
  | saveBaseline => exact .bind (.bind hdocument fun _ v hv => .note (hnote v _ hv)) fun _ _ hv => .pure hv
  | create drafted =>
    refine .bind (.congr (exec_create ..) (.bind_ok drafted ?_)) fun _ _ hv => .pure hv
    exact .bind (hsave hfits.2 hdocument) fun _ v hv => .bind_ok (Action.exec_note ..) (.pure (hnote v _ hv))

/-- A call that writes a document does so whole or not at all; until then it writes nothing but notes.  If it returns, the
target holds exactly the document, and no other file is new, gone or changed but for what was added to a log file.  If
anything stopped it, it fails with a failure of stored files, and all files are as they were, the target among them.  A file
system that refuses any of the steps does stop it, and if nothing is in the way it returns. -/
theorem writes_whole_or_not_at_all (h : c.Writes s w slot x u) (hx : s.Submits slot x) :
    w.KeepsFiles (fun _ => False) u ∧
      (c.perform s).Ends w (fun _ v => s.Wrote slot x u v) (s.WroteNothing slot u) ∧
      (∀ step, w.refusal = some step → ∃ e v, (c.perform s).exec w = (.error e, v)) ∧
      (s.Admits slot u → ∃ change v, (c.perform s).exec w = (.ok change, v)) := by
  refine ⟨h.keeps _, h.ends hx.fits (fun _ e hv => hv.note e) (writeDocument_whole hx), fun step hrefusal => ?_,
    fun hadmits => ?_⟩
  · -- a write that is refused never returns, so the call that needs it does not either
    have hnever : (writeDocument (slot.path s) x).Ends u (fun _ _ => False) fun _ _ => True := by
      refine ⟨fun hw => ?_, fun _ => trivial⟩
      have hnone := refusal_of_writeDocument hw
      rw [(h.keeps fun _ => False).refusal, hrefusal] at hnone
      cases hnone
    rcases hr : (c.perform s).exec w with ⟨e | change, v⟩
    · exact ⟨e, v, rfl⟩
    · exact ((h.ends hx.fits (fun _ _ => id) hnever).ok hr).elim
  · obtain ⟨v, hv⟩ := hadmits.writeDocument_ok hx
    -- the write returns, and what comes before and after it cannot fail
    have hwrite : (writeDocument (slot.path s) x).Ends u (fun _ _ => True) fun _ _ => False := .of_ok hv trivial
    rcases hr : (c.perform s).exec w with ⟨e | change, v⟩
    · exact ((h.ends hx.fits (fun _ _ => id) hwrite).error hr).elim
    · exact ⟨change, v, rfl⟩

/-- A snapshot is written to an empty workspace, and not where a temporary file cannot take the place of the target. -/
theorem writes_plain_or_nothing : let refusing := { blank with refusal := some .replacement }
    (∃ change v, ((Call.save plain).perform beside).exec blank = (.ok change, v) ∧
      beside.Wrote (.snapshot "a") plain blank v) ∧
    ∃ e v, ((Call.save plain).perform beside).exec refusing = (.error e, v) ∧
      beside.WroteNothing (.snapshot "a") refusing e v := by
  intro refusing
  have hsubmits : beside.Submits (.snapshot "a") plain := ⟨⟨rfl, by decide⟩, by decide +kernel, by decide⟩
  have hadmits : beside.Admits (.snapshot "a") blank := ⟨rfl, by decide, by decide, by decide, by decide⟩
  obtain ⟨-, hends, -, hreturns⟩ := writes_whole_or_not_at_all (Writes.save (s := beside) (w := blank) plain) hsubmits
  obtain ⟨change, v, hwritten⟩ := hreturns hadmits
  obtain ⟨-, hstops, hrefused, -⟩ := writes_whole_or_not_at_all (Writes.save (s := beside) (w := refusing) plain) hsubmits
  obtain ⟨e, t, hfailed⟩ := hrefused .replacement rfl
  exact ⟨⟨change, v, hwritten, hends.ok hwritten⟩, e, t, hfailed, hstops.error hfailed⟩

end Call

end Store

end ScoreGate
