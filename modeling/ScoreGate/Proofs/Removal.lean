import ScoreGate.Proofs.Listing
import ScoreGate.Proofs.Order

/-!
# Cleaning up

A cleanup removes the documents named by the ids of the old snapshots that a listing gives.  Whatever the directory
holds, nothing but such documents goes away.  Where every old document carries the id that it is named by, and the
listing goes on to the end, these are the old documents themselves and no others.

* `Store.exec_cleanup`: a cleanup whose listing and removals come to an end.
* `Store.Trimmed`: what a cleanup may do, however it ends.
* `Store.cleanup_removes_old`: what it does.
-/

namespace ScoreGate

namespace Store

variable {s : Store} {u v w : Workspace} {ids : List String} {loc : Location}

/-! ### Removing, however it ends -/

/-- Only documents of some ids are gone, and no log file is new. -/
structure Removes (s : Store) (ids : List String) (w v : Workspace) : Prop where
  found : ∀ loc, v.tree.find? loc = w.tree.find? loc ∨
    v.tree.find? loc = none ∧ ∃ id ∈ ids, isId id = true ∧ loc = (Slot.snapshot id).location s
  log : ∀ f, v.log = some f → w.log = some f

theorem removes_frame (s : Store) (ids : List String) : Action.Frame (s.Removes ids) := by
  refine ⟨fun w => ⟨fun _ => Or.inl rfl, fun _ h => h⟩, fun {u v w} h h' => ⟨fun loc => ?_, fun f hf => h.log f (h'.log f hf)⟩⟩
  rcases h'.found loc with hsame | hgone
  · rw [hsame]
    exact h.found loc
  · exact Or.inr hgone

theorem removes_remove {id : String} (hid : isId id = true) (hmem : id ∈ ids)
    (h : w.remove ((Slot.snapshot id).path s) = .ok v) : s.Removes ids w v := by
  obtain ⟨loc, bytes, hlocate, hfind, rfl⟩ := Workspace.remove_eq_ok.mp h
  obtain rfl := Slot.eq_location hlocate
  have hne : (Slot.snapshot id).location s ≠ [] := by simp [Slot.location, Slot.names]
  refine ⟨fun other => ?_, fun f hf => (Option.filter_eq_some_iff.mp hf).1⟩
  rw [Tree.find?_erase other hne]
  by_cases hother : other = (Slot.snapshot id).location s
  · exact Or.inr ⟨if_pos hother, id, hmem, hid, hother⟩
  · exact Or.inl (if_neg hother)

theorem removes_removeAll {xs : List Snapshot} (h : ∀ x ∈ xs, x.id ∈ ids) : Action.Preserves (s.Removes ids) (s.removeAll xs) :=
  preserves_removeAll (s.removes_frame ids) fun x hx hid _ _ hremove => removes_remove hid (h x hx) hremove

/-- A document of the listing that holds a snapshot from before this time. -/
def ListedOld (s : Store) (w : Workspace) (cutoff : ℤ) (name : String) (x : Snapshot) : Prop :=
  s.Listed w name x ∧ x.timestamp < cutoff

/-- Only documents named by the ids of old snapshots are gone; only notes were added, to the log file if there is one. -/
structure Trimmed (s : Store) (w v : Workspace) (cutoff : ℤ) : Prop where
  found : ∀ loc, (∀ f, w.log = some f → loc ≠ f.location) → v.tree.find? loc = w.tree.find? loc ∨
    v.tree.find? loc = none ∧
      ∃ name x, s.ListedOld w cutoff name x ∧ isId x.id = true ∧ loc = (Slot.snapshot x.id).location s
  log : ∀ f, v.log = some f → w.log = some f

variable {cutoff : ℤ}

theorem Trimmed.of_noted (h : w.Noted v) : s.Trimmed w v cutoff :=
  ⟨fun loc hloc => Or.inl (h.elsewhere loc hloc), fun f hf => by rwa [h.log] at hf⟩

theorem Trimmed.note (h : s.Trimmed w v cutoff) (e : Entry) : s.Trimmed w (v.note e) cutoff := by
  refine ⟨fun loc hloc => ?_, h.log⟩
  rw [Workspace.find?_note fun f hf => hloc f (h.log f hf)]
  exact h.found loc hloc

theorem Trimmed.of_removes {xs : List Snapshot} (h : w.Noted u) (hv : s.Removes (xs.map (·.id)) u v)
    (hxs : ∀ x ∈ xs, ∃ name, s.ListedOld w cutoff name x) : s.Trimmed w v cutoff := by
  refine ⟨fun loc hloc => ?_, fun f hf => by rw [← h.log]; exact hv.log f hf⟩
  rcases hv.found loc with hsame | ⟨hnone, id, hid, hisid, rfl⟩
  · exact Or.inl (by rw [hsame, h.elsewhere loc hloc])
  · obtain ⟨x, hx, rfl⟩ := List.mem_map.mp hid
    obtain ⟨name, hname⟩ := hxs x hx
    exact Or.inr ⟨hnone, name, x, hname, hisid, rfl⟩

/-- What is not at or after a time is before it. -/
theorem old_iff {x : Snapshot} : (!(Number.int cutoff).le (.int x.timestamp)) = true ↔ x.timestamp < cutoff := by
  rw [Bool.not_eq_true', ← Bool.not_eq_true, Number.int_le_int, not_le]

/-- After its removals a cleanup at most notes how many they were, and that fails for an age of too many digits. -/
theorem exec_cleanup {t : Workspace} {xs : List Snapshot} {age : ℤ} (hlist : s.list.exec w = (.ok xs, u))
    (hremove : (s.removeAll (xs.filter fun x => x.timestamp < w.clock - age)).exec u = (.ok ids, t)) :
    ∃ v, (s.cleanup (.int age)).exec w = (if ids.isEmpty || (Number.int age).isWritable then .ok ids
        else .error (.fault (.badValue .hugeInteger)), v) ∧ (v = t ∨ ids ≠ [] ∧ ∃ e, v = t.note e) := by
  have hsub : (Number.int w.clock).sub (.int age) = .ok (.int (w.clock - age)) := rfl
  have hold : xs.filter (fun x => !(Number.int (w.clock - age)).le (.int x.timestamp)) =
      xs.filter fun x => x.timestamp < w.clock - age := by
    refine List.filter_congr fun x _ => ?_
    rw [Bool.eq_iff_iff, old_iff, decide_eq_true_eq]
  rw [cleanup, Action.exec_bind_ok Action.exec_get, Action.exec_bind_ok (Action.exec_lift_ok hsub),
    Action.exec_bind_ok hlist]
  simp only [hold]
  rw [Action.exec_bind_ok hremove]
  cases ids with
  | nil => exact ⟨t, rfl, Or.inl rfl⟩
  | cons id ids =>
    simp only [List.isEmpty_cons, Bool.not_false, if_true, Bool.false_or]
    by_cases hage : (Number.int age).isWritable = true
    · have hwritten : (Number.int age).written = .ok (Number.int age).text := if_pos hage
      rw [if_pos hage]
      exact ⟨_, Action.exec_bind_ok (Action.exec_lift_ok hwritten) _, Or.inr ⟨by simp, _, rfl⟩⟩
    · have hwritten : (Number.int age).written = .error (.badValue .hugeInteger) := if_neg hage
      rw [if_neg hage]
      refine ⟨t, ?_, Or.inl rfl⟩
      rw [hwritten]
      rfl

/-- However a cleanup ends, it only trims. -/
theorem cleanup_ends (hlog : s.LogBeside w) (age : ℤ) : (s.cleanup (.int age)).Ends w
    (fun _ v => s.Trimmed w v (w.clock - age)) fun _ v => s.Trimmed w v (w.clock - age) := by
  have hsub : (Number.int w.clock).sub (.int age) = .ok (.int (w.clock - age)) := rfl
  rw [cleanup]
  refine .bind_ok Action.exec_get (.bind_ok (Action.exec_lift_ok hsub) ?_)
  refine .bind ((list_ends hlog).mono (fun _ _ h => h) fun _ _ hv => .of_noted hv) ?_
  rintro xs u ⟨hu, hlisted⟩
  have hold : ∀ x ∈ xs.filter fun x => !(Number.int (w.clock - age)).le (.int x.timestamp),
      ∃ name, s.ListedOld w (w.clock - age) name x := by
    intro x hx
    obtain ⟨hmem, hle⟩ := List.mem_filter.mp hx
    obtain ⟨name, hname⟩ := hlisted x hmem
    exact ⟨name, hname, old_iff.mp hle⟩
  refine .bind ((Action.Ends.of_preserves (removes_removeAll fun x hx => List.mem_map_of_mem hx) u).mono
    (fun _ _ hv => Trimmed.of_removes hu hv hold) fun _ _ hv => .of_removes hu hv hold) fun removed v hv => ?_
  split_ifs
  · rcases hw : (Number.int age).written with e | text
    · exact .of_error (Action.exec_bind_error (Action.exec_lift_fault _) _) hv
    · exact .bind_ok (Action.exec_lift_ok rfl) (.bind_ok (Action.exec_note ..) (.pure (hv.note _)))
  · exact .pure hv

/-! ### Removing what is old -/

/-- The document of the listing at a location holds a snapshot from before this time. -/
def OldAt (s : Store) (w : Workspace) (cutoff : ℤ) (loc : Location) : Prop :=
  ∃ name x, s.ListedOld w cutoff name x ∧ loc = s.location ++ [name]

/-- The documents of snapshots from before this time are named by the ids that they carry. -/
def NamedByIds (s : Store) (w : Workspace) (cutoff : ℤ) : Prop :=
  ∀ name x, s.ListedOld w cutoff name x → isId x.id = true ∧ documentName x.id = name

theorem removable_of_listed {name : String} {x : Snapshot} (hlog : s.LogBeside w) (hu : w.Noted u)
    (h : s.Listed w name x) (hid : isId x.id = true) (hname : documentName x.id = name) : s.Removable u x.id := by
  have hreads := reads_answer w (s.root.child name)
  rw [show answer w (s.root.child name) = .ok (some x) from h.2] at hreads
  cases hreads with
  | found file _ _ _ =>
    obtain ⟨loc, hlocate, hfind⟩ := Workspace.node_eq_ok.mp file
    have hsnapshot := isSnapshotName_of_mem h.1
    obtain rfl := locate_child hsnapshot hlocate
    subst hname
    refine ⟨hid, (hu.locate _).trans hlocate, ?_⟩
    rw [Slot.location, Slot.names, hu.elsewhere _ fun f hf heq => hlog.2 f hf _ hsnapshot heq.symm, hfind]
    simp

/-- A cleanup where the listing goes on to the end and every old document is named by its id. -/
theorem cleanup_ok (hlog : s.LogBeside w) (hroot : w.node s.root = .ok .directory)
    (hgoes : ∀ name ∈ s.listedNames w, s.GoesOn w name) {age : ℤ} (hnamed : s.NamedByIds w (w.clock - age))
    (hage : (Number.int age).isWritable = true) : ∃ ids v, (s.cleanup (.int age)).exec w = (.ok ids, v) ∧
      ∀ loc, (∀ f, w.log = some f → loc ≠ f.location) →
        (s.OldAt w (w.clock - age) loc → v.tree.find? loc = none) ∧
        (¬s.OldAt w (w.clock - age) loc → v.tree.find? loc = w.tree.find? loc) := by
  obtain ⟨u, hlist, hu, -⟩ := list_ok hlog hroot hgoes
  generalize hold : (s.readable w).filter (fun x => x.timestamp < w.clock - age) = old
  have hmem : ∀ x, x ∈ old ↔ ∃ name, s.ListedOld w (w.clock - age) name x := by
    intro x
    rw [← hold, List.mem_filter, mem_readable, decide_eq_true_eq, ← exists_and_right]
    rfl
  -- an old document is named by its id, so the path that is rebuilt is its own
  have hplace : ∀ {name x}, s.ListedOld w (w.clock - age) name x → (Slot.snapshot x.id).location s = s.location ++ [name] := by
    intro name x hx
    rw [← (hnamed name x hx).2]
    rfl
  have hremovable : ∀ x ∈ old, s.Removable u x.id := by
    intro x hx
    obtain ⟨name, hname⟩ := (hmem x).mp hx
    obtain ⟨hid, hdocument⟩ := hnamed name x hname
    exact removable_of_listed hlog hu hname.1 hid hdocument
  obtain ⟨ids, t, hexec, hremoved, hids, hgone⟩ := removeAll_spec hremovable
  have hfound : ∀ loc, (∀ f, w.log = some f → loc ≠ f.location) →
      (s.OldAt w (w.clock - age) loc → t.tree.find? loc = none) ∧
      (¬s.OldAt w (w.clock - age) loc → t.tree.find? loc = w.tree.find? loc) := by
    refine fun loc hloc => ⟨?_, fun hnot => ?_⟩
    · rintro ⟨name, x, hx, rfl⟩
      rw [← hplace hx]
      exact hgone x ((hmem x).mpr ⟨name, hx⟩)
    · rw [hremoved.found, if_neg, hu.elsewhere loc hloc]
      rintro ⟨id, hid, rfl⟩
      obtain ⟨x, hx, rfl⟩ := List.mem_map.mp (hids hid)
      obtain ⟨name, hname⟩ := (hmem x).mp hx
      exact hnot ⟨name, x, hname, hplace hname⟩
  have hlogs : ∀ f, t.log = some f → w.log = some f := fun f hf => hu.log ▸ (hremoved.log f hf).1
  obtain ⟨v, hv, hend⟩ := exec_cleanup hlist (hold ▸ hexec)
  rw [hage, Bool.or_true, if_pos rfl] at hv
  refine ⟨ids, v, hv, fun loc hloc => ?_⟩
  rcases hend with rfl | ⟨-, e, rfl⟩
  · exact hfound loc hloc
  · -- the note goes to the log file, which no old document is
    rw [Workspace.find?_note fun f hf => hloc f (hlogs f hf)]
    exact hfound loc hloc

/-- A cleanup removes the documents of the old snapshots and nothing else, if the listing goes on to the end and every old
document is named by the id that it carries.  In any case nothing goes away but documents named by ids of old snapshots;
and where the listing ends early, nothing goes away at all. -/
theorem cleanup_removes_old (s : Store) (w : Workspace) (hlog : s.LogBeside w) (age : ℤ) :
    (∀ r v, (s.cleanup (.int age)).exec w = (r, v) → ∀ loc, (∀ f, w.log = some f → loc ≠ f.location) →
      v.tree.find? loc = w.tree.find? loc ∨ v.tree.find? loc = none ∧ ∃ name x,
        s.ListedOld w (w.clock - age) name x ∧ isId x.id = true ∧ loc = (Slot.snapshot x.id).location s) ∧
    (w.node s.root = .ok .directory → (∃ name ∈ s.listedNames w, ¬s.GoesOn w name) →
      ∃ e v, (s.cleanup (.int age)).exec w = (.error e, v) ∧
        ∀ loc, (∀ f, w.log = some f → loc ≠ f.location) → v.tree.find? loc = w.tree.find? loc) ∧
    (w.node s.root = .ok .directory → (∀ name ∈ s.listedNames w, s.GoesOn w name) →
      s.NamedByIds w (w.clock - age) → (Number.int age).isWritable = true →
        ∃ ids v, (s.cleanup (.int age)).exec w = (.ok ids, v) ∧ ∀ loc, (∀ f, w.log = some f → loc ≠ f.location) →
          (s.OldAt w (w.clock - age) loc → v.tree.find? loc = none) ∧
          (¬s.OldAt w (w.clock - age) loc → v.tree.find? loc = w.tree.find? loc)) := by
  refine ⟨fun r v hexec => ?_, fun hroot hnot => ?_, fun hroot hgoes => cleanup_ok hlog hroot hgoes⟩
  · rcases r with e | ids
    · exact ((cleanup_ends hlog age).error hexec).found
    · exact ((cleanup_ends hlog age).ok hexec).found
  · obtain ⟨name, hname, hstops⟩ := hnot
    rcases s.goesOn_or_stops (w := w) (s.listedNames w) with h | ⟨before, stop, after, e, hnames, h, hstop⟩
    · exact absurd (h name hname) hstops
    · obtain ⟨v, hlist, hv, -⟩ := list_stops hlog hroot hnames h hstop
      have hsub : (Number.int w.clock).sub (.int age) = .ok (.int (w.clock - age)) := rfl
      refine ⟨e, v, ?_, hv.elsewhere⟩
      rw [cleanup, Action.exec_bind_ok Action.exec_get, Action.exec_bind_ok (Action.exec_lift_ok hsub)]
      exact Action.exec_bind_error hlist _

/-- A directory with an old snapshot and a report. -/
def aged : Workspace :=
  { blank with
    clock := 100
    tree := ⟨[(["s"], .directory), (["s", "a.json"], .file plain.text.toUTF8), (["s", "report-a.json"], .file ⟨#[49]⟩)]⟩ }

theorem cleanup_removes_aged : ∃ ids v, (beside.cleanup (.int 10)).exec aged = (.ok ids, v) ∧
    v.tree.find? ["s", "a.json"] = none ∧ v.tree.find? ["s", "report-a.json"] = some (.file ⟨#[49]⟩) := by
  have hread : Readable aged.depth plain := by
    rw [readable_iff]
    decide +kernel
  have hanswer : beside.answerOf aged "a.json" = .ok (some plain) := answerOf_of_node rfl rfl hread
  have hnames : beside.listedNames aged = ["a.json"] := by decide +kernel
  have heq : ∀ name x, beside.Listed aged name x → name = "a.json" ∧ x = plain := by
    rintro name x ⟨hname, hx⟩
    rw [hnames, List.mem_singleton] at hname
    rw [hname, hanswer, Except.ok.injEq, Option.some.injEq] at hx
    exact ⟨hname, hx.symm⟩
  have hgoes : ∀ name ∈ beside.listedNames aged, beside.GoesOn aged name := by
    intro name hname
    rw [hnames, List.mem_singleton] at hname
    exact hname ▸ goesOn_of_answer hanswer (by simp)
  have hnamed : beside.NamedByIds aged (aged.clock - 10) := by
    rintro name x ⟨hx, -⟩
    obtain ⟨rfl, rfl⟩ := heq name x hx
    decide +kernel
  obtain ⟨-, -, hremoves⟩ := beside.cleanup_removes_old aged ⟨nofun, nofun⟩ 10
  obtain ⟨ids, v, hexec, hfound⟩ := hremoves (by decide +kernel) hgoes hnamed (by decide +kernel)
  refine ⟨ids, v, hexec, (hfound _ nofun).1 ?_, (hfound _ nofun).2 ?_⟩
  · exact ⟨"a.json", plain, ⟨⟨by simp [hnames], hanswer⟩, by decide⟩, rfl⟩
  · rintro ⟨name, x, ⟨hx, -⟩, hloc⟩
    obtain ⟨rfl, -⟩ := heq name x hx
    revert hloc
    decide +kernel

end Store

end ScoreGate
