import ScoreGate.Proofs.Adding
import ScoreGate.Proofs.Retention
import ScoreGate.Proofs.Submitting

/-!
# Drawing ids until one is free

A new snapshot takes the first id that no document has.  Ids that are taken have documents in the root of the store, so of
ids that are all different at most as many are taken as the root has entries, and the loop stops one draw later.  The path
that is tried is the path that is written, so nothing that was there is overwritten.

* `Store.idAt`: the ids that are drawn, one after another.
* `Store.Draws`, `exec_freeId`: the loop without a bound, and that the bound makes no difference.
* `Store.le_size_of_taken`: no more ids are taken than there are entries.
* `Store.create_takes_first_free`: the new snapshot.
-/

namespace ScoreGate

def Source.after (s : Source) : ℕ → Source
  | 0 => s
  | k + 1 => (s.draw suffixLength).2.after k

/-- What is still to be drawn later has a property that the digits and the characters still to be drawn have. -/
theorem Source.after_all {P : Char → Prop} (hdigits : ∀ n < 36, P (digit36 n)) : ∀ (k : ℕ) {s : Source},
    (∀ c ∈ s.pending, P c) → ∀ c ∈ (s.after k).pending, P c
  | 0, _, hs => hs
  | k + 1, _, hs => after_all hdigits k (@draw_all _ hdigits suffixLength _ hs).2.2

namespace Store

variable {s : Store} {u v w : Workspace} {id : String} {k : ℕ}

/-- The ids that are drawn, one after another. -/
def idAt (w : Workspace) (k : ℕ) : String := nextId { w with source := w.source.after k }

/-- There is something where the document of an id belongs. -/
def Taken (s : Store) (w : Workspace) (id : String) : Prop := ∃ n, w.node ((Slot.snapshot id).path s) = .ok n

/-- How many entries the root of a store holds; a root that leads to no directory holds none. -/
def size (s : Store) (w : Workspace) : ℕ :=
  match w.node s.root with
  | .ok .directory => (w.tree.children s.location).length
  | _ => 0

/-! ### The loop -/

/-- The loop that draws ids until one is not taken, with no bound: so many draws, what it comes to, and what is left.  It
stops as well where it cannot be said whether an id is taken. -/
inductive Draws (s : Store) : Workspace → ℕ → Except Failure String → Workspace → Prop
  | free {w u : Workspace} {id : String} {p : Path} (drawn : generateId.exec w = (.ok id, u))
      (path : s.snapshotPath id = .ok p) (free : (Action.exists? p).exec u = (.ok false, u)) : Draws s w 1 (.ok id) u
  | unsaid {w u : Workspace} {id : String} {p : Path} {e : Failure} (drawn : generateId.exec w = (.ok id, u))
      (path : s.snapshotPath id = .ok p) (unsaid : (Action.exists? p).exec u = (.error e, u)) : Draws s w 1 (.error e) u
  | taken {w u v : Workspace} {id : String} {p : Path} {k : ℕ} {r : Except Failure String}
      (drawn : generateId.exec w = (.ok id, u)) (path : s.snapshotPath id = .ok p)
      (taken : (Action.exists? p).exec u = (.ok true, u)) (rest : Draws s u k r v) : Draws s w (k + 1) r v

/-- Where as many ids may be tried as the loop draws, trying them is the loop. -/
theorem exec_freeId {r : Except Failure String} (h : s.Draws w k r v) :
    ∀ {fuel : ℕ}, k ≤ fuel → (s.freeId fuel).exec w = (r, v) := by
  -- draw by draw: each takes one off the bound
  induction h with
  | free drawn path free =>
    rintro (_ | fuel) hfuel
    · omega
    · rw [freeId, Action.exec_bind_ok drawn, Action.exec_bind_ok (Action.exec_lift_ok path), Action.exec_bind_ok free]
      rfl
  | unsaid drawn path unsaid =>
    rintro (_ | fuel) hfuel
    · omega
    · rw [freeId, Action.exec_bind_ok drawn, Action.exec_bind_ok (Action.exec_lift_ok path), Action.exec_bind_error unsaid]
  | taken drawn path taken rest ih =>
    rintro (_ | fuel) hfuel
    · omega
    · rw [freeId, Action.exec_bind_ok drawn, Action.exec_bind_ok (Action.exec_lift_ok path), Action.exec_bind_ok taken]
      exact ih (by omega)

/-- What drawing comes to at an id that is not taken: the id, unless the file system refuses the name of its document. -/
def Outcome (s : Store) (w : Workspace) (id : String) (r : Except Failure String) : Prop :=
  r = .ok id ∧ w.locate ((Slot.snapshot id).path s) ≠ .error .nameTooLong ∨
    r = .error .system ∧ w.locate ((Slot.snapshot id).path s) = .error .nameTooLong

theorem exists?_of_node {p : Path} {n : Node} (h : w.node p = .ok n) : (Action.exists? p).exec w = (.ok true, w) := by
  rw [Action.exists?, Action.exec_bind, Action.exec_node?, h]
  rfl

/-- That nothing is there can be said unless the file system refuses the name. -/
theorem exists?_of_nothing {p : Path} (h : ¬∃ n, w.node p = .ok n) :
    ((Action.exists? p).exec w = (.ok false, w) ∧ w.locate p ≠ .error .nameTooLong) ∨
      (Action.exists? p).exec w = (.error .system, w) ∧ w.locate p = .error .nameTooLong := by
  rw [Action.exists?, Action.exec_bind, Action.exec_node?]
  rcases hn : w.node p with o | n
  · cases o
    case nameTooLong => exact Or.inr ⟨rfl, Workspace.node_eq_nameTooLong.mp hn⟩
    all_goals
      refine Or.inl ⟨rfl, fun hlong => ?_⟩
      rw [Workspace.node_eq_nameTooLong.mpr hlong] at hn
      cases hn
  · exact absurd ⟨n, hn⟩ h

/-- The loop goes through the ids that are taken and stops at the first that is not. -/
theorem draws_first (hids : ∀ i ≤ k, isId (idAt w i) = true) (htaken : ∀ i < k, s.Taken w (idAt w i))
    (hfree : ¬s.Taken w (idAt w k)) : ∃ r, s.Draws w (k + 1) r { w with source := w.source.after (k + 1) } ∧
      s.Outcome w (idAt w k) r := by
  -- one draw from `w` leaves a source whose ids are the later ones of `w`, so the workspace goes along
  induction k generalizing w with
  | zero =>
    have hpath := snapshotPath_eq_ok (s := s) (hids 0 le_rfl)
    rcases exists?_of_nothing (w := { w with source := w.source.after 1 }) hfree with ⟨hexec, hshort⟩ | ⟨hexec, hlong⟩
    · exact ⟨_, .free (exec_generateId w) hpath hexec, Or.inl ⟨rfl, hshort⟩⟩
    · exact ⟨_, .unsaid (exec_generateId w) hpath hexec, Or.inr ⟨rfl, hlong⟩⟩
  | succ k ih =>
    have hpath := snapshotPath_eq_ok (s := s) (hids 0 (Nat.zero_le _))
    obtain ⟨n, hn⟩ := htaken 0 (Nat.succ_pos k)
    obtain ⟨r, hdraws, hr⟩ := ih (w := { w with source := w.source.after 1 }) (fun i hi => hids (i + 1) (by omega))
      (fun i hi => htaken (i + 1) (by omega)) hfree
    exact ⟨r, .taken (exec_generateId w) hpath (exists?_of_node hn) hdraws, hr⟩

/-! ### How many ids are taken -/

theorem node_root_of_taken (h : s.Taken w id) : w.node s.root = .ok .directory ∧
    w.tree.find? ((Slot.snapshot id).location s) ≠ none := by
  obtain ⟨n, hn⟩ := h
  obtain ⟨loc, hlocate, hfound⟩ := Workspace.node_eq_ok.mp hn
  obtain rfl := Slot.eq_location hlocate
  have hchild : w.tree.locate w.limits (s.root.child (documentName id)) = .ok ((Slot.snapshot id).location s) := hlocate
  have hne : documentName id ≠ "" := by
    intro hempty
    simpa [documentName] using congrArg String.toList hempty
  obtain ⟨here, hroot, hdir⟩ := Tree.isDirectory_of_locate_child hne hchild
  exact ⟨Workspace.node_eq_ok.mpr ⟨here, hroot, hdir⟩, by simp [hfound]⟩

/-- Of ids that are all different no more are taken than the root has entries. -/
theorem le_size_of_taken (hdistinct : ∀ i j, i < j → j < k → idAt w i ≠ idAt w j) (htaken : ∀ i < k, s.Taken w (idAt w i)) :
    k ≤ s.size w := by
  rcases Nat.eq_zero_or_pos k with rfl | hpos
  · exact Nat.zero_le _
  rw [size, (node_root_of_taken (htaken 0 hpos)).1]
  -- every id that is taken names an entry of the root, and different ids name different ones
  have hsub : (List.range k).map (fun i => documentName (idAt w i)) ⊆ (w.tree.children s.location).map Prod.fst := by
    intro name hname
    obtain ⟨i, hi, rfl⟩ := List.mem_map.mp hname
    have hfound := (node_root_of_taken (htaken i (List.mem_range.mp hi))).2
    rw [Tree.mem_children]
    rw [Tree.find?, if_neg (by simp [Slot.location, Slot.names])] at hfound
    exact Tree.mem_of_findIn hfound
  have hnodup : ((List.range k).map fun i => documentName (idAt w i)).Nodup := by
    refine List.Nodup.map_on (fun i hi j hj heq => ?_) List.nodup_range
    rw [List.mem_range] at hi hj
    have hsame := documentName_injective heq
    rcases Nat.lt_trichotomy i j with hlt | rfl | hlt
    · exact absurd hsame (hdistinct i j hlt hj)
    · rfl
    · exact absurd hsame.symm (hdistinct j i hlt hi)
  simpa using (List.subperm_of_subset hnodup hsub).length_le

/-- Of one id more than the root has entries, all different, one is free. -/
theorem exists_free (hdistinct : ∀ i j, i < j → j ≤ s.size w → idAt w i ≠ idAt w j) :
    ∃ k ≤ s.size w, (∀ i < k, s.Taken w (idAt w i)) ∧ ¬s.Taken w (idAt w k) := by
  classical
  have hsome : ∃ k, k ≤ s.size w ∧ ¬s.Taken w (idAt w k) := by
    by_contra hnone
    push Not at hnone
    have := le_size_of_taken (k := s.size w + 1) (fun i j hlt hj => hdistinct i j hlt (by omega)) fun i hi => hnone i (by omega)
    omega
  obtain ⟨hle, hfree⟩ := Nat.find_spec hsome
  refine ⟨Nat.find hsome, hle, fun i hi => ?_, hfree⟩
  have hnot := Nat.find_min hsome hi
  push Not at hnot
  exact hnot (by omega)

/-! ### Where ids are drawn -/

/-- What ids are drawn from: digits, such that one id more than the root of the store has entries are all different, while the
log file is there. -/
structure Supply (s : Store) (w : Workspace) : Prop where
  digits : w.DrawsDigits
  distinct : ∀ i j, i < j → j ≤ s.size w → idAt w i ≠ idAt w j
  log : w.HasLog

/-- The first id that no document has, after so many that are taken. -/
structure FirstFree (s : Store) (w : Workspace) (k : ℕ) : Prop where
  bound : k ≤ s.size w
  taken : ∀ i < k, s.Taken w (idAt w i)
  free : ¬s.Taken w (idAt w k)

theorem Supply.isDrawn (h : s.Supply w) (k : ℕ) : IsDrawn w.clock (idAt w k) := by
  have hdigits : ∀ n < 36, ∃ m < 36, digit36 n = digit36 m := fun n hn => ⟨n, hn, rfl⟩
  obtain ⟨-, hdrawn, -⟩ := @Source.draw_all _ hdigits suffixLength _ (Source.after_all hdigits k h.digits)
  exact ⟨_, hdrawn, rfl⟩

/-- Among the ids that are drawn first there is one that no document has. -/
theorem Supply.firstFree (h : s.Supply w) : ∃ k, s.FirstFree w k := by
  obtain ⟨k, hbound, htaken, hfree⟩ := exists_free h.distinct
  exact ⟨k, hbound, htaken, hfree⟩

theorem idAt_of_notes (h : w.Notes u) : idAt u k = idAt w k := by
  rw [idAt, idAt, nextId, nextId, h.clock, h.source]

theorem size_le_entries (s : Store) (w : Workspace) : s.size w ≤ w.tree.entries.length := by
  rw [size]
  split
  · exact List.length_filterMap_le _ _
  · exact Nat.zero_le _

/-- While notes are taken the loop stops at the first free id, and the bound makes no difference. -/
theorem FirstFree.draws (hk : s.FirstFree w k) (h : s.Supply w) (hu : w.Notes u) :
    ∃ r, s.Draws u (k + 1) r { u with source := u.source.after (k + 1) } ∧
      (s.freeId (idsToTry u)).exec u = (r, { u with source := u.source.after (k + 1) }) ∧ s.Outcome w (idAt w k) r := by
  have hlimits : u.limits = w.limits := (hu.adds_notes h.log).limits
  have hshape := hu.sameShape h.log
  have hid : ∀ i, idAt u i = idAt w i := fun i => idAt_of_notes hu
  have htaken : ∀ i, s.Taken u (idAt u i) ↔ s.Taken w (idAt w i) := fun i => by
    rw [hid]
    exact Workspace.exists_node_congr hshape hlimits _
  have hbefore : ∀ i < k, s.Taken u (idAt u i) := fun i hi => (htaken i).mpr (hk.taken i hi)
  have hids : ∀ i ≤ k, isId (idAt u i) = true := fun i _ => by
    rw [hid]
    exact (h.isDrawn i).isId
  obtain ⟨r, hdraws, hr⟩ := draws_first hids hbefore fun hfree => hk.free ((htaken k).mp hfree)
  -- the loop may try one id more than there are entries, of which at most so many are taken
  have hbound : k ≤ s.size u := by
    refine le_size_of_taken (fun i j hij hj => ?_) hbefore
    rw [hid, hid]
    exact h.distinct i j hij (hj.le.trans hk.bound)
  have hfuel : k + 1 ≤ idsToTry u := by
    have := s.size_le_entries u
    rw [idsToTry]
    omega
  refine ⟨r, hdraws, exec_freeId hdraws hfuel, ?_⟩
  rw [Outcome, hid, Workspace.locate, hlimits, ← hshape.locate] at hr
  exact hr

/-! ### What becomes of the store -/

/-- Every file that a path below the root of a store leads to is as it was; only a log file may have grown. -/
def Undisturbed (s : Store) (w v : Workspace) : Prop :=
  ∀ names bytes, w.node (s.root.join names) = .ok (.file bytes) → v.node (s.root.join names) = .ok (.file bytes) ∨
    w.IsLog (Tree.resolve [] (s.root.join names).parts) ∧ ∃ more, v.node (s.root.join names) = .ok (.file (bytes ++ more))

/-- Room for notes, and for the document of an id and the directories above it. -/
def room (s : Store) (w : Workspace) (id : String) : Room :=
  ⟨w.IsLog, fun loc => loc = (Slot.snapshot id).location s ∧ w.locate ((Slot.snapshot id).path s) ≠ .error .nameTooLong,
    s.root.Passes⟩

theorem not_written_of_free {names : List String} {bytes : ByteArray} (hid : IsDrawn w.clock id) (hfree : ¬s.Taken w id)
    (hfile : w.node (s.root.join names) = .ok (.file bytes)) :
    ¬(s.room w id).written (Tree.resolve [] (s.root.join names).parts) := by
  rintro ⟨hplace, hshort⟩
  obtain ⟨loc, hlocate, hfound⟩ := Workspace.node_eq_ok.mp hfile
  obtain rfl := Tree.locate_eq_resolve hlocate
  obtain ⟨-, hfrom⟩ := Tree.locate_eq_ok.mp hlocate
  -- a path below the root that leads there goes through the directory at the root, and there the id would be taken
  rcases names with _ | ⟨name, rest⟩
  · rw [Path.join, List.append_nil] at hplace
    have hlength := congrArg List.length hplace
    simp [Slot.location, Slot.names, location] at hlength
  obtain ⟨here, hroot, hdir⟩ := Tree.directory_of_locateFrom hfrom
  have hnul : ¬((Slot.snapshot id).path s).HasNul := fun hnul => by
    obtain ⟨part, hpart, hmem⟩ := hid.hasNul hnul
    exact Workspace.not_hasNul_of_locate hlocate ⟨part, List.mem_append_left (name :: rest) hpart, hmem⟩
  have hsame : w.locate ((Slot.snapshot id).path s) = .ok (here ++ [documentName id]) :=
    (Workspace.locate_join_cases hroot hdir (documentName_ne id).1 hnul).resolve_right hshort
  have hhere : here ++ [documentName id] = (Slot.snapshot id).location s := Slot.eq_location hsame
  refine hfree ⟨.file bytes, Workspace.node_eq_ok.mpr ⟨_, hsame, ?_⟩⟩
  rw [hhere, ← hplace, hfound]

/-- What only adds the document of an id that was not taken disturbs no file of the store. -/
theorem undisturbed_of_adds (hid : IsDrawn w.clock id) (hfree : ¬s.Taken w id) (h : w.Adds (s.room w id) v) :
    s.Undisturbed w v := by
  intro names bytes hfile
  obtain ⟨loc, hlocate, hfound⟩ := Workspace.node_eq_ok.mp hfile
  have hplace := Tree.locate_eq_resolve hlocate
  have htakes := h.takes loc
  rw [hfound] at htakes
  rcases htakes.file (hplace ▸ not_written_of_free hid hfree hfile) with hkept | ⟨hgrows, more, hmore⟩
  · exact Or.inl (Workspace.node_eq_ok.mpr ⟨loc, h.locate hlocate, hkept⟩)
  · exact Or.inr ⟨hplace ▸ hgrows, more, Workspace.node_eq_ok.mpr ⟨loc, h.locate hlocate, hmore⟩⟩

/-- Recording summaries adds the document of the first free id and disturbs no file of the store. -/
theorem FirstFree.create (hk : s.FirstFree w k) (h : s.Supply w) (files : List FileSummary) (branch commit : String)
    (environment : Option Provenance) : (s.create files branch commit environment).Ends w
      (fun x v => x.id = idAt w k ∧ v.node ((Slot.snapshot (idAt w k)).path s) = .ok (.file x.text.toUTF8) ∧
        s.Undisturbed w v)
      fun _ v => s.Undisturbed w v := by
  have hstart : w.Adds (s.room w (idAt w k)) w := .refl fun f hf => ⟨⟨f, hf, rfl⟩, h.log f hf⟩
  have hdraw : ∀ u, w.Notes u → (s.freeId (idsToTry u)).Ends u
      (fun id _ => id = idAt w k ∧ w.locate ((Slot.snapshot (idAt w k)).path s) ≠ .error .nameTooLong) fun _ _ => True := by
    intro u hu
    obtain ⟨r, -, hexec, ⟨rfl, hshort⟩ | ⟨rfl, -⟩⟩ := hk.draws h hu
    · exact .of_ok hexec ⟨rfl, hshort⟩
    · exact .of_error hexec trivial
  refine (create_adds hstart hdraw ?_ (fun _ hloc => hloc) ?_).mono ?_ fun _ _ hv =>
    undisturbed_of_adds (h.isDrawn k) hk.free hv
  · rintro _ ⟨rfl, hshort⟩
    exact ⟨rfl, hshort⟩
  · rintro _ ⟨rfl, -⟩ hnul
    exact absurd hnul (h.isDrawn k).not_mem_nul
  · rintro x v ⟨⟨hid, -⟩, hv, hplaced⟩
    exact ⟨hid, hid ▸ hplaced.file, undisturbed_of_adds (h.isDrawn k) hk.free hv⟩

/-! ### That a snapshot is created -/

/-- Nothing is in the way of the document of an id: the tree is as a disk holds it, the file system refuses no step and not
the name, and the directories of the store are there or can be made. -/
structure Accessible (s : Store) (w : Workspace) (id : String) : Prop where
  proper : w.tree.Proper
  willing : w.refusal = none
  plain : ".." ∉ s.root.parts
  directories : (w.makeDirectories s.root).2 = none
  name : ¬w.Refuses ((Slot.snapshot id).path s)

/-- Summaries whose snapshot passes its check and can be written. -/
def Creatable (files : List FileSummary) (environment : Option Provenance) (clock : ℤ) : Prop :=
  ∃ metrics, Metrics.ofSummaries files = .ok metrics ∧ ∀ x : Snapshot, x.files = files → x.metrics = metrics →
    x.timestamp = clock → x.environment = environment.getD runtime → x.check = .ok x ∧ x.toValue.isWritable = true

theorem not_hasNul_of_makeDirectories {p : Path} (hdots : ".." ∉ p.parts) (h : (w.makeDirectories p).2 = none) : ¬p.HasNul := by
  rcases hr : w.tree.makeDirectories w.limits p with ⟨t, o⟩
  obtain rfl : o = none := by simpa [Workspace.makeDirectories, hr] using h
  exact Workspace.not_hasNul_of_locate (w := { w with tree := t }) (Tree.locate_of_makeDirectories hdots hr).1

theorem Accessible.not_hasNul (h : s.Accessible w id) (hid : IsDrawn w.clock id) : ¬((Slot.snapshot id).path s).HasNul :=
  fun hnul => not_hasNul_of_makeDirectories h.plain h.directories (hid.hasNul hnul)

theorem Accessible.no_directory (h : s.Accessible w id) (hid : IsDrawn w.clock id) (hfree : ¬s.Taken w id) :
    w.tree.find? (s.root.parts ++ [documentName id]) ≠ some .directory := by
  intro hdir
  have habove := h.proper.directory_above (List.cons_ne_nil _ _) hdir
  rcases @Tree.Proper.locateFrom_cases _ w.limits h.proper _ [] _ habove h.plain with hroot | hlong
  · have hlocate := Workspace.locate_join hroot habove (documentName_ne id).1 h.name (h.not_hasNul hid)
    exact hfree ⟨.directory, Workspace.node_eq_ok.mpr ⟨_, hlocate, hdir⟩⟩
  · obtain ⟨l, hl, name, hname, hlt⟩ := Workspace.refuses_of_locateFrom hlong
    exact h.name ⟨l, hl, Or.inr ⟨name, List.mem_append_left _ hname, hlt⟩⟩

theorem Accessible.admits (h : s.Accessible w id) (hid : IsDrawn w.clock id) (hfree : ¬s.Taken w id) (hlog : w.HasLog)
    (hu : w.Notes u) (source : Source) : s.Admits (.snapshot id) { u with source } := by
  have hshape := hu.sameShape hlog
  have hlimits : u.limits = w.limits := (hu.adds_notes hlog).limits
  refine ⟨hu.refusal.trans h.willing, h.plain, ?_, ?_, fun hdir => h.no_directory hid hfree (hshape.directory_iff.mpr ?_)⟩
  · rw [Slot.parent_snapshot, ← h.directories]
    simp only [Workspace.makeDirectories, hlimits, (hshape.makeDirectories s.root).2]
  · rw [Workspace.Refuses, hlimits]
    exact h.name
  · rw [← hdir, Slot.location, Store.location, Tree.resolve_of_no_dots h.plain, List.nil_append, Slot.names]

/-- The document of a snapshot whose id was drawn can be handed to the file system. -/
theorem Accessible.submits {x : Snapshot} (h : s.Accessible w id) (hid : IsDrawn w.clock id) (hx : x.id = id)
    (hwritable : x.toValue.isWritable = true) : s.Submits (.snapshot id) x :=
  ⟨⟨hx, hid.isId⟩, hwritable, h.not_hasNul hid⟩

variable {files : List FileSummary} {environment : Option Provenance}

theorem warned_notes (w : Workspace) (files : List FileSummary) : w.Notes (warned w files) :=
  warned_of_note (Workspace.notes_frame.refl w) (Workspace.notes_note w)

/-- A snapshot is created under an id that is drawn and not taken, if nothing is in its way, also after notes were taken. -/
theorem create_ok (h : Creatable files environment w.clock) (haccess : s.Accessible w id) (hdrawn : IsDrawn w.clock id)
    (hfree : ¬s.Taken w id) (hlog : w.HasLog) (hu : w.Notes u) {source : Source}
    (hdraw : (s.freeId (idsToTry (warned u files))).exec (warned u files) = (.ok id, { warned u files with source }))
    (branch commit : String) : ∃ x v, (s.create files branch commit environment).exec u = (.ok x, v) := by
  obtain ⟨metrics, hmetrics, hcreatable⟩ := h
  have hnotes : w.Notes (warned u files) := Workspace.notes_frame.trans hu (warned_notes u files)
  have hclock : (warned u files).clock = w.clock := hnotes.clock
  obtain ⟨x, hx, hid⟩ : ∃ x : Snapshot,
      x = ⟨id, w.clock, branch, commit, metrics, files, environment.getD runtime⟩ ∧ x.id = id := ⟨_, rfl, rfl⟩
  obtain ⟨hcheck, hwritable⟩ := hcreatable x (by rw [hx]) (by rw [hx]) (by rw [hx]) (by rw [hx])
  have hdraft : (s.draft files branch commit environment).exec u = (.ok x, { warned u files with source }) := by
    rw [exec_draft hmetrics, hdraw]
    simp only [hclock, ← hx, hcheck, Except.mapError]
  obtain ⟨v, hv⟩ := (haccess.admits hdrawn hfree hlog hnotes source).writeDocument_ok (haccess.submits hdrawn hid hwritable)
  have hpath : s.snapshotPath x.id = .ok ((Slot.snapshot id).path s) := by
    rw [hid, snapshotPath_eq_ok hdrawn.isId]
  have hsave : (s.save x).exec { warned u files with source } =
      (.ok (), v.note ⟨.store, .debug, "Saved snapshot " ++ x.id⟩) := by
    rw [save, Action.exec_bind_ok (Action.exec_lift_ok hpath), Action.exec_bind_ok hv, Action.exec_note]
  rw [exec_create, Action.exec_bind_ok hdraft, keep, Action.exec_bind_ok hsave, Action.exec_bind_ok (Action.exec_note ..)]
  exact ⟨x, _, rfl⟩

theorem FirstFree.creates (hk : s.FirstFree w k) (h : s.Supply w) (haccess : s.Accessible w (idAt w k))
    (hcreatable : Creatable files environment w.clock) (branch commit : String) :
    ∃ x v, (s.create files branch commit environment).exec w = (.ok x, v) := by
  obtain ⟨r, -, hexec, ⟨rfl, -⟩ | ⟨-, hlong⟩⟩ := hk.draws h (warned_notes w files)
  · exact create_ok hcreatable haccess (h.isDrawn k) hk.free h.log (Workspace.notes_frame.refl w) hexec branch commit
  · exact absurd (Workspace.refuses_of_locate hlong) haccess.name

/-- A new snapshot takes the first id that no document has.  The loop draws at most one id more than the root of the store has
entries, and the bound on it makes no difference; it comes to that id unless the file system refuses its name.  When the
snapshot is created, its document stands under that id, and whatever happens every file of the store is as it was, but for
notes in a log file.  And it is created, if nothing is in its way and its summaries can be recorded. -/
theorem create_takes_first_free (h : s.Supply w) (files : List FileSummary) (branch commit : String)
    (environment : Option Provenance) : ∃ k, s.FirstFree w k ∧
      (∃ r u, s.Draws (warned w files) (k + 1) r u ∧
        (s.freeId (idsToTry (warned w files))).exec (warned w files) = (r, u) ∧
        (r = .ok (idAt w k) ∨ r = .error .system ∧ w.Refuses ((Slot.snapshot (idAt w k)).path s))) ∧
      (s.create files branch commit environment).Ends w
        (fun x v => x.id = idAt w k ∧ v.node ((Slot.snapshot (idAt w k)).path s) = .ok (.file x.text.toUTF8) ∧
          s.Undisturbed w v)
        (fun _ v => s.Undisturbed w v) ∧
      (s.Accessible w (idAt w k) → Creatable files environment w.clock →
        ∃ x v, (s.create files branch commit environment).exec w = (.ok x, v)) := by
  obtain ⟨k, hk⟩ := h.firstFree
  obtain ⟨r, hdraws, hexec, hr⟩ := hk.draws h (warned_notes w files)
  refine ⟨k, hk, ⟨r, _, hdraws, hexec, ?_⟩, hk.create h files branch commit environment, fun haccess hcreatable =>
    hk.creates h haccess hcreatable branch commit⟩
  rcases hr with ⟨rfl, -⟩ | ⟨rfl, hlong⟩
  · exact Or.inl rfl
  · exact Or.inr ⟨rfl, Workspace.refuses_of_locate hlong⟩

/-- A store whose only file is named like the document of the id that is drawn first. -/
def crowded : Workspace :=
  { blank with
    tree := ⟨[(["s"], .directory), (["s", "snapshot-0-aaaaaaaaa.json"], .file "kept".toUTF8)]⟩
    source := ⟨"aaaaaaaaa".toList, 0⟩ }

theorem crowded_ids : idAt crowded 0 = "snapshot-0-aaaaaaaaa" ∧ idAt crowded 1 = "snapshot-0-000000000" := by
  decide +kernel

theorem crowded_size : beside.size crowded = 1 := by
  decide +kernel

theorem crowded_supply : beside.Supply crowded := by
  refine ⟨fun c hc => ?_, fun i j hij hj => ?_, nofun⟩
  · obtain rfl : c = 'a' := by simpa [crowded] using hc
    exact ⟨10, by decide, rfl⟩
  · rw [crowded_size] at hj
    obtain ⟨rfl, rfl⟩ : i = 0 ∧ j = 1 := by omega
    rw [crowded_ids.1, crowded_ids.2]
    decide

theorem crowded_firstFree (h : beside.FirstFree crowded k) : k = 1 := by
  have hbound := h.bound
  rw [crowded_size] at hbound
  rcases Nat.le_one_iff_eq_zero_or_eq_one.mp hbound with rfl | rfl
  · exact absurd ⟨.file "kept".toUTF8, by decide +kernel⟩ h.free
  · rfl

theorem crowded_accessible : beside.Accessible crowded (idAt crowded 1) := by
  refine ⟨?_, rfl, by decide +kernel, by decide +kernel, ?_⟩
  · constructor <;> simp [crowded, Tree.find?, Tree.findIn]
  · rw [crowded_ids.2]
    rintro ⟨limits, hlimits, hlong⟩
    obtain rfl := Option.some.inj hlimits
    revert hlong
    decide +kernel

theorem create_takes_first_free_crowded : beside.size crowded = 1 ∧ idAt crowded 0 = "snapshot-0-aaaaaaaaa" ∧
    ∃ x v, (beside.create [] "main" "c" none).exec crowded = (.ok x, v) ∧ x.id = "snapshot-0-000000000" ∧
      beside.Undisturbed crowded v := by
  obtain ⟨k, hk, -, hends, hcreated⟩ := create_takes_first_free crowded_supply [] "main" "c" none
  obtain rfl := crowded_firstFree hk
  have hcreatable : Creatable [] none crowded.clock := by
    refine ⟨plain.metrics, rfl, fun x hfiles hmetrics htime henvironment => ⟨?_, ?_⟩⟩
    · rw [Snapshot.check_eq_ok, hfiles, hmetrics]
      exact ⟨rfl, rfl, List.forall_mem_nil _, List.Pairwise.nil⟩
    · rw [Snapshot.isWritable_toValue, hfiles, hmetrics, htime, henvironment]
      decide +kernel
  obtain ⟨x, v, hexec⟩ := hcreated crowded_accessible hcreatable
  obtain ⟨hid, -, hkept⟩ := hends.ok hexec
  exact ⟨crowded_size, crowded_ids.1, x, v, hexec, hid.trans crowded_ids.2, hkept⟩

end Store

end ScoreGate
