import ScoreGate.Proofs.Adding
import ScoreGate.Proofs.Documents
import ScoreGate.Proofs.Retention

/-!
# What a check adds

A check leaves the files that were there, except that the log file and the file of the build service may go on at their
ends.  The files that it makes are the document of its snapshot and two files beside it, all under one new id.  So a
listing afterwards is the listing before with the new snapshot in its place.

* `mergeSort_insert`: one item more in a sorted list.
* `Store.list_inserts`: one document more in a listing.
* `Check.Begins`, `Check.room`: what a check starts from, and where it adds something.
* `Check.run_adds`: what a check adds, however it ends.
-/

namespace ScoreGate

/-! ### Sorting -/

/-- An item stands in the sorted list before all that may stand after it. -/
theorem mergeSort_cons_eq {α : Type} {le : α → α → Bool}
    (htrans : ∀ a b c : α, le a b = true → le b c = true → le a c = true)
    (htotal : ∀ a b : α, (le a b || le b a) = true) (a : α) (l : List α) : (a :: l).mergeSort le =
      ((l.mergeSort le).filter fun b => !le a b) ++ a :: (l.mergeSort le).filter (le a) := by
  obtain ⟨before, after, hsorted, hothers, hbefore⟩ := List.mergeSort_cons htrans htotal a l
  have hpairs := List.pairwise_mergeSort htrans htotal (a :: l)
  rw [hsorted, List.pairwise_append, List.pairwise_cons] at hpairs
  obtain ⟨-, ⟨hafter, -⟩, -⟩ := hpairs
  have hfirst : before.filter (le a) = [] := List.filter_eq_nil_iff.mpr fun b hb => by simpa using hbefore b hb
  have hsecond : (after.filter fun b => !le a b) = [] := List.filter_eq_nil_iff.mpr fun b hb => by simp [hafter b hb]
  rw [hsorted, hothers, List.filter_append, List.filter_append, hfirst, hsecond, List.append_nil, List.nil_append,
    List.filter_eq_self.mpr hbefore, List.filter_eq_self.mpr hafter]

theorem mergeSort_insert {α : Type} {le : α → α → Bool} (htrans : ∀ a b c : α, le a b = true → le b c = true → le a c = true)
    (htotal : ∀ a b : α, (le a b || le b a) = true) (x : α) (after : List α) : ∀ before : List α, ∃ front back,
      (before ++ after).mergeSort le = front ++ back ∧ (before ++ x :: after).mergeSort le = front ++ x :: back
  | [] => by
    obtain ⟨front, back, hsorted, hothers, -⟩ := List.mergeSort_cons htrans htotal x after
    exact ⟨front, back, hothers, hsorted⟩
  | a :: before => by
    obtain ⟨front, back, hwithout, hwith⟩ := mergeSort_insert htrans htotal x after before
    rw [List.cons_append, List.cons_append, mergeSort_cons_eq htrans htotal, mergeSort_cons_eq htrans htotal, hwithout,
      hwith]
    simp only [List.filter_append, List.filter_cons]
    rcases hx : le a x with _ | _
    · refine ⟨front.filter fun b => !le a b,
        (back.filter fun b => !le a b) ++ a :: (front.filter (le a) ++ back.filter (le a)), ?_, ?_⟩ <;> simp
    · refine ⟨(front.filter fun b => !le a b) ++ (back.filter fun b => !le a b) ++ a :: front.filter (le a),
        back.filter (le a), ?_, ?_⟩ <;> simp

namespace Store

variable {room : Room} {s : Store} {u v w : Workspace} {name : String} {x : Snapshot} {xs : List Snapshot}

/-! ### One document more -/

theorem listedNames_insert (hw : w.tree.Unique) (hv : v.tree.Unique) (hnew : name ∉ s.listedNames w)
    (h : ∀ n, n ∈ s.listedNames v ↔ n ∈ s.listedNames w ∨ n = name) : ∃ before after,
      s.listedNames w = before ++ after ∧ s.listedNames v = before ++ name :: after := by
  obtain ⟨before, after, hsplit⟩ := List.append_of_mem ((h name).mpr (Or.inr rfl))
  refine ⟨before, after, ?_, hsplit⟩
  have hpairs := pairwise_listedNames (s := s) hv
  rw [hsplit] at hpairs
  have hrest : (before ++ after).Pairwise (· < ·) := hpairs.sublist ((List.sublist_cons_self _ _).append_left _)
  have hnot : name ∉ before ++ after := by
    have hnodup : (before ++ name :: after).Nodup := hpairs.imp ne_of_lt
    exact (List.nodup_middle.mp hnodup).notMem
  -- both lists are strictly sorted, so having the same members makes them equal
  refine List.Perm.eq_of_pairwise (fun a b _ _ hab hba => absurd hab hba.asymm) (pairwise_listedNames hw) hrest ?_
  refine (List.perm_ext_iff_of_nodup ((pairwise_listedNames hw).imp ne_of_lt) (hrest.imp ne_of_lt)).mpr fun n => ?_
  have hn := h n
  rw [hsplit] at hn
  simp only [List.mem_append, List.mem_cons] at hn hnot ⊢
  constructor
  · intro hmem
    have hne : n ≠ name := by
      rintro rfl
      exact hnew hmem
    simpa [hne] using hn.mpr (Or.inl hmem)
  · intro hmem
    have hne : n ≠ name := by
      rintro rfl
      exact hnot hmem
    simpa [hne] using hn.mp (hmem.imp_right Or.inr)

/-- A listing goes on after a document that answers as one after which it goes on. -/
theorem GoesOn.of_answer (h : s.GoesOn w name) (hanswer : s.answerOf v name = s.answerOf w name) : s.GoesOn v name := by
  refine goesOn_of_answer hanswer fun e he => ?_
  have hreads := reads_answer w (s.root.child name)
  rw [← answerOf, he] at hreads
  cases hreads with
  | malformed => simp
  | directory => simp
  | escaped why => exact absurd why (h e)

/-- One document more is one snapshot more in what can be read. -/
theorem readable_insert
    (hnames : ∃ before after, s.listedNames w = before ++ after ∧ s.listedNames v = before ++ name :: after)
    (hsame : ∀ n ∈ s.listedNames w, s.answerOf v n = s.answerOf w n) (hanswer : s.answerOf v name = .ok (some x)) :
    ∃ before after, s.readable w = before ++ after ∧ s.readable v = before ++ x :: after := by
  obtain ⟨before, after, hw, hv⟩ := hnames
  have hfound : ∀ names : List String, (∀ n ∈ names, n ∈ s.listedNames w) →
      (names.filterMap fun n => found? (s.answerOf v n)) = names.filterMap fun n => found? (s.answerOf w n) :=
    fun names h => List.filterMap_congr fun n hn => congrArg found? (hsame n (h n hn))
  have hx : found? (s.answerOf v name) = some x := by
    rw [hanswer]
    rfl
  rw [readable, readable, hw, hv, List.filterMap_append, List.filterMap_append, List.filterMap_cons, hx,
    hfound before fun n hn => hw ▸ List.mem_append_left _ hn, hfound after fun n hn => hw ▸ List.mem_append_right _ hn]
  exact mergeSort_insert latest_trans latest_total x _ _

theorem list_eq_readable (hlog : s.LogBeside w) (hroot : w.node s.root = .ok .directory)
    (h : s.list.exec w = (.ok xs, u)) : xs = s.readable w ∧ ∀ n ∈ s.listedNames w, s.GoesOn w n := by
  rcases s.goesOn_or_stops (w := w) (s.listedNames w) with hgoes | ⟨before, n, after, e, hnames, hgoes, hstop⟩
  · obtain ⟨v, hexec, -, -⟩ := list_ok hlog hroot hgoes
    rw [h, Prod.mk.injEq, Except.ok.injEq] at hexec
    exact ⟨hexec.1, hgoes⟩
  · obtain ⟨v, hexec, -, -⟩ := list_stops hlog hroot hnames hgoes hstop
    rw [h] at hexec
    cases hexec

/-- Where a directory has been, a path to something in it leads to the same as long as that is the same. -/
theorem node_child (h : w.Adds room v) (hroot : w.node s.root = .ok .directory) (hname : name ≠ "..")
    (hfind : v.tree.find? (s.location ++ [name]) = w.tree.find? (s.location ++ [name])) :
    v.node (s.root.child name) = w.node (s.root.child name) := by
  obtain ⟨loc, hlocate, hdir⟩ := Workspace.node_eq_ok.mp hroot
  obtain rfl : loc = s.location := Tree.locate_eq_resolve hlocate
  have hsame : v.locate (s.root.child name) = w.locate (s.root.child name) := by
    obtain ⟨-, hfrom⟩ := Tree.locate_eq_ok.mp hlocate
    obtain ⟨-, hfrom'⟩ := Tree.locate_eq_ok.mp (h.locate hlocate)
    rw [Workspace.locate, Workspace.locate, Tree.locate, Tree.locate, Path.child, Tree.locateFrom_append,
      Tree.locateFrom_append,
      hfrom, hfrom', h.limits]
    simp only [Except.bind, Tree.locateFrom, hdir, h.directory hdir]
  rw [Workspace.node, Workspace.node, hsame]
  rcases hchild : w.locate (s.root.child name) with o | loc
  · rfl
  · obtain rfl : loc = s.location ++ [name] :=
      (Tree.locate_eq_resolve hchild).trans (Tree.resolve_concat hname [] s.root.parts)
    rw [ok_bind, ok_bind, hfind]

/-- A document answers the same where its path leads to the same. -/
theorem answerOf_congr (hdepth : v.depth = w.depth) (hnode : v.node (s.root.child name) = w.node (s.root.child name)) :
    s.answerOf v name = s.answerOf w name := by
  rw [answerOf, answerOf, answer, answer, exec_readDocument, exec_readDocument, hdepth, hnode]

theorem IsDrawn.begins {clock : ℤ} {id : String} (h : IsDrawn clock id) : "snapshot-".toList <+: id.toList := by
  obtain ⟨cs, -, rfl⟩ := h
  simp only [drawnId, String.toList_append, List.append_assoc]
  exact List.prefix_append _ _

end Store

/-! ### Where a check adds something -/

/-- The files that may go on at their ends: the log file, and the file that the build service reads. -/
def Workspace.Open (w : Workspace) (loc : Location) : Prop :=
  (∃ f, w.log = some f ∧ loc = f.location) ∨
    ∃ target, w.valueOf? Check.outputVariable = some target ∧ loc = Tree.resolve [] (Path.ofText target).parts

namespace Check

variable {c : Check} {u v w : Workspace} {names : List String} {id : String} {x : Snapshot}

/-- The names of the files beside the document of a snapshot. -/
def companions (id : String) : List String := ["report-" ++ id ++ ".json", "comment-" ++ id ++ ".md"]

theorem mem_companions {name : String} :
    name ∈ companions id ↔ name = "report-" ++ id ++ ".json" ∨ name = "comment-" ++ id ++ ".md" := by
  simp [companions]

/-- The names of the files that a run makes under an id. -/
def outputNames (id : String) : List String := Store.documentName id :: companions id

/-- Room for notes, for what the build service is told, and for files of some names in the store. -/
def room (c : Check) (w : Workspace) (names : List String) : Room :=
  ⟨w.Open, fun loc => ∃ name ∈ names, loc = c.store.location ++ [name], c.store.root.Passes⟩

/-- What a run starts from: a tree as a disk holds it, a log file and a file of the build service that do not lie in the
directory of the store, and an id that was never used. -/
structure Begins (c : Check) (w : Workspace) : Prop where
  proper : w.tree.Proper
  unique : w.tree.Unique
  digits : w.DrawsDigits
  log : w.HasLog
  outside : ∀ loc, w.Open loc → ∀ name, loc ≠ c.store.location ++ [name]
  unused : ∀ name ∈ outputNames (Store.nextId w), w.tree.find? (c.store.location ++ [name]) = none

theorem Begins.logsTo (h : c.Begins w) : w.LogsTo (c.room w names).grows := fun f hf => ⟨Or.inl ⟨f, hf, rfl⟩, h.log f hf⟩

theorem Begins.isDrawn (h : c.Begins w) : Store.IsDrawn w.clock (Store.nextId w) := by
  obtain ⟨-, hdrawn, -⟩ := @Source.draw_all (fun c => ∃ n < 36, c = digit36 n) (fun n hn => ⟨n, hn, rfl⟩)
    suffixLength w.source h.digits
  exact ⟨_, hdrawn, rfl⟩

theorem room_mono {more : List String} (h : u.Adds (c.room w names) v) (hsub : ∀ name ∈ names, name ∈ more) :
    u.Adds (c.room w more) v :=
  h.mono (fun _ hloc => hloc) (fun _ ⟨name, hname, hloc⟩ => ⟨name, hsub name hname, hloc⟩) fun _ hloc => hloc

theorem Begins.not_grows (h : c.Begins w) (name : String) : ¬(c.room w names).grows (c.store.location ++ [name]) :=
  fun hopen => h.outside _ hopen name rfl

theorem not_written {name : String} (h : name ∉ names) : ¬(c.room w names).written (c.store.location ++ [name]) := by
  rintro ⟨other, hother, hloc⟩
  obtain rfl := List.singleton_inj.mp (List.append_cancel_left hloc)
  exact h hother

theorem documentName_not_companion (id other : String) (hid : "snapshot-".toList <+: id.toList) :
    Store.documentName id ∉ companions other := by
  obtain ⟨rest, hrest⟩ := hid
  intro hmem
  rcases mem_companions.mp hmem with heq | heq
  all_goals
    have hhead := congrArg (fun name => name.toList.head?) heq
    simp [Store.documentName, ← hrest] at hhead

/-! ### The parts of a run -/

/-- After notes were taken nothing stands where the document of the new id belongs. -/
theorem Begins.free (h : c.Begins w) (hu : w.Notes u) :
    u.tree.find? (c.store.location ++ [Store.documentName (Store.nextId w)]) = none :=
  (((hu.adds_notes h.log).takes _).eq (fun ⟨f, hf, hloc⟩ => h.outside _ (Or.inl ⟨f, hf, rfl⟩) _ hloc.symm)
    (fun hno => hno) fun _ hno => hno).trans (h.unused _ (List.mem_cons_self ..))

/-- The first id that is drawn is taken. -/
theorem Begins.freeId (h : c.Begins w) (hu : w.Notes u) : (c.store.freeId (Store.idsToTry u)).Ends u
    (fun id _ => id = Store.nextId w) fun _ _ => True := by
  have hid : Store.nextId u = Store.nextId w := by rw [Store.nextId, Store.nextId, hu.clock, hu.source]
  rw [← hid]
  exact Store.freeId_next (hid ▸ h.isDrawn.isId) (hid ▸ h.free hu) _

/-- A snapshot of a run: it has the new id, it passes its check, and its text reads back. -/
structure Makes (w : Workspace) (x : Snapshot) : Prop where
  id_eq : x.id = Store.nextId w
  check : x.check = .ok x
  readable : ∀ depth, 4 ≤ depth → Store.Readable depth x

theorem create_adds (h : c.Begins w) (hu : w.Notes u) (as : List FileAnalysis) (branch commit : String) :
    (c.store.create (as.map FileAnalysis.summary) branch commit none).Ends u (fun x v => Makes w x ∧
      w.Adds (c.room w [Store.documentName (Store.nextId w)]) v ∧ c.store.Places (.snapshot x.id) x v)
      fun _ v => w.Adds (c.room w [Store.documentName (Store.nextId w)]) v := by
  have hstart : w.Adds (c.room w [Store.documentName (Store.nextId w)]) u := hu.adds h.logsTo
  have hadds : (c.store.create (as.map FileAnalysis.summary) branch commit none).Ends u (fun x v => x.id = Store.nextId w ∧
      w.Adds (c.room w [Store.documentName (Store.nextId w)]) v ∧ c.store.Places (.snapshot x.id) x v)
      fun _ v => w.Adds (c.room w [Store.documentName (Store.nextId w)]) v := by
    refine Store.create_adds hstart (fun t ht => h.freeId (Workspace.notes_frame.trans hu ht)) ?_ (fun _ hloc => hloc) ?_
    · rintro _ rfl
      exact ⟨_, List.mem_singleton_self _, rfl⟩
    · rintro _ rfl hnul
      exact absurd hnul h.isDrawn.not_mem_nul
  refine ⟨fun hx => ?_, fun he => hadds.error he⟩
  obtain ⟨hid, hv, hplaced⟩ := hadds.ok hx
  exact ⟨⟨hid, (Store.create_records hx).1.check, fun _ hdepth => Store.readable_created hx hdepth⟩, hv, hplaced⟩

theorem writeOutput_adds (hnames : ∀ name ∈ companions id, name ∈ names) (h : u.Adds (c.room w names) v) (r : Report)
    (format : Value) : (c.writeOutput r id format).Ends v (fun _ t => u.Adds (c.room w names) t)
      fun _ t => u.Adds (c.room w names) t := by
  refine ends_writeOutput (fun _ _ => h) h (fun _ _ _ _ _ => h) fun name content hname hdir _ e => ?_
  have hwritten : (c.room w names).written (c.store.location ++ [name]) :=
    ⟨name, hnames name (mem_companions.mpr (outputFile_name hname)), rfl⟩
  exact (h.put hdir (.written hwritten hdir content.toUTF8) fun _ hf => hf).note e

theorem tellService_adds (henv : u.environment = w.environment) (h : u.Adds (c.room w names) v) (r : Report) :
    (tellService r).Ends v (fun _ t => u.Adds (c.room w names) t) fun _ t => u.Adds (c.room w names) t := by
  refine ends_tellService h (fun _ _ _ _ _ _ => h) fun target loc more hservice hloc hdir => ?_
  have hopen : w.Open loc := by
    refine Or.inr ⟨target, ?_, hloc⟩
    rw [← hservice, Workspace.valueOf?, Workspace.valueOf?, h.environment, henv]
  exact h.extend hopen hdir more fun _ hf => hf

/-- What comes after the record makes the two files beside it and tells the build service. -/
theorem judgeAnalyses_adds (h : c.Begins w) (hu : w.Notes u) (branch commit : String) (as : List FileAnalysis) :
    (c.judgeAnalyses branch commit as).Ends u
      (fun o v => w.Adds (c.room w (outputNames (Store.nextId w))) v ∧ ∃ x, o.snapshot = some x ∧ Makes w x ∧
        c.store.Places (.snapshot x.id) x v)
      fun _ v => w.Adds (c.room w (outputNames (Store.nextId w))) v := by
  rw [judgeAnalyses]
  refine .bind ((create_adds h hu _ branch commit).mono (fun _ _ hx => hx) fun _ _ he =>
    room_mono he fun _ hname => List.mem_singleton.mp hname ▸ List.mem_cons_self ..) ?_
  rintro x u₁ ⟨hmakes, hadds, hplaced⟩
  -- what may still happen leaves the document of the snapshot alone
  have hwhole : ∀ {v}, u₁.Adds (c.room w (companions (Store.nextId w))) v →
      w.Adds (c.room w (outputNames (Store.nextId w))) v :=
    fun hv => (room_mono hadds fun _ hname => List.mem_singleton.mp hname ▸ List.mem_cons_self ..).trans
      (room_mono hv fun _ hname => List.mem_cons_of_mem _ hname)
  have hstart : u₁.Adds (c.room w (companions (Store.nextId w))) u₁ := .refl hadds.log
  refine .bind (.lift_fault (P := fun _ v => u₁.Adds (c.room w (companions (Store.nextId w))) v)
    (fun _ _ => hstart) fun _ _ => hwhole hstart) fun baseline v hv => ?_
  refine .bind (P := fun _ v => u₁.Adds (c.room w (companions (Store.nextId w))) v)
    ((Action.Ends.of_preserves (Store.preserves_report x baseline c.settings.limits) v).mono
      (fun _ _ hnotes => hv.trans (hnotes.adds hv.log)) fun _ _ hnotes => hwhole (hv.trans (hnotes.adds hv.log)))
    fun r v hv => ?_
  refine .bind (P := fun _ v => u₁.Adds (c.room w (companions (Store.nextId w))) v)
    (.lift_fault (fun _ _ => hv) fun _ _ => hwhole hv) fun formats v hv => ?_
  refine .bind (Action.Ends.filterMapM_keeps (fun format _ v hv => ?_) hv) fun written v hv => ?_
  · rw [hmakes.id_eq]
    exact (writeOutput_adds (fun _ hname => hname) hv r format).mono (fun _ _ hv => hv) fun _ _ hv => hwhole hv
  refine .bind ((tellService_adds hadds.environment hv r).mono (fun _ _ hv => hv) fun _ _ hv => hwhole hv) fun _ v hv => ?_
  refine .pure ⟨hwhole hv, x, rfl, hmakes, hplaced.of_adds hv (h.not_grows _) (not_written ?_)⟩
  rw [hmakes.id_eq]
  exact documentName_not_companion _ _ h.isDrawn.begins

/-! ### A run -/

/-- However a run ends, it has only added something; a snapshot that it gives stands in its document. -/
theorem run_gains (h : c.Begins w) : c.run.Ends w
    (fun o v => w.Adds (c.room w (outputNames (Store.nextId w))) v ∧ ∀ x, o.snapshot = some x → Makes w x ∧
      c.store.Places (.snapshot x.id) x v)
    fun _ v => w.Adds (c.room w (outputNames (Store.nextId w))) v := by
  rw [run_eq]
  refine .bind ((Action.Ends.of_preserves c.preserves_observe w).mono (fun _ _ hu => hu) fun _ _ hu => hu.adds h.logsTo) ?_
  rintro ⟨branch, commit, as⟩ u hu
  simp only
  split_ifs
  · exact .bind_ok (Action.exec_note ..) (.pure ⟨(hu.adds h.logsTo).note _, by simp⟩)
  · refine (judgeAnalyses_adds h hu branch commit as).mono ?_ fun _ _ hv => hv
    rintro o v ⟨hv, x, hx, hsaved⟩
    refine ⟨hv, fun y hy => ?_⟩
    rw [hx, Option.some.injEq] at hy
    exact hy ▸ hsaved

theorem run_nothing (h : ∀ seen u, c.observe.exec w = (.ok seen, u) → seen.2.2 = []) : w.Notes (c.run.exec w).2 := by
  have hnotes := c.preserves_observe w
  rw [run_eq, Action.exec_bind]
  rcases hobserve : c.observe.exec w with ⟨e | seen, u⟩
  · rwa [hobserve] at hnotes
  · rw [hobserve] at hnotes
    have hnil := h seen u hobserve
    obtain ⟨branch, commit, as⟩ := seen
    simp only at hnil
    rw [hnil]
    exact Workspace.notes_frame.trans hnotes (Workspace.notes_note u _)

/-! ### What is listed -/

theorem companion_not_listed {name : String} (h : name ∈ companions id) : Store.isSnapshotName name = false :=
  outputName_not_listed (mem_companions.mp h)

theorem Begins.isSnapshotName (h : c.Begins w) : Store.isSnapshotName (Store.documentName (Store.nextId w)) = true := by
  refine Store.isSnapshotName_documentName.mpr fun b hb hprefix => ?_
  obtain ⟨rest, hrest⟩ := h.isDrawn.begins
  obtain ⟨rest', hrest'⟩ := hprefix
  have hhead := congrArg List.head? (hrest'.trans hrest.symm)
  simp only [Store.foreignBeginnings, List.mem_cons, List.not_mem_nil, or_false] at hb
  rcases hb with rfl | rfl | rfl <;> simp at hhead

theorem directory_of_passes {p : Path} {loc : Location} (h : w.node p = .ok .directory) (hloc : p.Passes loc) :
    w.tree.find? loc = some .directory := by
  obtain ⟨n, rfl⟩ := hloc
  obtain ⟨loc, hlocate, hdir⟩ := Workspace.node_eq_ok.mp h
  obtain ⟨-, hfrom⟩ := Tree.locate_eq_ok.mp hlocate
  rcases hrest : p.parts.drop n with _ | ⟨name, rest⟩
  · rw [List.take_of_length_le (List.drop_eq_nil_iff.mp hrest), ← Tree.locateFrom_eq_resolve hfrom]
    exact hdir
  · rw [← List.take_append_drop n p.parts, hrest] at hfrom
    obtain ⟨here, hhere, hdirectory⟩ := Tree.directory_of_locateFrom hfrom
    rw [← Tree.locateFrom_eq_resolve hhere]
    exact hdirectory

/-- A path without steps up goes through nothing below the location that it leads to. -/
theorem not_passes_child {s : Store} (hdots : ".." ∉ s.root.parts) (name : String) : ¬s.root.Passes (s.location ++ [name]) := by
  rintro ⟨n, heq⟩
  rw [Store.location, Tree.resolve_of_no_dots hdots,
    Tree.resolve_of_no_dots fun hmem => hdots (List.mem_of_mem_take hmem)] at heq
  have hlength := congrArg List.length heq
  simp at hlength
  omega

/-- The root was there before, or its path has no step up. -/
def Direct (c : Check) (w : Workspace) : Prop := w.node c.store.root = .ok .directory ∨ ".." ∉ c.store.root.parts

theorem Begins.kept (h : c.Begins w) (hroot : c.Direct w) (hv : w.Adds (c.room w (outputNames (Store.nextId w))) v)
    {name : String} (hname : Store.isSnapshotName name = true) (hother : name ≠ Store.documentName (Store.nextId w)) :
    v.tree.find? (c.store.location ++ [name]) = w.tree.find? (c.store.location ++ [name]) := by
  refine (hv.takes _).eq (h.not_grows name) (not_written fun hmem => ?_) fun hnone hpasses => ?_
  · rcases List.mem_cons.mp hmem with heq | hcompanion
    · exact hother heq
    · rw [companion_not_listed hcompanion] at hname
      cases hname
  · rcases hroot with hdir | hdots
    · rw [directory_of_passes hdir hpasses] at hnone
      cases hnone
    · exact not_passes_child hdots name hpasses

theorem Begins.listedNames_eq_nil (h : c.Begins w) (hdots : ".." ∉ c.store.root.parts)
    (hcheck : Tree.checkPath w.limits c.store.root = none) (hshort : w.locate c.store.root ≠ .error .nameTooLong)
    (hroot : w.node c.store.root ≠ .ok .directory) : c.store.listedNames w = [] := by
  refine List.eq_nil_iff_forall_not_mem.mpr fun n hn => hroot ?_
  obtain ⟨-, hfound⟩ := Store.mem_listedNames.mp hn
  obtain ⟨node, hnode⟩ := Option.ne_none_iff_exists'.mp hfound
  have habove := h.proper.directory_above (List.cons_ne_nil n []) hnode
  rw [Store.location, Tree.resolve_of_no_dots hdots] at habove
  rcases @Tree.Proper.locateFrom_cases _ w.limits h.proper _ _ _ habove hdots with hok | hlong
  · exact Workspace.node_eq_ok.mpr ⟨_, Tree.locate_eq_ok.mpr ⟨hcheck, hok⟩, habove⟩
  · refine absurd ?_ hshort
    rw [Workspace.locate, Tree.locate, hcheck]
    exact hlong

/-- A listing before that comes to its end gives what can be read; where anything is listed, there is a root. -/
theorem Begins.listed (h : c.Begins w) (hroot : c.Direct w) (hv : w.Adds (c.room w names) v)
    (hdir : v.node c.store.root = .ok .directory) {xs : List Snapshot} (hlist : c.store.list.exec w = (.ok xs, u)) :
    xs = c.store.readable w ∧ ∀ n ∈ c.store.listedNames w, c.store.GoesOn w n ∧ w.node c.store.root = .ok .directory := by
  have hlog : c.store.LogBeside w := ⟨h.log, fun f hf name _ => h.outside _ (Or.inl ⟨f, hf, rfl⟩) name⟩
  by_cases hbefore : w.node c.store.root = .ok .directory
  · obtain ⟨hxs, hgoes⟩ := Store.list_eq_readable hlog hbefore hlist
    exact ⟨hxs, fun n hn => ⟨hgoes n hn, hbefore⟩⟩
  have hshort : w.locate c.store.root ≠ .error .nameTooLong := by
    intro hlong
    rw [Store.exec_list_refused hlong] at hlist
    cases hlist
  -- the path of the root is as good before as after, where it leads to the root
  obtain ⟨loc, hlocate, -⟩ := Workspace.node_eq_ok.mp hdir
  obtain ⟨hcheck, -⟩ := Tree.locate_eq_ok.mp hlocate
  rw [hv.limits] at hcheck
  have hnone := h.listedNames_eq_nil (hroot.resolve_left hbefore) hcheck hshort hbefore
  rw [Store.exec_list_nowhere hshort hbefore, Prod.mk.injEq, Except.ok.injEq] at hlist
  rw [← hlist.1, Store.readable, hnone]
  exact ⟨by simp, by simp⟩

/-- Where the new document stands there is a root. -/
theorem Begins.root_of_placed (h : c.Begins w) (hplaced : c.store.Places (.snapshot (Store.nextId w)) x v) :
    v.node c.store.root = .ok .directory := by
  obtain ⟨loc, hlocate, -⟩ := Workspace.node_eq_ok.mp hplaced.file
  have hne : Store.documentName (Store.nextId w) ≠ "" := by
    intro hempty
    have hname := h.isSnapshotName
    rw [hempty] at hname
    revert hname
    decide
  obtain ⟨here, hhere, hdirectory⟩ := Tree.isDirectory_of_locate_child hne hlocate
  exact Workspace.node_eq_ok.mpr ⟨here, hhere, hdirectory⟩

/-- A listing looks at the documents that it looked at, and at the new one. -/
theorem Begins.mem_listedNames (h : c.Begins w) (hroot : c.Direct w)
    (hv : w.Adds (c.room w (outputNames (Store.nextId w))) v)
    (hplaced : c.store.Places (.snapshot (Store.nextId w)) x v) (n : String) :
    n ∈ c.store.listedNames v ↔ n ∈ c.store.listedNames w ∨ n = Store.documentName (Store.nextId w) := by
  by_cases heq : n = Store.documentName (Store.nextId w)
  · subst heq
    obtain ⟨loc, hlocate, hfile⟩ := Workspace.node_eq_ok.mp hplaced.file
    obtain rfl := Slot.eq_location hlocate
    have hthere : v.tree.find? (c.store.location ++ [Store.documentName (Store.nextId w)]) = _ := hfile
    simp only [Store.mem_listedNames, h.isSnapshotName, hthere]
    simp
  · simp only [Store.mem_listedNames, heq, or_false]
    exact and_congr_right fun hname => by rw [h.kept hroot hv hname heq]

theorem Begins.answerOf_eq (h : c.Begins w) (hroot : c.Direct w) (hv : w.Adds (c.room w (outputNames (Store.nextId w))) v)
    {n : String} (hn : n ∈ c.store.listedNames w) (hdir : w.node c.store.root = .ok .directory) :
    c.store.answerOf v n = c.store.answerOf w n := by
  obtain ⟨hname, hfound⟩ := Store.mem_listedNames.mp hn
  refine Store.answerOf_congr hv.depth (Store.node_child hv hdir ?_ (h.kept hroot hv hname ?_))
  · rintro rfl
    revert hname
    decide
  · rintro rfl
    exact hfound (h.unused _ (List.mem_cons_self ..))

/-- A listing of a store that can be listed has the new snapshot more after a run. -/
theorem list_gains (h : c.Begins w) (hroot : c.Direct w) (hv : w.Adds (c.room w (outputNames (Store.nextId w))) v)
    (hx : Makes w x) (hplaced : c.store.Places (.snapshot (Store.nextId w)) x v) (hdepth : 4 ≤ w.depth)
    {xs : List Snapshot} (hlist : c.store.list.exec w = (.ok xs, u)) : ∃ before after t, xs = before ++ after ∧
      c.store.list.exec v = (.ok (before ++ x :: after), t) := by
  have hdir := h.root_of_placed hplaced
  obtain ⟨rfl, hbefore⟩ := h.listed hroot hv hdir hlist
  have hlog : c.store.LogBeside v :=
    ⟨fun f hf => (hv.log f hf).2, fun f hf name _ => h.outside _ (hv.log f hf).1 name⟩
  have hnew : c.store.answerOf v (Store.documentName (Store.nextId w)) = .ok (some x) :=
    Store.answerOf_of_node hplaced.file hx.check (hx.readable _ (hv.depth ▸ hdepth))
  have hsame : ∀ n ∈ c.store.listedNames w, c.store.answerOf v n = c.store.answerOf w n :=
    fun n hn => h.answerOf_eq hroot hv hn (hbefore n hn).2
  have hnames := h.mem_listedNames hroot hv hplaced
  -- the new name is not among the old ones, since nothing stood there
  have hfresh : Store.documentName (Store.nextId w) ∉ c.store.listedNames w := fun hmem =>
    (Store.mem_listedNames.mp hmem).2 (h.unused _ (List.mem_cons_self ..))
  have hgoes : ∀ n ∈ c.store.listedNames v, c.store.GoesOn v n := by
    intro n hn
    rcases (hnames n).mp hn with hold | rfl
    · exact (hbefore n hold).1.of_answer (hsame n hold)
    · exact Store.goesOn_of_answer hnew (by simp)
  obtain ⟨before, after, hreadable, hreadable'⟩ :=
    Store.readable_insert (Store.listedNames_insert h.unique (hv.unique h.unique) hfresh hnames) hsame hnew
  obtain ⟨t, hexec, -, -⟩ := Store.list_ok hlog hdir hgoes
  exact ⟨before, after, t, hreadable, hreadable' ▸ hexec⟩

/-- However a run ends, the files that were there are as they were, or are open and go on at their ends; new files are open or
have the names of the new id, and there are none where nothing is analysed.  A snapshot that a run gives has the new id, and
a listing afterwards is the listing before with the snapshot in its place. -/
theorem run_adds (h : c.Begins w) {r : Except Failure Outcome} (hexec : c.run.exec w = (r, v)) :
    (∀ loc bytes, w.tree.find? loc = some (.file bytes) → v.tree.find? loc = some (.file bytes) ∨
      w.Open loc ∧ ∃ more, v.tree.find? loc = some (.file (bytes ++ more))) ∧
    (∀ loc bytes, v.tree.find? loc = some (.file bytes) → (∃ old, w.tree.find? loc = some (.file old)) ∨ w.Open loc ∨
      ∃ name ∈ outputNames (Store.nextId w), loc = c.store.location ++ [name]) ∧
    ((∀ seen u, c.observe.exec w = (.ok seen, u) → seen.2.2 = []) → w.Notes v ∧
      ∀ loc bytes, v.tree.find? loc = some (.file bytes) → ∃ old, w.tree.find? loc = some (.file old)) ∧
    ∀ o x, r = .ok o → o.snapshot = some x → x.id = Store.nextId w ∧
      (c.Direct w → 4 ≤ w.depth → ∀ xs u, c.store.list.exec w = (.ok xs, u) → ∃ before after t,
        xs = before ++ after ∧ c.store.list.exec v = (.ok (before ++ x :: after), t)) := by
  -- whether a run fails or not, it has only added something
  have hadds : w.Adds (c.room w (outputNames (Store.nextId w))) v := by
    rcases r with e | o
    · exact (run_gains h).error hexec
    · exact ((run_gains h).ok hexec).1
  refine ⟨fun loc bytes hold => ?_, fun loc bytes hnew => ?_, fun hnothing => ?_, ?_⟩
  · have htakes := hadds.takes loc
    rw [hold] at htakes
    refine htakes.file ?_
    rintro ⟨name, hname, rfl⟩
    rw [h.unused name hname] at hold
    cases hold
  · have htakes := hadds.takes loc
    rw [hnew] at htakes
    exact htakes.of_file
  · have hnotes := run_nothing hnothing
    rw [hexec] at hnotes
    refine ⟨hnotes, fun loc bytes hnew => ?_⟩
    have htakes := (hnotes.adds_notes h.log).takes loc
    rw [hnew] at htakes
    rcases htakes.of_file with hold | ⟨f, hf, rfl⟩ | hno
    · exact hold
    · exact h.log f hf
    · exact hno.elim
  · rintro o x rfl hx
    obtain ⟨hmakes, hplaced⟩ := ((run_gains h).ok hexec).2 x hx
    exact ⟨hmakes.id_eq, fun hroot hdepth xs u hlist =>
      list_gains h hroot hadds hmakes (hmakes.id_eq ▸ hplaced) hdepth hlist⟩

/-- A check of the working directory with a store at some path. -/
def storing (root : String) : Check := ⟨.default, .here, ⟨.ofText root⟩⟩

/-- A workspace with one source and a store that holds one snapshot. -/
def keeping : Workspace :=
  { Store.blank with
    tree := ⟨[(["s"], .directory), (["s", "a.json"], .file Store.plain.text.toUTF8), (["a.ts"], .file "let a = 1".toUTF8)]⟩
    environment := [("GITHUB_OUTPUT", "out.txt")] }

theorem begins_keeping {root : String} (hroot : (storing root).store.location = ["s"]) : (storing root).Begins keeping := by
  have hproper : keeping.tree.Proper := by
    constructor <;> simp [keeping, Tree.find?, Tree.findIn]
  have hunique : keeping.tree.Unique := by simp [keeping, Tree.Unique]
  refine ⟨hproper, hunique, by simp [Workspace.DrawsDigits, keeping, Store.blank],
    by simp [Workspace.HasLog, keeping, Store.blank], ?_, ?_⟩
  · rintro loc (⟨f, hf, -⟩ | ⟨target, htarget, rfl⟩) name
    · cases hf
    · obtain rfl : "out.txt" = target := Option.some.inj htarget
      rw [hroot]
      have hplace : Tree.resolve [] (Path.ofText "out.txt").parts = ["out.txt"] := by decide +kernel
      rw [hplace]
      simp
  · rw [hroot]
    decide +kernel

/-- What such a check comes to. -/
@[irreducible] def stored (root : String) : Except Failure Outcome × Workspace := (storing root).run.exec keeping

def storedSnapshot (root : String) : Snapshot := ((stored root).1.toOption.bind (·.snapshot)).getD Store.plain

theorem exists_stored {root : String} (h : ((stored root).1.toOption.bind (·.snapshot)).isSome = true) :
    ∃ o, (stored root).1 = .ok o ∧ o.snapshot = some (storedSnapshot root) := by
  rw [storedSnapshot]
  rcases hrun : (stored root).1 with e | o
  · rw [hrun] at h
    cases h
  · rw [hrun] at h
    refine ⟨o, rfl, ?_⟩
    obtain ⟨x, hx⟩ := Option.isSome_iff_exists.mp h
    have hsnapshot : o.snapshot = some x := hx
    exact hsnapshot.trans (congrArg some (congrArg (Option.getD · Store.plain) hsnapshot).symm)

theorem answerOf_keeping {root : String} (hnode : v.node ((storing root).store.root.child "a.json") =
    .ok (.file Store.plain.text.toUTF8)) (hdepth : v.depth = 987) :
    (storing root).store.answerOf v "a.json" = .ok (some Store.plain) := by
  refine Store.answerOf_of_node hnode rfl ?_
  rw [hdepth, Store.readable_iff]
  decide +kernel

/-- The new snapshot stands in the listing beside the old one. -/
theorem run_adds_keeping : ∃ o before after t u, (stored "s").1 = .ok o ∧ o.snapshot = some (storedSnapshot "s") ∧
    (storing "s").store.list.exec keeping = (.ok [Store.plain], t) ∧ [Store.plain] = before ++ after ∧
    (storing "s").store.list.exec (stored "s").2 = (.ok (before ++ storedSnapshot "s" :: after), u) := by
  have hbegins : (storing "s").Begins keeping := begins_keeping (by decide +kernel)
  have hlog : (storing "s").store.LogBeside keeping := ⟨hbegins.log, by simp [keeping, Store.blank]⟩
  have hroot : keeping.node (storing "s").store.root = .ok .directory := by decide +kernel
  have hlocate : keeping.locate ((storing "s").store.root.child "a.json") = .ok ["s", "a.json"] := by decide +kernel
  have hanswer : (storing "s").store.answerOf keeping "a.json" = .ok (some Store.plain) :=
    answerOf_keeping (Workspace.node_eq_ok.mpr ⟨_, hlocate, by simp [keeping, Tree.find?, Tree.findIn]⟩) rfl
  have hnames : (storing "s").store.listedNames keeping = ["a.json"] := by decide +kernel
  obtain ⟨t, hlist, -, -⟩ := Store.list_ok hlog hroot fun n hn => by
    rw [hnames, List.mem_singleton] at hn
    exact hn ▸ Store.goesOn_of_answer hanswer (by simp)
  have hplain : (storing "s").store.readable keeping = [Store.plain] := by
    simp [Store.readable, hnames, hanswer, Store.found?]
  rw [hplain] at hlist
  have hsome : ((stored "s").1.toOption.bind (·.snapshot)).isSome = true := by decide +kernel
  obtain ⟨o, ho, hsnapshot⟩ := exists_stored hsome
  have hexec : (storing "s").run.exec keeping = stored "s" := by rw [stored]
  obtain ⟨-, -, -, hadds⟩ := run_adds hbegins hexec
  obtain ⟨before, after, u, hbefore, hafter⟩ :=
    (hadds o _ ho hsnapshot).2 (Or.inl hroot) (by decide) _ t hlist
  exact ⟨o, before, after, t, u, ho, hsnapshot, hlist, hbefore, hafter⟩

/-- A store whose path goes through a directory that is missing cannot be found before a run, and can be found afterwards: a
listing then gives the old snapshot as well, which was not listed before. -/
theorem detour_lists_more : (storing "a/../s").Begins keeping ∧ ∃ o x ys t u, (stored "a/../s").1 = .ok o ∧
    o.snapshot = some x ∧ (storing "a/../s").store.list.exec keeping = (.ok [], t) ∧
    (storing "a/../s").store.list.exec (stored "a/../s").2 = (.ok ys, u) ∧
    ¬∃ before after, [] = before ++ after ∧ ys = before ++ x :: after := by
  have hplace : (storing "a/../s").store.location = ["s"] := by decide +kernel
  have hbegins : (storing "a/../s").Begins keeping := begins_keeping hplace
  have hmissing : keeping.locate (storing "a/../s").store.root = .error .missing := by decide +kernel
  have hlist : (storing "a/../s").store.list.exec keeping = (.ok [], keeping) :=
    Store.exec_list_nowhere (by simp [hmissing]) (by simp [Workspace.node, hmissing])
  obtain ⟨hsome, hlocate, hroot, hdirectory, hentries⟩ :
      ((stored "a/../s").1.toOption.bind (·.snapshot)).isSome = true ∧
      (stored "a/../s").2.locate ((storing "a/../s").store.root.child "a.json") = .ok ["s", "a.json"] ∧
      (stored "a/../s").2.locate (storing "a/../s").store.root = .ok ["s"] ∧
      (stored "a/../s").2.tree.find? ["s"] = some .directory ∧
      (((stored "a/../s").2.tree.children ["s"]).map (·.1)).filter Store.isSnapshotName =
        ["a.json", Store.documentName (Store.nextId keeping)] := by decide +kernel
  obtain ⟨o, ho, hsnapshot⟩ := exists_stored hsome
  have hexec : (storing "a/../s").run.exec keeping = (.ok o, (stored "a/../s").2) := by
    rw [← ho, stored]
  obtain ⟨hadds, hsaved⟩ := (run_gains hbegins).ok hexec
  obtain ⟨hmakes, hplaced⟩ := hsaved _ hsnapshot
  -- the old document is as it was
  have hfile : (stored "a/../s").2.tree.find? ["s", "a.json"] = some (.file Store.plain.text.toUTF8) := by
    have htakes := hadds.takes ((storing "a/../s").store.location ++ ["a.json"])
    rw [hplace, show keeping.tree.find? (["s"] ++ ["a.json"]) = some (.file Store.plain.text.toUTF8) by
      simp [keeping, Tree.find?, Tree.findIn]] at htakes
    rcases htakes.file (hplace ▸ not_written (by decide +kernel)) with hkept | ⟨hopen, -⟩
    · exact hkept
    · exact absurd hopen (hplace ▸ hbegins.not_grows "a.json")
  have hold : (storing "a/../s").store.answerOf (stored "a/../s").2 "a.json" = .ok (some Store.plain) :=
    answerOf_keeping (Workspace.node_eq_ok.mpr ⟨_, hlocate, hfile⟩) hadds.depth
  have hnew : (storing "a/../s").store.answerOf (stored "a/../s").2 (Store.documentName (Store.nextId keeping)) =
      .ok (some (storedSnapshot "a/../s")) :=
    Store.answerOf_of_node (hmakes.id_eq ▸ hplaced.file) hmakes.check (hmakes.readable _ (hadds.depth ▸ by decide))
  have hnames : ∀ n, n ∈ (storing "a/../s").store.listedNames (stored "a/../s").2 ↔
      n = "a.json" ∨ n = Store.documentName (Store.nextId keeping) := by
    intro n
    rw [Store.listedNames, Store.snapshotNames, List.mem_mergeSort, hplace, hentries]
    simp
  obtain ⟨u, hlist', -, -⟩ := Store.list_ok (s := (storing "a/../s").store) (w := (stored "a/../s").2)
    ⟨fun f hf => (hadds.log f hf).2, fun f hf name _ => hbegins.outside _ (hadds.log f hf).1 name⟩
    (Workspace.node_eq_ok.mpr ⟨_, hroot, hdirectory⟩) fun n hn => by
      rcases (hnames n).mp hn with rfl | rfl
      · exact Store.goesOn_of_answer hold (by simp)
      · exact Store.goesOn_of_answer hnew (by simp)
  refine ⟨hbegins, o, _, _, _, u, ho, hsnapshot, hlist, hlist', ?_⟩
  rintro ⟨before, after, hnil, hall⟩
  obtain ⟨rfl, rfl⟩ := List.append_eq_nil_iff.mp hnil.symm
  have hmem : Store.plain ∈ (storing "a/../s").store.readable (stored "a/../s").2 :=
    Store.mem_readable.mpr ⟨"a.json", (hnames _).mpr (Or.inl rfl), hold⟩
  rw [hall, List.nil_append, List.mem_singleton] at hmem
  have hids : Store.plain.id = Store.nextId keeping := hmem ▸ hmakes.id_eq
  revert hids
  decide +kernel

end Check

end ScoreGate
