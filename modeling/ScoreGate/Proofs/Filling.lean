import ScoreGate.Proofs.Listing
import ScoreGate.Proofs.Outputs

/-!
# What stands in the root of a store

Saving and creating put documents into the root of a store, each named by the id of its snapshot; whatever else the calls
of a store and a check write there has a name that a listing passes over.  So in a store that was filled by calls, every
file that a listing looks at is the document of a snapshot.

* `Tree.Unique`: a tree with one entry for each location.
* `Store.Filled`: the files that a listing looks at are documents; `Store.Fills`: what keeps it so.
* `Session.filled`: after any sequence of calls and outputs the store is filled.
-/

namespace ScoreGate

/-! ### One entry for each location -/

namespace Tree

/-- No location has two entries. -/
def Unique (t : Tree) : Prop := (t.entries.map Prod.fst).Nodup

variable {t : Tree} {loc : Location} {limits : Option NameLimits}

theorem findIn_of_mem {n : Node} : ∀ {es : List (Location × Node)}, (es.map Prod.fst).Nodup → (loc, n) ∈ es →
    findIn loc es = some n
  | (l, m) :: es, hes, hmem => by
    obtain ⟨hnot, hrest⟩ := List.nodup_cons.mp hes
    rw [findIn]
    rcases List.mem_cons.mp hmem with heq | hmem
    · cases heq
      rw [if_pos rfl]
    · rw [if_neg, findIn_of_mem hrest hmem]
      rintro rfl
      exact hnot (List.mem_map.mpr ⟨_, hmem, rfl⟩)

theorem find?_of_mem {n : Node} (h : t.Unique) (hne : loc ≠ []) (hmem : (loc, n) ∈ t.entries) : t.find? loc = some n := by
  rw [find?, if_neg hne]
  exact findIn_of_mem h hmem

theorem mem_map_putIn {other : Location} {n : Node} : ∀ {es : List (Location × Node)},
    other ∈ (putIn loc n es).map Prod.fst ↔ other = loc ∨ other ∈ es.map Prod.fst
  | [] => by simp [putIn]
  | (l, m) :: es => by
    rw [putIn]
    split_ifs with h
    · subst h
      simp
    · rw [List.map_cons, List.mem_cons, mem_map_putIn, List.map_cons, List.mem_cons]
      tauto

theorem nodup_putIn (n : Node) : ∀ {es : List (Location × Node)}, (es.map Prod.fst).Nodup →
    ((putIn loc n es).map Prod.fst).Nodup
  | [], _ => by simp [putIn]
  | e :: es, h => by
    obtain ⟨hnot, hrest⟩ := List.nodup_cons.mp h
    rw [putIn]
    split_ifs with heq
    · exact h
    · refine List.nodup_cons.mpr ⟨?_, nodup_putIn n hrest⟩
      rw [mem_map_putIn]
      rintro (hloc | hmem)
      · exact heq hloc
      · exact hnot hmem

theorem unique_put (h : t.Unique) (loc : Location) (n : Node) : (t.put loc n).Unique := nodup_putIn n h

theorem unique_erase (h : t.Unique) (loc : Location) : (t.erase loc).Unique :=
  h.sublist (List.filter_sublist.map Prod.fst)

theorem unique_makeDirectoriesFrom : ∀ {parts : List String} {t : Tree} {here : Location}, t.Unique →
    (t.makeDirectoriesFrom limits here parts).1.Unique
  | [], _, _, h => h
  | name :: parts, t, here, h => by
    rw [makeDirectoriesFrom]
    split
    · exact unique_makeDirectoriesFrom h
    · split
      · exact h
      · simp only
        split
        · exact unique_makeDirectoriesFrom h
        · exact h
        · exact unique_makeDirectoriesFrom (unique_put h _ _)

theorem unique_makeDirectories (h : t.Unique) (p : Path) : (t.makeDirectories limits p).1.Unique := by
  rw [makeDirectories]
  rcases checkPath limits p with _ | o
  · exact unique_makeDirectoriesFrom h
  · exact h

end Tree

theorem Workspace.unique_fillAndMove {w : Workspace} (h : w.tree.Unique) (temporary : Location) (p : Path)
    (bytes : ByteArray) : (w.fillAndMove temporary p bytes).1.tree.Unique := by
  have hmade := Tree.unique_put h temporary (.file ByteArray.empty)
  have hfilled := Tree.unique_put hmade temporary (.file bytes)
  rw [fillAndMove]
  simp only
  split
  · exact Tree.unique_erase hmade temporary
  · split
    case h_1 v hmove =>
      simp only [moveOver, bind_eq_ok, pure_eq_ok, Except.ok.injEq] at hmove
      obtain ⟨_, -, loc, -, rfl⟩ := hmove
      exact Tree.unique_put (Tree.unique_erase hfilled temporary) loc _
    · exact hfilled
    · exact Tree.unique_erase hfilled temporary

/-- Replacing a file leaves one entry for each location. -/
theorem Workspace.unique_replaceFile {w : Workspace} (h : w.tree.Unique) (p : Path) (bytes : ByteArray) :
    (w.replaceFile p bytes).1.tree.Unique := by
  have hmade : ∀ {u o}, w.makeDirectories p.parent = (u, o) → u.tree.Unique := by
    rintro u o hu
    have hunique : (w.makeDirectories p.parent).1.tree.Unique := Tree.unique_makeDirectories h p.parent
    rwa [hu] at hunique
  have hattempt := w.replaceFile_attempt p bytes
  generalize w.replaceFile p bytes = r at hattempt ⊢
  cases hattempt with
  | directories => exact h
  | making made | temporary made | parent made => exact hmade made
  | filling _ made => exact unique_fillAndMove (hmade made) _ p bytes

namespace Store

variable {s : Store} {u v w : Workspace} {name : String} {bytes : ByteArray}

/-! ### Documents of a root -/

/-- The file of this name in the root is the document of a snapshot, which passed its check and is named by its id. -/
def IsDocument (s : Store) (w : Workspace) (name : String) (bytes : ByteArray) : Prop :=
  ∃ x : Snapshot, x.check = .ok x ∧ isId x.id = true ∧ documentName x.id = name ∧ bytes = x.text.toUTF8 ∧
    w.locate (s.root.child name) = .ok (s.location ++ [name])

/-- A workspace in which every file that a listing looks at is a document. -/
structure Filled (s : Store) (w : Workspace) : Prop where
  log : s.LogBeside w
  unique : w.tree.Unique
  documents : ∀ {name bytes}, isSnapshotName name = true → w.tree.find? (s.location ++ [name]) = some (.file bytes) →
    s.IsDocument w name bytes

/-- What a call may do: a file that a listing looks at was there before, or it is a new document. -/
structure Fills (s : Store) (w v : Workspace) : Prop where
  limits : v.limits = w.limits
  unique : w.tree.Unique → v.tree.Unique
  directories : ∀ loc, w.tree.find? loc = some .directory → v.tree.find? loc = some .directory
  documents : ∀ {name bytes}, isSnapshotName name = true → v.tree.find? (s.location ++ [name]) = some (.file bytes) →
    w.tree.find? (s.location ++ [name]) = some (.file bytes) ∨ s.IsDocument v name bytes
  log : s.LogBeside v

/-- A document stays one as long as the directories stay. -/
theorem IsDocument.mono (h : s.IsDocument w name bytes) (hlimits : v.limits = w.limits)
    (hdirs : ∀ loc, w.tree.find? loc = some .directory → v.tree.find? loc = some .directory) :
    s.IsDocument v name bytes := by
  obtain ⟨x, hcheck, hid, hname, hbytes, hlocate⟩ := h
  refine ⟨x, hcheck, hid, hname, hbytes, ?_⟩
  rw [Workspace.locate, hlimits]
  exact Tree.locate_mono hdirs hlocate

theorem Fills.refl (h : s.LogBeside w) : s.Fills w w := ⟨rfl, fun h => h, fun _ h => h, fun _ h => Or.inl h, h⟩

theorem Fills.trans (h : s.Fills u v) (h' : s.Fills v w) : s.Fills u w := by
  refine ⟨h'.limits.trans h.limits, fun hu => h'.unique (h.unique hu), fun loc hdir => h'.directories loc (h.directories loc hdir),
    fun hname hfile => ?_, h'.log⟩
  rcases h'.documents hname hfile with hold | hnew
  · exact (h.documents hname hold).imp_right fun hdoc => hdoc.mono h'.limits h'.directories
  · exact Or.inr hnew

theorem Filled.of_fills (h : s.Filled w) (hv : s.Fills w v) : s.Filled v := by
  refine ⟨hv.log, hv.unique h.unique, fun hname hfile => ?_⟩
  rcases hv.documents hname hfile with hold | hnew
  · exact (h.documents hname hold).mono hv.limits hv.directories
  · exact hnew

/-- What an action of a store does to the documents of its root. -/
def Stocks (s : Store) (w v : Workspace) : Prop := s.LogBeside w → s.Fills w v

theorem stocks_frame (s : Store) : Action.Frame s.Stocks :=
  ⟨fun _ h => .refl h, fun h h' hu => (h hu).trans (h' (h hu).log)⟩

/-! ### Single changes -/

/-- A file is put in a place that no listing looks at. -/
theorem Fills.put (h : s.LogBeside w) {loc : Location} (hdir : w.tree.find? loc ≠ some .directory)
    (hbeside : ∀ name, isSnapshotName name = true → s.location ++ [name] ≠ loc) (bytes : ByteArray) :
    s.Fills w { w with tree := w.tree.put loc (.file bytes) } := by
  refine ⟨rfl, fun hu => Tree.unique_put hu loc _, fun _ => Tree.directory_put hdir _, fun {name _} hname hfile => ?_, ?_, h.2⟩
  · rw [Tree.find?_put_of_ne (hbeside name hname)] at hfile
    exact Or.inl hfile
  · intro f hf
    obtain ⟨old, hold⟩ := h.1 f hf
    exact Tree.file_put hold loc bytes

/-- A note changes no document. -/
theorem stocks_note (s : Store) (w : Workspace) (e : Entry) : s.Stocks w (w.note e) := by
  intro h
  have hnoted := Workspace.noted_note h.1 e
  have hlog : s.LogBeside (w.note e) := ⟨hnoted.hasLog, h.2⟩
  rcases w.logged_cases e with hkept | ⟨f, added, hf, hadded⟩
  · have htree : (w.note e).tree = w.tree := hkept
    exact ⟨rfl, fun hu => by rwa [htree], fun loc hdir => by rwa [htree],
      fun _ hfile => Or.inl (by rwa [htree] at hfile), hlog⟩
  · obtain ⟨old, hold⟩ := h.1 f hf
    have hfile : w.tree.find? f.location ≠ some .directory := by simp [hold]
    have hput := Fills.put h hfile (fun name hname heq => h.2 f hf name hname heq.symm) added
    have htree : (w.note e).tree = w.tree.put f.location (.file added) := hadded
    exact ⟨rfl, fun hu => htree ▸ hput.unique hu, fun loc hdir => htree ▸ hput.directories loc hdir,
      fun hname hfile => (hput.documents hname (htree ▸ hfile)).imp_right fun hdoc =>
        hdoc.mono rfl fun loc hdir => htree ▸ hdir, hlog⟩

/-- Replacing a file changes no document, unless it is the document of a snapshot, and then it is that afterwards. -/
theorem fills_replaceFile (h : s.LogBeside w) {p : Path} {bytes : ByteArray}
    (hp : ∀ name, isSnapshotName name = true → Tree.resolve [] p.parts = s.location ++ [name] → p = s.root.child name ∧
      ∃ x : Snapshot, x.check = .ok x ∧ isId x.id = true ∧ documentName x.id = name ∧ bytes = x.text.toUTF8) :
    s.Fills w (w.replaceFile p bytes).1 := by
  have hunique : w.tree.Unique → (w.replaceFile p bytes).1.tree.Unique := fun hu => w.unique_replaceFile hu p bytes
  have hreplaced := w.replaceFile_replaced p bytes
  have hgrown : ∀ {t : Tree}, Tree.Grown p.parent.Passes w.tree t → s.LogBeside { w with tree := t } := by
    intro t grown
    refine ⟨fun f hf => ?_, h.2⟩
    obtain ⟨old, hold⟩ := h.1 f hf
    exact ⟨old, grown.file_iff.mpr hold⟩
  rcases hr : w.replaceFile p bytes with ⟨v, o⟩
  rw [hr] at hunique hreplaced
  cases hreplaced with
  | undone grown =>
    exact ⟨rfl, hunique, fun _ => grown.directory, fun _ hfile => Or.inl (grown.file_iff.mp hfile), hgrown grown⟩
  | @left t directory n _ grown parent free nul =>
    -- a listing passes over the temporary file, so no document has its name
    have hbeside : ∀ name, isSnapshotName name = true → s.location ++ [name] ≠ directory ++ [Workspace.temporaryName n] := by
      intro name hname heq
      obtain ⟨-, htemp⟩ := List.append_inj' heq rfl
      rw [List.singleton_inj.mp htemp, isSnapshotName_temporaryName] at hname
      cases hname
    have hput := Fills.put (hgrown grown) (by simp [free]) hbeside bytes
    exact ⟨rfl, hunique, fun loc hdir => hput.directories loc (grown.directory hdir),
      fun hname hfile => (hput.documents hname hfile).imp_left grown.file_iff.mp, hput.log⟩
  | @done t loc grown target file =>
    have hne : loc ≠ [] := Tree.ne_nil_of_find? rfl file
    have hplace : loc = Tree.resolve [] p.parts := Tree.locate_eq_resolve target
    refine ⟨rfl, hunique, fun _ hother => Tree.directory_put file _ (grown.directory hother),
      fun {name found} hname hfile => ?_, ?_⟩
    · -- the file may itself be a document, and then what was written is that document
      by_cases heq : s.location ++ [name] = loc
      · obtain ⟨hpath, x, hcheck, hid, hdocument, hbytes⟩ := hp name hname (by rw [heq, hplace])
        simp only [heq, Tree.find?_put_self hne, Option.some.injEq, Node.file.injEq] at hfile
        refine Or.inr ⟨x, hcheck, hid, hdocument, by rw [← hfile, hbytes], ?_⟩
        rw [← hpath, heq]
        exact Tree.locate_put file _ target
      · simp only [Tree.find?_put_of_ne heq] at hfile
        exact Or.inl (grown.file_iff.mp hfile)
    · refine ⟨fun f hf => ?_, fun f hf => h.2 f (Option.filter_eq_some_iff.mp hf).1⟩
      obtain ⟨hf, hnot⟩ := Option.filter_eq_some_iff.mp hf
      obtain ⟨old, hold⟩ := (hgrown grown).1 f hf
      refine ⟨old, ?_⟩
      simp only [Tree.find?_put_of_ne (show f.location ≠ loc by simpa using hnot)]
      exact hold

/-- Removing a file leaves no document that was not there. -/
theorem fills_remove (h : s.LogBeside w) {p : Path} (hv : w.remove p = .ok v) : s.Fills w v := by
  obtain ⟨loc, old, -, hfind, rfl⟩ := Workspace.remove_eq_ok.mp hv
  have hne : loc ≠ [] := Tree.ne_nil_of_find? hfind (by simp)
  refine ⟨rfl, fun hu => Tree.unique_erase hu loc, fun other hother => ?_, fun {name _} hname hfile => ?_, fun f hf => ?_,
    fun f hf => h.2 f (Option.filter_eq_some_iff.mp hf).1⟩
  · rw [Tree.find?_erase other hne, if_neg (by rintro rfl; simp [hfind] at hother), hother]
  · simp only [Tree.find?_erase _ hne] at hfile
    split_ifs at hfile
    exact Or.inl hfile
  · obtain ⟨hf, hnot⟩ := Option.filter_eq_some_iff.mp hf
    obtain ⟨bytes, hbytes⟩ := h.1 f hf
    exact ⟨bytes, by rw [Tree.find?_erase _ hne, if_neg (by simpa using hnot), hbytes]⟩

/-! ### The calls -/

theorem stocks_writeDocument {p : Path} {x : Snapshot}
    (hp : ∀ name, isSnapshotName name = true → Tree.resolve [] p.parts = s.location ++ [name] →
      p = s.root.child name ∧ x.check = .ok x ∧ isId x.id = true ∧ documentName x.id = name) :
    Action.Preserves s.Stocks (writeDocument p x) := by
  have hfills : ∀ {w : Workspace}, s.Stocks w (w.replaceFile p x.text.toUTF8).1 := fun h =>
    fills_replaceFile h fun name hname hplace => by
      obtain ⟨hpath, hcheck, hid, hdocument⟩ := hp name hname hplace
      exact ⟨hpath, x, hcheck, hid, hdocument, rfl⟩
  refine Action.Ends.preserves fun w => ends_writeDocument (fun _ => s.stocks_frame.refl w) (fun _ v hr => ?_)
    fun _ v fault hr => ?_
  · have hstocks := @hfills w
    rwa [hr] at hstocks
  · have hstocks := @hfills w
    rwa [hr] at hstocks

/-- A snapshot is stored as the document of its id. -/
theorem stocks_save {x : Snapshot} (hcheck : x.check = .ok x) : Action.Preserves s.Stocks (s.save x) := by
  refine Action.Ends.preserves fun w => ends_save (fun _ => s.stocks_frame.refl w) fun hid => ?_
  have hwrite : Action.Preserves s.Stocks (writeDocument ((Slot.snapshot x.id).path s) x) := by
    refine stocks_writeDocument fun name _ hplace => ?_
    rw [← Slot.location_eq] at hplace
    obtain rfl : documentName x.id = name := List.singleton_inj.mp (List.append_cancel_left hplace)
    exact ⟨rfl, hcheck, hid, rfl⟩
  exact (Action.Ends.of_preserves hwrite w).mono (fun _ v hv e => s.stocks_frame.trans hv (s.stocks_note v e)) fun _ _ hv => hv

theorem stocks_create (files : List FileSummary) (branch commit : String) (environment : Option Provenance) :
    Action.Preserves s.Stocks (s.create files branch commit environment) := by
  have hR := s.stocks_frame
  have hsource : ∀ (w : Workspace) source, s.Stocks w { w with source } := fun w source h =>
    ⟨rfl, fun h => h, fun _ h => h, fun _ h => Or.inl h, h⟩
  refine Action.Ends.preserves fun w => ?_
  have hwarned : s.Stocks w (warned w files) := warned_of_note (hR.refl w) (s.stocks_note w)
  refine ends_create (D := fun _ u => s.Stocks w u) (fun _ _ => hR.refl w) ?_ (fun _ _ hu _ _ _ => hu) ?_
  · exact (Action.Ends.of_preserves (preserves_freeId hR hsource s _) _).mono (fun _ _ hu => hR.trans hwarned hu)
      fun _ _ hu => hR.trans hwarned hu
  · intro x u hu _ hcheck
    exact (Action.Ends.of_preserves (stocks_save hcheck) u).mono
      (fun _ v hv e => hR.trans (hR.trans hu hv) (s.stocks_note v e)) fun _ _ hv => hR.trans hu hv

theorem stocks_saveBaseline (x : Snapshot) (branch : String) : Action.Preserves s.Stocks (s.saveBaseline x branch) := by
  rw [saveBaseline, baselinePath_eq]
  refine .bind s.stocks_frame (stocks_writeDocument fun name _ hplace => ?_) fun _ => .note s.stocks_note _ _ _
  rw [← Slot.location_eq] at hplace
  have hnames : ["baselines", baselineName branch] = [name] := List.append_cancel_left hplace
  simp at hnames

theorem stocks_cleanup (maxAge : Number) : Action.Preserves s.Stocks (s.cleanup maxAge) :=
  preserves_cleanup s.stocks_frame s.stocks_note (fun _ _ _ hremove h => fills_remove h hremove) maxAge

theorem stocks_writeOutput (c : Check) (report : Report) (id : String) (format : Value) :
    Action.Preserves c.store.Stocks (c.writeOutput report id format) := by
  have hR := c.store.stocks_frame
  refine Action.Ends.preserves fun w => Check.ends_writeOutput (fun _ _ => hR.refl w) (hR.refl w) (fun _ _ _ _ _ => hR.refl w)
    fun name content hfile hdir _ e => hR.trans ?_ (c.store.stocks_note _ e)
  intro h
  refine Fills.put h hdir (fun other hother heq => ?_) _
  rw [List.singleton_inj.mp (List.append_cancel_left heq),
    Check.outputName_not_listed (Check.outputFile_name hfile)] at hother
  cases hother

/-! ### Sessions -/

/-- A snapshot that is to be saved passed its check when it was built. -/
def Call.Checked : Call → Prop
  | .save x => x.check = .ok x
  | _ => True

/-- What is done with a store: calls, each at any time, and outputs of checks that record in it. -/
inductive Session (s : Store) (start : Workspace) : Workspace → Prop
  | start : Session s start start
  | call {w : Workspace} (before : Session s start w) (clock : ℤ) (c : Call) (checked : c.Checked) :
      Session s start ((c.perform s).exec { w with clock }).2
  | output {w : Workspace} (before : Session s start w) (c : Check) (store : c.store = s) (report : Report) (id : String)
      (format : Value) : Session s start ((c.writeOutput report id format).exec w).2

theorem stocks_perform (s : Store) {c : Call} (checked : c.Checked) : Action.Preserves s.Stocks (c.perform s) := by
  have hR := s.stocks_frame
  cases c with
  | save x => exact .bind hR (stocks_save checked) fun _ => .pure hR _
  | create files branch commit environment => exact .bind hR (stocks_create files branch commit environment) fun _ => .pure hR _
  | saveBaseline x branch => exact .bind hR (stocks_saveBaseline x branch) fun _ => .pure hR _
  | cleanup maxAge => exact .bind hR (stocks_cleanup maxAge) fun _ => .pure hR _

/-- Nothing of what stands in a root depends on the clock. -/
theorem Filled.of_clock (h : s.Filled w) (clock : ℤ) : s.Filled { w with clock } :=
  h.of_fills ⟨rfl, fun h => h, fun _ h => h, fun _ h => Or.inl h, h.log⟩

theorem Session.filled {start : Workspace} (session : s.Session start w) (h : s.Filled start) : s.Filled w := by
  induction session with
  | start => exact h
  | call before clock c checked ih =>
    have hclock := ih.of_clock clock
    exact hclock.of_fills (s.stocks_perform checked _ hclock.log)
  | output before c store report id format ih =>
    subst store
    exact ih.of_fills (stocks_writeOutput c report id format _ ih.log)

/-- A store of which nothing is there yet is filled. -/
theorem Fresh.filled (h : s.Fresh w) (hunique : w.tree.Unique) : s.Filled w := by
  refine ⟨⟨fun f hf => (h.2 f hf).2, fun f hf name _ heq => (h.2 f hf).1 (heq ▸ List.prefix_append _ _)⟩, hunique,
    fun {name _} _ hfile => ?_⟩
  rw [h.1 _ (List.prefix_append _ [name])] at hfile
  cases hfile

end Store

end ScoreGate
