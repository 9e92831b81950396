import ScoreGate.Proofs.Decoding
import ScoreGate.Proofs.Histories

/-!
# Reading and listing what may be damaged

Whatever the files of a store hold, reading one of them comes to one of seven things, and a listing goes on after all of
them but three: a name that the file system refuses, a document that is nested too deeply, and a number out of range.  A
document that is left out is noted once.

* `Store.Reads`: what reading a document comes to.
* `Workspace.Noted`: only notes were added, in the journal and in the log file.
* `Store.list_ok`, `Store.list_stops`: a listing that goes on to the end, and one that does not.
-/

namespace ScoreGate

/-! ### Notes -/

namespace Tree

variable {t : Tree} {limits : Option NameLimits} {place : Location}

/-- A path leads to the same place when the content of a file is replaced. -/
theorem locateFrom_put_file {old : ByteArray} (h : t.find? place = some (.file old)) (new : ByteArray) :
    ∀ (parts : List String) (here : Location),
      (t.put place (.file new)).locateFrom limits here parts = t.locateFrom limits here parts
  | [], _ => rfl
  | name :: parts, here => by
    have hne : place ≠ [] := ne_nil_of_find? h (by simp)
    rw [locateFrom, locateFrom]
    by_cases hhere : here = place
    · rw [hhere, find?_put_self hne, h]
    · rw [find?_put_of_ne hhere]
      rcases t.find? here with _ | ⟨_ | b⟩
      · rfl
      · simp only [locateFrom_put_file h new parts]
      · rfl

end Tree

namespace Workspace

variable {u v w : Workspace}

/-- The log file, if there is one, is there. -/
def HasLog (w : Workspace) : Prop := ∀ f, w.log = some f → ∃ bytes, w.tree.find? f.location = some (.file bytes)

/-- Only notes were added: in the journal, and in the log file if there is one. -/
structure Noted (w v : Workspace) : Prop where
  depth : v.depth = w.depth
  clock : v.clock = w.clock
  log : v.log = w.log
  locate : ∀ p, v.locate p = w.locate p
  elsewhere : ∀ loc, (∀ f, w.log = some f → loc ≠ f.location) → v.tree.find? loc = w.tree.find? loc
  hasLog : v.HasLog

theorem Noted.refl (h : w.HasLog) : w.Noted w := ⟨rfl, rfl, rfl, fun _ => rfl, fun _ _ => rfl, h⟩

theorem Noted.trans (h : u.Noted v) (h' : v.Noted w) : u.Noted w := by
  refine ⟨h'.depth.trans h.depth, h'.clock.trans h.clock, h'.log.trans h.log,
    fun p => (h'.locate p).trans (h.locate p), fun loc hloc => ?_, h'.hasLog⟩
  rw [h'.elsewhere loc (by rwa [h.log]), h.elsewhere loc hloc]

/-- A note changes no file but the log file. -/
theorem find?_note {loc : Location} (h : ∀ f, w.log = some f → loc ≠ f.location) (e : Entry) :
    (w.note e).tree.find? loc = w.tree.find? loc := by
  rcases w.logged_cases e with hkept | ⟨f, added, hlog, hadded⟩
  · rw [note, hkept]
  · rw [note, hadded, Tree.find?_put_of_ne (h f hlog)]

theorem noted_note (h : w.HasLog) (e : Entry) : w.Noted (w.note e) := by
  rcases w.logged_cases e with hkept | ⟨f, added, hlog, hadded⟩
  · refine ⟨rfl, rfl, rfl, fun p => ?_, fun loc hloc => find?_note hloc e, fun f hf => ?_⟩
    · rw [locate, locate, note, hkept]
    · rw [note, hkept]
      exact h f hf
  · obtain ⟨bytes, hfile⟩ := h f hlog
    have hne : f.location ≠ [] := Tree.ne_nil_of_find? hfile (by simp)
    refine ⟨rfl, rfl, rfl, fun p => ?_, fun loc hloc => find?_note hloc e, fun g hg => ?_⟩
    · simp only [locate, note, hadded, Tree.locate, Tree.locateFrom_put_file hfile]
    · rw [show (w.note e).log = some f from hlog, Option.some.injEq] at hg
      exact ⟨added, by rw [← hg, note, hadded, Tree.find?_put_self hne]⟩

theorem Noted.node (h : w.Noted v) {p : Path} (hp : ∀ f, w.log = some f → w.locate p ≠ .ok f.location) :
    v.node p = w.node p := by
  rw [Workspace.node, Workspace.node, h.locate]
  rcases hl : w.locate p with o | loc
  · rfl
  · rw [ok_bind, ok_bind, h.elsewhere loc fun f hf heq => hp f hf (by rw [hl, heq])]

end Workspace

namespace Store

variable {s : Store} {v w : Workspace} {p : Path} {name : String}

/-! ### Reading one document -/

/-- What reading the document at a path answers. -/
def answer (w : Workspace) (p : Path) : Except Failure (Option Snapshot) := ((readDocument p).exec w).1

theorem exec_readDocument_answer (w : Workspace) (p : Path) : (readDocument p).exec w = (answer w p, w) := by
  rw [answer, exec_readDocument]

/-- The text of a document as it is read. -/
def textOf (text : String) : String := String.ofList (unifyLineEnds text.toList)

/-- Reading a document fails with something that is no failure of the store. -/
inductive Escapes (w : Workspace) (p : Path) : Failure → Prop
  | refused (long : w.locate p = .error .nameTooLong) : Escapes w p .system
  | tooDeep {bytes : ByteArray} {text : String} (file : w.node p = .ok (.file bytes))
      (utf8 : String.fromUTF8? bytes = some text) (document : Document.read w.depth (textOf text) = .error .tooDeep) :
      Escapes w p (.fault .tooDeep)
  | outOfRange {bytes : ByteArray} {text : String} {v : Value} (file : w.node p = .ok (.file bytes))
      (utf8 : String.fromUTF8? bytes = some text) (document : Document.read w.depth (textOf text) = .ok v)
      (overflows : Snapshot.Overflows v) (snapshot : Snapshot.ofValue v = .error .outOfRange) :
      Escapes w p (.fault .outOfRange)

/-- What reading a document comes to. -/
inductive Reads (w : Workspace) (p : Path) : Except Failure (Option Snapshot) → Prop
  | absent {o : Obstacle} (nothing : w.node p = .error o) : Reads w p (.ok none)
  | found {bytes : ByteArray} {text : String} {v : Value} {x : Snapshot} (file : w.node p = .ok (.file bytes))
      (utf8 : String.fromUTF8? bytes = some text) (document : Document.read w.depth (textOf text) = .ok v)
      (snapshot : Snapshot.ofValue v = .ok x) : Reads w p (.ok (some x))
  | malformed {bytes : ByteArray} (cause : RecordFault) (file : w.node p = .ok (.file bytes)) :
      Reads w p (.error (.malformedRecord p.text cause))
  | directory (at_ : w.node p = .ok .directory) :
      Reads w p (.error (.storage p.text (.read ⟨.isDirectory, p.text, none⟩)))
  | escaped {e : Failure} (why : Escapes w p e) : Reads w p (.error e)

theorem isRecordFault_iff {e : Fault} : isRecordFault e = true ↔ e ≠ .tooDeep ∧ e ≠ .outOfRange := by
  cases e <;> simp [isRecordFault]

theorem reads_decode {bytes : ByteArray} (file : w.node p = .ok (.file bytes)) :
    Reads w p ((decode w.depth p bytes).map some) := by
  rw [decode]
  rcases hutf8 : String.fromUTF8? bytes with _ | text
  · exact .malformed _ file
  · simp only
    rcases hdoc : Document.read w.depth (textOf text) with e | v
    · -- a text is never out of range
      have hbind : (Except.error e : Except Fault Value).bind Snapshot.ofValue = .error e := rfl
      rw [show Document.read w.depth (String.ofList (unifyLineEnds text.toList)) = .error e from hdoc, hbind]
      rcases Document.readFault_read hdoc with rfl | ⟨f, rfl⟩
      · exact .escaped (.tooDeep file hutf8 hdoc)
      · exact .malformed _ file
    · have hbind : (Except.ok v : Except Fault Value).bind Snapshot.ofValue = Snapshot.ofValue v := rfl
      rw [show Document.read w.depth (String.ofList (unifyLineEnds text.toList)) = .ok v from hdoc, hbind]
      rcases hx : Snapshot.ofValue v with e | x
      · obtain ⟨hdeep, hrange⟩ := Snapshot.strays_ofValue v e hx
        by_cases he : e = .outOfRange
        · subst he
          exact .escaped (.outOfRange file hutf8 hdoc (hrange rfl) hx)
        · simp only [isRecordFault_iff.mpr ⟨hdeep, he⟩, if_true]
          exact .malformed _ file
      · exact .found file hutf8 hdoc hx

theorem reads_answer (w : Workspace) (p : Path) : Reads w p (answer w p) := by
  rw [answer, exec_readDocument]
  rcases hn : w.node p with o | ⟨_ | bytes⟩
  · by_cases ho : o = .nameTooLong
    · subst ho
      exact .escaped (.refused (Workspace.node_eq_nameTooLong.mp hn))
    · have hreads := Reads.absent hn
      cases o
      case nameTooLong => exact absurd rfl ho
      all_goals exact hreads
  · exact .directory hn
  · exact reads_decode hn

theorem decode_of_utf8 {bytes : ByteArray} {text : String} (utf8 : String.fromUTF8? bytes = some text) (depth : ℕ) :
    decode depth p bytes = match (Document.read depth (textOf text)).bind Snapshot.ofValue with
      | .ok snapshot => .ok snapshot
      | .error fault =>
          if isRecordFault fault then .error (.malformedRecord p.text (.content fault)) else .error fault := by
  rw [decode, utf8]
  rfl

theorem Escapes.answer_eq {e : Failure} (h : Escapes w p e) : answer w p = .error e := by
  rw [answer, exec_readDocument]
  cases h with
  | refused long => rw [Workspace.node_eq_nameTooLong.mpr long]
  | tooDeep file utf8 document =>
    rw [file]
    simp only [decode_of_utf8 utf8, document]
    rfl
  | outOfRange file utf8 document _ snapshot =>
    rw [file]
    simp only [decode_of_utf8 utf8, document, Except.bind, snapshot]
    rfl

/-! ### One document of a listing -/

/-- The snapshot that a reading found. -/
def found? : Except Failure (Option Snapshot) → Option Snapshot
  | .ok found => found
  | .error _ => none

def warning? (name : String) : Except Failure (Option Snapshot) → Option Entry
  | .error (.malformedRecord _ cause) =>
      some ⟨.store, .warning, "Skipping unreadable snapshot " ++ name ++ ": " ++ cause.label⟩
  | .error (.storage _ cause) => some ⟨.store, .warning, "Skipping snapshot " ++ name ++ ": " ++ cause.label⟩
  | _ => none

/-- What a document of the store answers. -/
def answerOf (s : Store) (w : Workspace) (name : String) : Except Failure (Option Snapshot) := answer w (s.root.child name)

theorem answerOf_of_node {x : Snapshot} (hnode : w.node (s.root.child name) = .ok (.file x.text.toUTF8))
    (hcheck : x.check = .ok x) (hread : Readable w.depth x) : s.answerOf w name = .ok (some x) := by
  rw [answerOf, answer, exec_readDocument, hnode]
  simp only [decode_text _ hcheck hread, Except.map]

/-- A listing goes on after this document. -/
def GoesOn (s : Store) (w : Workspace) (name : String) : Prop := ∀ e, ¬Escapes w (s.root.child name) e

/-- The log file, if there is one, is there and is no document of a snapshot. -/
def LogBeside (s : Store) (w : Workspace) : Prop :=
  w.HasLog ∧ ∀ f, w.log = some f → ∀ name, isSnapshotName name = true → f.location ≠ s.location ++ [name]

/-- Where the name of a document leads. -/
theorem locate_child {loc : Location} (hname : isSnapshotName name = true) (h : w.locate (s.root.child name) = .ok loc) :
    loc = s.location ++ [name] := by
  have hdots : name ≠ ".." := by
    rintro rfl
    revert hname
    decide
  exact (Tree.locate_eq_resolve h).trans (Tree.resolve_concat hdots [] s.root.parts)

theorem answerOf_noted (hlog : s.LogBeside w) (hv : w.Noted v) (hname : isSnapshotName name = true) :
    s.answerOf v name = s.answerOf w name := by
  rw [answerOf, answerOf, answer, answer, exec_readDocument, exec_readDocument, hv.depth,
    hv.node fun f hf hlocate => hlog.2 f hf name hname (locate_child hname hlocate)]

/-- A document that can be read or is left out; the listing goes on. -/
theorem readListed_goes (hlog : s.LogBeside w) (hv : w.Noted v) (hname : isSnapshotName name = true)
    (h : s.GoesOn w name) : ∃ u, (s.readListed name).exec v = (.ok (found? (s.answerOf w name)), u) ∧
      w.Noted u ∧ u.journal = v.journal ++ (warning? name (s.answerOf w name)).toList := by
  have hreads := reads_answer w (s.root.child name)
  rw [readListed, Action.exec_tryCatch, exec_readDocument_answer, ← answerOf, answerOf_noted hlog hv hname]
  rw [← answerOf] at hreads
  have hnote : ∀ e, w.Noted (v.note e) := fun e => hv.trans (Workspace.noted_note hv.hasLog e)
  generalize s.answerOf w name = r at hreads ⊢
  cases hreads with
  | absent => exact ⟨v, rfl, hv, by simp [warning?]⟩
  | found => exact ⟨v, rfl, hv, by simp [warning?]⟩
  | malformed => exact ⟨_, rfl, hnote _, rfl⟩
  | directory => exact ⟨_, rfl, hnote _, rfl⟩
  | escaped why => exact absurd why (h _)

/-- A document at which a listing ends. -/
theorem readListed_stops (hlog : s.LogBeside w) (hv : w.Noted v) (hname : isSnapshotName name = true) {e : Failure}
    (h : Escapes w (s.root.child name) e) : (s.readListed name).exec v = (.error e, v) := by
  have hanswer : s.answerOf v name = .error e := (answerOf_noted hlog hv hname).trans h.answer_eq
  rw [readListed, Action.exec_tryCatch, exec_readDocument_answer, ← answerOf, hanswer]
  cases h
  all_goals rfl

/-! ### All documents of a listing -/

theorem pass_goes (hlog : s.LogBeside w) : ∀ {names : List String} {v : Workspace},
    (∀ name ∈ names, isSnapshotName name = true ∧ s.GoesOn w name) → w.Noted v →
      ∃ u, (names.filterMapM s.readListed).exec v = (.ok (names.filterMap fun n => found? (s.answerOf w n)), u) ∧
        w.Noted u ∧ u.journal = v.journal ++ names.filterMap fun n => warning? n (s.answerOf w n)
  | [], v, _, hv => ⟨v, rfl, hv, by simp⟩
  | name :: names, v, h, hv => by
    obtain ⟨hname, hgoes⟩ := h name (by simp)
    obtain ⟨u, hexec, hu, hjournal⟩ := readListed_goes hlog hv hname hgoes
    obtain ⟨u', hexec', hu', hjournal'⟩ := pass_goes hlog (fun n hn => h n (List.mem_cons_of_mem name hn)) hu
    refine ⟨u', ?_, hu', ?_⟩
    · rw [List.filterMapM_cons, Action.exec_bind_ok hexec, List.filterMap_cons]
      rcases found? (s.answerOf w name) with _ | x
      · exact hexec'
      · exact Action.exec_bind_ok hexec' _
    · rw [hjournal', hjournal, List.append_assoc, List.filterMap_cons]
      rcases warning? name (s.answerOf w name) with _ | e
      · rfl
      · rfl

theorem pass_stops (hlog : s.LogBeside w) {e : Failure} (hname : isSnapshotName name = true)
    (hstop : Escapes w (s.root.child name) e) (after : List String) : ∀ {before : List String} {v : Workspace},
    (∀ name ∈ before, isSnapshotName name = true ∧ s.GoesOn w name) → w.Noted v →
      ∃ u, ((before ++ name :: after).filterMapM s.readListed).exec v = (.error e, u) ∧
        w.Noted u ∧ u.journal = v.journal ++ before.filterMap fun n => warning? n (s.answerOf w n)
  | [], v, _, hv => by
    refine ⟨v, ?_, hv, by simp⟩
    rw [List.nil_append, List.filterMapM_cons]
    exact Action.exec_bind_error (readListed_stops hlog hv hname hstop) _
  | n :: before, v, h, hv => by
    obtain ⟨hn, hgoes⟩ := h n (by simp)
    obtain ⟨u, hexec, hu, hjournal⟩ := readListed_goes hlog hv hn hgoes
    obtain ⟨u', hexec', hu', hjournal'⟩ :=
      pass_stops hlog hname hstop after (fun m hm => h m (List.mem_cons_of_mem n hm)) hu
    refine ⟨u', ?_, hu', ?_⟩
    · rw [List.cons_append, List.filterMapM_cons, Action.exec_bind_ok hexec]
      rcases found? (s.answerOf w n) with _ | x
      · exact hexec'
      · exact Action.exec_bind_error hexec' _
    · rw [hjournal', hjournal, List.append_assoc, List.filterMap_cons]
      rcases warning? n (s.answerOf w n) with _ | e
      · rfl
      · rfl

def listedNames (s : Store) (w : Workspace) : List String := snapshotNames w.tree s.location

theorem isSnapshotName_of_mem (h : name ∈ s.listedNames w) : isSnapshotName name = true := by
  rw [listedNames, snapshotNames, List.mem_mergeSort] at h
  exact List.of_mem_filter h

/-- The documents of a store that can be read, the latest first. -/
def readable (s : Store) (w : Workspace) : List Snapshot :=
  ((s.listedNames w).filterMap fun n => found? (s.answerOf w n)).mergeSort fun a b => b.timestamp ≤ a.timestamp

theorem exec_list (hroot : w.node s.root = .ok .directory) : s.list.exec w =
    ((do return (← (s.listedNames w).filterMapM s.readListed).mergeSort fun a b => b.timestamp ≤ a.timestamp :
      Action (List Snapshot))).exec w := by
  have hisdir : (Action.isDirectory s.root).exec w = (.ok true, w) := by
    simp only [Action.isDirectory, Action.exec_bind, Action.exec_node?, hroot, Action.exec_pure]
  obtain ⟨loc, hloc, -⟩ := Workspace.node_eq_ok.mp hroot
  have hplace : loc = s.location := Tree.locate_eq_resolve hloc
  subst hplace
  rw [list, Action.exec_bind_ok hisdir, if_pos rfl, Action.exec_bind_ok Action.exec_get, hloc]
  rfl

theorem exec_list_refused (h : w.locate s.root = .error .nameTooLong) : s.list.exec w = (.error .system, w) := by
  have hisdir : (Action.isDirectory s.root).exec w = (.error .system, w) := by
    simp only [Action.isDirectory, Action.exec_bind, Action.exec_node?, Workspace.node_eq_nameTooLong.mpr h]
  exact Action.exec_bind_error hisdir _

theorem exec_list_nowhere (h : w.locate s.root ≠ .error .nameTooLong) (hroot : w.node s.root ≠ .ok .directory) :
    s.list.exec w = (.ok [], w) := by
  have hisdir : (Action.isDirectory s.root).exec w = (.ok false, w) := by
    simp only [Action.isDirectory, Action.exec_bind, Action.exec_node?]
    rcases hn : w.node s.root with o | ⟨_ | bytes⟩
    · rcases o
      case nameTooLong => exact absurd (Workspace.node_eq_nameTooLong.mp hn) h
      all_goals rfl
    · exact absurd hn hroot
    · rfl
  rw [list, Action.exec_bind_ok hisdir]
  rfl

/-- A listing of documents after each of which it goes on: it gives those that can be read and warns once of each that
cannot. -/
theorem list_ok (hlog : s.LogBeside w) (hroot : w.node s.root = .ok .directory)
    (h : ∀ name ∈ s.listedNames w, s.GoesOn w name) : ∃ v, s.list.exec w = (.ok (s.readable w), v) ∧
      w.Noted v ∧ v.journal = w.journal ++ (s.listedNames w).filterMap fun n => warning? n (s.answerOf w n) := by
  obtain ⟨v, hexec, hv, hjournal⟩ :=
    pass_goes hlog (fun n hn => ⟨isSnapshotName_of_mem hn, h n hn⟩) (.refl hlog.1)
  refine ⟨v, ?_, hv, hjournal⟩
  rw [exec_list hroot, Action.exec_bind_ok hexec]
  rfl

/-- A listing ends at the first document after which it does not go on. -/
theorem list_stops (hlog : s.LogBeside w) (hroot : w.node s.root = .ok .directory) {before after : List String}
    (hnames : s.listedNames w = before ++ name :: after) (h : ∀ n ∈ before, s.GoesOn w n) {e : Failure}
    (hstop : Escapes w (s.root.child name) e) : ∃ v, s.list.exec w = (.error e, v) ∧
      w.Noted v ∧ v.journal = w.journal ++ before.filterMap fun n => warning? n (s.answerOf w n) := by
  have hall : ∀ n ∈ before ++ name :: after, isSnapshotName n = true := fun n hn =>
    isSnapshotName_of_mem (hnames ▸ hn)
  obtain ⟨v, hexec, hv, hjournal⟩ := pass_stops hlog (hall name (by simp)) hstop after
    (fun n hn => ⟨hall n (by simp [hn]), h n hn⟩) (.refl hlog.1)
  refine ⟨v, ?_, hv, hjournal⟩
  rw [exec_list hroot, hnames]
  exact Action.exec_bind_error hexec _

/-- A listing goes on to the end, or there is a first document at which it ends. -/
theorem goesOn_or_stops : ∀ names : List String, (∀ n ∈ names, s.GoesOn w n) ∨ ∃ before name after e,
    names = before ++ name :: after ∧ (∀ n ∈ before, s.GoesOn w n) ∧ Escapes w (s.root.child name) e
  | [] => Or.inl (by simp)
  | name :: names => by
    by_cases h : s.GoesOn w name
    · rcases goesOn_or_stops names with hrest | ⟨before, n, after, e, rfl, hbefore, hstop⟩
      · exact Or.inl (List.forall_mem_cons.mpr ⟨h, hrest⟩)
      · exact Or.inr ⟨name :: before, n, after, e, rfl, List.forall_mem_cons.mpr ⟨h, hbefore⟩, hstop⟩
    · simp only [GoesOn, not_forall, not_not] at h
      obtain ⟨e, he⟩ := h
      exact Or.inr ⟨[], name, names, e, rfl, by simp, he⟩

/-- A document of the listing that holds this snapshot. -/
def Listed (s : Store) (w : Workspace) (name : String) (x : Snapshot) : Prop :=
  name ∈ s.listedNames w ∧ s.answerOf w name = .ok (some x)

theorem mem_readable {x : Snapshot} : x ∈ s.readable w ↔ ∃ name, s.Listed w name x := by
  rw [readable, List.mem_mergeSort, List.mem_filterMap]
  refine exists_congr fun name => and_congr_right fun _ => ?_
  rcases s.answerOf w name with e | r
  · simp [found?]
  · simp [found?]

/-- What is listed is in the documents, and only notes are added, however a listing ends. -/
theorem list_ends (hlog : s.LogBeside w) : s.list.Ends w
    (fun xs v => w.Noted v ∧ ∀ x ∈ xs, ∃ name, s.Listed w name x) fun _ v => w.Noted v := by
  by_cases hlong : w.locate s.root = .error .nameTooLong
  · exact .of_error (exec_list_refused hlong) (.refl hlog.1)
  by_cases hroot : w.node s.root = .ok .directory
  · rcases s.goesOn_or_stops (w := w) (s.listedNames w) with h | ⟨before, name, after, e, hnames, h, hstop⟩
    · obtain ⟨v, hexec, hv, -⟩ := list_ok hlog hroot h
      exact .of_ok hexec ⟨hv, fun x hx => mem_readable.mp hx⟩
    · obtain ⟨v, hexec, hv, -⟩ := list_stops hlog hroot hnames h hstop
      exact .of_error hexec hv
  · exact .of_ok (exec_list_nowhere hlong hroot) ⟨.refl hlog.1, by simp⟩

/-- Loading comes to one of seven things, and a listing leaves out what cannot be read with one warning each.  Neither
fails with anything but a failure of the store, unless the file system refuses a name, a document is nested too deeply,
or a number of it is out of range; the first such document ends a listing. -/
theorem skips_unreadable (s : Store) (w : Workspace) :
    (∀ id, isId id = true → (s.load id).exec w = (answer w ((Slot.snapshot id).path s), w)) ∧
    (∀ branch, ((s.loadBaseline branch).exec w).1 = answer w ((Slot.baseline branch).path s)) ∧
    (∀ p, Reads w p (answer w p)) ∧
    (w.locate s.root = .error .nameTooLong → s.list.exec w = (.error .system, w)) ∧
    (w.locate s.root ≠ .error .nameTooLong → w.node s.root ≠ .ok .directory → s.list.exec w = (.ok [], w)) ∧
    (s.LogBeside w → w.node s.root = .ok .directory →
      ((∀ name ∈ s.listedNames w, s.GoesOn w name) → ∃ v, s.list.exec w = (.ok (s.readable w), v) ∧
        v.journal = w.journal ++ (s.listedNames w).filterMap fun n => warning? n (s.answerOf w n)) ∧
      ∀ before name after e, s.listedNames w = before ++ name :: after → (∀ n ∈ before, s.GoesOn w n) →
        Escapes w (s.root.child name) e → ∃ v, s.list.exec w = (.error e, v) ∧
          v.journal = w.journal ++ before.filterMap fun n => warning? n (s.answerOf w n)) := by
  refine ⟨fun id hid => ?_, fun branch => loadBaseline_result branch w, reads_answer w, fun hlong => ?_,
    fun hshort hroot => ?_, fun hlog hroot => ⟨fun h => ?_, fun before name after e hnames h hstop => ?_⟩⟩
  · rw [load, snapshotPath_eq_ok hid, Action.exec_bind_ok (Action.exec_lift_fault _), exec_readDocument_answer]
  · exact exec_list_refused hlong
  · exact exec_list_nowhere hshort hroot
  · obtain ⟨v, hexec, -, hjournal⟩ := list_ok hlog hroot h
    exact ⟨v, hexec, hjournal⟩
  · obtain ⟨v, hexec, -, hjournal⟩ := list_stops hlog hroot hnames h hstop
    exact ⟨v, hexec, hjournal⟩

/-- A directory with a document that is no text. -/
def damaged : Workspace :=
  { blank with tree := ⟨[(["s"], .directory), (["s", "a.json"], .file ⟨#[0xff]⟩)]⟩ }

/-- A directory with two such documents, and between them one whose time is infinite. -/
def endless : Workspace :=
  { blank with tree := ⟨[(["s"], .directory), (["s", "a.json"], .file ⟨#[0xff]⟩),
      (["s", "b.json"], .file "\x7b\"id\":1,\"timestamp\":Infinity\x7d".toUTF8), (["s", "c.json"], .file ⟨#[0xff]⟩)]⟩ }

/-- A listing goes on after a document whose answer is of the right kind. -/
theorem goesOn_of_answer {r : Except Failure (Option Snapshot)} (h : s.answerOf w name = r)
    (hr : ∀ e, r = .error e → e ≠ .system ∧ ∀ f, e ≠ .fault f) : s.GoesOn w name := by
  intro e he
  obtain ⟨hsystem, hfault⟩ := hr e (h.symm.trans he.answer_eq)
  cases he
  case refused => exact hsystem rfl
  all_goals exact hfault _ rfl

theorem skips_undecodable :
    (beside.load "a").exec damaged = (.error (.malformedRecord "s/a.json" .encoding), damaged) ∧
    (∃ v, beside.list.exec damaged = (.ok [], v) ∧ v.journal =
      [⟨.store, .warning, "Skipping unreadable snapshot a.json: not UTF-8: UnicodeDecodeError"⟩]) ∧
    ∃ v, beside.list.exec endless = (.error (.fault .outOfRange), v) ∧ v.journal =
      [⟨.store, .warning, "Skipping unreadable snapshot a.json: not UTF-8: UnicodeDecodeError"⟩] := by
  have hanswer : beside.answerOf damaged "a.json" = .error (.malformedRecord "s/a.json" .encoding) ∧
      beside.answerOf endless "a.json" = .error (.malformedRecord "s/a.json" .encoding) := by
    constructor
    all_goals
      rw [answerOf, answer, exec_readDocument]
      rfl
  have hgoes : beside.GoesOn damaged "a.json" ∧ beside.GoesOn endless "a.json" :=
    ⟨goesOn_of_answer hanswer.1 (by simp), goesOn_of_answer hanswer.2 (by simp)⟩
  have hescapes : Escapes endless (beside.root.child "b.json") (.fault .outOfRange) := by
    have file : endless.node (beside.root.child "b.json") =
        .ok (.file "\x7b\"id\":1,\"timestamp\":Infinity\x7d".toUTF8) := by decide +kernel
    have utf8 : String.fromUTF8? "\x7b\"id\":1,\"timestamp\":Infinity\x7d".toUTF8 =
        some "\x7b\"id\":1,\"timestamp\":Infinity\x7d" := by decide +kernel
    have document : Document.read endless.depth (textOf "\x7b\"id\":1,\"timestamp\":Infinity\x7d") =
        .ok (.table [("id", .int 1), ("timestamp", .real (.infinity false))]) := by decide +kernel
    exact .outOfRange file utf8 document (.time ⟨"timestamp", by simp, _, rfl, false, rfl⟩) rfl
  have hnames : beside.listedNames damaged = ["a.json"] ∧
      beside.listedNames endless = ["a.json"] ++ "b.json" :: ["c.json"] :=
    ⟨by decide +kernel, List.mergeSort_of_pairwise (by decide +kernel)⟩
  obtain ⟨hload, -, -, -, -, hlist⟩ := beside.skips_unreadable damaged
  obtain ⟨-, -, -, -, -, hstops⟩ := beside.skips_unreadable endless
  refine ⟨?_, ?_, ?_⟩
  · rw [hload "a" (by decide)]
    exact congrArg (·, damaged) hanswer.1
  · obtain ⟨v, hexec, hjournal⟩ := (hlist ⟨nofun, nofun⟩ (by decide +kernel)).1 (fun name hname => by
      rw [hnames.1, List.mem_singleton] at hname
      exact hname ▸ hgoes.1)
    simp only [readable, hnames.1, List.filterMap_cons, hanswer.1, found?, List.filterMap_nil, List.mergeSort_nil] at hexec
    rw [hnames.1, List.filterMap_cons, hanswer.1] at hjournal
    exact ⟨v, hexec, hjournal⟩
  · obtain ⟨v, hexec, hjournal⟩ := (hstops ⟨nofun, nofun⟩ (by decide +kernel)).2 ["a.json"] "b.json" ["c.json"] _
      hnames.2 (fun name hname => by
        rw [List.mem_singleton] at hname
        exact hname ▸ hgoes.2) hescapes
    rw [List.filterMap_cons, hanswer.2] at hjournal
    exact ⟨v, hexec, hjournal⟩

end Store

end ScoreGate
