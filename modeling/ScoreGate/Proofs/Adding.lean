import ScoreGate.Proofs.Checking
import ScoreGate.Proofs.Filling

/-!
# Adding to a workspace

Much of what is done to a workspace only adds to it: notes go to the end of a log file, directories are made where nothing
was, and documents are written that were not there.  Where what may happen is kept apart by places, it can be chained, and
whatever is at no such place is as it was.

* `Room`: the places where files may grow, where files may be written, and where directories may be made.
* `Workspace.Adds`: a workspace that differs from an earlier one by additions only.
* `Adds.put`, `Adds.note`, `Adds.replaceFile`: what only adds.
* `Store.create_adds`, `Check.preserves_observe`: recording analyses, and what comes before it.
-/

namespace ScoreGate

/-! ### Places -/

/-- Where files may grow, where files may be written, and where directories may be made. -/
structure Room where
  grows : Location → Prop
  written : Location → Prop
  way : Location → Prop

def Room.notes (w : Workspace) : Room := ⟨fun loc => ∃ f, w.log = some f ∧ loc = f.location, fun _ => False, fun _ => False⟩

/-- What may become of what stands at a location. -/
inductive Room.Takes (room : Room) (loc : Location) : Option Node → Option Node → Prop
  | kept (n : Option Node) : room.Takes loc n n
  | grown {old : ByteArray} (h : room.grows loc) (more : ByteArray) :
      room.Takes loc (some (.file old)) (some (.file (old ++ more)))
  | begun (h : room.grows loc) (bytes : ByteArray) : room.Takes loc none (some (.file bytes))
  | written {n : Option Node} (h : room.written loc) (hn : n ≠ some .directory) (bytes : ByteArray) :
      room.Takes loc n (some (.file bytes))
  | made (h : room.way loc) : room.Takes loc none (some .directory)

namespace Room.Takes

variable {room room' : Room} {loc : Location} {l m n : Option Node} {bytes : ByteArray}

theorem trans (h : room.Takes loc l m) (h' : room.Takes loc m n) : room.Takes loc l n := by
  cases h' with
  | kept => exact h
  | @grown old hloc more =>
    cases h with
    | kept => exact .grown hloc more
    | @grown older _ some =>
      rw [ByteArray.append_assoc]
      exact .grown hloc _
    | begun => exact .begun hloc _
    | written hwritten hl => exact .written hwritten hl _
  | begun hloc bytes =>
    cases h
    exact .begun hloc bytes
  | written hwritten hm bytes =>
    refine .written hwritten ?_ bytes
    rintro rfl
    cases h
    case kept => exact hm rfl
    case written hl => exact hl rfl
  | made hway =>
    cases h
    exact .made hway

theorem mono (h : room.Takes loc m n) (hgrows : room.grows loc → room'.grows loc)
    (hwritten : room.written loc → room'.written loc) (hway : room.way loc → room'.way loc) : room'.Takes loc m n := by
  cases h with
  | kept => exact .kept _
  | grown hloc more => exact .grown (hgrows hloc) more
  | begun hloc bytes => exact .begun (hgrows hloc) bytes
  | written hloc hn bytes => exact .written (hwritten hloc) hn bytes
  | made hloc => exact .made (hway hloc)

theorem directory (h : room.Takes loc (some .directory) n) : n = some .directory := by
  cases h with
  | kept => rfl
  | written _ hn => exact absurd rfl hn

theorem stays_file (h : room.Takes loc (some (.file bytes)) n) : ∃ now, n = some (.file now) := by
  cases h with
  | kept => exact ⟨_, rfl⟩
  | grown => exact ⟨_, rfl⟩
  | written => exact ⟨_, rfl⟩

/-- Nothing happens where nothing may. -/
theorem eq (h : room.Takes loc m n) (hgrows : ¬room.grows loc) (hwritten : ¬room.written loc)
    (hway : m = none → ¬room.way loc) : n = m := by
  cases h with
  | kept => rfl
  | grown hloc => exact absurd hloc hgrows
  | begun hloc => exact absurd hloc hgrows
  | written hloc => exact absurd hloc hwritten
  | made hloc => exact absurd hloc (hway rfl)

theorem file (h : room.Takes loc (some (.file bytes)) n) (hwritten : ¬room.written loc) :
    n = some (.file bytes) ∨ room.grows loc ∧ ∃ more, n = some (.file (bytes ++ more)) := by
  cases h with
  | kept => exact Or.inl rfl
  | grown hloc more => exact Or.inr ⟨hloc, more, rfl⟩
  | written hloc => exact absurd hloc hwritten

/-- Where neither may happen a file stays what it is, and no file is new. -/
theorem file_iff (h : room.Takes loc m n) (hgrows : ¬room.grows loc) (hwritten : ¬room.written loc) :
    n = some (.file bytes) ↔ m = some (.file bytes) := by
  cases h with
  | kept => exact Iff.rfl
  | grown hloc => exact absurd hloc hgrows
  | begun hloc => exact absurd hloc hgrows
  | written hloc => exact absurd hloc hwritten
  | made => simp

theorem of_file (h : room.Takes loc m (some (.file bytes))) :
    (∃ old, m = some (.file old)) ∨ room.grows loc ∨ room.written loc := by
  cases h with
  | kept => exact Or.inl ⟨bytes, rfl⟩
  | @grown old => exact Or.inl ⟨old, rfl⟩
  | begun hloc => exact Or.inr (Or.inl hloc)
  | written hloc => exact Or.inr (Or.inr hloc)

end Room.Takes

/-! ### Workspaces -/

namespace Workspace

variable {room : Room} {u v w : Workspace} {loc : Location}

/-- The log file, if there is one, is there and may grow. -/
def LogsTo (grows : Location → Prop) (w : Workspace) : Prop :=
  ∀ f, w.log = some f → grows f.location ∧ ∃ bytes, w.tree.find? f.location = some (.file bytes)

/-- The later workspace differs from the earlier one by additions where there is room for them. -/
structure Adds (room : Room) (w v : Workspace) : Prop where
  limits : v.limits = w.limits
  depth : v.depth = w.depth
  environment : v.environment = w.environment
  clock : v.clock = w.clock
  takes : ∀ loc, room.Takes loc (w.tree.find? loc) (v.tree.find? loc)
  unique : w.tree.Unique → v.tree.Unique
  log : v.LogsTo room.grows

namespace Adds

theorem refl (h : w.LogsTo room.grows) : w.Adds room w := ⟨rfl, rfl, rfl, rfl, fun _ => .kept _, id, h⟩

theorem trans (h : u.Adds room v) (h' : v.Adds room w) : u.Adds room w :=
  ⟨h'.limits.trans h.limits, h'.depth.trans h.depth, h'.environment.trans h.environment, h'.clock.trans h.clock,
    fun loc => (h.takes loc).trans (h'.takes loc), h'.unique ∘ h.unique, h'.log⟩

theorem mono {room' : Room} (h : w.Adds room v) (hgrows : ∀ loc, room.grows loc → room'.grows loc)
    (hwritten : ∀ loc, room.written loc → room'.written loc) (hway : ∀ loc, room.way loc → room'.way loc) :
    w.Adds room' v :=
  ⟨h.limits, h.depth, h.environment, h.clock, fun loc => (h.takes loc).mono (hgrows loc) (hwritten loc) (hway loc),
    h.unique, fun f hf => ⟨hgrows _ (h.log f hf).1, (h.log f hf).2⟩⟩

theorem directory (h : w.Adds room v) (hdir : w.tree.find? loc = some .directory) :
    v.tree.find? loc = some .directory := by
  have htakes := h.takes loc
  rw [hdir] at htakes
  exact htakes.directory

/-- A path that leads anywhere goes on leading there. -/
theorem locate (h : w.Adds room v) {p : Path} (hp : w.locate p = .ok loc) : v.locate p = .ok loc := by
  rw [Workspace.locate, h.limits]
  exact Tree.locate_mono (fun _ => h.directory) hp

theorem put {log : Option LogFile} {bytes : ByteArray} (h : w.Adds room v) (hdir : v.tree.find? loc ≠ some .directory)
    (htakes : room.Takes loc (v.tree.find? loc) (some (.file bytes))) (hlog : ∀ f, log = some f → v.log = some f) :
    w.Adds room { v with tree := v.tree.put loc (.file bytes), log } := by
  refine ⟨h.limits, h.depth, h.environment, h.clock, fun other => ?_, fun hw => Tree.unique_put (h.unique hw) loc _,
    fun f hf => ⟨(h.log f (hlog f hf)).1, ?_⟩⟩
  · by_cases heq : other = loc
    · subst heq
      rw [Tree.find?_put_self (Tree.ne_nil_of_find? rfl hdir)]
      exact (h.takes other).trans htakes
    · rw [Tree.find?_put_of_ne heq]
      exact h.takes other
  · obtain ⟨-, old, hold⟩ := h.log f (hlog f hf)
    exact Tree.file_put hold loc bytes

theorem of_grown {way : Location → Prop} {t : Tree} (h : w.Adds room v) (ht : Tree.Grown way v.tree t)
    (hway : ∀ loc, way loc → room.way loc) (hunique : v.tree.Unique → t.Unique) : w.Adds room { v with tree := t } := by
  refine ⟨h.limits, h.depth, h.environment, h.clock, fun loc => (h.takes loc).trans ?_, hunique ∘ h.unique,
    fun f hf => ⟨(h.log f hf).1, ?_⟩⟩
  · rcases hn : v.tree.find? loc with _ | n
    · rcases ht.added hn with hnone | ⟨hdir, hloc⟩
      · rw [hnone]
        exact .kept _
      · rw [hdir]
        exact .made (hway loc hloc)
    · rw [ht.kept (by simp [hn]), hn]
      exact .kept _
  · obtain ⟨-, bytes, hbytes⟩ := h.log f hf
    exact ⟨bytes, ht.file_iff.mpr hbytes⟩

theorem extend {log : Option LogFile} (h : w.Adds room v) (hgrows : room.grows loc)
    (hdir : v.tree.find? loc ≠ some .directory) (more : ByteArray) (hlog : ∀ f, log = some f → v.log = some f) :
    w.Adds room { v with tree := v.tree.put loc (.file (v.contentAt loc ++ more)), log } := by
  refine h.put hdir ?_ hlog
  rw [contentAt]
  rcases hn : v.tree.find? loc with _ | ⟨_ | old⟩
  · exact .begun hgrows _
  · exact absurd hn hdir
  · exact .grown hgrows more

/-- A note is added at the end of the log file, if there is one. -/
theorem note (h : w.Adds room v) (e : Entry) : w.Adds room (v.note e) := by
  have hlogged : w.Adds room { v with tree := v.logged e } := by
    rcases hlog : v.log with _ | f
    · rwa [show v.logged e = v.tree by rw [logged, hlog], ← hlog]
    · obtain ⟨hgrows, bytes, hbytes⟩ := h.log f hlog
      rw [logged, hlog]
      simp only
      split_ifs
      · exact h.extend hgrows (by simp [hbytes]) _ fun _ hf => hlog.trans hf
      · rwa [← hlog]
  exact ⟨hlogged.limits, hlogged.depth, hlogged.environment, hlogged.clock, hlogged.takes, hlogged.unique, hlogged.log⟩

theorem draw (h : w.Adds room v) (source : Source) : w.Adds room { v with source } :=
  ⟨h.limits, h.depth, h.environment, h.clock, h.takes, h.unique, h.log⟩

end Adds

/-- Notes only add to the log file. -/
theorem Notes.adds (h : w.Notes v) (hlog : w.LogsTo room.grows) : w.Adds room v := by
  obtain ⟨es, rfl⟩ := h
  induction es using List.reverseRecOn with
  | nil => exact .refl hlog
  | append_singleton es e ih =>
    rw [List.foldl_append]
    exact ih.note e

theorem Notes.adds_notes (h : w.Notes v) (hlog : w.HasLog) : w.Adds (.notes w) v :=
  h.adds fun f hf => ⟨⟨f, hf, rfl⟩, hlog f hf⟩

theorem Notes.eq_with (h : w.Notes v) : ∃ tree journal, v = { w with tree, journal } := by
  obtain ⟨es, rfl⟩ := h
  induction es using List.reverseRecOn with
  | nil => exact ⟨w.tree, w.journal, rfl⟩
  | append_singleton es e ih =>
    obtain ⟨tree, journal, h⟩ := ih
    rw [List.foldl_append, h]
    exact ⟨_, _, rfl⟩

theorem Notes.source (h : w.Notes v) : v.source = w.source := by
  obtain ⟨_, _, rfl⟩ := h.eq_with
  rfl

theorem Notes.clock (h : w.Notes v) : v.clock = w.clock := by
  obtain ⟨_, _, rfl⟩ := h.eq_with
  rfl

theorem Notes.refusal (h : w.Notes v) : v.refusal = w.refusal := by
  obtain ⟨_, _, rfl⟩ := h.eq_with
  rfl

end Workspace

/-! ### Replacing a file -/

theorem Tree.sublist_putIn (loc : Location) (n : Node) : ∀ es : List (Location × Node),
    (es.map Prod.fst).Sublist ((putIn loc n es).map Prod.fst)
  | [] => List.nil_sublist _
  | e :: es => by
    rw [putIn]
    split_ifs
    · exact List.Sublist.refl _
    · exact (sublist_putIn loc n es).cons_cons _

/-- There were no two entries for one location if there are none after something was put somewhere. -/
theorem Tree.unique_of_put {t : Tree} {loc : Location} {n : Node} (h : (t.put loc n).Unique) : t.Unique :=
  h.sublist (sublist_putIn loc n t.entries)

theorem mem_joinWith_of_mem {c : Char} {sep l : List Char} : ∀ {ls : List (List Char)}, l ∈ ls → c ∈ l → c ∈ joinWith sep ls
  | [], hl, _ => by simp at hl
  | [m], hl, hc => by
    obtain rfl := List.mem_singleton.mp hl
    exact hc
  | m :: k :: ls, hl, hc => by
    rw [joinWith_cons m (by simp), List.mem_append, List.mem_append]
    rcases List.mem_cons.mp hl with rfl | hl
    · exact Or.inl (Or.inl hc)
    · exact Or.inr (mem_joinWith_of_mem hl hc)

theorem Path.HasNul.mem_text {p : Path} (h : p.HasNul) : '\x00' ∈ p.text.toList := by
  obtain ⟨part, hpart, hnul⟩ := h
  rw [text]
  split_ifs with hempty
  · simp only [Bool.and_eq_true, decide_eq_true_eq, List.isEmpty_iff] at hempty
    rw [hempty.1, hempty.2, List.mem_singleton] at hpart
    subst hpart
    simp at hnul
  · rw [String.toList_append, List.mem_append, joinText, String.toList_ofList]
    rcases List.mem_cons.mp hpart with rfl | hpart
    · exact Or.inl hnul
    · exact Or.inr (mem_joinWith_of_mem (List.mem_map_of_mem hpart) hnul)

namespace Workspace

variable {room : Room} {u v w : Workspace} {loc : Location} {p : Path} {bytes : ByteArray}

/-- A path that leads anywhere holds no NUL. -/
theorem not_hasNul_of_locate (h : w.locate p = .ok loc) : ¬p.HasNul := by
  intro hnul
  obtain ⟨hcheck, -⟩ := Tree.locate_eq_ok.mp h
  rw [Tree.checkPath, if_pos (by simpa using hnul.mem_text)] at hcheck
  cases hcheck

/-- Replacing a file makes directories above it and writes it; a temporary file stays behind only for a NUL in its name. -/
theorem Adds.replaceFile (h : w.Adds room v) (bytes : ByteArray) (hwritten : room.written (Tree.resolve [] p.parts))
    (hway : ∀ loc, p.parent.Passes loc → room.way loc)
    (htemp : p.HasNul → ¬p.parent.HasNul → ∀ n, room.written (Tree.resolve [] p.parent.parts ++ [temporaryName n])) :
    w.Adds room (v.replaceFile p bytes).1 := by
  have hreplaced := v.replaceFile_replaced p bytes
  have hunique := fun hv => v.unique_replaceFile hv p bytes
  rcases hr : v.replaceFile p bytes with ⟨u, o⟩
  rw [hr] at hreplaced hunique
  cases hreplaced with
  | undone grown => exact h.of_grown grown hway hunique
  | @left t directory n fault grown parent free nul =>
    have hgrown := h.of_grown grown hway fun hv => Tree.unique_of_put (hunique hv)
    refine hgrown.put (by simp [free]) (.written ?_ (by simp [free]) bytes) fun _ hf => hf
    obtain rfl := Tree.locate_eq_resolve parent
    have hparent : ({ v with tree := t } : Workspace).locate p.parent = .ok (Tree.resolve [] p.parent.parts) := parent
    exact htemp (Store.hasNul_of_replaceFile hr nul) (not_hasNul_of_locate hparent) n
  | @done t loc grown target file =>
    have hgrown := h.of_grown grown hway fun hv => Tree.unique_of_put (hunique hv)
    obtain rfl := Tree.locate_eq_resolve target
    exact hgrown.put file (.written hwritten file bytes) fun f hf => (Option.filter_eq_some_iff.mp hf).1

end Workspace

namespace Store

variable {room : Room} {s : Store} {u v w : Workspace} {slot : Slot} {x : Snapshot}

/-- The document of a snapshot stands in a slot, and no log file in its place. -/
structure Places (s : Store) (slot : Slot) (x : Snapshot) (w : Workspace) : Prop where
  file : w.node (slot.path s) = .ok (.file x.text.toUTF8)
  apart : ∀ f, w.log = some f → slot.location s ≠ f.location

/-- It stays there where there is no room for anything else. -/
theorem Places.of_adds (h : s.Places slot x w) (hv : w.Adds room v) (hgrows : ¬room.grows (slot.location s))
    (hwritten : ¬room.written (slot.location s)) : s.Places slot x v := by
  obtain ⟨loc, hlocate, hfile⟩ := Workspace.node_eq_ok.mp h.file
  obtain rfl := Slot.eq_location hlocate
  refine ⟨Workspace.node_eq_ok.mpr ⟨_, hv.locate hlocate, ?_⟩, fun f hf heq => hgrows (heq ▸ (hv.log f hf).1)⟩
  have htakes := hv.takes (slot.location s)
  rw [hfile] at htakes
  rcases htakes.file hwritten with hkept | ⟨hloc, -⟩
  · exact hkept
  · exact absurd hloc hgrows

/-- It stays there while notes are taken. -/
theorem Places.notes (h : s.Places slot x w) (hlog : w.HasLog) (hv : w.Notes v) : s.Places slot x v := by
  refine h.of_adds (hv.adds_notes hlog) ?_ id
  rintro ⟨f, hf, heq⟩
  exact h.apart f hf heq

theorem writeDocument_adds (h : w.Adds room v) (hwritten : room.written (slot.location s))
    (hway : ∀ loc, (slot.path s).parent.Passes loc → room.way loc)
    (htemp : (slot.path s).HasNul → ¬(slot.path s).parent.HasNul →
      ∀ n, room.written (Tree.resolve [] (slot.path s).parent.parts ++ [Workspace.temporaryName n])) :
    (writeDocument (slot.path s) x).Ends v (fun _ u => w.Adds room u ∧ s.Places slot x u) fun _ u => w.Adds room u := by
  have hadds := h.replaceFile (p := slot.path s) x.text.toUTF8 (by rwa [← Slot.location_eq]) hway htemp
  have hreplaced := v.replaceFile_replaced (slot.path s) x.text.toUTF8
  refine ends_writeDocument (fun _ => h) (fun _ u hr => ?_) fun _ u fault hr => ?_
  · rw [hr] at hadds hreplaced
    refine ⟨hadds, ?_⟩
    cases hreplaced with
    | @done t loc grown target file =>
      have hplace : loc = slot.location s := (Tree.locate_eq_resolve target).trans (Slot.location_eq slot s).symm
      refine ⟨Workspace.node_eq_ok.mpr
        ⟨loc, Tree.locate_put file _ target, Tree.find?_put_self (Tree.ne_nil_of_find? rfl file) _⟩, ?_⟩
      intro f hf heq
      obtain ⟨-, hnot⟩ := Option.filter_eq_some_iff.mp hf
      simp [hplace, heq] at hnot
  · rwa [hr] at hadds

/-! ### Recording -/

def nextId (w : Workspace) : String := drawnId w.clock (w.source.draw suffixLength).1

/-- The id that is drawn next is taken if nothing stands in its slot, or its name is refused. -/
theorem freeId_next (hid : isId (nextId w) = true) (hfree : w.tree.find? ((Slot.snapshot (nextId w)).location s) = none)
    (fuel : ℕ) : (s.freeId (fuel + 1)).Ends w (fun id _ => id = nextId w) fun _ _ => True := by
  have hpath : s.snapshotPath (nextId w) = .ok ((Slot.snapshot (nextId w)).path s) := snapshotPath_eq_ok hid
  rw [freeId]
  refine .bind_ok (exec_generateId w) (.bind_ok (Action.exec_lift_ok hpath) ?_)
  refine .bind (Action.Ends.exists?.mono (fun _ _ h => h) fun _ _ _ => trivial) ?_
  rintro taken _ ⟨rfl, htaken⟩
  have hnot : taken = false := by
    rw [← Bool.not_eq_true]
    intro h
    obtain ⟨n, hn⟩ := htaken.mp h
    obtain ⟨loc, hlocate, hfound⟩ := Workspace.node_eq_ok.mp hn
    obtain rfl := Slot.eq_location hlocate
    have hsame : w.tree.find? ((Slot.snapshot (nextId w)).location s) = some n := hfound
    rw [hfree] at hsame
    cases hsame
  rw [hnot]
  exact .pure rfl

/-- Drawing ids leaves everything but the source of random characters. -/
theorem freeId_adds (h : w.Adds room v) (fuel : ℕ) : w.Adds room ((s.freeId fuel).exec v).2 := by
  have hframe : Action.Frame fun v u => w.Adds room v → w.Adds room u := ⟨fun _ => id, fun h h' => h' ∘ h⟩
  exact preserves_freeId hframe (fun _ source h => h.draw source) s fuel v h

/-- Saving a snapshot adds its document and the directories above it. -/
theorem save_adds (h : w.Adds room v) (hwritten : room.written ((Slot.snapshot x.id).location s))
    (hway : ∀ loc, s.root.Passes loc → room.way loc)
    (htemp : '\x00' ∈ x.id.toList → ∀ n, room.written (s.location ++ [Workspace.temporaryName n])) :
    (s.save x).Ends v (fun _ u => w.Adds room u ∧ s.Places (.snapshot x.id) x u) fun _ u => w.Adds room u := by
  have hparent := Slot.parent_snapshot x.id s
  refine ends_save (fun _ => h) fun _ => ?_
  refine (writeDocument_adds h hwritten (fun loc hloc => hway loc (hparent ▸ hloc)) fun hnul hroot n => ?_).mono ?_
    fun _ _ he => he
  · rw [hparent] at hroot ⊢
    refine htemp (by_contra fun hnot => hroot (hnul.of_join fun name hname => ?_)) n
    obtain rfl := List.mem_singleton.mp hname
    rw [documentName, String.toList_append, List.mem_append, not_or]
    exact ⟨hnot, by decide⟩
  · rintro _ u ⟨hu, hplaced⟩ e
    have hlog : u.HasLog := fun f hf => (hu.log f hf).2
    exact ⟨hu.note e, hplaced.notes hlog (Workspace.notes_note u e)⟩

/-- Recording some summaries adds a document under the id that is drawn, and the directories above it. -/
theorem create_adds {P : String → Prop} {files : List FileSummary} {branch commit : String} {environment : Option Provenance}
    (h : w.Adds room v) (hdraw : ∀ u, v.Notes u → (s.freeId (idsToTry u)).Ends u (fun id _ => P id) fun _ _ => True)
    (hwritten : ∀ id, P id → room.written ((Slot.snapshot id).location s)) (hway : ∀ loc, s.root.Passes loc → room.way loc)
    (htemp : ∀ id, P id → '\x00' ∈ id.toList → ∀ n, room.written (s.location ++ [Workspace.temporaryName n])) :
    (s.create files branch commit environment).Ends v
      (fun x u => P x.id ∧ w.Adds room u ∧ s.Places (.snapshot x.id) x u) fun _ u => w.Adds room u := by
  have hwarned : v.Notes (warned v files) := warned_of_note (Workspace.notes_frame.refl v) (Workspace.notes_note v)
  have hadds := freeId_adds (s := s) (h.trans (hwarned.adds h.log)) (idsToTry (warned v files))
  refine ends_create (D := fun id u => P id ∧ w.Adds room u) (fun _ _ => h) ⟨fun hid => ?_, fun he => ?_⟩
    (fun _ _ hu _ _ _ => hu.2) ?_
  · rw [hid] at hadds
    exact ⟨(hdraw _ hwarned).ok hid, hadds⟩
  · rwa [he] at hadds
  · rintro x u ⟨hP, hu⟩ - -
    refine (save_adds hu (hwritten _ hP) hway (htemp _ hP)).mono ?_ fun _ _ he => he
    rintro _ t ⟨ht, hplaced⟩ e
    have hlog : t.HasLog := fun f hf => (ht.log f hf).2
    exact ⟨hP, ht.note e, hplaced.notes hlog (Workspace.notes_note t e)⟩

theorem preserves_report (x : Snapshot) (branch : String) (t : Thresholds) :
    Action.Preserves Workspace.Notes (s.report x branch t) := by
  have hR := Workspace.notes_frame
  have hnote := Workspace.notes_note
  have hload : Action.Preserves Workspace.Notes (s.loadBaseline branch) := by
    refine .bind hR (preserves_readDocument hR _) fun found => ?_
    simp only
    split_ifs
    · exact .bind hR (.note hnote _ _ _) fun _ => .pure hR _
    · exact .pure hR _
  have hcompare : Action.Preserves Workspace.Notes (s.compare x branch) := by
    refine .bind hR hload fun found => ?_
    rcases found with _ | b
    · exact .pure hR _
    · exact .bind hR (.lift_fault hR _) fun _ => .bind hR (.note hnote _ _ _) fun _ => .pure hR _
  have hjudge : ∀ found : Option (Snapshot × Comparison), Action.Preserves Workspace.Notes (do
      let report ← liftM (judge (found.map (·.2)) t)
      Action.note .report .info ("Alert report for " ++ x.id ++ " vs " ++ branch ++ ": " ++
        report.verdict.name ++ " (" ++ report.summary.score.value.text ++ "/100)")
      return report) :=
    fun _ => .bind hR (.lift_fault hR _) fun _ => .bind hR (.note hnote _ _ _) fun _ => .pure hR _
  refine .bind hR hcompare fun found => ?_
  simp only
  split_ifs
  · exact .bind hR (.note hnote _ _ _) fun _ => hjudge found
  · exact hjudge found

end Store

/-! ### Checks -/

namespace Check

variable {c : Check} {room : Room} {u v w : Workspace}

theorem preserves_analyze (c : Check) : Action.Preserves Workspace.Notes c.analyze := by
  have hR := Workspace.notes_frame
  have hnote := Workspace.notes_note
  refine .bind hR (Action.Ends.preserves fun w => ?_) fun ps => .bind hR ?_ fun _ => .pure hR _
  · exact (c.findSources_ends hR hnote).mono (fun _ _ h => h.2) fun _ _ h => h.2
  · refine .bind hR (.filterMapM hR (fun p => Action.Ends.preserves fun w => ?_) ps) fun _ =>
      .bind hR (.note hnote _ _ _) fun _ => .pure hR _
    exact (analyzeListed_ends hR hnote p).mono (fun _ _ h => h.2) fun _ _ h => h.2

/-- Until the sources are analysed a run only takes notes. -/
theorem preserves_observe (c : Check) : Action.Preserves Workspace.Notes c.observe := by
  have hR := Workspace.notes_frame
  have hnote := Workspace.notes_note
  have hstart : Action.Preserves Workspace.Notes c.start := by
    refine .bind hR (Action.Ends.preserves fun w => ?_) fun _ => .bind hR (Action.Ends.preserves fun w => ?_) fun _ =>
      .bind hR (.note hnote _ _ _) fun _ => .pure hR _
    · exact (Revision.branch_ends hR hnote c.root).mono (fun _ _ h => h) fun _ _ h => h.1 ▸ hR.refl w
    · exact (Revision.commit_ends hR hnote c.root).mono (fun _ _ h => h) fun _ _ h => h.1 ▸ hR.refl w
  exact .bind hR hstart fun _ => .bind hR c.preserves_analyze fun _ => .bind hR (.note hnote _ _ _) fun _ => .pure hR _

end Check

end ScoreGate
