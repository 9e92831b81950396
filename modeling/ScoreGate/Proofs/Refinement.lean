import ScoreGate.Proofs.Printing
import ScoreGate.Proofs.Shelf

/-!
# A store is its shelf

The files of a store are the documents of what is on its shelf, each at the location of its slot, and nothing else but
temporary files that a call left behind when it met a NUL in a name.  Every call keeps it so, with the shelf as it is
after the answer; so what is read from a slot is what the shelf has there.

* `Store.Keeps`: what notes, reading and the making of directories leave alone.
* `Store.Holds`: the files of the store are the documents of the shelf.
* `Holds.read`, `Holds.write_ok`, `Holds.write_error`, `Holds.removed`: reading, writing and removing.
-/

namespace ScoreGate

namespace Store

variable {s : Store} {u v w : Workspace}

/-! ### What is left alone -/

/-- The log file, if there is one, is a file outside the store. -/
def LogApart (s : Store) (w : Workspace) : Prop :=
  ∀ f, w.log = some f → ¬s.location <+: f.location ∧ ∃ bytes, w.tree.find? f.location = some (.file bytes)

/-- The files of the store are the same and no directory is gone; new directories of the store are on its way. -/
structure Keeps (s : Store) (w v : Workspace) : Prop where
  limits : v.limits = w.limits
  depth : v.depth = w.depth
  files : ∀ {loc}, s.location <+: loc → ∀ bytes,
    v.tree.find? loc = some (.file bytes) ↔ w.tree.find? loc = some (.file bytes)
  directories : ∀ loc, w.tree.find? loc = some .directory → v.tree.find? loc = some .directory
  way : ∀ {loc}, s.location <+: loc → v.tree.find? loc = some .directory →
    w.tree.find? loc = some .directory ∨ s.way.Passes loc
  log : s.LogApart v

theorem Keeps.refl (h : s.LogApart w) : s.Keeps w w :=
  ⟨rfl, rfl, fun _ _ => Iff.rfl, fun _ h => h, fun _ h => Or.inl h, h⟩

theorem Keeps.trans (h : s.Keeps u v) (h' : s.Keeps v w) : s.Keeps u w := by
  refine ⟨h'.limits.trans h.limits, h'.depth.trans h.depth, fun hloc bytes => (h'.files hloc bytes).trans (h.files hloc bytes),
    fun loc hloc => h'.directories loc (h.directories loc hloc), fun hloc hdir => ?_, h'.log⟩
  rcases h'.way hloc hdir with hdir | hway
  · exact h.way hloc hdir
  · exact Or.inr hway

/-- What an action of a store may do besides writing and removing documents. -/
def Leaves (s : Store) (w v : Workspace) : Prop := s.LogApart w → s.Keeps w v

theorem leaves_frame (s : Store) : Action.Frame s.Leaves :=
  ⟨fun _ h => .refl h, fun h h' hu => (h hu).trans (h' (h hu).log)⟩

/-- A note changes at most the log file. -/
theorem leaves_note (s : Store) (w : Workspace) (e : Entry) : s.Leaves w (w.note e) := by
  intro h
  rcases hlog : w.log with _ | f
  · have htree : (w.note e).tree = w.tree := by simp [Workspace.note, Workspace.logged, hlog]
    refine ⟨rfl, rfl, ?files, ?directories, ?way, ?log⟩
    case files =>
      intro loc _ bytes
      rw [htree]
    case directories =>
      intro loc hdir
      rw [htree, hdir]
    case way =>
      intro loc _ hdir
      exact Or.inl (by rw [← htree, hdir])
    case log =>
      intro f hf
      simp [Workspace.note, hlog] at hf
  · obtain ⟨hapart, bytes, hfile⟩ := h f hlog
    have hne : f.location ≠ [] := Tree.ne_nil_of_find? hfile (by simp)
    -- either the note is too low for the log file, or it is added to it
    have hcases : (∀ loc, loc ≠ f.location → (w.note e).tree.find? loc = w.tree.find? loc) ∧
        ∃ added, (w.note e).tree.find? f.location = some (.file added) := by
      simp only [Workspace.note, Workspace.logged, hlog]
      split_ifs
      · exact ⟨fun loc hloc => Tree.find?_put_of_ne hloc _, _, Tree.find?_put_self hne _⟩
      · exact ⟨fun _ _ => rfl, bytes, hfile⟩
    obtain ⟨hother, added, hadded⟩ := hcases
    refine ⟨rfl, rfl, ?files, ?directories, ?way, ?log⟩
    case files =>
      intro loc hloc bytes
      rw [hother loc (by rintro rfl; exact hapart hloc)]
    case directories =>
      intro loc hdir
      rw [hother loc (by rintro rfl; simp [hfile] at hdir), hdir]
    case way =>
      intro loc hloc hdir
      exact Or.inl (by rw [← hother loc (by rintro rfl; exact hapart hloc), hdir])
    case log =>
      intro g hg
      rw [show (w.note e).log = some f from hlog, Option.some.injEq] at hg
      subst hg
      exact ⟨hapart, added, hadded⟩

/-! ### The invariant -/

/-- The files of the store are the documents of what is in its slots, but for temporary files if calls were torn. -/
structure Holds (s : Store) (torn : Prop) (w : Workspace) (slots : Slot → Option Snapshot) : Prop where
  stored : ∀ {slot x}, slots slot = some x → x.check = .ok x ∧ Readable w.depth x ∧ slot.Fits x ∧
    w.locate (slot.path s) = .ok (slot.location s) ∧ w.tree.find? (slot.location s) = some (.file x.text.toUTF8)
  files : ∀ {loc bytes}, s.location <+: loc → w.tree.find? loc = some (.file bytes) →
    (∃ slot x, loc = slot.location s ∧ slots slot = some x) ∨
      torn ∧ ∃ directory n, loc = directory ++ [Workspace.temporaryName n]
  directories : ∀ {loc}, s.location <+: loc → w.tree.find? loc = some .directory → s.way.Passes loc
  log : s.LogApart w

namespace Holds

variable {torn : Prop} {slots : Slot → Option Snapshot} {slot : Slot} {x : Snapshot}

theorem of_keeps (h : s.Holds torn w slots) (hv : s.Keeps w v) : s.Holds torn v slots := by
  refine ⟨?stored, ?files, ?directories, hv.log⟩
  case stored =>
    intro slot x hx
    obtain ⟨hcheck, hread, hfits, hlocate, hfile⟩ := h.stored hx
    refine ⟨hcheck, hv.depth ▸ hread, hfits, ?_, (hv.files (slot.prefix_location s) _).mpr hfile⟩
    rw [Workspace.locate, hv.limits]
    exact Tree.locate_mono hv.directories hlocate
  case files =>
    intro loc bytes hloc hfile
    exact h.files hloc ((hv.files hloc bytes).mp hfile)
  case directories =>
    intro loc hloc hdir
    rcases hv.way hloc hdir with hdir | hway
    · exact h.directories hloc hdir
    · exact hway

theorem of_torn {torn' : Prop} (h : s.Holds torn w slots) (htorn : torn → torn') : s.Holds torn' w slots :=
  ⟨h.stored, fun hloc hfile => (h.files hloc hfile).imp_right fun ht => ⟨htorn ht.1, ht.2⟩, h.directories, h.log⟩

theorem of_clock (h : s.Holds torn w slots) (clock : ℤ) : s.Holds torn { w with clock } slots :=
  h.of_keeps ⟨rfl, rfl, fun _ _ => Iff.rfl, fun _ h => h, fun _ h => Or.inl h, h.log⟩

end Holds

/-! ### Reading -/

theorem exec_readDocument (w : Workspace) (p : Path) : (readDocument p).exec w = (match w.node p with
    | .ok (.file bytes) => (decode w.depth p bytes).map some
    | .ok .directory => .error (storageFailure p .read ⟨.isDirectory, p.text, none⟩)
    | .error .nameTooLong => .error .system
    | .error _ => .ok none, w) := by
  simp only [readDocument, Action.exists?, Action.exec_bind, Action.exec_node?]
  rcases hn : w.node p with o | ⟨_ | bytes⟩
  · rcases o <;> rfl
  · simp only [Action.exec_pure, Option.isSome_some, if_true, Action.exec_bind, Action.exec_get, Workspace.read, hn]
    rfl
  · simp only [Action.exec_pure, Option.isSome_some, if_true, Action.exec_bind, Action.exec_get, Workspace.read, hn]
    simp only [pure_eq_ok, ok_bind, Action.exec_bind, Action.exec_lift_failure]
    rcases decode w.depth p bytes with e | x <;> rfl

/-- What reading a slot gives when this is in it: a failure if the file system does not take the name, or if there is a
directory of that name. -/
def served (s : Store) (w : Workspace) (slot : Slot) (found : Option Snapshot) : Except Failure (Option Snapshot) :=
  match w.node (slot.path s) with
  | .error .nameTooLong => .error .system
  | .ok .directory => .error (storageFailure (slot.path s) .read ⟨.isDirectory, (slot.path s).text, none⟩)
  | _ => .ok found

theorem served_eq_ok (s : Store) (w : Workspace) (slot : Slot) (found : Option Snapshot) :
    s.served w slot found = .ok found ↔
      w.locate (slot.path s) ≠ .error .nameTooLong ∧ w.node (slot.path s) ≠ .ok .directory := by
  rw [served, ne_eq, ← Workspace.node_eq_nameTooLong]
  rcases w.node (slot.path s) with o | ⟨_ | bytes⟩
  · rcases o <;> simp
  · simp
  · simp

namespace Holds

variable {torn : Prop} {slots : Slot → Option Snapshot} {slot : Slot} {x : Snapshot}

theorem decode_eq (h : s.Holds torn w slots) {p : Path} {bytes : ByteArray}
    (hfile : w.tree.find? (slot.location s) = some (.file bytes))
    (htorn : torn → ∀ directory n, slot.location s ≠ directory ++ [Workspace.temporaryName n]) :
    ∃ x, slots slot = some x ∧ decode w.depth p bytes = .ok x := by
  rcases h.files (slot.prefix_location s) hfile with ⟨other, x, hother, hx⟩ | ⟨ht, directory, n, htemp⟩
  · obtain rfl := Slot.location_injective hother
    obtain ⟨hcheck, hread, -, -, hstored⟩ := h.stored hx
    rw [hfile, Option.some.injEq, Node.file.injEq] at hstored
    exact ⟨x, hx, by rw [hstored]; exact decode_text p hcheck hread⟩
  · exact absurd htemp (htorn ht directory n)

theorem read (h : s.Holds torn w slots) (slot : Slot)
    (htorn : torn → ∀ directory n, slot.location s ≠ directory ++ [Workspace.temporaryName n]) :
    (readDocument (slot.path s)).exec w = (s.served w slot (slots slot), w) := by
  rw [exec_readDocument, served]
  rcases hn : w.node (slot.path s) with o | ⟨_ | bytes⟩
  · have hnone : slots slot = none := by
      rcases hx : slots slot with _ | x
      · rfl
      · obtain ⟨-, -, -, hlocate, hfile⟩ := h.stored hx
        rw [Workspace.node_eq_ok.mpr ⟨_, hlocate, hfile⟩] at hn
        cases hn
    rw [hnone]
    rcases o <;> rfl
  · rfl
  · obtain ⟨loc, hloc, hfind⟩ := Workspace.node_eq_ok.mp hn
    obtain rfl := Slot.eq_location hloc
    obtain ⟨x, hx, hdecode⟩ := h.decode_eq (p := slot.path s) hfind htorn
    simp only [hdecode, hx, Except.map]

/-- The only directories where documents are looked for are those on the way of the store. -/
theorem passes_way (h : s.Holds torn w slots) (hn : w.node (slot.path s) = .ok .directory) :
    s.way.Passes (slot.location s) := by
  obtain ⟨loc, hloc, hfind⟩ := Workspace.node_eq_ok.mp hn
  obtain rfl := Slot.eq_location hloc
  exact h.directories (slot.prefix_location s) hfind

end Holds

/-! ### Writing -/

theorem exec_writeDocument (w : Workspace) (p : Path) (x : Snapshot) : (writeDocument p x).exec w =
    match x.toValue.checkWritable with
    | .error e => (.error e, w)
    | .ok _ => match w.replaceFile p x.text.toUTF8 with
      | (v, none) => (.ok (), v)
      | (v, some fault) => (.error (storageFailure p .write fault), v) := by
  simp only [writeDocument, Action.exec_bind, Action.exec_lift_fault]
  rcases x.toValue.checkWritable with e | _
  · rfl
  · simp only [Except.mapError, Action.exec_get]
    rcases w.replaceFile p x.text.toUTF8 with ⟨v, _ | fault⟩
    · rfl
    · rfl

/-- The rule for writing a document: it has no written form, or it replaces a file, or something is in the way of that. -/
theorem ends_writeDocument {w : Workspace} {p : Path} {x : Snapshot} {P : Unit → Workspace → Prop}
    {E : Failure → Workspace → Prop} (hunwritable : x.toValue.isWritable = false → E (.fault (.badValue .hugeInteger)) w)
    (hdone : x.toValue.isWritable = true → ∀ v, w.replaceFile p x.text.toUTF8 = (v, none) → P () v)
    (hfails : x.toValue.isWritable = true → ∀ v fault, w.replaceFile p x.text.toUTF8 = (v, some fault) →
      E (storageFailure p .write fault) v) : (writeDocument p x).Ends w P E := by
  have hexec := exec_writeDocument w p x
  rw [Value.checkWritable] at hexec
  split_ifs at hexec with hwritable
  · rcases hr : w.replaceFile p x.text.toUTF8 with ⟨v, _ | fault⟩
    · rw [hr] at hexec
      exact .of_ok hexec (hdone hwritable v hr)
    · rw [hr] at hexec
      exact .of_error hexec (hfails hwritable v fault hr)
  · exact .of_error hexec (hunwritable (by simpa using hwritable))

/-- The failure of a call that met a NUL in a name, which leaves the temporary file behind. -/
def nulFailure : Failure := .fault (.badValue .nulInPath)

theorem storageFailure_nul {p : Path} {kind : SystemFault → StorageFault} {fault : SystemFault}
    (h : fault.obstacle = .nulInName) : storageFailure p kind fault = nulFailure := by
  rw [storageFailure, h]
  rfl

theorem storageFailure_of_ne {p : Path} {kind : SystemFault → StorageFault} {fault : SystemFault}
    (h : fault.obstacle ≠ .nulInName) : storageFailure p kind fault = .storage p.text (kind fault) := by
  rw [storageFailure]
  split
  · next heq => exact absurd heq h
  · rfl

namespace Holds

variable {torn : Prop} {slots : Slot → Option Snapshot} {slot : Slot} {x : Snapshot} {t : Tree}

/-- Directories that are made on the way of the store change nothing. -/
theorem grown (h : s.Holds torn w slots) (ht : Tree.Grown (slot.path s).parent.Passes w.tree t) :
    s.Keeps w { w with tree := t } := by
  refine ⟨rfl, rfl, fun _ _ => ht.file_iff, fun _ => ht.directory, ?_, ?_⟩
  · intro loc _ hdir
    exact (ht.directory_cases hdir).imp_right Slot.passes_way
  · intro f hf
    obtain ⟨hapart, bytes, hfile⟩ := h.log f hf
    exact ⟨hapart, bytes, ht.file_iff.mpr hfile⟩

/-- The document of a slot is put in its place, and everything else stays. -/
theorem put {loc : Location} (h : s.Holds torn { w with tree := t } slots) (hcheck : x.check = .ok x)
    (hread : Readable w.depth x) (hfits : slot.Fits x) (hlocate : u.locate (slot.path s) = .ok loc)
    (hu : ∀ other, other ≠ loc → u.tree.find? other = t.find? other)
    (hfile : u.tree.find? loc = some (.file x.text.toUTF8)) (hnot : t.find? loc ≠ some .directory)
    (hlog : ∀ f, u.log = some f → w.log = some f ∧ f.location ≠ loc) (hlimits : u.limits = w.limits)
    (hdepth : u.depth = w.depth) : s.Holds torn u (Function.update slots slot (some x)) := by
  obtain rfl := Slot.eq_location hlocate
  refine ⟨?stored, ?files, ?directories, ?log⟩
  case stored =>
    intro other y hy
    by_cases hother : other = slot
    · subst hother
      rw [Function.update_self, Option.some.injEq] at hy
      subst hy
      exact ⟨hcheck, by rwa [hdepth], hfits, hlocate, hfile⟩
    · rw [Function.update_of_ne hother] at hy
      obtain ⟨hcheck', hread', hfits', hlocate', hfile'⟩ := h.stored hy
      refine ⟨hcheck', by rwa [hdepth], hfits', ?_, ?_⟩
      · rw [Workspace.locate, hlimits]
        -- no directory went away, since none stood in the place of the document
        refine Tree.locate_mono (fun loc hdir => ?_) hlocate'
        rw [hu loc (by rintro rfl; exact hnot hdir)]
        exact hdir
      · rw [hu _ fun he => hother (Slot.location_injective he)]
        exact hfile'
  case files =>
    intro loc bytes hloc hbytes
    by_cases heq : loc = slot.location s
    · exact Or.inl ⟨slot, x, heq, Function.update_self ..⟩
    · rw [hu loc heq] at hbytes
      rcases h.files hloc hbytes with ⟨other, y, rfl, hy⟩ | htemp
      · refine Or.inl ⟨other, y, rfl, ?_⟩
        rwa [Function.update_of_ne fun he => heq (by rw [he])]
      · exact Or.inr htemp
  case directories =>
    intro loc hloc hdir
    by_cases heq : loc = slot.location s
    · rw [heq, hfile] at hdir
      cases hdir
    · exact h.directories hloc (by rw [← hu loc heq, hdir])
  case log =>
    intro f hf
    obtain ⟨hf', hne⟩ := hlog f hf
    obtain ⟨hapart, bytes, hbytes⟩ := h.log f hf'
    exact ⟨hapart, bytes, by rw [hu _ hne]; exact hbytes⟩

/-- A file that is left behind under a temporary name, where nothing was, changes nothing else. -/
theorem left {directory : Location} {n : ℕ} {bytes : ByteArray} (h : s.Holds torn w slots) (htorn : torn)
    (hfree : w.tree.find? (directory ++ [Workspace.temporaryName n]) = none) :
    s.Holds torn { w with tree := w.tree.put (directory ++ [Workspace.temporaryName n]) (.file bytes) } slots := by
  have hne : directory ++ [Workspace.temporaryName n] ≠ [] := by simp
  have hfound : ∀ loc, loc ≠ directory ++ [Workspace.temporaryName n] →
      (w.tree.put (directory ++ [Workspace.temporaryName n]) (.file bytes)).find? loc = w.tree.find? loc :=
    fun loc hloc => Tree.find?_put_of_ne hloc _
  -- whatever was there before is elsewhere, since the place was free
  have hother : ∀ {loc found}, w.tree.find? loc = some found → loc ≠ directory ++ [Workspace.temporaryName n] := by
    rintro loc found hloc rfl
    simp [hfree] at hloc
  refine ⟨?stored, ?files, ?directories, ?log⟩
  case stored =>
    intro other y hy
    obtain ⟨hcheck, hread, hfits, hlocate, hfile⟩ := h.stored hy
    refine ⟨hcheck, hread, hfits, Tree.locate_mono (fun l hdir => ?_) hlocate, ?_⟩
    · rw [hfound l (hother hdir)]
      exact hdir
    · rw [hfound _ (hother hfile)]
      exact hfile
  case files =>
    intro loc found hloc hbytes
    by_cases heq : loc = directory ++ [Workspace.temporaryName n]
    · exact Or.inr ⟨htorn, directory, n, heq⟩
    · rw [hfound loc heq] at hbytes
      exact h.files hloc hbytes
  case directories =>
    intro loc hloc hdir
    by_cases heq : loc = directory ++ [Workspace.temporaryName n]
    · rw [heq, Tree.find?_put_self hne] at hdir
      cases hdir
    · rw [hfound loc heq] at hdir
      exact h.directories hloc hdir
  case log =>
    intro f hf
    obtain ⟨hapart, old, hold⟩ := h.log f hf
    exact ⟨hapart, old, by rw [hfound _ (hother hold)]; exact hold⟩

theorem write_ok (h : s.Holds torn w slots) (hcheck : x.check = .ok x) (hread : Readable w.depth x)
    (hfits : slot.Fits x) (hw : (writeDocument (slot.path s) x).exec w = (.ok (), v)) :
    s.Holds torn v (Function.update slots slot (some x)) := by
  refine (ends_writeDocument (P := fun _ v => s.Holds torn v (Function.update slots slot (some x))) (E := fun _ _ => True)
    (fun _ => trivial) (fun _ u hresult => ?_) fun _ _ _ _ => trivial).ok hw
  have hreplaced := w.replaceFile_replaced (slot.path s) x.text.toUTF8
  rw [hresult] at hreplaced
  cases hreplaced with
  | @done t loc grown target file =>
    refine (h.of_keeps (h.grown grown)).put hcheck hread hfits (Tree.locate_put file _ target)
      (fun _ hother => Tree.find?_put_of_ne hother _) (Tree.find?_put_self (Tree.ne_nil_of_find? rfl file) _) file ?_ rfl rfl
    intro f hf
    obtain ⟨hf', hne'⟩ := Option.filter_eq_some_iff.mp hf
    exact ⟨hf', by simpa using hne'⟩

theorem write_error (h : s.Holds torn w slots) {e : Failure}
    (hw : (writeDocument (slot.path s) x).exec w = (.error e, v)) : s.Holds (torn ∨ e = nulFailure) v slots := by
  refine (ends_writeDocument (P := fun _ _ => True) (E := fun e v => s.Holds (torn ∨ e = nulFailure) v slots)
    (fun _ => h.of_torn Or.inl) (fun _ _ _ => trivial) fun _ u fault hresult => ?_).error hw
  have hreplaced := w.replaceFile_replaced (slot.path s) x.text.toUTF8
  rw [hresult] at hreplaced
  cases hreplaced with
  | @undone t _ grown => exact (h.of_keeps (h.grown grown)).of_torn Or.inl
  | @left t directory n _ grown parent free nul =>
    exact ((h.of_keeps (h.grown grown)).of_torn Or.inl).left (Or.inr (storageFailure_nul nul)) free

end Holds

/-! ### Removing -/

/-- The documents of some ids are gone, and nothing else has changed. -/
structure Removed (s : Store) (ids : List String) (w v : Workspace) : Prop where
  limits : v.limits = w.limits
  depth : v.depth = w.depth
  found : ∀ loc, v.tree.find? loc =
    if ∃ id ∈ ids, loc = (Slot.snapshot id).location s then none else w.tree.find? loc
  log : ∀ f, v.log = some f → w.log = some f ∧ ∀ id ∈ ids, f.location ≠ (Slot.snapshot id).location s

/-- The document of an id is a file or missing, where it can be located. -/
def Removable (s : Store) (w : Workspace) (id : String) : Prop :=
  isId id = true ∧ w.locate ((Slot.snapshot id).path s) = .ok ((Slot.snapshot id).location s) ∧
    w.tree.find? ((Slot.snapshot id).location s) ≠ some .directory

theorem snapshotPath_eq_ok {id : String} (h : isId id = true) : s.snapshotPath id = .ok ((Slot.snapshot id).path s) := by
  rw [snapshotPath, if_pos h]
  rfl

theorem baselinePath_eq (s : Store) (branch : String) : s.baselinePath branch = (Slot.baseline branch).path s := by
  rw [baselinePath, Slot.path, Slot.names, baselineName]

theorem Removable.erase {id other : String} (h : s.Removable w id) (h' : s.Removable w other) :
    s.Removable { w with tree := w.tree.erase ((Slot.snapshot id).location s)
                         log := w.logWithout ((Slot.snapshot id).location s) } other := by
  have hne : (Slot.snapshot id).location s ≠ [] := by simp [Slot.location, Slot.names]
  refine ⟨h'.1, Tree.locate_mono (fun loc hdir => ?_) h'.2.1, ?_⟩
  · rw [Tree.find?_erase loc hne, if_neg (by rintro rfl; exact h.2.2 hdir), hdir]
  · rw [Tree.find?_erase _ hne]
    split_ifs
    · simp
    · exact h'.2.2

/-- Removing documents that are files or missing never fails, and none of them is left. -/
theorem removeAll_spec : ∀ {xs : List Snapshot} {w : Workspace}, (∀ x ∈ xs, s.Removable w x.id) →
    ∃ ids v, (s.removeAll xs).exec w = (.ok ids, v) ∧ s.Removed ids w v ∧ ids ⊆ xs.map (·.id) ∧
      ∀ x ∈ xs, v.tree.find? ((Slot.snapshot x.id).location s) = none
  | [], w, _ => ⟨[], w, rfl, ⟨rfl, rfl, fun loc => by simp, fun f hf => ⟨hf, by simp⟩⟩, by simp, by simp⟩
  | x :: xs, w, h => by
    have hx := h x (by simp)
    have hne : (Slot.snapshot x.id).location s ≠ [] := by simp [Slot.location, Slot.names]
    rw [removeAll]
    simp only [Action.exec_bind, snapshotPath_eq_ok hx.1, Action.exec_lift_fault, Except.mapError, Action.exec_get]
    rcases hfind : w.tree.find? ((Slot.snapshot x.id).location s) with _ | ⟨_ | bytes⟩
    · -- a document that is missing already counts as removed, but its id is not given
      have hremove : w.remove ((Slot.snapshot x.id).path s) = .error .missing := by
        simp only [Workspace.remove, hx.2.1, ok_bind, hfind]
        rfl
      rw [hremove]
      obtain ⟨ids, v, hexec, hremoved, hids, hgone⟩ := removeAll_spec fun y hy => h y (List.mem_cons_of_mem x hy)
      refine ⟨ids, v, hexec, hremoved, List.subset_cons_of_subset _ hids, List.forall_mem_cons.mpr ⟨?_, hgone⟩⟩
      rw [hremoved.found, hfind, ite_self]
    · exact absurd hfind hx.2.2
    · have hremove : w.remove ((Slot.snapshot x.id).path s) = .ok { w with
          tree := w.tree.erase ((Slot.snapshot x.id).location s)
          log := w.logWithout ((Slot.snapshot x.id).location s) } :=
        Workspace.remove_eq_ok.mpr ⟨_, bytes, hx.2.1, hfind, rfl⟩
      rw [hremove]
      obtain ⟨ids, v, hexec, hremoved, hids, hgone⟩ :=
        removeAll_spec fun y hy => hx.erase (h y (List.mem_cons_of_mem x hy))
      -- the rest is removed from the tree without this document, where the others still are in their slots
      refine ⟨x.id :: ids, v, ?_, ⟨hremoved.limits, hremoved.depth, fun loc => ?_, fun f hf => ?_⟩, ?_,
        List.forall_mem_cons.mpr ⟨?_, hgone⟩⟩
      · simp only [Action.exec_bind, Action.exec_set, hexec, Action.exec_pure]
      · rw [hremoved.found, Tree.find?_erase loc hne]
        by_cases hloc : loc = (Slot.snapshot x.id).location s
        · simp [hloc]
        · simp [hloc]
      · obtain ⟨hf', hids'⟩ := hremoved.log f hf
        obtain ⟨hlog, hnot⟩ := Option.filter_eq_some_iff.mp hf'
        refine ⟨hlog, fun id hid => ?_⟩
        rcases List.mem_cons.mp hid with rfl | hid
        · simpa using hnot
        · exact hids' id hid
      · exact List.cons_subset_cons _ hids
      · rw [hremoved.found, Tree.find?_erase _ hne, if_pos rfl, ite_self]

namespace Holds

variable {torn : Prop} {slots slots' : Slot → Option Snapshot}

theorem removable (h : s.Holds torn w slots) {id : String} {x : Snapshot} (hx : slots (.snapshot id) = some x) :
    s.Removable w id := by
  obtain ⟨-, -, ⟨-, hid⟩, hlocate, hfile⟩ := h.stored hx
  exact ⟨hid, hlocate, by simp [hfile]⟩

/-- Where documents of the shelf are removed, their slots are empty, and all others are as they were. -/
theorem removed (h : s.Holds torn w slots) {ids : List String} (hv : s.Removed ids w v)
    (hids : ∀ id ∈ ids, s.Removable w id)
    (hslots : ∀ slot, slots' slot = if ∃ id ∈ ids, slot = .snapshot id then none else slots slot) :
    s.Holds torn v slots' := by
  -- only files are removed, so every path leads where it led
  have hdirs : ∀ loc, w.tree.find? loc = some .directory → v.tree.find? loc = some .directory := by
    intro loc hdir
    rw [hv.found, if_neg, hdir]
    rintro ⟨id, hid, rfl⟩
    exact (hids id hid).2.2 hdir
  have hkept : ∀ {slot : Slot}, (¬∃ id ∈ ids, slot = .snapshot id) →
      v.tree.find? (slot.location s) = w.tree.find? (slot.location s) := by
    intro slot hslot
    rw [hv.found, if_neg]
    rintro ⟨id, hid, heq⟩
    exact hslot ⟨id, hid, Slot.location_injective heq⟩
  refine ⟨?stored, ?files, ?directories, ?log⟩
  case stored =>
    intro slot x hx
    rw [hslots] at hx
    split_ifs at hx with hslot
    obtain ⟨hcheck, hread, hfits, hlocate, hfile⟩ := h.stored hx
    refine ⟨hcheck, hv.depth ▸ hread, hfits, ?_, by rw [hkept hslot, hfile]⟩
    rw [Workspace.locate, hv.limits]
    exact Tree.locate_mono hdirs hlocate
  case files =>
    intro loc bytes hloc hbytes
    rw [hv.found] at hbytes
    split_ifs at hbytes with hgone
    refine (h.files hloc hbytes).imp_left ?_
    rintro ⟨slot, x, rfl, hx⟩
    refine ⟨slot, x, rfl, ?_⟩
    rw [hslots, if_neg, hx]
    rintro ⟨id, hid, rfl⟩
    exact hgone ⟨id, hid, rfl⟩
  case directories =>
    intro loc hloc hdir
    rw [hv.found] at hdir
    split_ifs at hdir
    exact h.directories hloc hdir
  case log =>
    intro f hf
    obtain ⟨hf', hne⟩ := hv.log f hf
    obtain ⟨hapart, bytes, hbytes⟩ := h.log f hf'
    refine ⟨hapart, bytes, ?_⟩
    rw [hv.found, if_neg, hbytes]
    rintro ⟨id, hid, heq⟩
    exact hne id hid heq

end Holds

end Store

end ScoreGate
