import ScoreGate.Proofs.Filling
import ScoreGate.Proofs.Removal
import ScoreGate.Proofs.Rereading
import ScoreGate.Proofs.Spelling

/-!
# Listing and cleaning up what calls have stored

In a filled store a listing gives every snapshot of the root once, the latest first and equally late ones in the order of
their names, and a cleanup removes exactly those of them that are too old.  So a second cleanup at the same time has
nothing to do, and two cleanups at one time remove what the one with the smaller age removes.

* `Store.Stored`, `Store.Later`: what a listing gives, and in which order.
* `Store.list_stored`: a listing is exact.
* `Store.cleanup_stored`: a cleanup is exact.
* `Store.retention`: both, for every store that was filled by calls.
-/

namespace ScoreGate

/-! ### Stable sorting -/

/-- In a sorted list, of two items that may stand in either order the one that stood first stands first. -/
theorem pairwise_mergeSort_stable {α : Type} {le : α → α → Bool} {R : α → α → Prop}
    (htrans : ∀ a b c : α, le a b = true → le b c = true → le a c = true) (htotal : ∀ a b : α, (le a b || le b a) = true) :
    ∀ {l : List α}, l.Pairwise R → (l.mergeSort le).Pairwise fun a b => le b a = false ∨ R a b
  | [], _ => by simp
  | a :: l, h => by
    obtain ⟨hfirst, hrest⟩ := List.pairwise_cons.mp h
    obtain ⟨before, after, hsorted, hothers, hbefore⟩ := List.mergeSort_cons htrans htotal a l
    have ih := pairwise_mergeSort_stable htrans htotal hrest
    rw [hothers, List.pairwise_append] at ih
    obtain ⟨hbefore', hafter, hcross⟩ := ih
    have hmem : ∀ b ∈ after, b ∈ l := fun b hb =>
      List.mem_mergeSort.mp (hothers ▸ List.mem_append_right before hb)
    rw [hsorted, List.pairwise_append]
    refine ⟨hbefore', List.pairwise_cons.mpr ⟨fun b hb => Or.inr (hfirst b (hmem b hb)), hafter⟩, ?_⟩
    intro b hb c hc
    rcases List.mem_cons.mp hc with rfl | hc
    · exact Or.inl (by simpa using hbefore b hb)
    · exact hcross b hb c hc

/-! ### Names in a directory -/

namespace Tree

variable {t : Tree} {loc : Location} {name : String}

/-- The name that a location has in a directory, if it lies there. -/
def childName? (loc other : Location) : Option String :=
  match other.getLast? with
  | some name => if other.dropLast = loc then some name else none
  | none => none

theorem childName?_eq_some {other : Location} : childName? loc other = some name ↔ other = loc ++ [name] := by
  rw [childName?]
  rcases hlast : other.getLast? with _ | last
  · simp [List.getLast?_eq_none_iff.mp hlast]
  · obtain ⟨before, rfl⟩ := List.getLast?_eq_some_iff.mp hlast
    simp only [List.dropLast_concat, Option.ite_none_right_eq_some, Option.some.injEq, List.append_singleton_inj]

theorem map_children (t : Tree) (loc : Location) :
    (t.children loc).map Prod.fst = (t.entries.map Prod.fst).filterMap (childName? loc) := by
  rw [children, List.map_filterMap, List.filterMap_map]
  refine List.filterMap_congr fun e _ => ?_
  rw [Function.comp_apply, childName?]
  rcases e.1.getLast? with _ | last
  · rfl
  · simp only
    split_ifs <;> rfl

/-- The names in a directory are those under which something is there. -/
theorem mem_children : name ∈ (t.children loc).map Prod.fst ↔ loc ++ [name] ∈ t.entries.map Prod.fst := by
  rw [map_children, List.mem_filterMap]
  simp only [childName?_eq_some, exists_eq_right]

/-- In a tree with one entry for each location no name is twice in a directory. -/
theorem nodup_children (h : t.Unique) (loc : Location) : ((t.children loc).map Prod.fst).Nodup := by
  rw [map_children]
  refine List.Nodup.filterMap (fun a b name ha hb => ?_) h
  rw [childName?_eq_some.mp ha, childName?_eq_some.mp hb]

/-- Something is found where there is an entry. -/
theorem find?_ne_none_iff (hne : loc ≠ []) : t.find? loc ≠ none ↔ loc ∈ t.entries.map Prod.fst := by
  rw [find?, if_neg hne]
  refine ⟨mem_of_findIn, fun hmem hnone => ?_⟩
  obtain ⟨e, he, rfl⟩ := List.mem_map.mp hmem
  exact erase_put_of_free.findIn_ne_none he hnone

end Tree

namespace Store

variable {s : Store} {u v w : Workspace} {name id : String} {x y : Snapshot} {loc : Location}

/-! ### What a listing gives -/

/-- An id under which a listing finds a snapshot: it names a file and does not begin like the name of something else. -/
def IsOwnId (id : String) : Prop := isId id = true ∧ ∀ b ∈ foreignBeginnings, ¬b.toList <+: id.toList

theorem isSnapshotName_documentName :
    isSnapshotName (documentName id) = true ↔ ∀ b ∈ foreignBeginnings, ¬b.toList <+: id.toList := by
  have hsuffix : ".json".toList.isSuffixOf (documentName id).toList = true := by
    rw [List.isSuffixOf_iff_suffix, documentName, String.toList_append]
    exact List.suffix_append _ _
  have hbegins : ∀ b ∈ foreignBeginnings, b.toList <+: (documentName id).toList ↔ b.toList <+: id.toList := by
    intro b hb
    rw [documentName, String.toList_append]
    refine ⟨fun h => ?_, fun h => h.trans (List.prefix_append _ _)⟩
    rcases List.prefix_or_prefix_of_prefix h (List.prefix_append _ _) with hid | ⟨rest, hrest⟩
    · exact hid
    · -- a beginning ends with a sign that the ending does not hold
      rw [← hrest, List.prefix_append_right_inj] at h
      rcases List.eq_nil_or_concat rest with rfl | ⟨before, c, rfl⟩
      · rw [← hrest, List.append_nil]
      · have hlast : c = '-' := by
          have hboth := congrArg List.getLast? hrest
          simp only [foreignBeginnings, List.mem_cons, List.not_mem_nil, or_false] at hb
          rcases hb with rfl | rfl | rfl <;> simpa using hboth
        have hmem : c ∈ ".json".toList := h.subset (by simp)
        rw [hlast] at hmem
        exact absurd hmem (by decide)
  rw [isSnapshotName, hsuffix, Bool.true_and, Bool.not_eq_true', ← Bool.not_eq_true, List.any_eq_true]
  simp only [not_exists, not_and, List.isPrefixOf_iff_prefix]
  exact forall₂_congr fun b hb => not_congr (hbegins b hb)

/-- A snapshot stands in the root, in the document of its id, and reads back. -/
structure Stored (s : Store) (w : Workspace) (x : Snapshot) : Prop where
  check : x.check = .ok x
  id : IsOwnId x.id
  file : w.tree.find? ((Slot.snapshot x.id).location s) = some (.file x.text.toUTF8)
  readable : Readable w.depth x

/-- The order of a listing: the latest first, and equally late ones in the order of their names. -/
def Later (x y : Snapshot) : Prop :=
  y.timestamp < x.timestamp ∨ y.timestamp = x.timestamp ∧ documentName x.id < documentName y.id

/-- Reading does not fail: every document reads back, and the file system takes the names of the root and of what is in
it. -/
structure Serviceable (s : Store) (w : Workspace) : Prop where
  root : w.locate s.root ≠ .error .nameTooLong
  directories : ∀ name, isSnapshotName name = true → w.tree.find? (s.location ++ [name]) = some .directory →
    w.locate (s.root.child name) = .ok (s.location ++ [name])
  documents : ∀ {name bytes}, isSnapshotName name = true → w.tree.find? (s.location ++ [name]) = some (.file bytes) →
    ∃ x, s.Stored w x ∧ documentName x.id = name

theorem mem_listedNames : name ∈ s.listedNames w ↔
    isSnapshotName name = true ∧ w.tree.find? (s.location ++ [name]) ≠ none := by
  rw [listedNames, snapshotNames, List.mem_mergeSort, List.mem_filter, Tree.mem_children,
    ← Tree.find?_ne_none_iff (by simp), and_comm]

theorem nameLe_iff {a b : String} : nameLe a b = true ↔ a ≤ b := by
  rw [nameLe, Bool.not_eq_true', decide_eq_false_iff_not, not_lt]

theorem pairwise_listedNames (h : w.tree.Unique) : (s.listedNames w).Pairwise (· < ·) :=
  pairwise_lt_mergeSort nameLe_iff ((Tree.nodup_children h _).filter _)

theorem answerOf_cases (h : s.Filled w) (hs : s.Serviceable w) (hname : name ∈ s.listedNames w) :
    (∃ x, s.Stored w x ∧ documentName x.id = name ∧ s.answerOf w name = .ok (some x)) ∨
      w.tree.find? (s.location ++ [name]) = some .directory ∧
        ∃ path cause, s.answerOf w name = .error (.storage path cause) := by
  obtain ⟨hsnapshot, hfound⟩ := mem_listedNames.mp hname
  rcases hfind : w.tree.find? (s.location ++ [name]) with _ | ⟨_ | bytes⟩
  · exact absurd hfind hfound
  · have hnode := Workspace.node_eq_ok.mpr ⟨_, hs.directories name hsnapshot hfind, hfind⟩
    refine Or.inr ⟨rfl, (s.root.child name).text, .read ⟨.isDirectory, (s.root.child name).text, none⟩, ?_⟩
    rw [answerOf, answer, exec_readDocument, hnode]
    rfl
  · obtain ⟨x, hstored, rfl⟩ := hs.documents hsnapshot hfind
    obtain ⟨-, -, -, -, -, hlocate⟩ := h.documents hsnapshot hfind
    have hnode := Workspace.node_eq_ok.mpr ⟨_, hlocate, hstored.file⟩
    exact Or.inl ⟨x, hstored, rfl, answerOf_of_node hnode hstored.check hstored.readable⟩

/-- What stands in the document of an id is one snapshot. -/
theorem Stored.unique (hx : s.Stored w x) (hy : s.Stored w y) (hid : x.id = y.id) : x = y := by
  have hfile := hx.file
  rw [hid, hy.file, Option.some.injEq, Node.file.injEq] at hfile
  have htext : y.text = x.text := String.toByteArray_inj.mp hfile
  have hreads : Readable w.depth y := hy.readable
  rw [Readable, htext, hx.readable, Except.ok.injEq] at hreads
  have hsame : Snapshot.ofValue x.toValue = Snapshot.ofValue y.toValue := congrArg _ hreads
  rw [Snapshot.ofValue_toValue, Snapshot.ofValue_toValue, hx.check, hy.check, Except.ok.injEq] at hsame
  exact hsame

theorem root_of_listed (h : s.Filled w) (hs : s.Serviceable w) (hname : name ∈ s.listedNames w) :
    w.node s.root = .ok .directory := by
  obtain ⟨hsnapshot, hfound⟩ := mem_listedNames.mp hname
  have hne : name ≠ "" := by
    rintro rfl
    revert hsnapshot
    decide
  have hlocate : w.locate (s.root.child name) = .ok (s.location ++ [name]) := by
    rcases hfind : w.tree.find? (s.location ++ [name]) with _ | ⟨_ | bytes⟩
    · exact absurd hfind hfound
    · exact hs.directories name hsnapshot hfind
    · obtain ⟨-, -, -, -, -, hlocate⟩ := h.documents hsnapshot hfind
      exact hlocate
  obtain ⟨here, hroot, hdir⟩ := Tree.isDirectory_of_locate_child hne hlocate
  exact Workspace.node_eq_ok.mpr ⟨here, hroot, hdir⟩

theorem mem_readable_iff (h : s.Filled w) (hs : s.Serviceable w) : x ∈ s.readable w ↔ s.Stored w x := by
  rw [mem_readable]
  constructor
  · rintro ⟨name, hname, hx⟩
    rcases answerOf_cases h hs hname with ⟨y, hy, -, hanswer⟩ | ⟨-, path, cause, hanswer⟩
    · rw [hanswer, Except.ok.injEq, Option.some.injEq] at hx
      exact hx ▸ hy
    · rw [hanswer] at hx
      cases hx
  · intro hx
    have hname : documentName x.id ∈ s.listedNames w :=
      mem_listedNames.mpr ⟨isSnapshotName_documentName.mpr hx.id.2, by
        rw [show s.location ++ [documentName x.id] = (Slot.snapshot x.id).location s from rfl, hx.file]
        simp⟩
    refine ⟨documentName x.id, hname, ?_⟩
    rcases answerOf_cases h hs hname with ⟨y, hy, hdocument, hanswer⟩ | ⟨hdir, -⟩
    · rw [hanswer, hx.unique hy (documentName_injective hdocument).symm]
    · have hfile := hx.file
      rw [show (Slot.snapshot x.id).location s = s.location ++ [documentName x.id] from rfl, hdir] at hfile
      cases hfile

theorem latest_trans (a b c : Snapshot) (hab : decide (b.timestamp ≤ a.timestamp) = true)
    (hbc : decide (c.timestamp ≤ b.timestamp) = true) : decide (c.timestamp ≤ a.timestamp) = true := by
  rw [decide_eq_true_eq] at hab hbc ⊢
  exact hbc.trans hab

theorem latest_total (a b : Snapshot) : (decide (b.timestamp ≤ a.timestamp) || decide (a.timestamp ≤ b.timestamp)) = true := by
  rw [Bool.or_eq_true, decide_eq_true_eq, decide_eq_true_eq]
  exact le_total _ _

/-- What can be read is in the order of a listing. -/
theorem pairwise_readable (h : s.Filled w) (hs : s.Serviceable w) : (s.readable w).Pairwise Later := by
  have hnamed : ∀ {name x}, name ∈ s.listedNames w → found? (s.answerOf w name) = some x → documentName x.id = name := by
    intro name x hname hx
    rcases answerOf_cases h hs hname with ⟨y, -, hdocument, hanswer⟩ | ⟨-, path, cause, hanswer⟩
    · rw [hanswer, found?, Option.some.injEq] at hx
      exact hx ▸ hdocument
    · rw [hanswer] at hx
      cases hx
  have hfound : ((s.listedNames w).filterMap fun n => found? (s.answerOf w n)).Pairwise fun x y =>
      documentName x.id < documentName y.id := by
    rw [List.pairwise_filterMap]
    refine (pairwise_listedNames h.unique).imp_of_mem fun ha hb hab x hx y hy => ?_
    rw [hnamed ha hx, hnamed hb hy]
    exact hab
  rw [readable]
  refine ((List.pairwise_mergeSort latest_trans latest_total _).and
    (pairwise_mergeSort_stable latest_trans latest_total hfound)).imp ?_
  rintro x y ⟨hle, htie⟩
  rw [decide_eq_true_eq] at hle
  rcases htie with hlt | hname
  · rw [decide_eq_false_iff_not, not_le] at hlt
    exact Or.inl hlt
  · rcases hle.lt_or_eq with hlt | heq
    · exact Or.inl hlt
    · exact Or.inr ⟨heq, hname⟩

/-- Nothing stands before itself in a listing. -/
theorem later_irrefl (x : Snapshot) : ¬Later x x := by
  rintro (h | ⟨-, h⟩)
  · exact lt_irrefl _ h
  · exact lt_irrefl _ h

/-- Nothing is listed twice. -/
theorem nodup_readable (h : s.Filled w) (hs : s.Serviceable w) : (s.readable w).Nodup := by
  refine (pairwise_readable h hs).imp fun {x y} hxy => ?_
  rintro rfl
  exact later_irrefl x hxy

theorem listedNames_of_no_root (h : s.Filled w) (hs : s.Serviceable w) (hroot : w.node s.root ≠ .ok .directory) :
    s.listedNames w = [] :=
  List.eq_nil_iff_forall_not_mem.mpr fun _ hname => hroot (root_of_listed h hs hname)

/-- A listing gives what is stored, each once and in its order, and only adds notes; where there is no root, it does
nothing at all. -/
theorem list_stored (h : s.Filled w) (hs : s.Serviceable w) : ∃ v, s.list.exec w = (.ok (s.readable w), v) ∧
    w.Noted v ∧ (w.node s.root ≠ .ok .directory → v = w) := by
  by_cases hroot : w.node s.root = .ok .directory
  · have hgoes : ∀ name ∈ s.listedNames w, s.GoesOn w name := by
      intro name hname
      rcases answerOf_cases h hs hname with ⟨x, -, -, hanswer⟩ | ⟨-, path, cause, hanswer⟩
      · exact goesOn_of_answer hanswer (by simp)
      · exact goesOn_of_answer hanswer (by simp)
    obtain ⟨v, hexec, hv, -⟩ := list_ok h.log hroot hgoes
    exact ⟨v, hexec, hv, fun hnot => absurd hroot hnot⟩
  · refine ⟨w, ?_, .refl h.log.1, fun _ => rfl⟩
    rw [exec_list_nowhere hs.root hroot, readable, listedNames_of_no_root h hs hroot, List.filterMap_nil,
      List.mergeSort_nil]

/-! ### Cleaning up -/

/-- The ids that a removal gives are among those that it was given, in their order. -/
theorem removeAll_sublist : ∀ {xs : List Snapshot} {w : Workspace}, (s.removeAll xs).Ends w
    (fun ids _ => ids.Sublist (xs.map (·.id))) fun _ _ => True
  | [], w => .pure (List.nil_sublist _)
  | x :: xs, w => by
    have hskips : (s.removeAll xs).Ends w (fun ids _ => ids.Sublist ((x :: xs).map (·.id))) fun _ _ => True :=
      removeAll_sublist.mono (fun _ _ h => h.cons _) fun _ _ _ => trivial
    rw [removeAll]
    refine .bind (P := fun _ v => w = v) (.lift_fault (fun _ _ => rfl) fun _ _ => trivial) ?_
    rintro p _ rfl
    refine .bind_ok Action.exec_get ?_
    rcases w.remove p with o | v
    · cases o
      case missing => exact hskips
      all_goals exact .of_error (Action.exec_throw _) trivial
    · exact .bind_ok (Action.exec_set v) (.bind removeAll_sublist fun ids u h => .pure (h.cons_cons _))

theorem clock_cleanup (s : Store) (maxAge : Number) (w : Workspace) : ((s.cleanup maxAge).exec w).2.clock = w.clock := by
  have hR : Action.Frame fun w v : Workspace => v.clock = w.clock := ⟨fun _ => rfl, fun h h' => h'.trans h⟩
  refine preserves_cleanup hR (fun _ _ => rfl) (fun _ _ _ hremove => ?_) maxAge w
  obtain ⟨_, _, -, -, rfl⟩ := Workspace.remove_eq_ok.mp hremove
  rfl

/-- The stored snapshots from before a time, in the order of a listing. -/
def oldOnes (s : Store) (w : Workspace) (cutoff : ℤ) : List Snapshot := (s.readable w).filter fun x => x.timestamp < cutoff

theorem mem_oldOnes (h : s.Filled w) (hs : s.Serviceable w) {cutoff : ℤ} :
    x ∈ s.oldOnes w cutoff ↔ s.Stored w x ∧ x.timestamp < cutoff := by
  rw [oldOnes, List.mem_filter, mem_readable_iff h hs, decide_eq_true_eq]

/-- What a cleanup answers: the ids of the snapshots that it removed.  An age of too many digits cannot be told. -/
def cleaned (age : ℤ) (old : List Snapshot) : Except Failure (List String) :=
  if old.isEmpty || (Number.int age).isWritable then .ok (old.map (·.id)) else .error (.fault (.badValue .hugeInteger))

theorem Stored.beside_log (h : s.Filled w) (hx : s.Stored w x) : ∀ f, w.log = some f →
    (Slot.snapshot x.id).location s ≠ f.location :=
  fun f hf heq => h.log.2 f hf _ (isSnapshotName_documentName.mpr hx.id.2) heq.symm

theorem Stored.removable (h : s.Filled w) (hx : s.Stored w x) (hu : w.Noted u) : s.Removable u x.id := by
  obtain ⟨-, -, -, -, -, hlocate⟩ := h.documents (isSnapshotName_documentName.mpr hx.id.2) hx.file
  refine ⟨hx.id.1, (hu.locate _).trans hlocate, ?_⟩
  rw [hu.elsewhere _ (hx.beside_log h), hx.file]
  simp

/-- What a cleanup leaves: the documents of the old snapshots are gone, and nothing else but the log file has changed. -/
structure Cleaned (s : Store) (w v : Workspace) (cutoff : ℤ) : Prop where
  found : ∀ loc, (∀ f, w.log = some f → loc ≠ f.location) → v.tree.find? loc =
    if ∃ x ∈ s.oldOnes w cutoff, loc = (Slot.snapshot x.id).location s then none else w.tree.find? loc
  log : ∀ f, v.log = some f → w.log = some f
  clock : v.clock = w.clock
  depth : v.depth = w.depth
  filled : s.Filled v
  serviceable : s.Serviceable v

theorem removeAll_stored (h : s.Filled w) (hs : s.Serviceable w) (hu : w.Noted u) (cutoff : ℤ) :
    ∃ v, (s.removeAll (s.oldOnes w cutoff)).exec u = (.ok ((s.oldOnes w cutoff).map (·.id)), v) ∧
      s.Removed ((s.oldOnes w cutoff).map (·.id)) u v := by
  have hstored : ∀ x ∈ s.oldOnes w cutoff, s.Stored w x := fun x hx => ((mem_oldOnes h hs).mp hx).1
  obtain ⟨ids, v, hexec, hremoved, -, hgone⟩ := removeAll_spec fun x hx => (hstored x hx).removable h hu
  have hsub : ids.Sublist ((s.oldOnes w cutoff).map (·.id)) := removeAll_sublist.ok hexec
  have hall : (s.oldOnes w cutoff).map (·.id) ⊆ ids := by
    intro id hid
    obtain ⟨x, hx, rfl⟩ := List.mem_map.mp hid
    have hnone := hgone x hx
    rw [hremoved.found, hu.elsewhere _ ((hstored x hx).beside_log h), (hstored x hx).file] at hnone
    split_ifs at hnone with hmem
    obtain ⟨id, hid, heq⟩ := hmem
    have hslot := Slot.location_injective heq
    rw [Slot.snapshot.injEq] at hslot
    exact hslot ▸ hid
  have hnodup : ((s.oldOnes w cutoff).map (·.id)).Nodup := by
    refine List.Nodup.map_on (fun x hx y hy hid => (hstored x hx).unique (hstored y hy) hid) ?_
    exact (nodup_readable h hs).filter _
  have hids : ids = (s.oldOnes w cutoff).map (·.id) :=
    hsub.eq_of_length_le (List.subperm_of_subset hnodup hall).length_le
  exact ⟨v, hids ▸ hexec, hids ▸ hremoved⟩

/-- Reading does not fail either where there is less to read. -/
theorem Serviceable.of_fewer (h : s.Filled w) (hs : s.Serviceable w) (hfills : s.Fills w v) (hdepth : v.depth = w.depth)
    (hroot : v.locate s.root ≠ .error .nameTooLong)
    (hfewer : ∀ {loc n}, (∀ f, w.log = some f → loc ≠ f.location) → v.tree.find? loc = some n →
      w.tree.find? loc = some n) : s.Serviceable v := by
  refine ⟨hroot, fun name hname hdir => ?_, fun {name bytes} hname hfile => ?_⟩
  · have hbefore := hfewer (fun f hf heq => h.log.2 f hf name hname heq.symm) hdir
    rw [Workspace.locate, hfills.limits]
    exact Tree.locate_mono hfills.directories (hs.directories name hname hbefore)
  · have hbefore := hfewer (fun f hf heq => h.log.2 f hf name hname heq.symm) hfile
    obtain ⟨x, hx, rfl⟩ := hs.documents hname hbefore
    have hbytes : bytes = x.text.toUTF8 := Node.file.inj (Option.some.inj (hbefore.symm.trans hx.file))
    exact ⟨x, ⟨hx.check, hx.id, hbytes ▸ hfile, hdepth ▸ hx.readable⟩, rfl⟩

theorem oldOnes_of_no_root (h : s.Filled w) (hs : s.Serviceable w) (hroot : w.node s.root ≠ .ok .directory) (cutoff : ℤ) :
    s.oldOnes w cutoff = [] := by
  rw [oldOnes, readable, listedNames_of_no_root h hs hroot, List.filterMap_nil, List.mergeSort_nil, List.filter_nil]

/-- A cleanup removes exactly the stored snapshots from before its time, and gives their ids in the order of a listing. -/
theorem cleanup_stored (h : s.Filled w) (hs : s.Serviceable w) (age : ℤ) :
    ∃ v, (s.cleanup (.int age)).exec w = (cleaned age (s.oldOnes w (w.clock - age)), v) ∧ s.Cleaned w v (w.clock - age) := by
  obtain ⟨u, hlist, hu, hidle⟩ := list_stored h hs
  obtain ⟨t, hexec, hremoved⟩ := removeAll_stored h hs hu (w.clock - age)
  obtain ⟨v, hv, hend⟩ := exec_cleanup hlist hexec
  rw [List.isEmpty_map] at hv
  have hclock := s.clock_cleanup (.int age) w
  have hfills : s.Fills w ((s.cleanup (.int age)).exec w).2 := stocks_cleanup _ _ h.log
  rw [hv] at hclock hfills
  have hlogs : ∀ f, t.log = some f → w.log = some f := fun f hf => hu.log ▸ (hremoved.log f hf).1
  -- a note changes the log file only
  have hleft : (∀ loc, (∀ f, t.log = some f → loc ≠ f.location) → v.tree.find? loc = t.tree.find? loc) ∧
      v.log = t.log ∧ v.depth = t.depth := by
    rcases hend with rfl | ⟨-, e, rfl⟩
    · exact ⟨fun _ _ => rfl, rfl, rfl⟩
    · exact ⟨fun loc hloc => Workspace.find?_note hloc e, rfl, rfl⟩
  have hfound : ∀ loc, (∀ f, w.log = some f → loc ≠ f.location) → v.tree.find? loc =
      if ∃ x ∈ s.oldOnes w (w.clock - age), loc = (Slot.snapshot x.id).location s then none else w.tree.find? loc := by
    intro loc hloc
    rw [hleft.1 loc fun f hf => hloc f (hlogs f hf), hremoved.found, hu.elsewhere loc hloc]
    simp only [List.mem_map, exists_exists_and_eq_and]
  have hfewer : ∀ {loc n}, (∀ f, w.log = some f → loc ≠ f.location) → v.tree.find? loc = some n →
      w.tree.find? loc = some n := by
    intro loc n hloc hn
    rw [hfound loc hloc] at hn
    split_ifs at hn
    exact hn
  have hdepth : v.depth = w.depth := hleft.2.2.trans (hremoved.depth.trans hu.depth)
  have hroot : v.locate s.root ≠ .error .nameTooLong := by
    by_cases hroot : w.node s.root = .ok .directory
    · obtain ⟨loc, hlocate, -⟩ := Workspace.node_eq_ok.mp hroot
      rw [Workspace.locate, hfills.limits, Tree.locate_mono hfills.directories hlocate]
      simp
    · -- nothing has happened
      have hnone := oldOnes_of_no_root h hs hroot (w.clock - age)
      rw [hnone] at hexec
      obtain rfl : u = t := congrArg Prod.snd hexec
      rcases hend with rfl | ⟨hsome, -⟩
      · exact hidle hroot ▸ hs.root
      · exact absurd (List.map_eq_nil_iff.mpr hnone) hsome
  exact ⟨v, hv, hfound, fun f hf => hlogs f (hleft.2.1 ▸ hf), hclock, hdepth, h.of_fills hfills,
    hs.of_fewer h hfills hdepth hroot hfewer⟩

/-- What is stored after a cleanup is what was stored and is not too old. -/
theorem Cleaned.stored_iff {cutoff : ℤ} (h : s.Filled w) (hs : s.Serviceable w) (hv : s.Cleaned w v cutoff) :
    s.Stored v x ↔ s.Stored w x ∧ cutoff ≤ x.timestamp := by
  have hfound : IsOwnId x.id → v.tree.find? ((Slot.snapshot x.id).location s) =
      if ∃ y ∈ s.oldOnes w cutoff, (Slot.snapshot x.id).location s = (Slot.snapshot y.id).location s then none
      else w.tree.find? ((Slot.snapshot x.id).location s) := fun hid =>
    hv.found _ fun f hf heq => h.log.2 f hf _ (isSnapshotName_documentName.mpr hid.2) heq.symm
  constructor
  · intro hx
    have hfile := hx.file
    rw [hfound hx.id] at hfile
    split_ifs at hfile with hnot
    have hstored : s.Stored w x := ⟨hx.check, hx.id, hfile, hv.depth ▸ hx.readable⟩
    refine ⟨hstored, not_lt.mp fun hlt => hnot ⟨x, (mem_oldOnes h hs).mpr ⟨hstored, hlt⟩, rfl⟩⟩
  · rintro ⟨hx, hle⟩
    refine ⟨hx.check, hx.id, ?_, hv.depth ▸ hx.readable⟩
    rw [hfound hx.id, if_neg, hx.file]
    rintro ⟨y, hy, heq⟩
    obtain ⟨hstored, hlt⟩ := (mem_oldOnes h hs).mp hy
    -- what was removed had the same slot, so it was the same snapshot
    have hslot := Slot.location_injective heq
    rw [Slot.snapshot.injEq] at hslot
    rw [hx.unique hstored hslot] at hle
    exact absurd hlt (not_lt.mpr hle)

/-- Two cleanups at one time leave what the one with the later time leaves. -/
theorem Cleaned.trans {c d : ℤ} (h : s.Filled u) (hs : s.Serviceable u) (hv : s.Cleaned u v c) (hw : s.Cleaned v w d) :
    s.Cleaned u w (max c d) := by
  refine ⟨fun loc hloc => ?_, fun f hf => hv.log f (hw.log f hf), hw.clock.trans hv.clock, hw.depth.trans hv.depth, hw.filled,
    hw.serviceable⟩
  rw [hw.found loc fun f hf => hloc f (hv.log f hf), hv.found loc hloc]
  have hiff : (∃ x ∈ s.oldOnes u (max c d), loc = (Slot.snapshot x.id).location s) ↔
      (∃ x ∈ s.oldOnes v d, loc = (Slot.snapshot x.id).location s) ∨
        ∃ x ∈ s.oldOnes u c, loc = (Slot.snapshot x.id).location s := by
    simp only [mem_oldOnes h hs, mem_oldOnes hv.filled hv.serviceable, hv.stored_iff h hs, lt_max_iff]
    constructor
    · rintro ⟨x, ⟨hx, hlt⟩, rfl⟩
      by_cases hc : x.timestamp < c
      · exact Or.inr ⟨x, ⟨hx, hc⟩, rfl⟩
      · exact Or.inl ⟨x, ⟨⟨hx, not_lt.mp hc⟩, hlt.resolve_left hc⟩, rfl⟩
    · rintro (⟨x, ⟨⟨hx, -⟩, hlt⟩, rfl⟩ | ⟨x, ⟨hx, hlt⟩, rfl⟩)
      · exact ⟨x, ⟨hx, Or.inr hlt⟩, rfl⟩
      · exact ⟨x, ⟨hx, Or.inl hlt⟩, rfl⟩
  by_cases hd : ∃ x ∈ s.oldOnes v d, loc = (Slot.snapshot x.id).location s
  · rw [if_pos hd, if_pos (hiff.mpr (Or.inl hd))]
  · rw [if_neg hd]
    exact if_congr (by rw [hiff, or_iff_right hd]) rfl rfl

/-- Right after a cleanup there is nothing left that is too old. -/
theorem Cleaned.none_old {cutoff : ℤ} (h : s.Filled w) (hs : s.Serviceable w) (hv : s.Cleaned w v cutoff) :
    s.oldOnes v cutoff = [] := by
  refine List.eq_nil_iff_forall_not_mem.mpr fun x hx => ?_
  obtain ⟨hstored, hlt⟩ := (mem_oldOnes hv.filled hv.serviceable).mp hx
  exact absurd ((hv.stored_iff h hs).mp hstored).2 (not_le.mpr hlt)

/-! ### Listing and cleaning up -/

/-- Two workspaces have the same files and directories, but for the log file of a third. -/
def AlikeBeside (log : Option LogFile) (v w : Workspace) : Prop :=
  ∀ loc, (∀ f, log = some f → loc ≠ f.location) → w.tree.find? loc = v.tree.find? loc

/-- A store that was filled by calls and outputs is listed and cleaned up exactly, if reading does not fail.

A listing gives every stored snapshot once and in its order; it changes no file and makes no directory.  A cleanup
removes the listed snapshots from before its time, and nothing else, and gives their ids in the order of the listing; it
fails only when its age has too many digits to be told, and that after it has removed them.  Another cleanup with the same
age at the same time removes nothing, and one with any other age leaves what the smaller of the two ages leaves. -/
theorem retention (s : Store) (w : Workspace) :
    (∀ start, s.Fresh start → start.tree.Unique → s.Session start w → s.Filled w) ∧
    (s.Filled w → s.Serviceable w → ∃ xs : List Snapshot,
      (∀ x, x ∈ xs ↔ s.Stored w x) ∧ xs.Nodup ∧ xs.Pairwise Later ∧
      (∃ v, s.list.exec w = (.ok xs, v) ∧ AlikeBeside w.log w v ∧ (w.node s.root ≠ .ok .directory → v = w)) ∧
      ∀ age : ℤ, ∃ v, (s.cleanup (.int age)).exec w = (cleaned age (xs.filter fun x => x.timestamp < w.clock - age), v) ∧
        v.clock = w.clock ∧
        (∀ loc, (∀ f, w.log = some f → loc ≠ f.location) → v.tree.find? loc =
          if ∃ x ∈ xs, x.timestamp < w.clock - age ∧ loc = (Slot.snapshot x.id).location s then none
          else w.tree.find? loc) ∧
        (∃ u, (s.cleanup (.int age)).exec v = (.ok [], u) ∧ AlikeBeside w.log v u) ∧
        ∀ other : ℤ, AlikeBeside w.log ((s.cleanup (.int (min age other))).exec w).2 ((s.cleanup (.int other)).exec v).2) := by
  refine ⟨fun start fresh unique session => session.filled (fresh.filled unique), fun h hs => ?_⟩
  obtain ⟨v, hlist, hnoted, hidle⟩ := list_stored h hs
  refine ⟨s.readable w, fun x => mem_readable_iff h hs, nodup_readable h hs, pairwise_readable h hs,
    ⟨v, hlist, hnoted.elsewhere, hidle⟩, fun age => ?_⟩
  obtain ⟨v, hclean, hv⟩ := cleanup_stored h hs age
  refine ⟨v, hclean, hv.clock, fun loc hloc => ?_, ?_, fun other loc hloc => ?_⟩
  · rw [hv.found loc hloc]
    refine if_congr (exists_congr fun x => ?_) rfl rfl
    rw [oldOnes, List.mem_filter, decide_eq_true_eq, and_assoc]
  · obtain ⟨u, hagain, hu⟩ := cleanup_stored hv.filled hv.serviceable age
    rw [hv.clock] at hagain hu
    rw [hv.none_old h hs] at hagain
    refine ⟨u, hagain, fun loc hloc => ?_⟩
    rw [hu.found loc fun f hf => hloc f (hv.log f hf), hv.none_old h hs]
    simp
  · obtain ⟨u, hsecond, hu⟩ := cleanup_stored hv.filled hv.serviceable other
    obtain ⟨z, honce, hz⟩ := cleanup_stored h hs (min age other)
    -- two cleanups in a row are one with the later of the two bounds
    have hboth : s.Cleaned w u (w.clock - min age other) := by
      have hlater : max (w.clock - age) (w.clock - other) = w.clock - min age other := by omega
      have htrans := hv.trans h hs (hv.clock ▸ hu)
      rwa [hlater] at htrans
    rw [hsecond, honce, hboth.found loc hloc, hz.found loc hloc]

/-- A session that stores a snapshot of no files at the time `100`. -/
def filling : Workspace := (((Call.save plain).perform beside).exec { blank with clock := 100 }).2

theorem retention_filling : beside.Filled filling ∧ beside.Serviceable aged ∧
    ∃ v, (beside.cleanup (.int 10)).exec aged = (.ok ["a"], v) ∧ v.tree.find? ["s", "a.json"] = none ∧
      ∃ u, (beside.cleanup (.int 10)).exec v = (.ok [], u) := by
  have hfilling : beside.Filled filling :=
    (beside.retention filling).1 blank fresh_blank List.nodup_nil (.call .start 100 (.save plain) rfl)
  have hread : Readable aged.depth plain := by
    rw [readable_iff]
    decide +kernel
  have hfile : aged.tree.find? ["s", "a.json"] = some (.file plain.text.toUTF8) := rfl
  have hstored : beside.Stored aged plain := ⟨rfl, ⟨by decide, by decide⟩, hfile, hread⟩
  have hnames : beside.listedNames aged = ["a.json"] := by decide +kernel
  have hname : ∀ {name}, isSnapshotName name = true → aged.tree.find? (beside.location ++ [name]) ≠ none → name = "a.json" :=
    fun hsnapshot hfound => List.mem_singleton.mp (hnames ▸ mem_listedNames.mpr ⟨hsnapshot, hfound⟩)
  have hplain : ∀ {x}, beside.Stored aged x → x = plain := by
    intro x hx
    have hdocument := hname (isSnapshotName_documentName.mpr hx.id.2) (hx.file ▸ Option.some_ne_none _)
    exact hx.unique hstored (documentName_injective (hdocument : documentName x.id = documentName plain.id))
  have hfilled : beside.Filled aged := by
    refine ⟨⟨nofun, nofun⟩, by rw [Tree.Unique]; decide, fun {name bytes} hsnapshot hfound => ?_⟩
    obtain rfl := hname hsnapshot (hfound ▸ Option.some_ne_none _)
    have hbytes : bytes = plain.text.toUTF8 := Node.file.inj (Option.some.inj (hfound.symm.trans hfile))
    exact ⟨plain, hstored.check, hstored.id.1, rfl, hbytes, by decide +kernel⟩
  have hserviceable : beside.Serviceable aged := by
    refine ⟨by decide +kernel, fun name hsnapshot hfound => ?_, fun {name _} hsnapshot hfound => ?_⟩
    · obtain rfl := hname hsnapshot (hfound ▸ Option.some_ne_none _)
      exact absurd (hfound.symm.trans hfile) (by simp)
    · obtain rfl := hname hsnapshot (hfound ▸ Option.some_ne_none _)
      exact ⟨plain, hstored, rfl⟩
  obtain ⟨xs, hmem, hnodup, -, -, hclean⟩ := (beside.retention aged).2 hfilled hserviceable
  obtain rfl : xs = [plain] := List.perm_singleton.mp
    ((List.perm_ext_iff_of_nodup hnodup (List.nodup_singleton _)).mpr fun x => by
      rw [hmem, List.mem_singleton]
      exact ⟨hplain, fun hx => hx ▸ hstored⟩)
  obtain ⟨v, hexec, -, hfound, ⟨u, hagain, -⟩, -⟩ := hclean 10
  have hwritable : (Number.int 10).isWritable = true := by decide +kernel
  refine ⟨hfilling, hserviceable, v, ?_, ?_, u, hagain⟩
  · rw [hexec, cleaned, hwritable, Bool.or_true, if_pos rfl]
    rfl
  · rw [hfound _ nofun, if_pos ⟨plain, by simp, by decide, rfl⟩]

end Store

end ScoreGate
