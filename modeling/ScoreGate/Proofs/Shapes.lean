import ScoreGate.Proofs.Checking
import ScoreGate.Proofs.Rereading
import ScoreGate.Proofs.Writing

/-!
# Shapes of trees

Where paths lead and which directories can be made depends on what is a file and what is a directory, and not on what the
files hold.  So a note makes no difference to where a document goes, and whether a file can be replaced does not depend on
what is to be written.

* `Tree.SameShape`: trees that differ in the content of files only.
* `SameShape.locate`, `SameShape.makeDirectories`: the same paths, the same directories.
* `replaceFile_fault`: what stops the replacement of a file, whatever its content.
* `replaceFile_ok`: a file is replaced where nothing is in the way.
-/

namespace ScoreGate

namespace Tree

variable {t u : Tree} {limits : Option NameLimits} {here loc : Location} {a b : ByteArray}

/-- Trees that differ in the content of files only. -/
def SameShape (t u : Tree) : Prop :=
  ∀ loc, t.find? loc = u.find? loc ∨ ∃ a b, t.find? loc = some (.file a) ∧ u.find? loc = some (.file b)

namespace SameShape

theorem refl (t : Tree) : t.SameShape t := fun _ => Or.inl rfl

theorem trans {v : Tree} (h : t.SameShape u) (h' : u.SameShape v) : t.SameShape v := by
  intro loc
  rcases h loc with heq | ⟨a, b, ht, hu⟩ <;> rcases h' loc with heq' | ⟨b', c, hu', hv⟩
  · exact Or.inl (heq.trans heq')
  · exact Or.inr ⟨b', c, heq.trans hu', hv⟩
  · exact Or.inr ⟨a, b, ht, heq'.symm.trans hu⟩
  · exact Or.inr ⟨a, c, ht, hv⟩

theorem directory_iff (h : t.SameShape u) : t.find? loc = some .directory ↔ u.find? loc = some .directory := by
  rcases h loc with heq | ⟨a, b, ht, hu⟩
  · rw [heq]
  · simp [ht, hu]

theorem none_iff (h : t.SameShape u) : t.find? loc = none ↔ u.find? loc = none := by
  rcases h loc with heq | ⟨a, b, ht, hu⟩
  · rw [heq]
  · simp [ht, hu]

theorem put (h : t.SameShape u) (loc : Location) (n : Node) : (t.put loc n).SameShape (u.put loc n) := by
  intro other
  by_cases heq : other = loc
  · by_cases hne : loc = []
    · exact Or.inl (by rw [heq, hne, find?_nil, find?_nil])
    · exact Or.inl (by rw [heq, find?_put_self hne, find?_put_self hne])
  · rw [find?_put_of_ne heq, find?_put_of_ne heq]
    exact h other

theorem put_file (t : Tree) (loc : Location) (a b : ByteArray) : (t.put loc (.file a)).SameShape (t.put loc (.file b)) := by
  intro other
  by_cases heq : other = loc
  · by_cases hne : loc = []
    · exact Or.inl (by rw [heq, hne, find?_nil, find?_nil])
    · exact Or.inr ⟨a, b, by rw [heq, find?_put_self hne], by rw [heq, find?_put_self hne]⟩
  · exact Or.inl (by rw [find?_put_of_ne heq, find?_put_of_ne heq])

/-- The content of a file may change. -/
theorem of_put (h : t.find? loc = some (.file a)) (b : ByteArray) : t.SameShape (t.put loc (.file b)) := by
  have hne : loc ≠ [] := ne_nil_of_find? h (by simp)
  intro other
  by_cases heq : other = loc
  · exact Or.inr ⟨a, b, by rw [heq, h], by rw [heq, find?_put_self hne]⟩
  · exact Or.inl (by rw [find?_put_of_ne heq])

theorem locateFrom (h : t.SameShape u) : ∀ (here : Location) (parts : List String),
    t.locateFrom limits here parts = u.locateFrom limits here parts
  | _, [] => rfl
  | here, name :: parts => by
    rw [Tree.locateFrom, Tree.locateFrom]
    rcases h here with heq | ⟨a, b, ht, hu⟩
    · rw [heq]
      rcases u.find? here with _ | ⟨_ | bytes⟩
      · rfl
      · simp only [h.locateFrom]
      · rfl
    · rw [ht, hu]

/-- The same paths lead to the same places. -/
theorem locate (h : t.SameShape u) (p : Path) : t.locate limits p = u.locate limits p := by
  rw [Tree.locate, Tree.locate, h.locateFrom]

theorem makeDirectoriesFrom : ∀ {t u : Tree}, t.SameShape u → ∀ (here : Location) (parts : List String),
    (t.makeDirectoriesFrom limits here parts).1.SameShape (u.makeDirectoriesFrom limits here parts).1 ∧
      (t.makeDirectoriesFrom limits here parts).2 = (u.makeDirectoriesFrom limits here parts).2
  | _, _, h, _, [] => ⟨h, rfl⟩
  | t, u, h, here, name :: parts => by
    rw [Tree.makeDirectoriesFrom, Tree.makeDirectoriesFrom]
    by_cases hup : name = ".."
    · rw [if_pos hup, if_pos hup]
      exact makeDirectoriesFrom h _ parts
    rw [if_neg hup, if_neg hup]
    by_cases hlong : limits.any (·.name < name.utf8ByteSize) = true
    · rw [if_pos hlong, if_pos hlong]
      exact ⟨h, rfl⟩
    rw [if_neg hlong, if_neg hlong]
    simp only
    -- only what kind of thing is there decides, not what a file holds
    rcases h (here ++ [name]) with heq | ⟨a, b, ht, hu⟩
    · rw [heq]
      rcases u.find? (here ++ [name]) with _ | ⟨_ | bytes⟩
      · exact makeDirectoriesFrom (h.put _ _) _ parts
      · exact makeDirectoriesFrom h _ parts
      · exact ⟨h, rfl⟩
    · rw [ht, hu]
      exact ⟨h, rfl⟩

theorem makeDirectories (h : t.SameShape u) (p : Path) :
    (t.makeDirectories limits p).1.SameShape (u.makeDirectories limits p).1 ∧ (t.makeDirectories limits p).2 = (u.makeDirectories limits p).2 := by
  rw [Tree.makeDirectories, Tree.makeDirectories]
  rcases checkPath limits p with _ | o
  · exact makeDirectoriesFrom h [] p.parts
  · exact ⟨h, rfl⟩

end SameShape

theorem locateFrom_of_makeDirectoriesFrom : ∀ {parts : List String} {t : Tree} {here : Location},
    t.find? here = some .directory → ".." ∉ parts → t.makeDirectoriesFrom limits here parts = (u, none) →
      u.locateFrom limits here parts = .ok (here ++ parts) ∧ u.find? (here ++ parts) = some .directory
  | [], t, here, hdir, _, h => by
    cases h
    rw [List.append_nil]
    exact ⟨rfl, hdir⟩
  | name :: parts, t, here, hdir, hdots, h => by
    have hkept : u.find? here = some .directory := by
      have hgrown := @makeDirectoriesFrom_grown limits t here (name :: parts)
      rw [h] at hgrown
      exact hgrown.directory hdir
    have hname : name ≠ ".." := by
      rintro rfl
      simp at hdots
    have hrest : ".." ∉ parts := fun hmem => hdots (List.mem_cons_of_mem name hmem)
    have hsplit : here ++ name :: parts = here ++ [name] ++ parts := List.append_cons here name parts
    rw [makeDirectoriesFrom, if_neg hname] at h
    by_cases hlong : limits.any (·.name < name.utf8ByteSize) = true
    · rw [if_pos hlong] at h
      cases h
    rw [if_neg hlong] at h
    rw [locateFrom, hkept, hsplit]
    simp only [if_neg hname, if_neg hlong] at h ⊢
    -- the next directory is made or was there; a file in its place would have stopped the making
    rcases hn : t.find? (here ++ [name]) with _ | ⟨_ | bytes⟩
    · rw [hn] at h
      exact locateFrom_of_makeDirectoriesFrom (find?_put_self (by simp) _) hrest h
    · rw [hn] at h
      exact locateFrom_of_makeDirectoriesFrom hn hrest h
    · rw [hn] at h
      cases h

theorem locate_of_makeDirectories {p : Path} (hdots : ".." ∉ p.parts) (h : t.makeDirectories limits p = (u, none)) :
    u.locate limits p = .ok p.parts ∧ u.find? p.parts = some .directory := by
  rw [makeDirectories] at h
  rcases hcheck : checkPath limits p with _ | o
  · rw [hcheck] at h
    obtain ⟨hlocate, hdir⟩ := locateFrom_of_makeDirectoriesFrom (find?_nil t) hdots h
    exact ⟨locate_eq_ok.mpr ⟨hcheck, hlocate⟩, hdir⟩
  · rw [hcheck] at h
    cases h

end Tree

namespace Workspace

variable {v w : Workspace} {p : Path} {name : String}

/-- A note changes the content of the log file only. -/
theorem HasLog.sameShape_note (h : w.HasLog) (e : Entry) : w.tree.SameShape (w.note e).tree := by
  rcases w.logged_cases e with hkept | ⟨f, added, hlog, hadded⟩
  · rw [note, hkept]
    exact .refl _
  · obtain ⟨bytes, hfile⟩ := h f hlog
    rw [note, hadded]
    exact .of_put hfile added

/-- Notes change the content of the log file only. -/
theorem Notes.sameShape (h : w.Notes v) (hlog : w.HasLog) : w.tree.SameShape v.tree := by
  obtain ⟨es, rfl⟩ := h
  induction es generalizing w with
  | nil => exact .refl _
  | cons e es ih => exact (hlog.sameShape_note e).trans (ih (noted_note hlog e).hasLog)

/-- The same paths lead somewhere. -/
theorem exists_node_congr (h : w.tree.SameShape v.tree) (hlimits : v.limits = w.limits) (p : Path) :
    (∃ n, v.node p = .ok n) ↔ ∃ n, w.node p = .ok n := by
  have hfound : ∀ loc, (∃ n, v.tree.find? loc = some n) ↔ ∃ n, w.tree.find? loc = some n := fun loc => by
    rw [← Option.ne_none_iff_exists', ← Option.ne_none_iff_exists', ne_eq, ne_eq, h.none_iff]
  simp only [node_eq_ok, locate, hlimits, h.locate p, exists_comm (α := Node), exists_and_left, hfound]

/-! ### Replacing a file -/

theorem target_congr {t u : Tree} (h : t.SameShape u) (p : Path) :
    ({ w with tree := t } : Workspace).target p = ({ w with tree := u } : Workspace).target p := by
  rw [target, target, locate, locate, h.locate]
  rcases u.locate w.limits p with o | loc
  · rfl
  · simp only [ok_bind]
    rcases h loc with heq | ⟨a, b, ht, hu⟩
    · rw [heq]
    · rw [ht, hu]

theorem fillAndMove_fault (w : Workspace) (temporary : Location) (p : Path) (a b : ByteArray) :
    (w.fillAndMove temporary p a).2 = (w.fillAndMove temporary p b).2 := by
  simp only [fillAndMove, allows_with_tree, Tree.put_put]
  rcases w.allows .content with o | _
  · rfl
  · simp only [moveOver, allows_with_tree]
    rcases w.allows .replacement with o | _
    · cases o <;> rfl
    · simp only [ok_bind]
      rw [target_congr (Tree.SameShape.put_file w.tree temporary a b) p]
      rcases target _ p with o | loc
      · cases o <;> rfl
      · rfl

/-- What stops the replacement of a file does not depend on what is to be written. -/
theorem replaceFile_fault (w : Workspace) (p : Path) (a b : ByteArray) : (w.replaceFile p a).2 = (w.replaceFile p b).2 := by
  rw [replaceFile, replaceFile]
  simp only
  rcases w.allows .directories with o | _
  · rfl
  rcases w.makeDirectories p.parent with ⟨u, _ | o⟩
  · simp only
    rcases u.allows .temporary with o | _
    · rfl
    rcases u.locate p.parent with o | directory
    · rfl
    · exact fillAndMove_fault u _ p a b
  · rfl

/-- A temporary file beside others is moved over a file that may be written. -/
theorem fillAndMove_ok {directory loc : Location} {k : ℕ} (hallows : ∀ step, w.allows step = .ok ())
    (hlocate : w.locate p = .ok loc) (hfile : w.tree.find? loc ≠ some .directory)
    (hunused : w.tree.find? (directory ++ [temporaryName k]) = none) (bytes : ByteArray) :
    ∃ v, w.fillAndMove (directory ++ [temporaryName k]) p bytes = (v, none) := by
  have hlocated : (w.tree.put (directory ++ [temporaryName k]) (.file bytes)).locate w.limits p = .ok loc :=
    Tree.locate_put (by simp [hunused]) _ hlocate
  have htarget : ({ w with tree := w.tree.put (directory ++ [temporaryName k]) (.file bytes) } : Workspace).target p =
      .ok loc := by
    rw [target, locate, hlocated, ok_bind]
    simp only
    by_cases heq : loc = directory ++ [temporaryName k]
    · rw [heq, Tree.find?_put_self (by simp)]
      rfl
    · rw [Tree.find?_put_of_ne heq]
      rcases hfound : w.tree.find? loc with _ | ⟨_ | old⟩
      · rfl
      · exact absurd hfound hfile
      · rfl
  simp only [fillAndMove, allows_with_tree, hallows, Tree.put_put, moveOver, htarget, ok_bind, pure_eq_ok]
  exact ⟨_, rfl⟩

theorem locate_join {loc : Location} (hfrom : w.tree.locateFrom w.limits [] p.parts = .ok loc)
    (hdir : w.tree.find? loc = some .directory) (hname : name ≠ "..") (hrefused : ¬w.Refuses (p.join [name]))
    (hnul : ¬(p.join [name]).HasNul) : w.locate (p.join [name]) = .ok (loc ++ [name]) :=
  (locate_join_cases hfrom hdir hname hnul).resolve_right fun hlong => hrefused (refuses_of_locate hlong)

/-- A file is replaced where no step is refused, the directories can be made, and the path leads to no directory. -/
theorem replaceFile_ok (hrefusal : w.refusal = none) (hdots : ".." ∉ p.parts) (hmade : (w.makeDirectories p).2 = none)
    (hname : name ≠ "..") (hrefused : ¬w.Refuses (p.join [name])) (hnul : ¬(p.join [name]).HasNul)
    (hfree : w.tree.find? (p.parts ++ [name]) ≠ some .directory) (bytes : ByteArray) :
    ∃ v, w.replaceFile (p.join [name]) bytes = (v, none) := by
  have hallows : ∀ step, w.allows step = .ok () := fun step => allows_eq_ok.mpr (by rw [hrefusal]; nofun)
  have hgrown := Tree.makeDirectories_grown w.tree w.limits p
  rcases hr : w.tree.makeDirectories w.limits p with ⟨t, o⟩
  rw [hr] at hgrown
  obtain rfl : o = none := by simpa [makeDirectories, hr] using hmade
  obtain ⟨hparent, hdir⟩ := Tree.locate_of_makeDirectories hdots hr
  obtain ⟨-, hfrom⟩ := Tree.locate_eq_ok.mp hparent
  have hlast : t.find? (p.parts ++ [name]) ≠ some .directory := by
    intro h
    rcases hgrown.directory_cases h with hdirectory | ⟨n, hn⟩
    · exact hfree hdirectory
    · -- the directories on the way are shorter
      rw [Tree.resolve_of_no_dots fun hmem => hdots (List.mem_of_mem_take hmem), List.nil_append] at hn
      have hlength := congrArg List.length hn
      simp at hlength
      omega
  have hlocate : ({ w with tree := t } : Workspace).locate (p.join [name]) = .ok (p.parts ++ [name]) :=
    locate_join hfrom hdir hname hrefused hnul
  have hwhere : ({ w with tree := t } : Workspace).locate p = .ok p.parts := hparent
  obtain ⟨k, hk⟩ := freeTemporary_eq t p.parts (t.entries.length + 1) 0
  have hunused := freeTemporary_free t p.parts 0
  rw [hk] at hunused
  have hup : (p.join [name]).parent = p := Path.parent_child ..
  simp only [replaceFile, hallows, hup, makeDirectories, hr, allows_with_tree, hwhere, hk]
  exact fillAndMove_ok (w := { w with tree := t }) hallows hlocate hlast hunused bytes

end Workspace

end ScoreGate
