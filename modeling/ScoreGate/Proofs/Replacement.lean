import ScoreGate.Proofs.Locations
import ScoreGate.Proofs.Running

/-!
# Replacing a file

A file is replaced by way of a temporary file beside it.  The temporary file takes a name that is free, so it never
stands in the place of another, and it is gone at the end: either the file has its new content, or nothing has changed
but for directories that were made.  The one exception is a name with a NUL, which leaves the temporary file behind.

* `freeTemporary_free`: so many names cannot all be taken.
* `Tree.erase_put_of_free`: a temporary file that is erased leaves the tree as it was.
* `Attempt`, `replaceFile_attempt`: the steps of replacing a file.
* `Replaced`, `replaceFile_replaced`: the three ways in which replacing a file ends.
-/

namespace ScoreGate

/-! ### Names of temporary files -/

namespace Workspace

theorem temporaryName_injective {m n : ℕ} (h : temporaryName m = temporaryName n) : m = n := by
  have hlist : (temporaryName m).toList = (temporaryName n).toList := congrArg String.toList h
  simp only [temporaryName, String.toList_append, List.append_cancel_left_eq, List.append_cancel_right_eq] at hlist
  exact Nat.repr_injective (String.toList_injective hlist)

variable {t : Tree} {directory : Location}

theorem freeTemporary_eq (t : Tree) (directory : Location) : ∀ fuel n, ∃ k,
    freeTemporary t directory fuel n = directory ++ [temporaryName k]
  | 0, n => ⟨n, rfl⟩
  | fuel + 1, n => by
    simp only [freeTemporary]
    split_ifs
    · exact ⟨n, rfl⟩
    · exact freeTemporary_eq t directory fuel (n + 1)

theorem taken_of_freeTemporary_taken : ∀ {fuel n : ℕ}, t.find? (freeTemporary t directory fuel n) ≠ none →
    ∀ k, n ≤ k → k ≤ n + fuel → t.find? (directory ++ [temporaryName k]) ≠ none
  | 0, n, h, k, hn, hk => by
    obtain rfl : k = n := by omega
    exact h
  | fuel + 1, n, h, k, hn, hk => by
    simp only [freeTemporary] at h
    split_ifs at h with hfree
    · simp [Option.isNone_iff_eq_none.mp hfree] at h
    · rcases Nat.eq_or_lt_of_le hn with rfl | hlt
      · simpa [Option.isNone_iff_eq_none] using hfree
      · exact taken_of_freeTemporary_taken h k hlt (by omega)

/-- The name of a temporary file is free: there are more names to try than entries. -/
theorem freeTemporary_free (t : Tree) (directory : Location) (n : ℕ) :
    t.find? (freeTemporary t directory (t.entries.length + 1) n) = none := by
  by_contra hne
  have htaken := taken_of_freeTemporary_taken hne
  have hsub : (List.range' n (t.entries.length + 1)).map (fun k => directory ++ [temporaryName k]) ⊆
      t.entries.map Prod.fst := by
    intro loc hloc
    obtain ⟨k, hk, rfl⟩ := List.mem_map.mp hloc
    obtain ⟨i, hi, rfl⟩ := List.mem_range'.mp hk
    have := htaken (n + 1 * i) (by omega) (by omega)
    rw [Tree.find?, if_neg (by simp)] at this
    exact Tree.mem_of_findIn this
  have hnodup : ((List.range' n (t.entries.length + 1)).map fun k => directory ++ [temporaryName k]).Nodup := by
    refine (List.nodup_range' ..).map fun i j hij => ?_
    exact temporaryName_injective (by simpa using hij)
  have hlength := (List.subperm_of_subset hnodup hsub).length_le
  simp at hlength

end Workspace

/-! ### The temporary file -/

namespace Tree

variable {t : Tree} {temporary loc : Location} {bytes : ByteArray}

/-- What took a free location leaves nothing behind when it is erased. -/
theorem erase_put_of_free (hne : loc ≠ []) (h : t.find? loc = none) (n : Node) : (t.put loc n).erase loc = t := by
  have hkept : ∀ e ∈ t.entries, decide (e.1 ≠ loc) = true := by
    intro e he
    rw [decide_eq_true_eq]
    rintro rfl
    exact findIn_ne_none he (findIn_of_free hne h)
  rw [erase, entries_put_of_free hne h, List.filter_append, List.filter_eq_self.mpr hkept]
  simp
where
  findIn_ne_none {e : Location × Node} : ∀ {es : List (Location × Node)}, e ∈ es → findIn e.1 es ≠ none
    | (l, n) :: es, he => by
      rw [findIn]
      split_ifs with hl
      · simp
      · rcases List.mem_cons.mp he with rfl | he
        · exact absurd rfl hl
        · exact findIn_ne_none he

theorem putIn_putIn (loc : Location) (m n : Node) (es : List (Location × Node)) :
    putIn loc n (putIn loc m es) = putIn loc n es := by
  induction es with
  | nil => simp [putIn]
  | cons e es ih => by_cases h : e.1 = loc <;> simp [putIn, h, ih]

theorem put_put (t : Tree) (loc : Location) (m n : Node) : (t.put loc m).put loc n = t.put loc n := by
  rw [put, put, put, putIn_putIn]

/-- A temporary file is in nobody's way, and no way leads through it. -/
theorem locate_of_put_file {limits : Option NameLimits} {p : Path} (hne : temporary ≠ []) (hfree : t.find? temporary = none)
    (h : (t.put temporary (.file bytes)).locate limits p = .ok loc)
    (hfile : (t.put temporary (.file bytes)).find? loc ≠ some .directory) :
    t.locate limits p = .ok loc ∧ t.find? loc ≠ some .directory := by
  refine ⟨locate_mono (fun l hdir => ?_) h, fun hdir => hfile ?_⟩
  · by_cases heq : l = temporary
    · rw [heq, find?_put_self hne] at hdir
      cases hdir
    · rwa [find?_put_of_ne heq] at hdir
  · rwa [find?_put_of_ne]
    rintro rfl
    simp [hfree] at hdir

end Tree

/-! ### The ways in which it ends -/

namespace Workspace

variable {w : Workspace} {p : Path} {bytes : ByteArray}

/-- How far replacing the file of a path comes: not to the directories, or to some of them, or to all of them but to no
temporary file, or to that. -/
inductive Attempt (w : Workspace) (p : Path) (bytes : ByteArray) : Workspace × Option SystemFault → Prop
  | directories {o : Obstacle} (h : w.allows .directories = .error o) : Attempt w p bytes (w, some ⟨o, p.parent.text, none⟩)
  | making {u : Workspace} {o : Obstacle} (h : w.makeDirectories p.parent = (u, some o)) :
      Attempt w p bytes (u, some ⟨o, p.parent.text, none⟩)
  | temporary {u : Workspace} {o : Obstacle} (made : w.makeDirectories p.parent = (u, none))
      (h : u.allows .temporary = .error o) : Attempt w p bytes (u, some ⟨o, p.parent.text, none⟩)
  | parent {u : Workspace} {o : Obstacle} (made : w.makeDirectories p.parent = (u, none))
      (h : u.locate p.parent = .error o) : Attempt w p bytes (u, some ⟨o, p.parent.text, none⟩)
  | filling {u : Workspace} {directory : Location} (directories : w.allows .directories = .ok ())
      (made : w.makeDirectories p.parent = (u, none)) (temporary : u.allows .temporary = .ok ())
      (parent : u.locate p.parent = .ok directory) :
      Attempt w p bytes (u.fillAndMove (freeTemporary u.tree directory (u.tree.entries.length + 1) 0) p bytes)

theorem replaceFile_attempt (w : Workspace) (p : Path) (bytes : ByteArray) : Attempt w p bytes (w.replaceFile p bytes) := by
  rw [replaceFile]
  simp only []
  rcases hdirectories : w.allows .directories with o | ⟨⟨⟩⟩
  · exact .directories hdirectories
  rcases hmade : w.makeDirectories p.parent with ⟨u, _ | o⟩
  swap
  · exact .making hmade
  simp only []
  rcases htemporary : u.allows .temporary with o | ⟨⟨⟩⟩
  · exact .temporary hmade htemporary
  rcases hparent : u.locate p.parent with o | directory
  · exact .parent hmade hparent
  · exact .filling hdirectories hmade htemporary hparent

/-- How replacing the file of a path ends: undone, with nothing new but directories that were made; with the temporary
file left behind, which takes a NUL in the path; or with the new content in its place. -/
inductive Replaced (w : Workspace) (p : Path) (bytes : ByteArray) : Workspace × Option SystemFault → Prop
  | undone {t : Tree} {fault : SystemFault} (grown : Tree.Grown p.parent.Passes w.tree t) :
      Replaced w p bytes ({ w with tree := t }, some fault)
  | left {t : Tree} {directory : Location} {n : ℕ} {fault : SystemFault} (grown : Tree.Grown p.parent.Passes w.tree t)
      (parent : t.locate w.limits p.parent = .ok directory) (free : t.find? (directory ++ [temporaryName n]) = none)
      (nul : fault.obstacle = .nulInName) :
      Replaced w p bytes ({ w with tree := t.put (directory ++ [temporaryName n]) (.file bytes) }, some fault)
  | done {t : Tree} {loc : Location} (grown : Tree.Grown p.parent.Passes w.tree t)
      (target : t.locate w.limits p = .ok loc) (file : t.find? loc ≠ some .directory) :
      Replaced w p bytes ({ w with tree := t.put loc (.file bytes), log := w.logWithout loc }, none)

theorem target_eq_ok {loc : Location} (h : w.target p = .ok loc) :
    w.locate p = .ok loc ∧ w.tree.find? loc ≠ some .directory := by
  simp only [target, bind_eq_ok] at h
  obtain ⟨l, hl, h⟩ := h
  rcases hn : w.tree.find? l with _ | ⟨_ | b⟩
  · simp only [hn, pure_eq_ok, Except.ok.injEq] at h
    exact ⟨by rw [hl, h], by simp [← h, hn]⟩
  · simp only [hn] at h
    cases h
  · simp only [hn, pure_eq_ok, Except.ok.injEq] at h
    exact ⟨by rw [hl, h], by simp [← h, hn]⟩

theorem fillAndMove_replaced {t : Tree} {directory : Location} {n : ℕ} (grown : Tree.Grown p.parent.Passes w.tree t)
    (parent : t.locate w.limits p.parent = .ok directory) (free : t.find? (directory ++ [temporaryName n]) = none) :
    Replaced w p bytes (({ w with tree := t } : Workspace).fillAndMove (directory ++ [temporaryName n]) p bytes) := by
  have hne : directory ++ [temporaryName n] ≠ [] := by simp
  rw [fillAndMove]
  simp only [Tree.put_put]
  rcases hcontent : allows _ WriteStep.content with o | ⟨⟨⟩⟩
  · simp only [Tree.erase_put_of_free hne free]
    exact .undone grown
  · simp only []
    rcases hmove : moveOver _ (directory ++ [temporaryName n]) p bytes with o | v
    · rcases o with _ | _ | _ | _ | _ | _ | _
      case nulInName => exact .left grown parent free rfl
      all_goals
        simp only [Tree.erase_put_of_free hne free]
        exact .undone grown
    · simp only [moveOver, bind_eq_ok, pure_eq_ok, Except.ok.injEq] at hmove
      obtain ⟨_, -, loc, hloc, rfl⟩ := hmove
      obtain ⟨hlocate, hfile⟩ := target_eq_ok hloc
      obtain ⟨htarget, hnot⟩ := Tree.locate_of_put_file hne free hlocate hfile
      simp only [Tree.erase_put_of_free hne free]
      exact .done grown htarget hnot

/-- Replacing the file of a path ends in one of the three ways. -/
theorem replaceFile_replaced (w : Workspace) (p : Path) (bytes : ByteArray) :
    Replaced w p bytes (w.replaceFile p bytes) := by
  have grown := Tree.makeDirectories_grown w.tree w.limits p.parent
  have hwith : ∀ {u o}, w.makeDirectories p.parent = (u, o) →
      u = { w with tree := (w.tree.makeDirectories w.limits p.parent).1 } := fun h => (Prod.mk.inj h).1.symm
  have hattempt := w.replaceFile_attempt p bytes
  generalize w.replaceFile p bytes = r at hattempt ⊢
  cases hattempt with
  | directories => exact .undone (.refl _ _)
  | making made | temporary made | parent made =>
    rw [hwith made]
    exact .undone grown
  | @filling u directory _ made _ hparent =>
    obtain rfl := hwith made
    obtain ⟨k, hk⟩ := freeTemporary_eq (w.tree.makeDirectories w.limits p.parent).1 directory
      ((w.tree.makeDirectories w.limits p.parent).1.entries.length + 1) 0
    have free := freeTemporary_free (w.tree.makeDirectories w.limits p.parent).1 directory 0
    rw [hk] at free ⊢
    exact fillAndMove_replaced grown hparent free

/-! ### Removing a file -/

/-- What is removed is a file, and an open log file goes on nowhere after that. -/
theorem remove_eq_ok {v w : Workspace} {p : Path} : w.remove p = .ok v ↔ ∃ loc bytes, w.locate p = .ok loc ∧
    w.tree.find? loc = some (.file bytes) ∧ v = { w with tree := w.tree.erase loc, log := w.logWithout loc } := by
  rw [remove, bind_eq_ok]
  constructor
  · rintro ⟨loc, hlocate, h⟩
    rcases hfind : w.tree.find? loc with _ | ⟨_ | bytes⟩
    · simp only [hfind] at h
      cases h
    · simp only [hfind] at h
      cases h
    · simp only [hfind, pure_eq_ok, Except.ok.injEq] at h
      exact ⟨loc, bytes, hlocate, hfind, h.symm⟩
  · rintro ⟨loc, bytes, hlocate, hfind, rfl⟩
    refine ⟨loc, hlocate, ?_⟩
    simp only [hfind]
    rfl

end Workspace

end ScoreGate
