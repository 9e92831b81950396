import ScoreGate.Proofs.Surprises

/-!
# Files that are kept

A file is replaced by way of a temporary file that is moved over it.  Whatever stops that, a file system that refuses one of
the four steps or something that is in the way, every file is as it was.  When nothing does, every other file is as it was.
Only a log file may grow, where a note is taken.

* `Workspace.KeepsFiles`: the files of a workspace later on.
* `replaceFile_undone`, `replaceFile_done_keeps`: what replacing a file leaves.
* `allows_of_replaceFile`: a file is replaced only where no step of it is refused.
-/

namespace ScoreGate

namespace Workspace

variable {written : Location → Prop} {u v w : Workspace} {p : Path} {bytes : ByteArray} {loc : Location}

/-! ### Files later on -/

/-- A location where notes are written. -/
def IsLog (w : Workspace) (loc : Location) : Prop := ∃ f, w.log = some f ∧ loc = f.location

/-- The same files later on: where nothing was written no file is new, none is gone and none has changed, but that a log
file may have grown.  The file system is the same. -/
structure KeepsFiles (written : Location → Prop) (w v : Workspace) : Prop where
  limits : v.limits = w.limits
  refusal : v.refusal = w.refusal
  log : ∀ f, v.log = some f → w.log = some f
  same : ∀ {loc}, ¬written loc → ¬w.IsLog loc → ∀ bytes,
    v.tree.find? loc = some (.file bytes) ↔ w.tree.find? loc = some (.file bytes)
  grown : ∀ {loc}, ¬written loc → w.IsLog loc → ∃ more, v.contentAt loc = w.contentAt loc ++ more

theorem contentAt_congr (h : ∀ bytes, v.tree.find? loc = some (.file bytes) ↔ w.tree.find? loc = some (.file bytes)) :
    v.contentAt loc = w.contentAt loc := by
  rw [contentAt, contentAt]
  rcases hw : w.tree.find? loc with _ | ⟨_ | bytes⟩
  case some.file => rw [(h bytes).mpr hw]
  all_goals
    rcases hv : v.tree.find? loc with _ | ⟨_ | bytes⟩
    case some.file =>
      have hfile := (h bytes).mp hv
      rw [hw] at hfile
      cases hfile
    all_goals rfl

namespace KeepsFiles

theorem of_same {source : Source} {journal : List Entry} : w.KeepsFiles written { w with source, journal } :=
  ⟨rfl, rfl, fun _ => id, fun _ _ _ => Iff.rfl, fun _ _ => ⟨.empty, ByteArray.append_empty.symm⟩⟩

theorem trans (h : u.KeepsFiles written v) (h' : v.KeepsFiles written w) : u.KeepsFiles written w := by
  refine ⟨h'.limits.trans h.limits, h'.refusal.trans h.refusal, fun f hf => h.log f (h'.log f hf),
    fun {loc} hloc hlog bytes => ?_, fun {loc} hloc hlog => ?_⟩
  · have hv : ¬v.IsLog loc := fun ⟨f, hf, heq⟩ => hlog ⟨f, h.log f hf, heq⟩
    rw [h'.same hloc hv, h.same hloc hlog]
  · obtain ⟨more, hmore⟩ := h.grown hloc hlog
    by_cases hv : v.IsLog loc
    · obtain ⟨rest, hrest⟩ := h'.grown hloc hv
      exact ⟨more ++ rest, by rw [hrest, hmore, ByteArray.append_assoc]⟩
    · -- the log file was given up on the way
      exact ⟨more, by rw [contentAt_congr (h'.same hloc hv), hmore]⟩

theorem frame (written : Location → Prop) : Action.Frame (KeepsFiles written) := ⟨fun _ => of_same, trans⟩

/-- A note is added at the end of the log file. -/
theorem note (w : Workspace) (e : Entry) : w.KeepsFiles written (w.note e) := by
  refine ⟨rfl, rfl, fun _ => id, fun {loc} _ hlog bytes => ?_, fun {loc} _ hlog => ?_⟩
  · rw [find?_note fun f hf heq => hlog ⟨f, hf, heq⟩]
  · obtain ⟨f, hf, rfl⟩ := hlog
    have hkept : ∃ more, w.contentAt f.location = w.contentAt f.location ++ more := ⟨.empty, ByteArray.append_empty.symm⟩
    rw [contentAt, Workspace.note, logged, hf]
    simp only
    split_ifs
    · by_cases hne : f.location = []
      · rw [hne, Tree.find?_nil]
        exact ⟨.empty, by simp [contentAt]⟩
      · rw [Tree.find?_put_self hne]
        exact ⟨_, rfl⟩
    · exact hkept

/-- Directories are made. -/
theorem of_grown {way : Location → Prop} {t : Tree} (h : Tree.Grown way w.tree t) :
    w.KeepsFiles written { w with tree := t } := by
  have hsame : ∀ {loc} bytes, t.find? loc = some (.file bytes) ↔ w.tree.find? loc = some (.file bytes) :=
    fun bytes => h.file_iff
  exact ⟨rfl, rfl, fun _ => id, fun _ _ => hsame,
    fun _ _ => ⟨.empty, by rw [ByteArray.append_empty]; exact contentAt_congr hsame⟩⟩

theorem put {log : Option LogFile} (h : written loc) (n : Node) (hlog : ∀ f, log = some f → w.log = some f) :
    w.KeepsFiles written { w with tree := w.tree.put loc n, log } := by
  have hsame : ∀ {other}, ¬written other → (w.tree.put loc n).find? other = w.tree.find? other :=
    fun hother => Tree.find?_put_of_ne (by rintro rfl; exact hother h) n
  refine ⟨rfl, rfl, hlog, fun hother _ bytes => by rw [hsame hother], fun hother _ => ⟨.empty, ?_⟩⟩
  rw [ByteArray.append_empty]
  exact contentAt_congr fun bytes => by rw [hsame hother]

end KeepsFiles

/-! ### Replacing a file -/

/-- Replacing a file that comes to nothing, but for a NUL in its name, leaves every file as it was. -/
theorem replaceFile_undone {fault : SystemFault} (h : w.replaceFile p bytes = (v, some fault))
    (hnul : fault.obstacle ≠ .nulInName) (loc : Location) (content : ByteArray) :
    v.tree.find? loc = some (.file content) ↔ w.tree.find? loc = some (.file content) := by
  have hreplaced := w.replaceFile_replaced p bytes
  rw [h] at hreplaced
  cases hreplaced with
  | undone grown => exact grown.file_iff
  | left _ _ _ nul => exact absurd nul hnul

/-- A file that was replaced has its new content and is no log file, and every other file is as it was. -/
theorem replaceFile_done_keeps (h : w.replaceFile p bytes = (v, none)) :
    v.tree.find? (Tree.resolve [] p.parts) = some (.file bytes) ∧ ¬v.IsLog (Tree.resolve [] p.parts) ∧
      w.KeepsFiles (· = Tree.resolve [] p.parts) v := by
  have hreplaced := w.replaceFile_replaced p bytes
  rw [h] at hreplaced
  cases hreplaced with
  | @done t loc grown target file =>
    obtain rfl := Tree.locate_eq_resolve target
    have hne : Tree.resolve [] p.parts ≠ [] := by
      intro hnil
      simp [hnil] at file
    refine ⟨Tree.find?_put_self hne _, ?_, ?_⟩
    · rintro ⟨f, hf, heq⟩
      obtain ⟨-, hnot⟩ := Option.filter_eq_some_iff.mp hf
      simp [heq] at hnot
    · refine (KeepsFiles.of_grown grown).trans (.put ?_ _ fun f hf => (Option.filter_eq_some_iff.mp hf).1)
      rfl

theorem allows_eq_ok {step : WriteStep} : w.allows step = .ok () ↔ w.refusal ≠ some step := by
  rw [allows]
  split_ifs with h <;> simp [h]

@[simp] theorem allows_with_tree (w : Workspace) (t : Tree) (step : WriteStep) :
    ({ w with tree := t } : Workspace).allows step = w.allows step := rfl

theorem allows_of_fillAndMove {temporary : Location} (h : w.fillAndMove temporary p bytes = (v, none)) :
    w.allows .content = .ok () ∧ w.allows .replacement = .ok () := by
  simp only [fillAndMove, allows_with_tree] at h
  rcases hcontent : w.allows .content with o | _
  · simp [hcontent] at h
  simp only [hcontent] at h
  split at h
  case h_2 | h_3 => simp at h
  next hmove =>
    simp only [moveOver, allows_with_tree, bind_eq_ok] at hmove
    obtain ⟨_, hreplacement, -⟩ := hmove
    exact ⟨rfl, hreplacement⟩

theorem allows_of_replaceFile (h : w.replaceFile p bytes = (v, none)) (step : WriteStep) : w.refusal ≠ some step := by
  rw [← allows_eq_ok]
  have hattempt := w.replaceFile_attempt p bytes
  generalize w.replaceFile p bytes = r at hattempt h
  cases hattempt with
  | directories | making | temporary | parent => cases h
  | filling hdirectories made htemporary =>
    obtain ⟨hcontent, hreplacement⟩ := allows_of_fillAndMove h
    -- making directories leaves what the file system refuses
    obtain rfl := (Prod.mk.inj made).1
    cases step with
    | directories => exact hdirectories
    | temporary => exact htemporary
    | content => exact hcontent
    | replacement => exact hreplacement

end Workspace

end ScoreGate
