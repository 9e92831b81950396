import ScoreGate.Check
import ScoreGate.Proofs.Replacement
import ScoreGate.Proofs.Revisions

/-!
# Watched locations

Whoever reads only the files at some locations cannot tell two workspaces apart in which these files are the same.
Writing anywhere else keeps them the same, and so do notes, if the log file is not watched.

* `Tree.Alike`: the files at watched locations are the same in two trees, in the same order.
* `Workspace.Same`: the same of two workspaces, the later of which still writes to other locations only.
* `Workspace.Same.of_grown`, `Workspace.Same.put`, `Workspace.spares_note`, `Workspace.same_replaceFile`: what keeps it.
-/

namespace ScoreGate

/-! ### Trees -/

namespace Tree

variable {watched : Location → Bool} {t u v : Tree} {loc : Location}

/-- The files at watched locations are the same in both trees, and no directory is gone. -/
structure Alike (watched : Location → Bool) (t u : Tree) : Prop where
  entries : (u.fileEntries.filter fun e => watched e.1) = t.fileEntries.filter fun e => watched e.1
  files : ∀ {loc}, watched loc = true → ∀ bytes, u.find? loc = some (.file bytes) ↔ t.find? loc = some (.file bytes)
  directories : ∀ loc, t.find? loc = some .directory → u.find? loc = some .directory

namespace Alike

theorem refl (watched : Location → Bool) (t : Tree) : Alike watched t t := ⟨rfl, fun _ _ => Iff.rfl, fun _ h => h⟩

theorem trans (h : Alike watched t u) (h' : Alike watched u v) : Alike watched t v :=
  ⟨h'.entries.trans h.entries, fun hloc bytes => (h'.files hloc bytes).trans (h.files hloc bytes),
    fun loc hdir => h'.directories loc (h.directories loc hdir)⟩

/-- Who watches less sees no more of a difference. -/
theorem mono {watched' : Location → Bool} (h : Alike watched t u) (hle : ∀ loc, watched' loc = true → watched loc = true) :
    Alike watched' t u := by
  refine ⟨?_, fun hloc => h.files (hle _ hloc), h.directories⟩
  have hboth : ∀ es : List (Location × Node), (es.filter fun e => watched' e.1) =
      (es.filter fun e => watched e.1).filter fun e => watched' e.1 := by
    intro es
    rw [List.filter_filter]
    refine List.filter_congr fun e _ => ?_
    rcases hw : watched' e.1 with _ | _
    · rfl
    · rw [hle _ hw]
      rfl
  rw [hboth, h.entries, ← hboth]

theorem of_grown {way : Location → Prop} (h : Grown way t u) : Alike watched t u :=
  ⟨by rw [h.entries], fun _ _ => h.file_iff, fun _ => h.directory⟩

theorem filter_putIn (hloc : watched loc = false) (bytes : ByteArray) (es : List (Location × Node)) :
    (((putIn loc (.file bytes) es).filter fun e => e.2 ≠ .directory).filter fun e => watched e.1) =
      (es.filter fun e => e.2 ≠ .directory).filter fun e => watched e.1 := by
  induction es with
  | nil => simp [putIn, hloc]
  | cons e es ih =>
    rw [putIn]
    split_ifs with h
    · rw [List.filter_cons, List.filter_cons]
      split_ifs <;> simp [h, hloc]
    · rw [List.filter_cons, List.filter_cons]
      split_ifs
      · rw [List.filter_cons, List.filter_cons, ih]
      · exact ih

theorem put (hloc : watched loc = false) (hdir : t.find? loc ≠ some .directory) (bytes : ByteArray) :
    Alike watched t (t.put loc (.file bytes)) := by
  refine ⟨filter_putIn hloc bytes t.entries, fun {other} hother bytes' => ?_, fun _ => directory_put hdir _⟩
  rw [find?_put_of_ne]
  rintro rfl
  simp [hloc] at hother

end Alike

end Tree

/-! ### Workspaces -/

namespace Workspace

variable {watched : Location → Bool} {u v w : Workspace}

/-- What a workspace writes on its own account is not watched, ids and times can be drawn from it, and the version control
answers what it is asked. -/
structure Apart (watched : Location → Bool) (w : Workspace) : Prop where
  log : ∀ f, w.log = some f → watched f.location = false ∧ ∃ bytes, w.tree.find? f.location = some (.file bytes)
  service : ∀ target, w.valueOf? Check.outputVariable = some target →
    watched (Tree.resolve [] (Path.ofText target).parts) = false
  ids : ∀ c ∈ w.source.pending, c ≠ '/' ∧ c ≠ '\\'
  time : (Number.int w.clock).isWritable = true
  revision : w.repository.Speaks

/-- The watched files are the same at the same time, and the later workspace is still apart from them. -/
structure Same (watched : Location → Bool) (w v : Workspace) : Prop where
  limits : v.limits = w.limits
  depth : v.depth = w.depth
  clock : v.clock = w.clock
  tree : w.tree.Alike watched v.tree
  apart : v.Apart watched

theorem Apart.mono {watched' : Location → Bool} (h : w.Apart watched)
    (hle : ∀ loc, watched' loc = true → watched loc = true) : w.Apart watched' := by
  have hnot : ∀ loc, watched loc = false → watched' loc = false := by
    intro loc hloc
    rw [← Bool.not_eq_true] at hloc ⊢
    exact fun hwatched => hloc (hle loc hwatched)
  exact ⟨fun f hf => ⟨hnot _ (h.log f hf).1, (h.log f hf).2⟩, fun target htarget => hnot _ (h.service target htarget),
    h.ids, h.time, h.revision⟩

theorem Apart.put {loc : Location} {log : Option LogFile} (h : w.Apart watched) (bytes : ByteArray)
    (hlog : ∀ f, log = some f → w.log = some f) : Apart watched { w with tree := w.tree.put loc (.file bytes), log } := by
  refine ⟨fun f hf => ?_, h.service, h.ids, h.time, h.revision⟩
  obtain ⟨hwatched, old, hold⟩ := h.log f (hlog f hf)
  exact ⟨hwatched, Tree.file_put hold loc bytes⟩

theorem Same.refl (h : w.Apart watched) : w.Same watched w := ⟨rfl, rfl, rfl, .refl _ _, h⟩

theorem Same.trans (h : u.Same watched v) (h' : v.Same watched w) : u.Same watched w :=
  ⟨h'.limits.trans h.limits, h'.depth.trans h.depth, h'.clock.trans h.clock, h.tree.trans h'.tree, h'.apart⟩

theorem Same.mono {watched' : Location → Bool} (h : w.Same watched v)
    (hle : ∀ loc, watched' loc = true → watched loc = true) : w.Same watched' v :=
  ⟨h.limits, h.depth, h.clock, h.tree.mono hle, h.apart.mono hle⟩

theorem Apart.of_clock (h : w.Apart watched) {clock : ℤ} (hclock : (Number.int clock).isWritable = true) :
    Apart watched { w with clock } := ⟨h.log, h.service, h.ids, hclock, h.revision⟩

/-- What an action may do to a workspace that is apart. -/
def Spares (watched : Location → Bool) (w v : Workspace) : Prop := w.Apart watched → w.Same watched v

theorem spares_frame (watched : Location → Bool) : Action.Frame (Spares watched) :=
  ⟨fun _ h => .refl h, fun h h' hu => (h hu).trans (h' (h hu).apart)⟩

theorem Same.of_grown {way : Location → Prop} {t : Tree} (h : w.Apart watched) (ht : Tree.Grown way w.tree t) :
    w.Same watched { w with tree := t } := by
  refine ⟨rfl, rfl, rfl, .of_grown ht, fun f hf => ⟨(h.log f hf).1, ?_⟩, h.service, h.ids, h.time, h.revision⟩
  obtain ⟨-, bytes, hbytes⟩ := h.log f hf
  exact ⟨bytes, ht.file_iff.mpr hbytes⟩

theorem Same.put {loc : Location} {log : Option LogFile} (h : w.Apart watched) (hloc : watched loc = false)
    (hdir : w.tree.find? loc ≠ some .directory) (bytes : ByteArray) (hlog : ∀ f, log = some f → w.log = some f) :
    w.Same watched { w with tree := w.tree.put loc (.file bytes), log } :=
  ⟨rfl, rfl, rfl, .put hloc hdir bytes, h.put bytes hlog⟩

/-- A note changes at most the log file. -/
theorem spares_note (watched : Location → Bool) (w : Workspace) (e : Entry) : Spares watched w (w.note e) := by
  intro h
  have hlogged : w.Same watched { w with tree := w.logged e } := by
    rcases w.logged_cases e with hkept | ⟨f, added, hlog, hadded⟩
    · rw [hkept]
      exact .refl h
    · obtain ⟨hapart, bytes, hfile⟩ := h.log f hlog
      rw [hadded]
      exact .put h hapart (by simp [hfile]) added fun _ hf => hf
  exact ⟨rfl, rfl, rfl, hlogged.tree, hlogged.apart.log, h.service, h.ids, h.time, h.revision⟩

theorem same_replaceFile (h : w.Apart watched) {p : Path} {bytes : ByteArray}
    (hloc : watched (Tree.resolve [] p.parts) = false)
    (htemp : ∀ n, watched (Tree.resolve [] p.parent.parts ++ [temporaryName n]) = false) :
    w.Same watched (w.replaceFile p bytes).1 := by
  have hreplaced := w.replaceFile_replaced p bytes
  rcases hr : w.replaceFile p bytes with ⟨v, o⟩
  rw [hr] at hreplaced
  cases hreplaced with
  | undone grown => exact .of_grown h grown
  | @left t directory n _ grown parent free nul =>
    have hdirectory := Tree.locate_eq_resolve parent
    subst hdirectory
    have hsame := Same.of_grown h grown
    exact hsame.trans (.put hsame.apart (htemp n) (by simp [free]) bytes fun _ hf => hf)
  | @done t loc grown target file =>
    have hplace := Tree.locate_eq_resolve target
    subst hplace
    have hsame := Same.of_grown h grown
    exact hsame.trans (.put hsame.apart hloc file bytes fun f hf => (Option.filter_eq_some_iff.mp hf).1)

/-- A file that was replaced has its new content, and the workspace is apart from it as before. -/
theorem replaceFile_done (h : w.Apart watched) {p : Path} {bytes : ByteArray} (hdone : w.replaceFile p bytes = (v, none)) :
    v.Apart watched ∧ v.node p = .ok (.file bytes) := by
  have hreplaced := w.replaceFile_replaced p bytes
  rw [hdone] at hreplaced
  cases hreplaced with
  | @done t loc grown target file =>
    have hgrown := Same.of_grown h grown
    refine ⟨hgrown.apart.put bytes fun f hf => (Option.filter_eq_some_iff.mp hf).1, ?_⟩
    exact node_eq_ok.mpr ⟨loc, Tree.locate_put file _ target, Tree.find?_put_self (Tree.ne_nil_of_find? rfl file) _⟩

end Workspace

end ScoreGate
