import ScoreGate.Proofs.Names
import ScoreGate.Proofs.Replacement

/-!
# What a store holds

A store is meant to be two maps that have nothing to do with each other: snapshots by their ids, and baselines by
branches.  `Shelf` is that meaning.  A history of a store is any sequence of calls that change it, at any times; every
call answers with what it changed or with a failure, and the shelf of a history is what its answers come to.

* `Slot`: an id or a branch, with the document that stands for it.
* `Store.Call`, `Store.Change`, `Store.History`: the calls, what they change, and the sequences of them.
* `Shelf.after`, `Shelf.of`: what the answers come to.
-/

namespace ScoreGate

/-! ### The shelf -/

/-- What a call that succeeded has changed. -/
inductive Store.Change where
  | stored (snapshot : Snapshot)
  | kept (branch : String) (snapshot : Snapshot)
  | removed (ids : List String)

/-- The snapshots by their ids and the baselines by their branches. -/
structure Shelf where
  snapshots : String → Option Snapshot
  baselines : String → Option Snapshot

namespace Shelf

def empty : Shelf := ⟨fun _ => none, fun _ => none⟩

/-- The shelf after an answer; a failure changes nothing. -/
def after (σ : Shelf) : Except Failure Store.Change → Shelf
  | .ok (.stored x) => { σ with snapshots := fun id => if id = x.id then some x else σ.snapshots id }
  | .ok (.kept b x) => { σ with baselines := fun branch => if branch = b then some x else σ.baselines branch }
  | .ok (.removed ids) => { σ with snapshots := fun id => if id ∈ ids then none else σ.snapshots id }
  | .error _ => σ

/-- What some answers come to, the latest first. -/
def of : List (Except Failure Store.Change) → Shelf
  | [] => empty
  | answer :: earlier => (of earlier).after answer

end Shelf

/-! ### Calls -/

namespace Store

/-- A call that changes what a store holds. -/
inductive Call where
  | save (snapshot : Snapshot)
  | create (files : List FileSummary) (branch commit : String) (environment : Option Provenance)
  | saveBaseline (snapshot : Snapshot) (branch : String)
  | cleanup (maxAge : Number)

namespace Call

/-- The call on a store, with what it changes. -/
def perform (s : Store) : Call → Action Change
  | .save x => do
      s.save x
      return .stored x
  | .create files branch commit environment => return .stored (← s.create files branch commit environment)
  | .saveBaseline x branch => do
      s.saveBaseline x branch
      return .kept branch x
  | .cleanup maxAge => return .removed (← s.cleanup maxAge)

/-- Snapshots that are handed in passed their check when they were built; an age has a written form. -/
def Sound : Call → Prop
  | .save x => x.check = .ok x
  | .create .. => True
  | .saveBaseline x _ => x.check = .ok x
  | .cleanup maxAge => maxAge.isWritable = true

end Call

/-- A snapshot whose text reads back as the value that was written, where documents may be nested so deeply. -/
def Readable (depth : ℕ) (x : Snapshot) : Prop := Document.read depth x.text = .ok x.toValue

/-- Reading back does not depend on how the text is stored. -/
theorem readable_iff {depth : ℕ} {x : Snapshot} : Readable depth x ↔
    Document.ofTokens depth (Token.all (Document.write .indented 0 x.toValue)) = .ok x.toValue := by
  rw [Readable, Document.read, Snapshot.text, Document.indented, String.toList_ofList]

/-- The snapshot that a change puts on the shelf, if it puts one there, reads back. -/
def Change.Readable (depth : ℕ) : Change → Prop
  | .stored x => Store.Readable depth x
  | .kept _ x => Store.Readable depth x
  | .removed _ => True

/-- The histories of a store: calls one after another, each at any time, with their answers, the latest first. -/
inductive History (s : Store) (start : Workspace) : List (Except Failure Change) → Workspace → Prop
  | start : History s start [] start
  | call {answers : List (Except Failure Change)} {w : Workspace} (before : History s start answers w) (clock : ℤ)
      (c : Call) (sound : c.Sound)
      (readable : ∀ change, ((c.perform s).exec { w with clock }).1 = .ok change → change.Readable w.depth) :
      History s start (((c.perform s).exec { w with clock }).1 :: answers) ((c.perform s).exec { w with clock }).2

/-! ### Slots -/

/-- Where the root of a store leads. -/
def location (s : Store) : Location := Tree.resolve [] s.root.parts

/-- A path that goes through everything that the store makes directories for. -/
def way (s : Store) : Path := s.root.join ["baselines"]

end Store

/-- A place on the shelf. -/
inductive Slot where
  | snapshot (id : String)
  | baseline (branch : String)
  deriving DecidableEq

def Shelf.at (σ : Shelf) : Slot → Option Snapshot
  | .snapshot id => σ.snapshots id
  | .baseline branch => σ.baselines branch

namespace Slot

open Store (documentName baselineName)

/-- The names that lead from the root of a store to a document. -/
def names : Slot → List String
  | .snapshot id => [documentName id]
  | .baseline branch => ["baselines", baselineName branch]

def path (slot : Slot) (s : Store) : Path := s.root.join slot.names

def location (slot : Slot) (s : Store) : Location := s.location ++ slot.names

/-- What is in a slot for a snapshot has that id, which names a file. -/
def Fits : Slot → Snapshot → Prop
  | .snapshot id, x => x.id = id ∧ Store.isId id = true
  | .baseline _, _ => True

variable {slot other : Slot} {s : Store} {loc : Location}

theorem parent_snapshot (id : String) (s : Store) : ((snapshot id).path s).parent = s.root := Path.parent_child ..

theorem parent_baseline (branch : String) (s : Store) : ((baseline branch).path s).parent = s.way := by
  simp [path, names, Path.join, Path.parent, Store.way]

theorem names_injective (h : slot.names = other.names) : slot = other := by
  cases slot <;> cases other
  · simp only [names, List.cons.injEq, and_true] at h
    rw [Store.documentName_injective h]
  · simp [names] at h
  · simp [names] at h
  · simp only [names, List.cons.injEq, true_and, and_true] at h
    rw [Store.baselineName_injective h]

/-- Different slots have different documents. -/
theorem location_injective (h : slot.location s = other.location s) : slot = other :=
  names_injective (List.append_cancel_left h)

theorem location_eq (slot : Slot) (s : Store) : slot.location s = Tree.resolve [] (slot.path s).parts := by
  cases slot with
  | snapshot id => exact (Tree.resolve_concat (Store.documentName_ne id).1 [] s.root.parts).symm
  | baseline branch =>
    have h1 := Tree.resolve_concat (show "baselines" ≠ ".." by decide) [] s.root.parts
    have h2 := Tree.resolve_concat (Store.baselineName_ne branch) [] (s.root.parts ++ ["baselines"])
    rw [h1, List.append_assoc] at h2
    simp only [location, Store.location, names, path, Path.join]
    rw [List.append_assoc] at h2
    exact h2.symm

/-- Only ids that begin like temporary files share their documents with them. -/
theorem begins_of_temporary {id : String} {directory : Location} {n : ℕ}
    (h : (snapshot id).location s = directory ++ [Workspace.temporaryName n]) : ".tmp-".toList <+: id.toList := by
  obtain ⟨-, hnames⟩ := List.append_inj' h rfl
  have hname : documentName id = Workspace.temporaryName n := List.singleton_inj.mp hnames
  have hlist := congrArg String.toList hname
  simp only [documentName, Workspace.temporaryName, String.toList_append, List.append_cancel_right_eq] at hlist
  exact ⟨_, hlist.symm⟩

/-- No branch shares its document with a temporary file. -/
theorem baseline_ne_temporary {branch : String} {directory : Location} {n : ℕ} :
    (baseline branch).location s ≠ directory ++ [Workspace.temporaryName n] := by
  intro h
  rw [location, names, List.append_cons] at h
  obtain ⟨-, hname⟩ := List.append_inj' h rfl
  rw [List.singleton_inj] at hname
  have hhead := congrArg (fun name => name.toList.head?) hname
  simp [baselineName, Workspace.temporaryName] at hhead

theorem prefix_location (slot : Slot) (s : Store) : s.location <+: slot.location s := List.prefix_append _ _

/-- The path of a document leads to its location, if it leads anywhere. -/
theorem eq_location {w : Workspace} (h : w.locate (slot.path s) = .ok loc) : loc = slot.location s := by
  rw [location_eq]
  exact Tree.locate_eq_resolve h

/-- The directories above a document are those of the store. -/
theorem passes_way (h : (slot.path s).parent.Passes loc) : s.way.Passes loc := by
  cases slot with
  | snapshot id =>
    rw [parent_snapshot] at h
    obtain ⟨n, rfl⟩ := h
    refine ⟨min n s.root.parts.length, ?_⟩
    simp only [Path.join, Store.way]
    rw [List.take_append_of_le_length (Nat.min_le_right _ _), ← List.take_take, List.take_length]
  | baseline branch => rwa [parent_baseline] at h

end Slot

end ScoreGate
