import ScoreGate.Proofs.Locations
import ScoreGate.Proofs.Names
import ScoreGate.Proofs.Spelling

/-!
# Where documents can be

A document of a store is a child of one of two directories, of the root or of the directory of the baselines in it, and no
two documents are the same child.  A name that holds no slash makes a child, whatever else it holds; a branch is quoted
before it is made a name, and an id that is no name is refused.

* `Path.followed`, `Path.IsChildOf`: a path continued by a text, and the paths that stay right below another.
* `Path.resolve_of_isChildOf`: they lead to locations right below that of the other.
* `Store.Confined`, `Store.paths_confined`: the paths of documents.
-/

namespace ScoreGate

namespace Path

variable {p q : Path} {name : String}

/-- A path continued by a text that is read as a path; one with a root begins anew. -/
def followed (p : Path) (text : String) : Path :=
  if (ofText text).root = "" then p.join (ofText text).parts else ofText text

/-- The path of an entry of a directory: one component more, which leads neither nowhere nor up. -/
def IsChildOf (q p : Path) : Prop := ∃ name, IsFileName name ∧ name ≠ ".." ∧ q = p.child name

/-- A name is read as itself. -/
theorem ofText_of_isFileName (h : IsFileName name) : ofText name = here.child name := by
  have htext : (here.join [name]).text = name := by
    simp [text, join, here, joinText, joinWith]
  have hback : ofText (here.join [name]).text = here.join [name] := ofText_here_join (by simpa using h)
  rw [htext] at hback
  exact hback

theorem followed_of_isFileName (h : IsFileName name) (p : Path) : p.followed name = p.child name := by
  rw [followed, ofText_of_isFileName h]
  rfl

/-- An entry of a directory lies right below it, wherever that leads. -/
theorem resolve_of_isChildOf (h : q.IsChildOf p) : ∃ name, Tree.resolve [] q.parts = Tree.resolve [] p.parts ++ [name] := by
  obtain ⟨name, -, hdots, rfl⟩ := h
  exact ⟨name, Tree.resolve_concat hdots [] p.parts⟩

end Path

namespace Store

variable {s : Store}

/-! ### Names -/

theorem isFileName_baselineName (branch : String) : IsFileName (baselineName branch) := by
  have hhead : (baselineName branch).toList.head? = some 'b' := by
    simp [baselineName]
  refine ⟨?_, ?_, ?_⟩
  · intro h
    rw [h] at hhead
    revert hhead
    decide
  · intro h
    rw [h] at hhead
    revert hhead
    decide
  · have hquoted := not_mem_percentQuoted (c := '/') (by decide) (by decide) branch
    simpa [baselineName] using hquoted

theorem isFileName_documentName {id : String} (h : isId id = true) : IsFileName (documentName id) := by
  have hlength : 5 ≤ (documentName id).toList.length := by
    simp [documentName]
  refine ⟨?_, ?_, ?_⟩
  · intro hempty
    rw [hempty] at hlength
    simp at hlength
  · intro hdot
    rw [hdot] at hlength
    simp at hlength
  · simpa [documentName] using (isId_iff.mp h).2.1

/-! ### Paths -/

def baselines (s : Store) : Path := s.root.child "baselines"

theorem baselinePath_eq_child (branch : String) : s.baselinePath branch = s.baselines.child (baselineName branch) := by
  simp only [baselinePath, baselines, baselineName, Path.join, Path.child, List.append_assoc, List.cons_append, List.nil_append]

theorem eq_of_snapshotPath {id : String} {p : Path} (h : s.snapshotPath id = .ok p) :
    isId id = true ∧ p = s.root.child (documentName id) := by
  rw [snapshotPath] at h
  split_ifs at h with hid
  exact ⟨hid, (Except.ok.inj h).symm⟩

/-- The paths of documents stay in their directories and do not meet. -/
structure Confined (s : Store) : Prop where
  baseline : ∀ branch, (s.baselinePath branch).IsChildOf s.baselines ∧
    s.baselinePath branch = s.baselines.followed ("baseline-" ++ percentQuoted branch ++ ".json")
  baseline_injective : ∀ a b, s.baselinePath a = s.baselinePath b → a = b
  accepted : ∀ id, (∃ p, s.snapshotPath id = .ok p) ↔ id ≠ "" ∧ '/' ∉ id.toList ∧ '\\' ∉ id.toList
  snapshot : ∀ id p, s.snapshotPath id = .ok p → p.IsChildOf s.root ∧ p = s.root.followed (id ++ ".json")
  snapshot_injective : ∀ a b p, s.snapshotPath a = .ok p → s.snapshotPath b = .ok p → a = b
  apart : ∀ id branch, s.snapshotPath id ≠ .ok (s.baselinePath branch)
  /-- an id that would lead anywhere but right below the root is refused -/
  refused : ∀ id, ¬((s.root.followed (id ++ ".json")).root = s.root.root ∧
      ∃ name, Tree.resolve [] (s.root.followed (id ++ ".json")).parts = Tree.resolve [] s.root.parts ++ [name]) →
    s.snapshotPath id = .error (.invalidInput ("invalid snapshot id " ++ quoted id))

theorem isChildOf_of_baselinePath (branch : String) : (s.baselinePath branch).IsChildOf s.baselines ∧
    s.baselinePath branch = s.baselines.followed ("baseline-" ++ percentQuoted branch ++ ".json") := by
  have hname := isFileName_baselineName branch
  rw [baselinePath_eq_child]
  exact ⟨⟨_, hname, baselineName_ne branch, rfl⟩, (Path.followed_of_isFileName hname s.baselines).symm⟩

theorem isChildOf_of_snapshotPath {id : String} {p : Path} (h : s.snapshotPath id = .ok p) :
    p.IsChildOf s.root ∧ p = s.root.followed (id ++ ".json") := by
  obtain ⟨hid, rfl⟩ := eq_of_snapshotPath h
  have hname := isFileName_documentName hid
  exact ⟨⟨_, hname, (documentName_ne id).1, rfl⟩, (Path.followed_of_isFileName hname s.root).symm⟩

/-- Every baseline is an entry of the directory of the baselines, every snapshot one of the root, and the document of one is
not that of another; an id that would lead out of the root is refused. -/
theorem paths_confined (s : Store) : s.Confined := by
  refine ⟨isChildOf_of_baselinePath, fun a b h => ?_, fun id => ?_, fun _ _ => isChildOf_of_snapshotPath,
    fun a b p ha hb => ?_, fun id branch h => ?_, fun id hout => ?_⟩
  · rw [baselinePath_eq_child, baselinePath_eq_child] at h
    exact baselineName_injective (Path.child_inj.mp h)
  · rw [← isId_iff]
    exact ⟨fun ⟨p, hp⟩ => (eq_of_snapshotPath hp).1, fun hid => ⟨_, if_pos hid⟩⟩
  · obtain ⟨-, rfl⟩ := eq_of_snapshotPath ha
    obtain ⟨-, h⟩ := eq_of_snapshotPath hb
    exact documentName_injective (Path.child_inj.mp h)
  · -- a baseline has one component more
    obtain ⟨-, hpath⟩ := eq_of_snapshotPath h
    have hlength := congrArg (fun p : Path => p.parts.length) hpath
    simp [baselinePath, Path.join, Path.child] at hlength
  · by_cases hid : isId id = true
    · have hpath : s.snapshotPath id = .ok (s.root.child (documentName id)) := if_pos hid
      obtain ⟨hchild, hfollowed⟩ := isChildOf_of_snapshotPath hpath
      rw [← hfollowed] at hout
      exact absurd ⟨rfl, Path.resolve_of_isChildOf hchild⟩ hout
    · exact if_neg hid

example : (Path.ofText "store").followed ("../a" ++ ".json") = .ofText "store/../a.json" ∧
    snapshotPath ⟨.ofText "store"⟩ "../a" = .error (.invalidInput "invalid snapshot id '../a'") := by
  decide +kernel

end Store

end ScoreGate
