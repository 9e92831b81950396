import ScoreGate.Check
import ScoreGate.Proofs.Shelf

/-!
# Parts of a check

A check looks at the sources and then judges what it found.  In the end it writes the file of each format beside the
snapshots, under a name that a listing passes over, and it adds a few lines to the file that the build service reads.  What
either comes to follows from what is said of the one file that it puts.

* `Check.observe`, `Check.run_eq`: a run, part by part.
* `Check.outputFile_name`, `Check.outputName_not_listed`: the names of the files.
* `Check.ends_writeOutput`: the rule for writing the file of a format.
* `Check.ends_tellService`: the rule for telling the build service.
-/

namespace ScoreGate

namespace Check

variable {c : Check} {r : Report} {id name : String} {format : Value} {w : Workspace}

/-! ### A run -/

/-- The beginning of a run: it asks for the branch and the commit. -/
def start (c : Check) : Action (String × String) := do
  let branch ← Revision.branch c.root
  let commit ← Revision.commit c.root
  Action.note .check .info ("CI check on branch " ++ branch ++ " at " ++ commit)
  return (branch, commit)

/-- A run until the sources are analysed. -/
def observe (c : Check) : Action (String × String × List FileAnalysis) := do
  let (branch, commit) ← c.start
  let analyses ← c.analyze
  Action.note .check .info ("Analyzed " ++ toString analyses.length ++ " files in 0.00s")
  return (branch, commit, analyses)

/-- A run is its parts one after another. -/
theorem run_eq (c : Check) : c.run = (do
    let (branch, commit, analyses) ← c.observe
    if analyses.isEmpty then
      Action.note .check .warning "No files found to analyze"
      return ⟨branch, commit, 0, none, none, [], false, false, 0⟩
    c.judgeAnalyses branch commit analyses) := by
  simp only [run, observe, start, bind_assoc, pure_bind]

/-! ### Names -/

theorem outputFile_name {format content : String} (h : outputFile format r id = .ok (some (name, content))) :
    name = "report-" ++ id ++ ".json" ∨ name = "comment-" ++ id ++ ".md" := by
  rw [outputFile] at h
  split_ifs at h
  · obtain ⟨_, -, h⟩ := bind_eq_ok.mp h
    cases h
    exact Or.inl rfl
  · obtain ⟨_, -, h⟩ := bind_eq_ok.mp h
    cases h
    exact Or.inr rfl
  · cases h

theorem outputName_not_listed (h : name = "report-" ++ id ++ ".json" ∨ name = "comment-" ++ id ++ ".md") :
    Store.isSnapshotName name = false := by
  rw [Store.isSnapshotName, Bool.and_eq_false_iff]
  rcases h with rfl | rfl
  · have hbegins : "report-".toList.isPrefixOf ("report-" ++ id ++ ".json").toList = true := by
      rw [List.isPrefixOf_iff_prefix, String.toList_append, String.toList_append, List.append_assoc]
      exact List.prefix_append _ _
    rw [Bool.not_eq_false', List.any_eq_true]
    exact Or.inr ⟨"report-", by simp [Store.foreignBeginnings], hbegins⟩
  · refine Or.inl (Bool.eq_false_iff.mpr fun hends => ?_)
    rw [List.isSuffixOf_iff_suffix] at hends
    obtain ⟨before, hbefore⟩ := hends
    have hlast := congrArg (fun l => l.reverse.head?) hbefore
    simp [String.toList_append] at hlast

theorem outputName_ne (h : name = "report-" ++ id ++ ".json" ∨ name = "comment-" ++ id ++ ".md") : name ≠ ".." := by
  rintro rfl
  rcases h with heq | heq
  all_goals
    have hhead := congrArg (fun name => name.toList.head?) heq
    simp at hhead

/-! ### Rules -/

variable {E : Failure → Workspace → Prop}

/-- What writing the file of a format comes to: a fault of its form, a file that cannot be written, or a file that was put
beside the snapshots, with a note of that. -/
theorem ends_writeOutput {P : Option Path → Workspace → Prop}
    (hfault : ∀ fault, outputFile format.display r id = .error fault → E (.fault fault) w) (hnone : P none w)
    (hrefused : ∀ name content o, outputFile format.display r id = .ok (some (name, content)) →
      w.write (c.store.root.child name) content.toUTF8 = .error o →
        E (Store.storageFailure (c.store.root.child name) .write ⟨o, (c.store.root.child name).text, none⟩) w)
    (hput : ∀ name content, outputFile format.display r id = .ok (some (name, content)) →
      w.tree.find? (c.store.location ++ [name]) ≠ some .directory → ∀ output e,
        P output (Workspace.note { w with tree := w.tree.put (c.store.location ++ [name]) (.file content.toUTF8) } e)) :
    (c.writeOutput r id format).Ends w P E := by
  rw [writeOutput]
  rcases houtput : outputFile format.display r id with fault | _ | ⟨name, content⟩
  · exact .of_error (Action.exec_bind_error (Action.exec_lift_fault _) _) (hfault fault houtput)
  · exact .bind_ok (Action.exec_lift_ok rfl) (.pure hnone)
  refine .bind_ok (Action.exec_lift_ok rfl) (.bind_ok Action.exec_get ?_)
  rcases hwrite : w.write (c.store.root.child name) content.toUTF8 with o | v
  · exact .of_error (Action.exec_bind_error (Action.exec_throw _) _) (hrefused name content o houtput hwrite)
  · obtain ⟨loc, htarget, hv⟩ := bind_eq_ok.mp hwrite
    cases hv
    obtain ⟨hlocate, hdir⟩ := Workspace.target_eq_ok htarget
    obtain rfl : loc = c.store.location ++ [name] :=
      (Tree.locate_eq_resolve hlocate).trans
        (Tree.resolve_concat (outputName_ne (outputFile_name houtput)) [] c.store.root.parts)
    exact .bind_ok (Action.exec_set _) (.bind_ok (Action.exec_note ..) (.pure (hput name content houtput hdir _ _)))

/-- What telling the build service comes to: nothing where it names no file, a file that cannot be written, or one that has
gone on at its end. -/
theorem ends_tellService {P : Unit → Workspace → Prop} (hsilent : P () w)
    (hrefused : ∀ target bytes o, w.valueOf? outputVariable = some target → target.isEmpty = false →
      addTo target bytes w = .error o → E (.storage target (.write ⟨o, target, none⟩)) w)
    (hput : ∀ target loc more, w.valueOf? outputVariable = some target → loc = Tree.resolve [] (Path.ofText target).parts →
      w.tree.find? loc ≠ some .directory → P () { w with tree := w.tree.put loc (.file (w.contentAt loc ++ more)) }) :
    (tellService r).Ends w P E := by
  rw [tellService]
  refine .bind_ok Action.exec_get ?_
  rcases hservice : w.valueOf? outputVariable with _ | target
  · exact .pure hsilent
  simp only
  split_ifs with hempty
  · exact .pure hsilent
  · refine .bind_ok Action.exec_get ?_
    rcases hadd : addTo target (joinText "\n" (outputLines r) ++ "\n").toUTF8 w with o | v
    · exact .of_error (Action.exec_throw _) (hrefused target _ o hservice (by simpa using hempty) hadd)
    · rw [addTo] at hadd
      split_ifs at hadd
      obtain ⟨loc, htarget, hv⟩ := bind_eq_ok.mp hadd
      cases hv
      obtain ⟨hlocate, hdir⟩ := Workspace.target_eq_ok htarget
      exact .of_ok (Action.exec_set _) (hput target loc _ hservice (Tree.locate_eq_resolve hlocate) hdir)

end Check

end ScoreGate
