import ScoreGate.Proofs.Running
import ScoreGate.Revision

/-!
# Asking for the revision

Asking for the branch or the commit notes something at most.  It fails only where the version control fails: where it
cannot be started, where it prints what is no text, and about a path that holds a NUL.

* `Reply.Fails`, `Revision.Surprise`: why there is no answer.
* `Revision.branch_ends`, `Revision.commit_ends`: what asking comes to.
-/

namespace ScoreGate

/-- Why a reply is no answer: there was nothing to reply, or some of it is no text. -/
inductive Reply.Fails : Reply → Failure → Prop
  | refused : Reply.refused.Fails .system
  | unreadable {code : ℤ} {output errors : ByteArray}
      (h : String.fromUTF8? output = none ∨ String.fromUTF8? errors = none) : (Reply.ended code output errors).Fails .notUtf8

/-- The version control can be started wherever it is asked, and prints text. -/
def Repository.Speaks (r : Repository) : Prop := ∀ p e, ¬(r.branch p).Fails e ∧ ¬(r.commit p).Fails e

theorem Repository.absent_speaks : Repository.absent.Speaks := by
  intro p e
  constructor
  all_goals rintro ⟨⟩

namespace Revision

/-- Why the version control gives no answer about a path. -/
inductive Surprise (w : Workspace) (p : Path) : Failure → Prop
  | branch {e : Failure} (h : (w.repository.branch p).Fails e) : Surprise w p e
  | commit {e : Failure} (h : (w.repository.commit p).Fails e) : Surprise w p e
  | nul (h : '\x00' ∈ p.text.toList) : Surprise w p (.fault (.badValue .nulInPath))

variable {R : Workspace → Workspace → Prop} {w : Workspace} {p : Path} {E : Failure → Workspace → Prop}

theorem answer_fails (r : Reply) : FailsOnly (answer r) r.Fails := by
  rcases r with _ | _ | ⟨code, output, errors⟩
  · exact .ok _ _
  · exact .error .refused
  · have hprinted : ∀ bytes, FailsOnly (printed bytes) fun e => e = .notUtf8 ∧ String.fromUTF8? bytes = none := by
      intro bytes
      rw [printed]
      rcases hbytes : String.fromUTF8? bytes with _ | s
      · exact .error ⟨rfl, rfl⟩
      · exact .ok _ _
    refine ((hprinted output).mono ?_).bind fun said _ => ((hprinted errors).mono ?_).bind fun _ _ => .ok _ _
    · rintro _ ⟨rfl, hbytes⟩
      exact .unreadable (Or.inl hbytes)
    · rintro _ ⟨rfl, hbytes⟩
      exact .unreadable (Or.inr hbytes)

/-- Asking changes nothing. -/
theorem ask_ends (question : Repository → Path → Reply) : (ask question p).Ends w (fun _ v => v = w)
    fun e v => v = w ∧ ((question w.repository p).Fails e ∨
      '\x00' ∈ p.text.toList ∧ e = .fault (.badValue .nulInPath)) := by
  rw [ask]
  split_ifs with hnul
  · exact .of_error (Action.exec_bind_error (Action.exec_throw _) _) ⟨rfl, Or.inr ⟨by simpa using hnul, rfl⟩⟩
  · refine .bind_ok rfl (.bind_ok Action.exec_get ?_)
    rcases hanswer : answer (question w.repository p) with e | said
    · exact .of_error rfl ⟨rfl, Or.inl (answer_fails _ e hanswer)⟩
    · exact .pure rfl

theorem fallback_ends (hR : Action.Frame R) (hnote : ∀ w e, R w (w.note e)) (what : String) (names : List String) :
    (fallback what names).Ends w (fun _ v => R w v) E := by
  rw [fallback]
  refine .bind_ok Action.exec_get ?_
  rcases fromVariables w names with _ | value
  · exact .pure (hR.refl w)
  · exact .bind_ok (Action.exec_note ..) (.pure (hnote w _))

theorem branch_ends (hR : Action.Frame R) (hnote : ∀ w e, R w (w.note e)) (p : Path) :
    (branch p).Ends w (fun _ v => R w v) fun e v => v = w ∧ Surprise w p e := by
  rw [branch]
  refine .bind ((ask_ends Repository.branch).mono (fun _ _ h => h) ?_) ?_
  · rintro e v ⟨rfl, h | ⟨hnul, rfl⟩⟩
    · exact ⟨rfl, .branch h⟩
    · exact ⟨rfl, .nul hnul⟩
  · rintro (_ | name) _ rfl
    · exact fallback_ends hR hnote ..
    · simp only
      split_ifs
      · exact fallback_ends hR hnote ..
      · exact .pure (hR.refl _)

theorem commit_ends (hR : Action.Frame R) (hnote : ∀ w e, R w (w.note e)) (p : Path) :
    (commit p).Ends w (fun _ v => R w v) fun e v => v = w ∧ Surprise w p e := by
  rw [commit]
  refine .bind ((ask_ends Repository.commit).mono (fun _ _ h => h) ?_) ?_
  · rintro e v ⟨rfl, h | ⟨hnul, rfl⟩⟩
    · exact ⟨rfl, .commit h⟩
    · exact ⟨rfl, .nul hnul⟩
  · rintro (_ | name) _ rfl
    · exact fallback_ends hR hnote ..
    · exact .pure (hR.refl _)

/-- There is an answer about a path that leads anywhere where the version control speaks. -/
theorem not_surprise (hw : w.repository.Speaks) {n : Node} (hp : w.node p = .ok n) (e : Failure) : ¬Surprise w p e := by
  rintro (h | h | hnul)
  · exact (hw p e).1 h
  · exact (hw p e).2 h
  · obtain ⟨loc, hloc, -⟩ := Workspace.node_eq_ok.mp hp
    rw [Workspace.locate, Tree.locate, Tree.checkPath, if_pos (by simpa using hnul)] at hloc
    cases hloc

end Revision

end ScoreGate
