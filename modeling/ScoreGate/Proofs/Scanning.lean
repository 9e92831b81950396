import ScoreGate.Proofs.Watching

/-!
# What a scan sees

A scan goes through the candidates below its root in a fixed order.  What it finds depends on those alone that no
pattern excludes, so two workspaces with the same files at the locations that a scan sees have the same sources, with
the same texts, and the same analyses.

* `visitLe_antisymm`, `visitLe_total`, `visitLe_trans`: the order of a visit.
* `gather_filter`: candidates that are excluded do not matter.
* `Check.sees`: the locations that a scan looks at.
-/

namespace ScoreGate

/-! ### Sorting by an order -/

section Sorting

variable {α : Type} [LinearOrder α] {le : α → α → Bool} {l m : List α}

/-- Different items are sorted into strict order. -/
theorem pairwise_lt_mergeSort (hle : ∀ {a b : α}, le a b = true ↔ a ≤ b) (h : l.Nodup) :
    (l.mergeSort le).Pairwise (· < ·) := by
  have hsorted : (l.mergeSort le).Pairwise fun a b => le a b = true := by
    refine List.pairwise_mergeSort (fun a b c hab hbc => ?_) (fun a b => ?_) _
    · rw [hle] at hab hbc ⊢
      exact hab.trans hbc
    · rw [Bool.or_eq_true, hle, hle]
      exact le_total a b
  have hnodup : (l.mergeSort le).Nodup := List.nodup_mergeSort.mpr h
  exact (hsorted.and hnodup).imp fun hab => lt_of_le_of_ne (hle.mp hab.1) hab.2

end Sorting

/-! ### The order of a visit -/

theorem visitLe_antisymm : ∀ {a b : List String}, visitLe a b = true → visitLe b a = true → a = b
  | [], [], _, _ => rfl
  | [], b :: bs, _, h => by simp [visitLe] at h
  | a :: as, [], h, _ => by simp [visitLe] at h
  | [a], [b], h, h' => by
    simp only [visitLe, Bool.not_eq_true', decide_eq_false_iff_not] at h h'
    rw [String.le_antisymm h h']
  | [a], b :: b' :: bs, _, h => by simp [visitLe] at h
  | a :: a' :: as, [b], h, _ => by simp [visitLe] at h
  | a :: a' :: as, b :: b' :: bs, h, h' => by
    simp only [visitLe] at h h'
    by_cases hab : a = b
    · rw [if_pos hab] at h
      rw [if_pos hab.symm] at h'
      rw [hab, visitLe_antisymm h h']
    · rw [if_neg hab, decide_eq_true_eq] at h
      rw [if_neg (Ne.symm hab), decide_eq_true_eq] at h'
      exact absurd (String.lt_trans h h') (String.lt_irrefl a)

theorem visitLe_total : ∀ a b : List String, (visitLe a b || visitLe b a) = true
  | [], _ => by simp [visitLe]
  | a :: as, [] => by simp [visitLe]
  | [a], [b] => by
    simp only [visitLe, Bool.or_eq_true, Bool.not_eq_true', decide_eq_false_iff_not]
    exact String.le_total a b
  | [a], b :: b' :: bs => by simp [visitLe]
  | a :: a' :: as, [b] => by simp [visitLe]
  | a :: a' :: as, b :: b' :: bs => by
    simp only [visitLe]
    by_cases hab : a = b
    · rw [if_pos hab, if_pos hab.symm]
      exact visitLe_total (a' :: as) (b' :: bs)
    · rw [if_neg hab, if_neg (Ne.symm hab), Bool.or_eq_true, decide_eq_true_eq, decide_eq_true_eq]
      exact lt_or_gt_of_ne hab

theorem visitLe_trans : ∀ {a b c : List String}, visitLe a b = true → visitLe b c = true → visitLe a c = true
  | [], _, _, _, _ => by simp [visitLe]
  | a :: as, [], _, h, _ => by simp [visitLe] at h
  | a :: as, b :: bs, [], _, h => by simp [visitLe] at h
  | [a], [b], [c], h, h' => by
    simp only [visitLe, Bool.not_eq_true', decide_eq_false_iff_not] at h h' ⊢
    exact String.le_trans h h'
  | [a], _ :: _, c :: c' :: cs, _, _ => by simp [visitLe]
  | [a], b :: b' :: bs, [c], _, h' => by simp [visitLe] at h'
  | a :: a' :: as, [b], _, h, _ => by simp [visitLe] at h
  | a :: a' :: as, b :: b' :: bs, [c], _, h' => by simp [visitLe] at h'
  | a :: a' :: as, b :: b' :: bs, c :: c' :: cs, h, h' => by
    simp only [visitLe] at h h' ⊢
    -- the first directory in which two of the paths differ decides, and the last names only where none does
    by_cases hab : a = b
    · subst hab
      rw [if_pos rfl] at h
      by_cases hac : a = c
      · subst hac
        rw [if_pos rfl] at h' ⊢
        exact visitLe_trans h h'
      · rwa [if_neg hac] at h' ⊢
    · rw [if_neg hab, decide_eq_true_eq] at h
      by_cases hbc : b = c
      · subst hbc
        rwa [if_neg hab, decide_eq_true_eq]
      · rw [if_neg hbc, decide_eq_true_eq] at h'
        have hac := String.lt_trans h h'
        rw [if_neg (by rintro rfl; exact String.lt_irrefl _ hac), decide_eq_true_eq]
        exact hac

theorem pairwise_visitLe (l : List (List String)) :
    (l.mergeSort visitLe).Pairwise fun a b => visitLe a b = true := by
  have hsorted : ∀ m : List (List String), (m.mergeSort visitLe).Pairwise fun a b => visitLe a b = true :=
    List.pairwise_mergeSort (fun _ _ _ => visitLe_trans) visitLe_total
  exact hsorted l

/-- There is one way to put items in the order of a visit. -/
theorem eq_mergeSort_visitLe {l m : List (List String)} (hsorted : l.Pairwise fun a b => visitLe a b = true)
    (hperm : l.Perm m) : l = m.mergeSort visitLe :=
  List.Perm.eq_of_pairwise (fun _ _ _ _ => visitLe_antisymm) hsorted (pairwise_visitLe m)
    (hperm.trans (List.mergeSort_perm m visitLe).symm)

theorem filter_mergeSort (p : List String → Bool) (l : List (List String)) :
    (l.mergeSort visitLe).filter p = (l.filter p).mergeSort visitLe :=
  eq_mergeSort_visitLe ((pairwise_visitLe l).filter p) ((List.mergeSort_perm l visitLe).filter p)

/-! ### Candidates that are excluded -/

section Gather

variable {excluded : List String → Except Fault Bool} {room : ℕ → Bool}

/-- Whether a visit takes notice of a file: a pattern excludes it not, or cannot say. -/
def takesNotice (excluded : List String → Except Fault Bool) (names : List String) : Bool :=
  match excluded names with
  | .ok true => false
  | _ => true

/-- Without the candidates that are excluded a visit finds the same and ends in the same way. -/
theorem gather_filter : ∀ (l : List (List String)) {g h : Gathered}, h.found = g.found → h.full = g.full →
    h.fault = g.fault →
    (gather excluded room (l.filter (takesNotice excluded)) h).found = (gather excluded room l g).found ∧
      (gather excluded room (l.filter (takesNotice excluded)) h).fault = (gather excluded room l g).fault
  | [], _, _, hfound, _, hfault => ⟨hfound, hfault⟩
  | names :: l, g, h, hfound, hfull, hfault => by
    rcases he : excluded names with fault | ⟨_ | _⟩
    · rw [List.filter_cons_of_pos (by rw [takesNotice, he]), gather, gather, he]
      exact ⟨hfound, rfl⟩
    · rw [List.filter_cons_of_pos (by rw [takesNotice, he]), gather, gather, he]
      simp only [hfound]
      split_ifs
      · exact gather_filter l rfl hfull hfault
      · exact ⟨rfl, hfault⟩
    · rw [List.filter_cons_of_neg (by simp [takesNotice, he]), gather, he]
      exact gather_filter l hfound hfull hfault

end Gather

/-! ### What a scan sees -/

theorem Tree.files_eq (t : Tree) : t.files = t.fileEntries.map (·.1) := by
  rw [files, fileEntries, ← List.filterMap_eq_map, List.filterMap_filter]
  refine List.filterMap_congr fun e _ => ?_
  obtain ⟨loc, _ | bytes⟩ := e <;> rfl

namespace Check

/-- The location that the root of a check spells. -/
def location (c : Check) : Location := Tree.resolve [] c.root.parts

/-- The endings of sources, if they are a set. -/
def endings (c : Check) : List Value :=
  match extensionSet c.settings.extensions with
  | .ok es => es
  | .error _ => []

/-- Whether a scan takes notice of a file at a location below the root: no directory hides it, it has one of the
endings, and no pattern excludes it. -/
def scans (c : Check) (loc : Location) : Bool :=
  let names := loc.drop c.location.length
  c.location.isPrefixOf loc && c.location.length < loc.length && !(names.dropLast.any isHiddenDirectory) &&
    hasExtension c.endings names && takesNotice (excludedBy c.settings.excludePatterns) names

/-- Whether a scan looks at a file at a location: the root itself or a file below it. -/
def sees (c : Check) (loc : Location) : Bool := loc = c.location || c.scans loc

theorem candidates_filter (c : Check) (t : Tree) :
    (t.candidates c.location c.endings).filter (takesNotice (excludedBy c.settings.excludePatterns)) =
      ((t.fileEntries.filter fun e => c.scans e.1).map fun e => e.1.drop c.location.length).mergeSort visitLe := by
  rw [Tree.candidates, filter_mergeSort]
  congr 1
  rw [Tree.filesBelow, Tree.files_eq, List.filterMap_map, List.filter_filterMap, List.filter_filterMap,
    ← List.filterMap_eq_map, List.filterMap_filter]
  refine List.filterMap_congr fun e _ => ?_
  by_cases hbelow : (c.location.isPrefixOf e.1 && decide (c.location.length < e.1.length)) = true
  · simp only [Function.comp_apply, scans, hbelow, Bool.true_and, Bool.and_eq_true]
    split_ifs <;> simp_all
  · rw [Bool.not_eq_true] at hbelow
    simp only [Function.comp_apply, scans, hbelow, Bool.false_and, Bool.false_eq_true, if_false, Option.filter_none]

def visit (c : Check) (w : Workspace) : Gathered :=
  gather (excludedBy c.settings.excludePatterns) (roomFor (some c.settings.maxFiles))
    (match w.locate c.root with
    | .ok loc => w.tree.candidates loc c.endings
    | .error _ => []) .start

def visited (c : Check) (w : Workspace) : Except Failure (List Path) :=
  match (c.visit w).fault with
  | some fault => .error (.fault fault)
  | none => .ok (((c.visit w).found.mergeSort locationLe).map c.root.join)

/-- The sources below the root, without a word about them. -/
def sources (c : Check) (w : Workspace) : Except Failure (List Path) :=
  match extensionSet c.settings.extensions, w.node c.root with
  | .error fault, _ => .error (.fault fault)
  | .ok _, .ok (.file _) => .ok [c.root]
  | .ok _, .error .nameTooLong => .error .system
  | .ok _, _ => c.visited w

variable {watched : Location → Bool} {u v w : Workspace} {R : Workspace → Workspace → Prop}

/-- What is said about a visit that has ended changes neither its result nor anything that notes leave as it is. -/
theorem told_ends {g : Gathered} (hR : Action.Frame R) (hnote : ∀ w e, R w (w.note e)) {told : List String → String}
    {tooMany complete : String} {ps : List Path} : (do
        for names in g.skipped do
          Action.note .discovery .debug (told names)
        if let some fault := g.fault then throw (Failure.fault fault)
        if g.full then
          Action.note .discovery .warning tooMany
        else
          Action.note .discovery .info complete
        return ps : Action (List Path)).Ends w
      (fun qs v => g.fault = none ∧ qs = ps ∧ R w v)
      fun e v => (∃ fault, g.fault = some fault ∧ e = .fault fault) ∧ R w v := by
  have hloop : (forIn g.skipped PUnit.unit fun names _ => Action.note .discovery .debug (told names) >>= fun _ =>
      Pure.pure (ForInStep.yield PUnit.unit) : Action PUnit).Ends w (fun _ v => R w v)
      fun e v => (∃ fault, g.fault = some fault ∧ e = .fault fault) ∧ R w v :=
    (Action.Ends.forIn_yield hR (fun names v => Action.Ends.note (hnote v _)) g.skipped w).mono
      (fun _ _ hv => hv) fun _ _ hfalse => hfalse.elim
  refine Action.Ends.bind hloop fun _ v hv => ?_
  rcases hfault : g.fault with _ | fault
  · simp only
    split_ifs
    · exact Action.Ends.bind_ok (Action.exec_note ..) (Action.Ends.pure ⟨trivial, rfl, hR.trans hv (hnote v _)⟩)
    · exact Action.Ends.bind_ok (Action.exec_note ..) (Action.Ends.pure ⟨trivial, rfl, hR.trans hv (hnote v _)⟩)
  · exact Action.Ends.of_error (Action.exec_bind_error (Action.exec_throw _) _) ⟨⟨fault, rfl, rfl⟩, hv⟩

/-- Finding the sources gives those that are there, and changes nothing that notes leave as it is. -/
theorem findSources_ends (c : Check) (hR : Action.Frame R) (hnote : ∀ w e, R w (w.note e)) :
    (findSources c.root c.settings.extensions c.settings.excludePatterns (some c.settings.maxFiles)).Ends w
      (fun ps v => c.sources w = .ok ps ∧ R w v) fun e v => c.sources w = .error e ∧ R w v := by
  rw [findSources]
  rcases hes : extensionSet c.settings.extensions with fault | es
  · have hsources : c.sources w = .error (.fault fault) := by rw [sources, hes]
    exact Action.Ends.of_error (Action.exec_bind_error (Action.exec_lift_fault _) _) ⟨hsources, hR.refl w⟩
  · have hendings : c.endings = es := by rw [endings, hes]
    have hisFile := Action.exec_isFile c.root w
    refine Action.Ends.bind_ok (Action.exec_lift_ok rfl) ?_
    by_cases hfile : ∃ bytes, w.node c.root = .ok (.file bytes)
    · obtain ⟨bytes, hfile⟩ := hfile
      rw [hfile] at hisFile
      exact Action.Ends.bind_ok hisFile (Action.Ends.pure ⟨by rw [sources, hes, hfile], hR.refl w⟩)
    by_cases hlong : w.node c.root = .error .nameTooLong
    · rw [hlong] at hisFile
      exact Action.Ends.of_error (Action.exec_bind_error hisFile _) ⟨by rw [sources, hes, hlong], hR.refl w⟩
    -- what is left is a visit
    have hno : (Action.isFile c.root).exec w = (.ok false, w) ∧ c.sources w = c.visited w := by
      rw [hisFile, sources, hes]
      rcases hn : w.node c.root with o | ⟨_ | bytes⟩
      · rcases o
        case nameTooLong => exact absurd hn hlong
        all_goals exact ⟨rfl, rfl⟩
      · exact ⟨rfl, rfl⟩
      · exact absurd ⟨bytes, hn⟩ hfile
    refine Action.Ends.bind_ok hno.1 (Action.Ends.bind_ok Action.exec_get ?_)
    rw [hno.2, ← hendings]
    refine (told_ends hR hnote).mono ?_ ?_
    · rintro ps v ⟨hfault, rfl, hv⟩
      have hfault' : (c.visit w).fault = none := hfault
      exact ⟨by rw [visited, hfault']; rfl, hv⟩
    · rintro e v ⟨⟨fault, hfault, rfl⟩, hv⟩
      have hfault' : (c.visit w).fault = some fault := hfault
      exact ⟨by rw [visited, hfault'], hv⟩

/-! ### The same sources -/

/-- A node that is watched is the same in both workspaces, and a directory stays one. -/
theorem node_eq_of_same {p : Path} {n : Node} (h : w.Same watched v) (hn : w.node p = .ok n)
    (hwatched : watched (Tree.resolve [] p.parts) = true) : v.node p = .ok n := by
  obtain ⟨loc, hloc, hfind⟩ := Workspace.node_eq_ok.mp hn
  have hplace := Tree.locate_eq_resolve hloc
  refine Workspace.node_eq_ok.mpr ⟨loc, ?_, ?_⟩
  · rw [Workspace.locate, h.limits]
    exact Tree.locate_mono h.tree.directories hloc
  · rcases n with _ | bytes
    · exact h.tree.directories loc hfind
    · exact (h.tree.files (hplace ▸ hwatched) bytes).mpr hfind

variable {c : Check}

/-- A visit of the same files finds the same. -/
theorem visit_eq (h : w.Same watched v) (hsees : ∀ loc, c.sees loc = true → watched loc = true) {loc : Location}
    (hroot : w.locate c.root = .ok loc) :
    (c.visit v).found = (c.visit w).found ∧ (c.visit v).fault = (c.visit w).fault := by
  have hplace := Tree.locate_eq_resolve hroot
  subst hplace
  have hroot' : v.locate c.root = .ok c.location := by
    rw [Workspace.locate, h.limits]
    exact Tree.locate_mono h.tree.directories hroot
  have halike : w.tree.Alike c.scans v.tree := h.tree.mono fun loc hloc => hsees loc (by rw [sees, hloc, Bool.or_true])
  have hcandidates : (v.tree.candidates c.location c.endings).filter (takesNotice (excludedBy c.settings.excludePatterns)) =
      (w.tree.candidates c.location c.endings).filter (takesNotice (excludedBy c.settings.excludePatterns)) := by
    rw [candidates_filter, candidates_filter, halike.entries]
  have hv := @gather_filter (excludedBy c.settings.excludePatterns) (roomFor (some c.settings.maxFiles))
    (v.tree.candidates c.location c.endings) .start .start rfl rfl rfl
  have hw := @gather_filter (excludedBy c.settings.excludePatterns) (roomFor (some c.settings.maxFiles))
    (w.tree.candidates c.location c.endings) .start .start rfl rfl rfl
  rw [hcandidates] at hv
  simp only [visit, hroot', show w.locate c.root = .ok c.location from hroot]
  exact ⟨hv.1.symm.trans hw.1, hv.2.symm.trans hw.2⟩

/-- Where the same files are seen, there are the same sources. -/
theorem sources_eq (h : w.Same watched v) (hsees : ∀ loc, c.sees loc = true → watched loc = true) {n : Node}
    (hroot : w.node c.root = .ok n) : c.sources v = c.sources w := by
  have hroot' := node_eq_of_same h hroot (hsees c.location (by simp [sees]))
  obtain ⟨loc, hlocate, -⟩ := Workspace.node_eq_ok.mp hroot
  obtain ⟨hfound, hfault⟩ := visit_eq h hsees hlocate
  rw [sources, sources, hroot, hroot', visited, visited, hfound, hfault]

end Check

end ScoreGate
