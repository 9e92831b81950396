import ScoreGate.Proofs.Scanning

/-!
# Reading the sources again

In a tree as a disk holds it, every source that a scan finds can be reached under its path, unless its name is too long
or the path may not be handed to the file system at all.  Both are the same as long as the files that the scan sees
are, so a later analysis gives what an earlier one gave.

* `Tree.Proper`: trees as a disk holds them.
* `Check.sources_steady`: every source reads the same.
* `Check.analyze_ends`, `Check.Firm.of_same`: the analyses are the same.
-/

namespace ScoreGate

/-! ### Trees as a disk holds them -/

namespace Tree

/-- Every entry is what is found at its location, lies in a directory, and is reached by names alone. -/
structure Proper (t : Tree) : Prop where
  found : ∀ e ∈ t.entries, t.find? e.1 = some e.2
  parent : ∀ e ∈ t.entries, t.find? e.1.dropLast = some .directory
  names : ∀ e ∈ t.entries, ".." ∉ e.1

variable {t u : Tree} {limits : Option NameLimits} {loc here : Location} {n : Node} {names parts : List String}

theorem eq_nil_or_mem (h : t.find? loc = some n) : loc = [] ∨ (loc, n) ∈ t.entries := by
  rw [find?] at h
  split_ifs at h with hl
  · exact Or.inl hl
  · exact Or.inr (mem_of_findIn_eq_some h)

namespace Proper

theorem directory_above (h : t.Proper) : ∀ {rest : List String} {n : Node}, rest ≠ [] → t.find? (here ++ rest) = some n →
    t.find? here = some .directory := by
  intro rest
  induction rest using List.reverseRecOn with
  | nil => exact fun hne => absurd rfl hne
  | append_singleton rest name ih =>
    intro n _ hfind
    have hparent : t.find? (here ++ rest) = some .directory := by
      rcases eq_nil_or_mem hfind with hnil | hmem
      · simp at hnil
      · have := h.parent _ hmem
        rwa [← List.append_assoc, List.dropLast_concat] at this
    by_cases hrest : rest = []
    · rwa [hrest, List.append_nil] at hparent
    · exact ih hrest hparent

theorem locateFrom_cases (h : t.Proper) : ∀ {names : List String} {here : Location} {n : Node},
    t.find? (here ++ names) = some n → ".." ∉ names → t.locateFrom limits here names = .ok (here ++ names) ∨
      t.locateFrom limits here names = .error .nameTooLong
  | [], here, _, _, _ => Or.inl (by rw [locateFrom, List.append_nil])
  | name :: names, here, n, hfind, hdots => by
    rw [locateFrom, h.directory_above (List.cons_ne_nil name names) hfind]
    simp only
    rw [if_neg (by rintro rfl; simp at hdots)]
    split_ifs
    · exact Or.inr rfl
    · have hsplit : here ++ name :: names = here ++ [name] ++ names := List.append_cons here name names
      rw [hsplit] at hfind ⊢
      exact locateFrom_cases h hfind fun hmem => hdots (List.mem_cons_of_mem _ hmem)

end Proper

end Tree

/-! ### The same texts -/

/-- What comes of reading and analysing one of several files, from what its path leads to. -/
def listed (n : Except Obstacle Node) (p : Path) : Except Failure (Option FileAnalysis) :=
  match n with
  | .ok (.file bytes) =>
      .ok ((String.fromUTF8? bytes).map fun s => analyzeText (String.ofList (unifyLineEnds s.toList)) p.text)
  | .error .nameTooLong => .error .system
  | _ => .ok none

variable {watched : Location → Bool} {u v w : Workspace}

theorem eq_analyzeText_of_listed {n : Except Obstacle Node} {p : Path} {a : FileAnalysis} (h : listed n p = .ok (some a)) :
    ∃ text, a = analyzeText text p.text := by
  rcases n with o | ⟨_ | bytes⟩
  · cases o <;> cases h
  · cases h
  · rw [listed, Except.ok.injEq, Option.map_eq_some_iff] at h
    obtain ⟨s, -, rfl⟩ := h
    exact ⟨_, rfl⟩

theorem exec_readSource (p : Path) (w : Workspace) : (readSource p).exec w = (match w.node p with
    | .ok (.file bytes) =>
      match String.fromUTF8? bytes with
      | none => .error (.fileAccess p.text .encoding)
      | some s => .ok (String.ofList (unifyLineEnds s.toList))
    | .error .nameTooLong => .error .system
    | _ => .error (.fileAccess p.text .notFound), w) := by
  rw [readSource, Action.exec_bind, Action.exec_isFile]
  rcases hn : w.node p with o | ⟨_ | bytes⟩
  · rcases o <;> rfl
  · rfl
  · have hread : w.read p = .ok bytes := by
      rw [Workspace.read, hn]
      rfl
    simp only [Bool.not_true, Bool.false_eq_true, if_false, Action.exec_bind, Action.exec_get, hread]
    rcases String.fromUTF8? bytes with _ | s <;> rfl

/-- Analysing one of several files gives what its text gives, and changes nothing that notes leave as it is. -/
theorem analyzeListed_ends {R : Workspace → Workspace → Prop} (hR : Action.Frame R) (hnote : ∀ w e, R w (w.note e))
    (p : Path) : (analyzeListed p).Ends w
    (fun a v => listed (w.node p) p = .ok a ∧ R w v)
    fun e v => listed (w.node p) p = .error e ∧ R w v := by
  have hread := exec_readSource p w
  have hfails : ∀ {e}, (readSource p).exec w = (.error e, w) → (some <$> analyzeFile p).exec w = (.error e, w) := by
    intro e he
    rw [Action.exec_map, analyzeFile, Action.exec_bind_error he]
    rfl
  rw [analyzeListed]
  rcases hn : w.node p with o | ⟨_ | bytes⟩
  · rw [hn] at hread
    rcases o
    case nameTooLong => exact .of_error (Action.exec_tryCatch_error (hfails hread)) ⟨rfl, hR.refl w⟩
    all_goals exact .of_ok (Action.exec_tryCatch_error (hfails hread)) ⟨rfl, hnote w _⟩
  · rw [hn] at hread
    exact .of_ok (Action.exec_tryCatch_error (hfails hread)) ⟨rfl, hnote w _⟩
  · rw [hn] at hread
    rcases hs : String.fromUTF8? bytes with _ | s
    · simp only [hs] at hread
      exact .of_ok (Action.exec_tryCatch_error (hfails hread)) ⟨by rw [listed, hs]; rfl, hnote w _⟩
    · simp only [hs] at hread
      have hanalyzed := Action.exec_map some (analyzeFile p) w
      rw [analyzeFile, Action.exec_bind_ok hread] at hanalyzed
      exact .of_ok (Action.exec_tryCatch_ok hanalyzed) ⟨by rw [listed, hs]; rfl, hnote w _⟩

/-- A path reads the same wherever the watched files are the same. -/
def Steady (watched : Location → Bool) (w : Workspace) (p : Path) : Prop :=
  ∀ v, w.Same watched v → listed (v.node p) p = listed (w.node p) p

theorem Steady.of_same {p : Path} (h : Steady watched w p) (hv : w.Same watched v) : Steady watched v p := by
  intro u hu
  rw [h u (hv.trans hu), h v hv]

namespace Check

variable {c : Check} {ps : List Path}

theorem steady_of_node {p : Path} {n : Node} (hn : w.node p = .ok n)
    (hwatched : watched (Tree.resolve [] p.parts) = true) : Steady watched w p := by
  intro v h
  rw [node_eq_of_same h hn hwatched, hn]

theorem steady_of_entry (hproper : w.tree.Proper) (hroot : w.locate c.root = .ok c.location) {names : List String}
    {bytes : ByteArray} (hmem : (c.location ++ names, .file bytes) ∈ w.tree.entries)
    (hwatched : watched (c.location ++ names) = true) : Steady watched w (c.root.join names) := by
  obtain ⟨-, hfrom⟩ := Tree.locate_eq_ok.mp hroot
  -- a path that is refused by its looks is refused at any time, any other goes on from the root
  rcases hcheck : Tree.checkPath w.limits (c.root.join names) with _ | o
  · have hpath : ∀ t : Tree, t.locateFrom w.limits [] c.root.parts = .ok c.location →
        t.locate w.limits (c.root.join names) = t.locateFrom w.limits c.location names := by
      intro t ht
      rw [Tree.locate, hcheck, Path.join, Tree.locateFrom_append, ht]
      rfl
    have hdots : ".." ∉ names := fun hdots => hproper.names _ hmem (List.mem_append_right _ hdots)
    rcases @Tree.Proper.locateFrom_cases _ w.limits hproper _ _ _ (hproper.found _ hmem) hdots with hok | hlong
    · have hlocate : w.locate (c.root.join names) = .ok (c.location ++ names) := (hpath w.tree hfrom).trans hok
      refine steady_of_node (Workspace.node_eq_ok.mpr ⟨_, hlocate, hproper.found _ hmem⟩) ?_
      rwa [← Tree.locate_eq_resolve hlocate]
    · intro v h
      have hv : v.locate (c.root.join names) = .error .nameTooLong := by
        rw [Workspace.locate, h.limits, hpath v.tree (Tree.locateFrom_mono h.tree.directories hfrom)]
        exact Tree.locateFrom_nameTooLong h.tree.directories hlong
      have hw : w.locate (c.root.join names) = .error .nameTooLong := (hpath w.tree hfrom).trans hlong
      rw [Workspace.node_eq_nameTooLong.mpr hv, Workspace.node_eq_nameTooLong.mpr hw]
  · intro v h
    have hnode : ∀ u : Workspace, u.limits = w.limits → u.node (c.root.join names) = .error o := by
      intro u hu
      rw [Workspace.node, Workspace.locate, Tree.locate, hu, hcheck]
      rfl
    rw [hnode v h.limits, hnode w rfl]

section Gather

variable {excluded : List String → Except Fault Bool} {room : ℕ → Bool}

/-- What a visit has found are some of the candidates, in their order, after what had been found before. -/
theorem gather_sublist : ∀ (l : List (List String)) (g : Gathered),
    ∃ taken, taken.Sublist l ∧ (gather excluded room l g).found = g.found ++ taken
  | [], g => ⟨[], .slnil, (List.append_nil _).symm⟩
  | names :: l, g => by
    rw [gather]
    rcases excluded names with fault | ⟨_ | _⟩
    · exact ⟨[], List.nil_sublist _, (List.append_nil _).symm⟩
    · simp only
      split_ifs
      · obtain ⟨taken, htaken, hfound⟩ := gather_sublist l { g with found := g.found ++ [names] }
        exact ⟨names :: taken, htaken.cons_cons names, by rw [hfound, List.append_assoc, List.singleton_append]⟩
      · exact ⟨[], List.nil_sublist _, (List.append_nil _).symm⟩
    · obtain ⟨taken, htaken, hfound⟩ := gather_sublist l { g with skipped := g.skipped ++ [names] }
      exact ⟨taken, htaken.cons names, hfound⟩

theorem mem_of_mem_gather {l : List (List String)} {g : Gathered} {names : List String}
    (h : names ∈ (gather excluded room l g).found) : names ∈ g.found ∨ names ∈ l := by
  obtain ⟨taken, htaken, hfound⟩ := gather_sublist l g
  rw [hfound, List.mem_append] at h
  exact h.imp_right fun hnames => htaken.subset hnames

end Gather

theorem mem_visit {names : List String} (h : names ∈ (c.visit w).found) : w.locate c.root = .ok c.location ∧
    names ≠ [] ∧ c.scans (c.location ++ names) = true ∧
      ∃ bytes, (c.location ++ names, .file bytes) ∈ w.tree.entries := by
  rcases hroot : w.locate c.root with o | loc
  · simp only [visit, hroot] at h
    rcases mem_of_mem_gather h with hstart | hnone
    · simp [Gathered.start] at hstart
    · simp at hnone
  · obtain rfl : loc = c.location := Tree.locate_eq_resolve hroot
    simp only [visit, hroot] at h
    -- the candidates that the scan takes no notice of add nothing
    rw [← (@gather_filter _ _ (w.tree.candidates c.location c.endings) .start .start rfl rfl rfl).1] at h
    rcases mem_of_mem_gather h with hstart | hmem
    · simp [Gathered.start] at hstart
    · rw [candidates_filter, List.mem_mergeSort, List.mem_map] at hmem
      obtain ⟨⟨loc, n⟩, he, rfl⟩ := hmem
      obtain ⟨he, hscans⟩ := List.mem_filter.mp he
      obtain ⟨he, hfile⟩ := List.mem_filter.mp he
      have hbelow := hscans
      simp only [scans, Bool.and_eq_true, decide_eq_true_eq] at hbelow
      have hsplit : c.location ++ loc.drop c.location.length = loc :=
        List.prefix_iff_eq_append.mp (List.isPrefixOf_iff_prefix.mp hbelow.1.1.1.1)
      refine ⟨rfl, ?_, by rw [hsplit]; exact hscans, ?_⟩
      · rw [ne_eq, List.drop_eq_nil_iff]
        exact Nat.not_le.mpr hbelow.1.1.1.2
      · rcases n with _ | bytes
        · simp at hfile
        · exact ⟨bytes, by rw [hsplit]; exact he⟩

theorem sources_cases (h : c.sources w = .ok ps) :
    (∃ bytes, w.node c.root = .ok (.file bytes)) ∧ ps = [c.root] ∨ c.visited w = .ok ps := by
  rw [sources] at h
  rcases hes : extensionSet c.settings.extensions with fault | es
  · rw [hes] at h
    cases h
  · rw [hes] at h
    rcases hn : w.node c.root with o | ⟨_ | bytes⟩
    · rw [hn] at h
      rcases o
      case nameTooLong => cases h
      all_goals exact Or.inr h
    · rw [hn] at h
      exact Or.inr h
    · rw [hn] at h
      cases h
      exact Or.inl ⟨⟨bytes, rfl⟩, rfl⟩

theorem mem_visited {p : Path} (h : c.visited w = .ok ps) (hp : p ∈ ps) :
    ∃ names ∈ (c.visit w).found, p = c.root.join names := by
  rw [visited] at h
  rcases hfault : (c.visit w).fault with _ | fault
  · simp only [hfault, Except.ok.injEq] at h
    rw [← h, List.mem_map] at hp
    obtain ⟨names, hnames, rfl⟩ := hp
    exact ⟨names, List.mem_mergeSort.mp hnames, rfl⟩
  · simp [hfault] at h

/-- All sources read the same wherever the files that the scan sees are the same. -/
theorem sources_steady (hproper : w.tree.Proper) (hsees : ∀ loc, c.sees loc = true → watched loc = true)
    (hsources : c.sources w = .ok ps) : ∀ p ∈ ps, Steady watched w p := by
  intro p hp
  rcases sources_cases hsources with ⟨⟨bytes, hn⟩, rfl⟩ | hvisited
  · obtain rfl := List.mem_singleton.mp hp
    exact steady_of_node hn (hsees c.location (by simp [sees]))
  · obtain ⟨names, hnames, rfl⟩ := mem_visited hvisited hp
    obtain ⟨hroot, -, hscans, bytes, hmem⟩ := mem_visit hnames
    exact steady_of_entry hproper hroot hmem (hsees _ (by rw [sees, hscans, Bool.or_true]))

theorem exists_root (hproper : w.tree.Proper) (hsources : c.sources w = .ok ps) (hne : ps ≠ []) :
    ∃ n, w.node c.root = .ok n := by
  rcases sources_cases hsources with ⟨⟨bytes, hn⟩, -⟩ | hvisited
  · exact ⟨_, hn⟩
  · obtain ⟨p, hp⟩ := List.exists_mem_of_ne_nil ps hne
    obtain ⟨names, hfound, -⟩ := mem_visited hvisited hp
    obtain ⟨hroot, hnames, -, bytes, hmem⟩ := mem_visit hfound
    exact ⟨_, Workspace.node_eq_ok.mpr ⟨_, hroot, hproper.directory_above hnames (hproper.found _ hmem)⟩⟩

/-! ### The same analyses -/

/-- The analyses of the sources, without a word about them. -/
def analyses (c : Check) (w : Workspace) : Except Failure (List FileAnalysis) := do
  let ps ← c.sources w
  let as ← ps.filterMapM fun p => listed (w.node p) p
  return as.map (·.relativeTo c.root)

section Frames

variable {R : Workspace → Workspace → Prop}

/-- Going through paths that read the same as long as a relation is kept gives their analyses, and keeps it. -/
theorem analyzeFiles_ends (hR : Action.Frame R) (hnote : ∀ w e, R w (w.note e)) (h : R w v)
    (hread : ∀ p ∈ ps, ∀ u, R w u → listed (u.node p) p = listed (w.node p) p) : (analyzeFiles ps).Ends v
    (fun as u => ps.filterMapM (fun p => listed (w.node p) p) = .ok as ∧ R w u)
    fun e u => ps.filterMapM (fun p => listed (w.node p) p) = .error e ∧ R w u := by
  have hstep : ∀ p ∈ ps, ∀ u, R w u → (analyzeListed p).Ends u
      (fun a u => listed (w.node p) p = .ok a ∧ R w u)
      fun e u => listed (w.node p) p = .error e ∧ R w u := by
    intro p hp u hu
    rw [← hread p hp u hu]
    exact (analyzeListed_ends hR hnote p).mono
      (fun _ _ h => ⟨h.1, hR.trans hu h.2⟩) fun _ _ h => ⟨h.1, hR.trans hu h.2⟩
  refine .bind (.filterMapM hstep h) fun as u hu => .bind_ok (Action.exec_note ..) (.pure ⟨hu.1, ?_⟩)
  exact hR.trans hu.2 (hnote u _)

/-- The analysis of sources that read the same as long as a relation is kept gives what the sources say, and keeps it. -/
theorem analyze_ends_of_frame (hR : Action.Frame R) (hnote : ∀ w e, R w (w.note e))
    (hread : ∀ ps, c.sources w = .ok ps → ∀ p ∈ ps, ∀ u, R w u → listed (u.node p) p = listed (w.node p) p) :
    c.analyze.Ends w (fun as v => c.analyses w = .ok as ∧ R w v) fun e v => c.analyses w = .error e ∧ R w v := by
  rw [analyze]
  refine .bind ((c.findSources_ends hR hnote).mono (fun _ _ h => h) ?_) ?_
  · rintro e v ⟨he, hv⟩
    exact ⟨by rw [analyses, he, error_bind], hv⟩
  · rintro ps v ⟨hps, hv⟩
    refine .bind ((analyzeFiles_ends hR hnote hv (hread ps hps)).mono (fun _ _ h => h) ?_) ?_
    · rintro e u ⟨he, hu⟩
      exact ⟨by rw [analyses, hps, ok_bind, he, error_bind], hu⟩
    · rintro as u ⟨has, hu⟩
      exact .pure ⟨by rw [analyses, hps, ok_bind, has]; rfl, hu⟩

end Frames

/-- The analysis of sources that read the same gives what the sources say, and spares what is watched. -/
theorem analyze_ends (hw : w.Apart watched) (hsteady : ∀ ps, c.sources w = .ok ps → ∀ p ∈ ps, Steady watched w p) :
    c.analyze.Ends w (fun as v => c.analyses w = .ok as ∧ w.Same watched v)
      fun e v => c.analyses w = .error e ∧ w.Same watched v :=
  (analyze_ends_of_frame (Workspace.spares_frame watched) (Workspace.spares_note watched) fun ps hps p hp u hu =>
    hsteady ps hps p hp u (hu hw)).mono (fun _ _ h => ⟨h.1, h.2 hw⟩) fun _ _ h => ⟨h.1, h.2 hw⟩

/-- The root is there, and every source reads the same wherever the watched files are the same. -/
structure Firm (c : Check) (watched : Location → Bool) (w : Workspace) : Prop where
  root : ∃ n, w.node c.root = .ok n
  steady : ∀ ps, c.sources w = .ok ps → ∀ p ∈ ps, Steady watched w p

namespace Firm

theorem mono {watched' : Location → Bool} (h : c.Firm watched' w)
    (hle : ∀ loc, watched' loc = true → watched loc = true) : c.Firm watched w :=
  ⟨h.root, fun ps hps p hp v hv => h.steady ps hps p hp v (hv.mono hle)⟩

/-- In a tree as a disk holds it, everything is firm where something is analysed. -/
theorem of_proper (hproper : w.tree.Proper) (hsees : ∀ loc, c.sees loc = true → watched loc = true)
    {as : List FileAnalysis} (has : c.analyses w = .ok as) (hne : as ≠ []) : c.Firm watched w := by
  obtain ⟨ps, hps, hrest⟩ := bind_eq_ok.mp has
  have hsome : ps ≠ [] := by
    rintro rfl
    cases hrest
    exact hne rfl
  exact ⟨exists_root hproper hps hsome, fun qs hqs => sources_steady hproper hsees hqs⟩

/-- Where the same files are seen, everything is as firm, and the analyses are the same. -/
theorem of_same (h : c.Firm watched w) (hsees : ∀ loc, c.sees loc = true → watched loc = true)
    (hv : w.Same watched v) : c.Firm watched v ∧ c.analyses v = c.analyses w := by
  obtain ⟨n, hroot⟩ := h.root
  have hroot' := node_eq_of_same hv hroot (hsees c.location (by simp [sees]))
  have hsources := sources_eq hv hsees hroot
  refine ⟨⟨⟨n, hroot'⟩, fun ps hps p hp => ?_⟩, ?_⟩
  · rw [hsources] at hps
    exact (h.steady ps hps p hp).of_same hv
  · rw [analyses, analyses, hsources]
    rcases hps : c.sources w with e | ps
    · rfl
    · have hread := filterMapM_congr fun p hp => h.steady ps hps p hp v hv
      rw [ok_bind, ok_bind, hread]

/-- Nothing of it depends on the time. -/
theorem of_clock (h : c.Firm watched w) (hw : w.Apart watched) (clock : ℤ) : c.Firm watched { w with clock } := by
  refine ⟨h.root, fun ps hps p hp v hv => ?_⟩
  have hback : w.Same watched { v with clock := w.clock } :=
    ⟨hv.limits, hv.depth, rfl, hv.tree, hv.apart.of_clock hw.time⟩
  have hsteady := h.steady ps hps p hp { v with clock := w.clock } hback
  exact hsteady

end Firm

end Check

end ScoreGate
