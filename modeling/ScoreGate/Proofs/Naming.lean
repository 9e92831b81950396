import ScoreGate.Proofs.Checking
import ScoreGate.Proofs.Copies

/-!
# What analyses are called

A scan calls an analysis by the path of its file as seen from the root.  Below a directory this tells the files apart: the
path goes by the names that lead from the root to the file, the last of which is the file's own.  A root that is itself a
file is called by a single dot, whatever its name.

* `Check.AnalysisAt`: the analyses of a file that some names lead to from the root.
* `Check.analyze_takes`: a scan gives analyses of some of its sources, in their order.
* `Check.Names`, `Check.analyze_names`: what the analyses of a scan are called.
-/

namespace ScoreGate

/-! ### Paths as seen from a root -/

theorem Path.text_here_inj {names others : List String} (hnames : ∀ name ∈ names, IsFileName name)
    (hothers : ∀ name ∈ others, IsFileName name) (h : (here.join names).text = (here.join others).text) : names = others := by
  have hparts := congrArg (fun s => (ofText s).parts) h
  simp only [ofText_here_join hnames, ofText_here_join hothers] at hparts
  simpa [here, join] using hparts

namespace Tree

variable {t : Tree}

/-- A tree as a disk holds it: no location twice, and the names are names. -/
structure Spelled (t : Tree) : Prop where
  unique : t.Unique
  names : ∀ e ∈ t.entries, ∀ name ∈ e.1, IsFileName name

theorem nodup_candidates (h : t.Unique) (loc : Location) (extensions : List Value) : (t.candidates loc extensions).Nodup := by
  rw [candidates, (List.mergeSort_perm _ _).nodup_iff]
  exact (nodup_filesBelow h loc).filter _

end Tree

namespace Check

variable {c : Check} {v w : Workspace} {ps : List Path} {as : List FileAnalysis} {names : List String}

/-! ### Sources -/

theorem nodup_visit (h : w.tree.Unique) : (c.visit w).found.Nodup := by
  have hgather : ∀ l : List (List String), l.Nodup →
      (gather (excludedBy c.settings.excludePatterns) (roomFor (some c.settings.maxFiles)) l .start).found.Nodup := by
    intro l hl
    obtain ⟨taken, htaken, hfound⟩ := gather_sublist l .start
    rw [hfound, Gathered.start, List.nil_append]
    exact hl.sublist htaken
  rw [visit]
  rcases w.locate c.root with o | loc
  · exact hgather [] List.nodup_nil
  · exact hgather _ (Tree.nodup_candidates h loc c.endings)

theorem sources_of_file {bytes : ByteArray} (hfile : w.node c.root = .ok (.file bytes)) (h : c.sources w = .ok ps) :
    ps = [c.root] := by
  rw [sources, hfile] at h
  split at h
  · cases h
  · cases h
    rfl
  · next heq => cases heq
  · next hno _ => exact absurd rfl (hno bytes)

/-- What leads from the root to a source: nothing if the root is a file, and else the names of a file below it. -/
structure LeadsTo (c : Check) (w : Workspace) (names : List String) : Prop where
  file : ∃ bytes, w.tree.find? (c.location ++ names) = some (.file bytes)
  proper : ∀ name ∈ names, IsFileName name
  self : names = [] ↔ ∃ bytes, w.node c.root = .ok (.file bytes)

theorem sources_names (htree : w.tree.Spelled) (h : c.sources w = .ok ps) :
    ∃ l : List (List String), ps = l.map c.root.join ∧ l.Nodup ∧ ∀ names ∈ l, c.LeadsTo w names := by
  by_cases hroot : ∃ bytes, w.node c.root = .ok (.file bytes)
  · obtain ⟨bytes, hfile⟩ := hroot
    obtain rfl := sources_of_file hfile h
    obtain ⟨loc, hlocate, hfind⟩ := Workspace.node_eq_ok.mp hfile
    obtain rfl : loc = c.location := Tree.locate_eq_resolve hlocate
    refine ⟨[[]], by simp [Path.join], List.nodup_singleton _, fun names hnames => ?_⟩
    obtain rfl := List.mem_singleton.mp hnames
    exact ⟨⟨bytes, by simpa using hfind⟩, by simp, by simp [hfile]⟩
  · have hvisited := (sources_cases h).resolve_left fun hself => hroot hself.1
    rw [visited] at hvisited
    rcases hfault : (c.visit w).fault with _ | fault
    · simp only [hfault, Except.ok.injEq] at hvisited
      refine ⟨_, hvisited.symm, (List.mergeSort_perm _ _).nodup_iff.mpr (nodup_visit htree.unique), fun names hnames => ?_⟩
      obtain ⟨-, hne, -, bytes, hmem⟩ := mem_visit (List.mem_mergeSort.mp hnames)
      exact ⟨⟨bytes, Tree.find?_of_mem htree.unique (by simp [hne]) hmem⟩,
        fun name hname => htree.names _ hmem name (List.mem_append_right _ hname), iff_of_false hne hroot⟩
    · simp [hfault] at hvisited

/-! ### Analyses -/

/-- The analysis of the file that names lead to from the root, as it stands once some notes have been taken. -/
def AnalysisAt (c : Check) (w : Workspace) (names : List String) (a : FileAnalysis) : Prop :=
  ∃ u b, w.Notes u ∧ listed (u.node (c.root.join names)) (c.root.join names) = .ok (some b) ∧ a = b.relativeTo c.root

theorem analyzeFiles_takes (ps : List Path) (hv : w.Notes v) : (analyzeFiles ps).Ends v
    (fun as _ => ∃ zs, zs.Sublist ps ∧ List.Forall₂ (fun p a => ∃ u, w.Notes u ∧ listed (u.node p) p = .ok (some a)) zs as)
    fun _ _ => True := by
  have hstep : ∀ p ∈ ps, ∀ u, w.Notes u → (analyzeListed p).Ends u
      (fun r u' => w.Notes u' ∧ ∀ a, r = some a → ∃ u, w.Notes u ∧ listed (u.node p) p = .ok (some a)) fun _ _ => True := by
    intro p _ u hu
    refine (analyzeListed_ends Workspace.notes_frame Workspace.notes_note p).mono ?_ fun _ _ _ => trivial
    rintro r u' ⟨hlisted, hu'⟩
    refine ⟨Workspace.notes_frame.trans hu hu', ?_⟩
    rintro a rfl
    exact ⟨u, hu, hlisted⟩
  exact .bind (.filterMapM_sublist hstep hv) fun as u hu => .bind_ok (Action.exec_note ..) (.pure hu.2)

/-- A scan gives the analyses of some of its sources, in their order. -/
theorem analyze_takes (htree : w.tree.Spelled) (h : c.analyze.exec w = (.ok as, v)) :
    ∃ l : List (List String), l.Nodup ∧ (∀ names ∈ l, c.LeadsTo w names) ∧ List.Forall₂ (c.AnalysisAt w) l as := by
  have hends : c.analyze.Ends w (fun as _ => ∃ l : List (List String), l.Nodup ∧ (∀ names ∈ l, c.LeadsTo w names) ∧
      List.Forall₂ (c.AnalysisAt w) l as) fun _ _ => True := by
    rw [analyze]
    refine .bind ((c.findSources_ends Workspace.notes_frame Workspace.notes_note).mono (fun _ _ h => h) fun _ _ _ => trivial) ?_
    rintro ps u ⟨hps, hu⟩
    obtain ⟨l, rfl, hnodup, hleads⟩ := sources_names htree hps
    refine .bind (analyzeFiles_takes _ hu) ?_
    rintro bs - ⟨zs, hzs, hbs⟩
    obtain ⟨taken, htaken, rfl⟩ := List.sublist_map_iff.mp hzs
    refine .pure ⟨taken, hnodup.sublist htaken, fun names hnames => hleads names (htaken.subset hnames), ?_⟩
    refine List.forall₂_map_right_iff.mpr ((List.forall₂_map_left_iff.mp hbs).imp ?_)
    rintro names b ⟨u, hu, hlisted⟩
    exact ⟨u, b, hu, hlisted, rfl⟩
  exact hends.ok h

/-! ### Their names -/

/-- What the analyses of a scan are called. -/
structure Names (c : Check) (w : Workspace) (as : List FileAnalysis) : Prop where
  distinct : (as.map (·.path)).Nodup
  /-- a new snapshot of them passes its check -/
  recorded : ∃ metrics, Metrics.ofSummaries (as.map FileAnalysis.summary) = .ok metrics ∧
    ∀ id timestamp branch commit environment,
      let x : Snapshot := ⟨id, timestamp, branch, commit, metrics, as.map FileAnalysis.summary, environment⟩
      x.check = .ok x
  relative : ∀ a ∈ as, (Path.ofText a.path).root = ""
  /-- unless the root is a file, a path leads from the root to the file and ends in its own name -/
  named : (∀ bytes, w.node c.root ≠ .ok (.file bytes)) → ∀ a ∈ as, ∃ names, c.AnalysisAt w names a ∧
    (∃ bytes, w.tree.find? (c.location ++ names) = some (.file bytes)) ∧
    Path.ofText a.path = Path.here.join names ∧ (Path.ofText a.path).name = (c.location ++ names).getLastD ""
  /-- a root that is a file is a dot, and this is not its name -/
  single : ∀ bytes, w.node c.root = .ok (.file bytes) → as.length ≤ 1 ∧
    ∀ a ∈ as, a.path = "." ∧ (Path.ofText a.path).name ≠ c.location.getLastD ""

section Called

variable {a : FileAnalysis}

theorem path_of_leadsTo (hspelled : ∃ spelling, c.root = .ofText spelling) (hleads : c.LeadsTo w names)
    (ha : c.AnalysisAt w names a) : a.path = (Path.here.join names).text ∧ Path.ofText a.path = Path.here.join names := by
  obtain ⟨spelling, hroot⟩ := hspelled
  obtain ⟨u, b, -, hlisted, rfl⟩ := ha
  obtain ⟨text, rfl⟩ := eq_analyzeText_of_listed hlisted
  have hproper : ∀ name ∈ c.root.parts ++ names, IsFileName name := by
    intro name hname
    rcases List.mem_append.mp hname with hname | hname
    · rw [hroot] at hname
      exact Path.isFileName_of_mem_ofText hname
    · exact hleads.proper name hname
  rw [relativeTo_of_path (hroot ▸ Path.isRoot_ofText spelling) hproper rfl]
  exact ⟨rfl, Path.ofText_here_join hleads.proper⟩

theorem paths_eq (hspelled : ∃ spelling, c.root = .ofText spelling) {l : List (List String)}
    (hleads : ∀ names ∈ l, c.LeadsTo w names) (has : List.Forall₂ (c.AnalysisAt w) l as) :
    as.map (·.path) = l.map fun names => (Path.here.join names).text := by
  induction has with
  | nil => rfl
  | cons ha _ ih =>
    rw [List.map_cons, List.map_cons, (path_of_leadsTo hspelled (hleads _ (by simp)) ha).1,
      ih fun names hnames => hleads names (List.mem_cons_of_mem _ hnames)]

end Called

theorem isFileName_of_leadsTo (htree : w.tree.Spelled) (hleads : c.LeadsTo w names) :
    IsFileName ((c.location ++ names).getLastD "") := by
  obtain ⟨bytes, hfind⟩ := hleads.file
  have hne : c.location ++ names ≠ [] := Tree.ne_nil_of_find? hfind (by simp)
  rw [List.getLastD_eq_getLast?, List.getLast?_eq_getLast_of_ne_nil hne]
  exact htree.names _ ((Tree.eq_nil_or_mem hfind).resolve_left hne) _ (List.getLast_mem hne)

section Leading

variable {l : List (List String)}

theorem nodup_paths (hspelled : ∃ spelling, c.root = .ofText spelling) (hnodup : l.Nodup)
    (hleads : ∀ names ∈ l, c.LeadsTo w names) (has : List.Forall₂ (c.AnalysisAt w) l as) : (as.map (·.path)).Nodup := by
  rw [paths_eq hspelled hleads has]
  refine (List.nodup_map_iff_inj_on hnodup).mpr fun names hnames others hothers heq => ?_
  exact Path.text_here_inj (hleads names hnames).proper (hleads others hothers).proper heq

theorem exists_analysisAt (has : List.Forall₂ (c.AnalysisAt w) l as) {a : FileAnalysis} (ha : a ∈ as) :
    ∃ names ∈ l, c.AnalysisAt w names a := by
  obtain ⟨i, hi, rfl⟩ := List.mem_iff_getElem.mp ha
  have hil : i < l.length := has.length_eq ▸ hi
  exact ⟨l[i], List.getElem_mem hil, has.get hil hi⟩

theorem Names.of_leadsTo (hspelled : ∃ spelling, c.root = .ofText spelling) (htree : w.tree.Spelled) (hnodup : l.Nodup)
    (hleads : ∀ names ∈ l, c.LeadsTo w names) (has : List.Forall₂ (c.AnalysisAt w) l as) (hscored : ∀ a ∈ as, a.Scored) :
    c.Names w as := by
  have hdistinct := nodup_paths hspelled hnodup hleads has
  obtain ⟨metrics, hmetrics⟩ := Metrics.ofSummaries_ok hscored
  refine ⟨hdistinct, ⟨metrics, hmetrics, fun _ _ _ _ _ => Store.check_of_distinct rfl hmetrics hdistinct⟩,
    fun a ha => ?relative, fun hdirectory a ha => ?named, fun bytes hfile => ⟨?length, fun a ha => ?single⟩⟩
  case relative =>
    obtain ⟨names, hnames, hanalysis⟩ := exists_analysisAt has ha
    rw [(path_of_leadsTo hspelled (hleads names hnames) hanalysis).2]
    rfl
  case named =>
    obtain ⟨names, hnames, hanalysis⟩ := exists_analysisAt has ha
    have hpath := (path_of_leadsTo hspelled (hleads names hnames) hanalysis).2
    have hne : names ≠ [] := by
      intro hnil
      obtain ⟨bytes, hfile⟩ := (hleads names hnames).self.mp hnil
      exact hdirectory bytes hfile
    refine ⟨names, hanalysis, (hleads names hnames).file, hpath, ?_⟩
    rw [hpath, Path.name, Path.join, Path.here, List.nil_append, List.getLastD_eq_getLast?, List.getLastD_eq_getLast?,
      List.getLast?_append_of_ne_nil _ hne]
  -- where the root is a file, it is the only one that is analysed
  all_goals
    have hself : ∀ names ∈ l, names = [] := fun names hnames => (hleads names hnames).self.mpr ⟨bytes, hfile⟩
  case length =>
    rw [← has.length_eq]
    rwa [List.eq_replicate_of_mem hself, List.nodup_replicate] at hnodup
  case single =>
    obtain ⟨names, hnames, hanalysis⟩ := exists_analysisAt has ha
    obtain ⟨hpath, hback⟩ := path_of_leadsTo hspelled (hleads names hnames) hanalysis
    have hname := isFileName_of_leadsTo htree (hleads names hnames)
    rw [hself names hnames] at hpath hback hname
    rw [List.append_nil] at hname
    refine ⟨hpath, ?_⟩
    rw [hback]
    exact hname.1.symm

end Leading

/-- Where the tree is as a disk holds it and the root is spelled somehow, the paths of a scan are different and relative, and
a snapshot takes them.  Unless the root is a file each is the path from the root to its file, and a root that is a file is a
dot.  A scan without a result has one of the reasons for which sources cannot be looked for. -/
theorem analyze_names (hspelled : ∃ spelling, c.root = .ofText spelling) (htree : w.tree.Spelled) :
    c.analyze.Ends w (fun as _ => c.Names w as)
      fun e _ => ScanSurprise w c.root c.settings.extensions c.settings.excludePatterns e := by
  refine ⟨fun h => ?_, fun h => c.analyze_surprises.error h⟩
  obtain ⟨l, hnodup, hleads, has⟩ := analyze_takes htree h
  exact .of_leadsTo hspelled htree hnodup hleads has (c.analyze_surprises.ok h).2

/-- Two files, each in a directory of its own. -/
def apart : Workspace :=
  { Store.blank with
    tree := ⟨[(["src"], .directory), (["src", "lib"], .directory), (["src", "lib", "a.ts"], .file "const x = 1".toUTF8),
      (["app"], .directory), (["app", "b.ts"], .file "setInterval(f, 10)".toUTF8)]⟩ }

/-- From its directory a file is called by its name, and as roots both files are called the same. -/
theorem analyze_names_apart :
    (∃ as v, (checkOf "src").analyze.exec apart = (.ok as, v) ∧ as.map (·.path) = ["lib/a.ts"] ∧
      (checkOf "src").Names apart as) ∧
    (∃ as v, (checkOf "src/lib/a.ts").analyze.exec apart = (.ok as, v) ∧ as.map (·.path) = ["."] ∧
      (checkOf "src/lib/a.ts").Names apart as) ∧
    ∃ as v, (checkOf "app/b.ts").analyze.exec apart = (.ok as, v) ∧ as.map (·.path) = ["."] ∧
      (checkOf "app/b.ts").Names apart as := by
  have htree : apart.tree.Spelled := by
    refine ⟨by rw [Tree.Unique]; decide, ?_⟩
    simp [apart, IsFileName]
  have hnames : ∀ {root : String} {paths : List String},
      ((checkOf root).analyze.exec apart).1.map (fun as => as.map (·.path)) = .ok paths →
        ∃ as v, (checkOf root).analyze.exec apart = (.ok as, v) ∧ as.map (·.path) = paths ∧ (checkOf root).Names apart as := by
    intro root paths hpaths
    rcases hexec : (checkOf root).analyze.exec apart with ⟨failure | as, v⟩
    · rw [hexec] at hpaths
      cases hpaths
    · rw [hexec] at hpaths
      exact ⟨as, v, rfl, Except.ok.inj hpaths, (analyze_names ⟨root, rfl⟩ htree).ok hexec⟩
  exact ⟨hnames (by decide +kernel), hnames (by decide +kernel), hnames (by decide +kernel)⟩

end Check

end ScoreGate
