import ScoreGate.Proofs.Filling
import ScoreGate.Proofs.Marks
import ScoreGate.Proofs.Rereading

/-!
# Copies of a tree of sources

Wherever a copy of a tree of sources is placed, a scan of it finds the same files in the same order, reads the same texts
from them and calls them by the same paths.  The rules however are given the whole path, which begins with that of the
root, and so the root has a say in what they see of every path below it.  That is all it has: two copies have equal
analyses if the rules see the same of both roots.

* `Tree.candidates_eq`: the same files below two locations are the same candidates.
* `Check.Placed`: a root where a tree of sources can be scanned; `Check.analyses_eq`: what a scan of it gives.
* `Check.analyze_copies`: the analyses of two copies.
-/

namespace ScoreGate

/-! ### The files below a location -/

namespace Tree

variable {t u : Tree} {loc here there : Location} {names : List String} {n : Node}

theorem below_eq_some {l : Location} :
    (if loc.isPrefixOf l && decide (loc.length < l.length) then some (l.drop loc.length) else none) = some names ↔
      l = loc ++ names ∧ names ≠ [] := by
  rw [Option.ite_none_right_eq_some, Bool.and_eq_true, decide_eq_true_eq, List.isPrefixOf_iff_prefix, Option.some.injEq]
  constructor
  · rintro ⟨⟨⟨rest, rfl⟩, hlt⟩, rfl⟩
    rw [List.drop_left]
    refine ⟨rfl, ?_⟩
    rintro rfl
    simp at hlt
  · rintro ⟨rfl, hne⟩
    exact ⟨⟨List.prefix_append _ _, by simpa [List.length_pos_iff] using hne⟩, List.drop_left⟩

theorem mem_filesBelow (h : t.Unique) : names ∈ t.filesBelow loc ↔
    names ≠ [] ∧ ∃ bytes, t.find? (loc ++ names) = some (.file bytes) := by
  simp only [filesBelow, List.mem_filterMap, below_eq_some, files_eq, fileEntries, List.mem_map, List.mem_filter]
  constructor
  · rintro ⟨l, ⟨⟨_, n⟩, ⟨he, hfile⟩, rfl⟩, hl, hne⟩
    simp only at hl
    subst hl
    refine ⟨hne, ?_⟩
    rcases n with _ | bytes
    · simp at hfile
    · exact ⟨bytes, find?_of_mem h (by simp [hne]) he⟩
  · rintro ⟨hne, bytes, hfind⟩
    rcases eq_nil_or_mem hfind with hnil | hmem
    · simp [hne] at hnil
    · exact ⟨_, ⟨_, ⟨hmem, by simp⟩, rfl⟩, rfl, hne⟩

theorem nodup_filesBelow (h : t.Unique) (loc : Location) : (t.filesBelow loc).Nodup := by
  have hfiles : t.files.Nodup := by
    rw [files_eq]
    exact h.sublist (List.filter_sublist.map Prod.fst)
  refine List.Nodup.filterMap (fun a b names ha hb => ?_) hfiles
  rw [(below_eq_some.mp ha).1, (below_eq_some.mp hb).1]

/-- The same files below two locations are the same candidates of a visit. -/
theorem candidates_eq (ht : t.Unique) (hu : u.Unique)
    (h : ∀ names, u.find? (there ++ names) = t.find? (here ++ names)) (extensions : List Value) :
    u.candidates there extensions = t.candidates here extensions := by
  have hfiles : (u.filesBelow there).Perm (t.filesBelow here) := by
    refine (List.perm_ext_iff_of_nodup (nodup_filesBelow hu there) (nodup_filesBelow ht here)).mpr fun names => ?_
    rw [mem_filesBelow hu, mem_filesBelow ht]
    rw [h names]
  exact eq_mergeSort_visitLe (pairwise_visitLe _) ((List.mergeSort_perm _ visitLe).trans (hfiles.filter _))

end Tree

/-! ### Sources -/

/-- A source as it stands below a root: its path from there, and its text. -/
structure SourceText where
  path : String
  text : String

/-- The analysis of a source below a root of which the rules see this. -/
def SourceText.under (m : Marks) (s : SourceText) : FileAnalysis :=
  let issues := issuesAs (m.or (marksOf s.path)) s.text.toList
  let size := (lines s.text.toList).length
  ⟨s.path, issues, .of issues, computeScore issues (.int size), size⟩

theorem relativeTo_of_path {root : Path} {names : List String} {a : FileAnalysis} (hroot : Path.IsRoot root.root)
    (hproper : ∀ name ∈ root.parts ++ names, IsFileName name) (hpath : a.path = (root.join names).text) :
    a.relativeTo root = { a with path := (Path.here.join names).text } := by
  have hback : Path.ofText (root.join names).text = root.join names := Path.ofText_text hroot hproper
  rw [FileAnalysis.relativeTo, hpath, hback, Path.relativeTo?_join]

theorem relativeTo_analyzeText {root : Path} {names : List String} (hroot : Path.IsRoot root.root) (hnames : names ≠ [])
    (hproper : ∀ name ∈ root.parts ++ names, IsFileName name) (text : String) :
    (analyzeText text (root.join names).text).relativeTo root =
      SourceText.under (marksOf root.text) ⟨(Path.here.join names).text, text⟩ := by
  rw [relativeTo_of_path hroot hproper rfl]
  simp only [analyzeText, textIssues_eq_issuesAs, marksOf_join hroot hnames, SourceText.under]

/-- A pass over images whose steps all succeed. -/
theorem filterMapM_map_eq_ok {α β γ ε : Type} {k : γ → α} {f : α → Except ε (Option β)} {g : γ → Option β} :
    ∀ {xs : List γ}, (∀ x ∈ xs, f (k x) = .ok (g x)) → (xs.map k).filterMapM f = .ok (xs.filterMap g)
  | [], _ => rfl
  | x :: xs, h => by
    have hrest := filterMapM_map_eq_ok fun y hy => h y (List.mem_cons_of_mem x hy)
    rw [List.map_cons, List.filterMapM_cons, h x (by simp), ok_bind, hrest]
    rcases hx : g x with _ | y
    · rw [List.filterMap_cons_none hx]
    · rw [List.filterMap_cons_some hx]
      rfl

namespace Check

variable {c c' : Check} {w w' : Workspace} {names : List String}

/-- The root is a directory that the check spells somehow.  Below it the files have names as a disk holds them and can be
reached under their paths, and the log file, if there is one, is not among the sources. -/
structure Placed (c : Check) (w : Workspace) : Prop where
  spelled : ∃ spelling, c.root = .ofText spelling
  directory : w.node c.root = .ok .directory
  unique : w.tree.Unique
  files : ∀ {names bytes}, w.tree.find? (c.location ++ names) = some (.file bytes) →
    (∀ name ∈ names, IsFileName name) ∧ w.locate (c.root.join names) = .ok (c.location ++ names)
  log : ∀ f, w.log = some f → c.sees f.location = false ∧ ∃ bytes, w.tree.find? f.location = some (.file bytes)

/-- The names that a visit below the root finds, sorted. -/
def found (c : Check) (w : Workspace) : Except Failure (List (List String)) :=
  match extensionSet c.settings.extensions, (c.visit w).fault with
  | .error fault, _ => .error (.fault fault)
  | .ok _, some fault => .error (.fault fault)
  | .ok _, none => .ok ((c.visit w).found.mergeSort locationLe)

/-- The source of these names below the root, if it is text. -/
def sourceAt (c : Check) (w : Workspace) (names : List String) : Option SourceText :=
  match w.tree.find? (c.location ++ names) with
  | some (.file bytes) =>
      (String.fromUTF8? bytes).map fun s => ⟨(Path.here.join names).text, String.ofList (unifyLineEnds s.toList)⟩
  | _ => none

theorem sourceAt_of_file {bytes : ByteArray} (hfile : w.tree.find? (c.location ++ names) = some (.file bytes)) :
    c.sourceAt w names = (String.fromUTF8? bytes).map fun s =>
      ⟨(Path.here.join names).text, String.ofList (unifyLineEnds s.toList)⟩ := by
  rw [sourceAt, hfile]

namespace Placed

/-- The root is found where it is spelled. -/
theorem locate (h : c.Placed w) : w.locate c.root = .ok c.location := by
  obtain ⟨loc, hlocate, -⟩ := Workspace.node_eq_ok.mp h.directory
  obtain rfl : loc = c.location := Tree.locate_eq_resolve hlocate
  exact hlocate

/-- The sources are what a visit below the root finds. -/
theorem sources (h : c.Placed w) : c.sources w = (c.found w).map (·.map c.root.join) := by
  rw [Check.sources, h.directory, found]
  rcases extensionSet c.settings.extensions with fault | es
  · rfl
  · simp only [visited]
    rcases (c.visit w).fault with _ | fault <;> rfl

theorem file_of_found (h : c.Placed w) {found : List (List String)} (hfound : c.found w = .ok found)
    (hnames : names ∈ found) : names ≠ [] ∧ c.scans (c.location ++ names) = true ∧
      ∃ bytes, w.tree.find? (c.location ++ names) = some (.file bytes) := by
  have hvisit : names ∈ (c.visit w).found := by
    rw [Check.found] at hfound
    split at hfound
    · cases hfound
    · cases hfound
    · cases hfound
      exact List.mem_mergeSort.mp hnames
  obtain ⟨-, hne, hscans, bytes, hmem⟩ := mem_visit hvisit
  exact ⟨hne, hscans, bytes, Tree.find?_of_mem h.unique (by simp [hne]) hmem⟩

/-- A file below the root is read under its path. -/
theorem node (h : c.Placed w) {bytes : ByteArray} (hfile : w.tree.find? (c.location ++ names) = some (.file bytes)) :
    w.node (c.root.join names) = .ok (.file bytes) :=
  Workspace.node_eq_ok.mpr ⟨_, (h.files hfile).2, hfile⟩

theorem analyses (h : c.Placed w) : c.analyses w =
    (c.found w).map fun found => (found.filterMap (c.sourceAt w)).map (·.under (marksOf c.root.text)) := by
  obtain ⟨spelling, hspelled⟩ := h.spelled
  have hroot : Path.IsRoot c.root.root := hspelled ▸ Path.isRoot_ofText spelling
  rw [Check.analyses, h.sources]
  rcases hfound : c.found w with e | found
  · rfl
  · have hread : ∀ names ∈ found, listed (w.node (c.root.join names)) (c.root.join names) =
        .ok ((c.sourceAt w names).map fun s => analyzeText s.text (c.root.join names).text) := by
      intro names hnames
      obtain ⟨-, -, bytes, hfile⟩ := h.file_of_found hfound hnames
      rw [h.node hfile, sourceAt_of_file hfile, listed, Option.map_map]
      rfl
    -- the marks of an analysis tell what stood in the path of the root, whatever is below it
    have hseen : ∀ names ∈ found,
        ((c.sourceAt w names).map fun s => analyzeText s.text (c.root.join names).text).map (·.relativeTo c.root) =
          (c.sourceAt w names).map (·.under (marksOf c.root.text)) := by
      intro names hnames
      obtain ⟨hne, -, bytes, hfile⟩ := h.file_of_found hfound hnames
      have hproper : ∀ name ∈ c.root.parts ++ names, IsFileName name := by
        intro name hname
        rcases List.mem_append.mp hname with hname | hname
        · rw [hspelled] at hname
          exact Path.isFileName_of_mem_ofText hname
        · exact (h.files hfile).1 name hname
      rw [sourceAt_of_file hfile]
      rcases String.fromUTF8? bytes with _ | s
      · rfl
      · exact congrArg some (relativeTo_analyzeText hroot hne hproper _)
    have hpass : (found.map c.root.join).filterMapM (fun p => listed (w.node p) p) =
        .ok (found.filterMap fun names => (c.sourceAt w names).map fun s => analyzeText s.text (c.root.join names).text) :=
      filterMapM_map_eq_ok hread
    simp only [Except.map, ok_bind, hpass, pure_eq_ok, List.map_filterMap]
    rw [List.filterMap_congr hseen]

/-- A scan gives these analyses. -/
theorem exec_analyze (h : c.Placed w) : (c.analyze.exec w).1 = c.analyses w := by
  have hlog : w.HasLog := fun f hf => (h.log f hf).2
  have hread : ∀ ps, c.sources w = .ok ps → ∀ p ∈ ps, ∀ u, (w.HasLog → w.Noted u) →
      listed (u.node p) p = listed (w.node p) p := by
    intro ps hps p hp u hu
    rw [h.sources] at hps
    obtain ⟨found, hfound, rfl⟩ := map_eq_ok.mp hps
    obtain ⟨names, hnames, rfl⟩ := List.mem_map.mp hp
    obtain ⟨-, hscans, bytes, hfile⟩ := h.file_of_found hfound hnames
    rw [(hu hlog).node fun f hf heq => ?_]
    rw [(h.files hfile).2, Except.ok.injEq] at heq
    have hunseen := (h.log f hf).1
    rw [← heq, sees, hscans, Bool.or_true] at hunseen
    cases hunseen
  have hR : Action.Frame fun w v : Workspace => w.HasLog → w.Noted v :=
    ⟨fun _ hlog => .refl hlog, fun hu hv hlog => (hu hlog).trans (hv (hu hlog).hasLog)⟩
  have hends := analyze_ends_of_frame hR (fun w e hlog => Workspace.noted_note hlog e) hread
  rcases hexec : c.analyze.exec w with ⟨e | as, v⟩
  · exact (hends.error hexec).1.symm
  · exact (hends.ok hexec).1.symm

end Placed

theorem found_copies (h : c.Placed w) (h' : c'.Placed w') (hsettings : c'.settings = c.settings)
    (hcopy : ∀ names, w'.tree.find? (c'.location ++ names) = w.tree.find? (c.location ++ names)) :
    c'.found w' = c.found w := by
  have hendings : c'.endings = c.endings := by rw [endings, endings, hsettings]
  have hvisit : c'.visit w' = c.visit w := by
    simp only [visit, h.locate, h'.locate, hendings, hsettings, Tree.candidates_eq h.unique h'.unique hcopy]
  rw [found, found, hsettings, hvisit]

/-- Two copies of a tree of sources have the same sources, and each analysis is that of its source below a root of which
the rules see what they see of the path of the copy.

So if the rules see the same of both roots, the analyses are equal.  If they see a component file in one of them only, or a
file for hooks, issues of component files are added, or those of hooks taken away; the paths and the numbers of lines are
the same in any case. -/
theorem analyze_copies (h : c.Placed w) (h' : c'.Placed w') (hsettings : c'.settings = c.settings)
    (hcopy : ∀ names, w'.tree.find? (c'.location ++ names) = w.tree.find? (c.location ++ names)) :
    (marksOf c'.root.text = marksOf c.root.text → (c'.analyze.exec w').1 = (c.analyze.exec w).1) ∧
    ((∃ e, (c.analyze.exec w).1 = .error e ∧ (c'.analyze.exec w').1 = .error e) ∨
      ∃ sources : List SourceText,
        (c.analyze.exec w).1 = .ok (sources.map (·.under (marksOf c.root.text))) ∧
        (c'.analyze.exec w').1 = .ok (sources.map (·.under (marksOf c'.root.text))) ∧
        (isComponentFile c.root.text ≤ isComponentFile c'.root.text → isHookFile c'.root.text ≤ isHookFile c.root.text →
          ∀ s ∈ sources, (s.under (marksOf c.root.text)).issues.Sublist (s.under (marksOf c'.root.text)).issues)) := by
  have hsources : c'.sourceAt w' = c.sourceAt w := by
    funext names
    rw [sourceAt, sourceAt, hcopy names]
  rw [h.exec_analyze, h'.exec_analyze, h.analyses, h'.analyses, found_copies h h' hsettings hcopy, hsources]
  refine ⟨fun hmarks => by rw [hmarks], ?_⟩
  rcases c.found w with e | found
  · exact Or.inl ⟨e, rfl, rfl⟩
  · refine Or.inr ⟨found.filterMap (c.sourceAt w), rfl, rfl, fun hcomponent hhooks s _ => ?_⟩
    refine issuesAs_sublist ?_ ?_ s.text.toList
    · exact sup_le_sup_right hcomponent (isComponentFile s.path)
    · exact sup_le_sup_right hhooks (isHookFile s.path)

/-- A check of a directory under the default settings. -/
def checkOf (root : String) : Check := ⟨.default, .ofText root, ⟨.ofText ".performance-snapshots"⟩⟩

/-- A component that calls a hook, below two directories. -/
def twice : Workspace :=
  let component : Node := .file "const [n, setN] = useState(0)".toUTF8
  { Store.blank with
    tree := ⟨[(["src"], .directory), (["src", "a.tsx"], component),
      (["webhooks"], .directory), (["webhooks", "a.tsx"], component)]⟩ }

theorem find?_twice {root : String} (hroot : root = "src" ∨ root = "webhooks") (names : List String) :
    twice.tree.find? (root :: names) = if names = [] then some .directory
      else if names = ["a.tsx"] then some (.file "const [n, setN] = useState(0)".toUTF8) else none := by
  rcases hroot with rfl | rfl <;> simp [twice, Tree.find?, Tree.findIn, eq_comm (b := names)]

theorem placed_twice {root : String} (hroot : root = "src" ∨ root = "webhooks") : (checkOf root).Placed twice := by
  have hlocation : (checkOf root).location = [root] := by
    rcases hroot with rfl | rfl <;> decide +kernel
  refine ⟨⟨root, rfl⟩, ?_, by rw [Tree.Unique]; decide, fun {names bytes} hfile => ?_, nofun⟩
  · rcases hroot with rfl | rfl <;> decide +kernel
  · rw [hlocation, List.singleton_append, find?_twice hroot] at hfile
    split_ifs at hfile with hnil hname
    · cases hfile
    · rcases hroot with rfl | rfl <;> exact ⟨by simp [hname, IsFileName], by rw [hname]; decide +kernel⟩

theorem analyze_copies_twice : ∃ s : SourceText,
    ((checkOf "src").analyze.exec twice).1 = .ok [s.under ⟨false, false⟩] ∧
    ((checkOf "webhooks").analyze.exec twice).1 = .ok [s.under ⟨false, true⟩] ∧
    (s.under ⟨false, false⟩).issues.length = 1 ∧ (s.under ⟨false, true⟩).issues = [] := by
  have hone : (((checkOf "src").analyze.exec twice).1.map fun as => as.map (·.issues.length)) = .ok [1] := by decide +kernel
  have hnone : (((checkOf "webhooks").analyze.exec twice).1.map fun as => as.map (·.issues.length)) = .ok [0] := by
    decide +kernel
  have hcopies := (analyze_copies (placed_twice (Or.inl rfl)) (placed_twice (Or.inr rfl)) rfl fun names => by
    rw [show (checkOf "src").location = ["src"] by decide +kernel,
      show (checkOf "webhooks").location = ["webhooks"] by decide +kernel]
    exact (find?_twice (Or.inr rfl) names).trans (find?_twice (Or.inl rfl) names).symm).2
  rcases hcopies with ⟨e, hsrc, -⟩ | ⟨sources, hsrc, hwebhooks, -⟩
  · rw [hsrc] at hone
    cases hone
  · rw [hsrc] at hone
    rw [hwebhooks] at hnone
    simp only [Except.map, Except.ok.injEq, List.map_map] at hone hnone
    obtain ⟨s, rfl⟩ := List.length_eq_one_iff.mp (by simpa using congrArg List.length hone)
    rw [List.map_singleton, List.singleton_inj] at hone hnone
    exact ⟨s, hsrc, hwebhooks, hone, List.eq_nil_of_length_eq_zero hnone⟩

end Check

end ScoreGate
