import ScoreGate.Proofs.Commands
import ScoreGate.Proofs.Listing
import ScoreGate.Proofs.Repeating
import ScoreGate.Proofs.Spelling
import ScoreGate.Proofs.Worsening

/-!
# Failures that nobody expects

Looking for sources, analysing them and recording the analyses can fail, apart from the files of a store, only for a few
reasons, each of which can be told from what the operation starts from: a name that the file system refuses, a setting of
another kind than its own, a pattern without components, and a NUL in a path.

* `Workspace.Follows`: what every workspace has in common with those before it.
* `ScanSurprise`: why sources cannot be looked for.
* `Store.WriteSurprise`, `Store.CreateSurprise`: why analyses cannot be recorded.
-/

namespace ScoreGate

/-! ### Later workspaces -/

def Path.HasNul (p : Path) : Prop := ∃ part ∈ p.root :: p.parts, '\x00' ∈ part.toList

instance (p : Path) : Decidable p.HasNul := inferInstanceAs (Decidable (∃ part ∈ p.root :: p.parts, '\x00' ∈ part.toList))

theorem Path.HasNul.of_join {p : Path} {names : List String} (h : (p.join names).HasNul)
    (hnames : ∀ name ∈ names, '\x00' ∉ name.toList) : p.HasNul := by
  obtain ⟨part, hpart, hnul⟩ := h
  rw [join, ← List.cons_append, List.mem_append] at hpart
  rcases hpart with hpart | hname
  · exact ⟨part, hpart, hnul⟩
  · exact absurd hnul (hnames part hname)

namespace Workspace

variable {u v w : Workspace} {p : Path}

/-- The file system refuses a path because it or a component of it is too long. -/
def Refuses (w : Workspace) (p : Path) : Prop := ∃ limits, w.limits = some limits ∧
  (limits.path < p.text.utf8ByteSize ∨ ∃ name ∈ p.parts, limits.name < name.utf8ByteSize)

instance (w : Workspace) (p : Path) : Decidable (w.Refuses p) :=
  decidable_of_iff (∃ limits ∈ w.limits, limits.path < p.text.utf8ByteSize ∨ ∃ name ∈ p.parts, limits.name < name.utf8ByteSize)
    Iff.rfl

theorem refuses_of_locateFrom {t : Tree} {limits : Option NameLimits} : ∀ {names : List String} {here : Location},
    t.locateFrom limits here names = .error .nameTooLong → ∃ l, limits = some l ∧ ∃ name ∈ names, l.name < name.utf8ByteSize
  | [], _, h => by cases h
  | name :: names, here, h => by
    have hrest : ∀ {next}, t.locateFrom limits next names = .error .nameTooLong →
        ∃ l, limits = some l ∧ ∃ n ∈ name :: names, l.name < n.utf8ByteSize := by
      intro next hnext
      obtain ⟨l, hl, n, hn, hlong⟩ := refuses_of_locateFrom hnext
      exact ⟨l, hl, n, List.mem_cons_of_mem name hn, hlong⟩
    rw [Tree.locateFrom] at h
    split at h
    · cases h
    · cases h
    · by_cases hdots : name = ".."
      · rw [if_pos hdots] at h
        exact hrest h
      · rw [if_neg hdots] at h
        split_ifs at h with hlong
        · rcases limits with _ | l
          · cases hlong
          · exact ⟨l, rfl, name, by simp, by simpa using hlong⟩
        · exact hrest h

theorem refuses_of_locate (h : w.locate p = .error .nameTooLong) : w.Refuses p := by
  rw [locate, Tree.locate] at h
  rcases hcheck : Tree.checkPath w.limits p with _ | o
  · rw [hcheck] at h
    obtain ⟨l, hlimits, hname⟩ := refuses_of_locateFrom h
    exact ⟨l, hlimits, Or.inr hname⟩
  · rw [hcheck] at h
    cases h
    rw [Tree.checkPath] at hcheck
    split_ifs at hcheck with hnul hlong
    · cases hcheck
    · rcases hlimits : w.limits with _ | l
      · rw [hlimits] at hlong
        cases hlong
      · rw [hlimits] at hlong
        exact ⟨l, hlimits, Or.inl (by simpa using hlong)⟩

theorem locateFrom_ne_nul {t : Tree} {limits : Option NameLimits} : ∀ {names : List String} {here : Location},
    t.locateFrom limits here names ≠ .error .nulInName
  | [], _, h => by cases h
  | name :: names, here, h => by
    rw [Tree.locateFrom] at h
    split at h
    · cases h
    · cases h
    · split_ifs at h
      · exact locateFrom_ne_nul h
      · cases h
      · exact locateFrom_ne_nul h

/-- A path that is not handed to the file system for a NUL holds one. -/
theorem hasNul_of_checkPath {limits : Option NameLimits} (h : Tree.checkPath limits p = some .nulInName) : p.HasNul := by
  rw [Tree.checkPath] at h
  split_ifs at h with hnul
  · have hmem : '\x00' ∈ p.text.toList := by simpa using hnul
    rw [Path.text] at hmem
    split_ifs at hmem
    · simp at hmem
    · rw [String.toList_append, List.mem_append, joinText, String.toList_ofList] at hmem
      rcases hmem with hroot | hparts
      · exact ⟨p.root, by simp, hroot⟩
      · rcases mem_joinWith hparts with hsep | ⟨l, hl, hc⟩
        · simp at hsep
        · obtain ⟨part, hpart, rfl⟩ := List.mem_map.mp hl
          exact ⟨part, List.mem_cons_of_mem _ hpart, hc⟩
  all_goals cases h

theorem hasNul_of_locate (h : w.locate p = .error .nulInName) : p.HasNul := by
  rw [locate, Tree.locate] at h
  rcases hcheck : Tree.checkPath w.limits p with _ | o
  · rw [hcheck] at h
    exact absurd h locateFrom_ne_nul
  · rw [hcheck] at h
    cases h
    exact hasNul_of_checkPath hcheck

/-- A path whose components lead to a directory leads on to a name that holds no NUL, unless it is refused. -/
theorem locate_join_cases {loc : Location} (hfrom : w.tree.locateFrom w.limits [] p.parts = .ok loc)
    (hdir : w.tree.find? loc = some .directory) {name : String} (hname : name ≠ "..") (hnul : ¬(p.join [name]).HasNul) :
    w.locate (p.join [name]) = .ok (loc ++ [name]) ∨ w.locate (p.join [name]) = .error .nameTooLong := by
  have hclean : ¬(p.join [name]).text.toList.contains '\x00' = true := fun hmem =>
    hnul (@hasNul_of_checkPath _ w.limits (if_pos hmem))
  rw [locate, Tree.locate, Tree.checkPath, if_neg hclean]
  split_ifs with hlong
  · exact Or.inr rfl
  · simp only [Path.join, Tree.locateFrom_append, hfrom, Except.bind, Tree.locateFrom, hdir, if_neg hname]
    split_ifs
    · exact Or.inr rfl
    · exact Or.inl rfl

/-- The characters that are still to be drawn are digits to base 36. -/
def DrawsDigits (w : Workspace) : Prop := ∀ c ∈ w.source.pending, ∃ n < 36, c = digit36 n

/-- The file system, the version control and the clock of a workspace are those of an earlier one, and digits are drawn if
they were. -/
structure Follows (w v : Workspace) : Prop where
  limits : v.limits = w.limits
  repository : v.repository = w.repository
  clock : v.clock = w.clock
  digits : w.DrawsDigits → v.DrawsDigits

theorem follows_frame : Action.Frame Follows :=
  ⟨fun _ => ⟨rfl, rfl, rfl, id⟩, fun h h' =>
    ⟨h'.limits.trans h.limits, h'.repository.trans h.repository, h'.clock.trans h.clock, h'.digits ∘ h.digits⟩⟩

theorem follows_note (w : Workspace) (e : Entry) : w.Follows (w.note e) := ⟨rfl, rfl, rfl, id⟩

theorem Follows.revision {e : Failure} (h : w.Follows v) (hv : Revision.Surprise v p e) : Revision.Surprise w p e := by
  rcases hv with hv | hv | hnul
  · exact .branch (h.repository ▸ hv)
  · exact .commit (h.repository ▸ hv)
  · exact .nul hnul

theorem Follows.refuses (h : w.Follows v) (hp : v.Refuses p) : w.Refuses p := by
  rwa [Refuses, h.limits] at hp

end Workspace

/-! ### Looking for sources -/

/-- Why some patterns cannot be tried: they are no list, one of them is no text, or one has no components. -/
inductive PatternFault (patterns : Value) : Fault → Prop
  | noList {fault : Fault} (h : patterns.elements = .error fault) : PatternFault patterns fault
  | noText {items : List Value} {item : Value} {fault : Fault} (h : patterns.elements = .ok items) (hmem : item ∈ items)
      (hfault : patternText item = .error fault) : PatternFault patterns fault
  | empty {items : List Value} {s : String} (h : patterns.elements = .ok items) (hmem : .text s ∈ items)
      (hsteps : (Path.ofText s).steps = []) : PatternFault patterns (.badValue .emptyPattern)

theorem fails_fits {patterns v : Value} {items : List Value} {s : String} (h : patterns.elements = .ok items) (hv : v ∈ items)
    (hs : patternText v = .ok s) (p : Path) : FailsOnly (p.fits s) (PatternFault patterns) := by
  have htext : v = .text s := by
    rcases v with _ | _ | t | _ | _ | _
    case text => exact congrArg Value.text (Except.ok.inj hs)
    all_goals
      simp only [patternText] at hs
      split_ifs at hs
  rw [Path.fits]
  split_ifs with hempty
  · exact .error (.empty h (htext ▸ hv) (List.isEmpty_iff.mp hempty))
  all_goals exact .ok _ _

theorem fails_skips {patterns : Value} {items : List Value} (h : patterns.elements = .ok items) (p : Path) :
    ∀ {vs : List Value}, vs ⊆ items → FailsOnly (skips p vs) (PatternFault patterns)
  | [], _ => .ok _ _
  | v :: vs, hvs => by
    have hv : v ∈ items := hvs (List.mem_cons_self ..)
    rw [skips]
    refine .bind (fun fault hfault => .noText h hv hfault) fun s hs => .bind ?_ fun found _ => ?_
    · rw [Path.skippedBy]
      refine .bind (fails_fits h hv hs p) fun fits _ => ?_
      split_ifs
      · exact .ok _ _
      · exact .ok _ _
    · split_ifs
      · exact .ok _ _
      · exact fails_skips h p fun x hx => hvs (List.mem_cons_of_mem v hx)

theorem fails_excludedBy (patterns : Value) (names : List String) :
    FailsOnly (excludedBy patterns names) (PatternFault patterns) := by
  rw [excludedBy]
  rcases h : patterns.elements with fault | items
  · exact .error (.noList h)
  · exact fails_skips h _ (List.Subset.refl items)

theorem fault_of_gather {excluded : List String → Except Fault Bool} {room : ℕ → Bool} {fault : Fault} :
    ∀ {l : List (List String)} {g : Gathered}, (gather excluded room l g).fault = some fault →
      g.fault = some fault ∨ ∃ names, excluded names = .error fault
  | [], _, h => Or.inl h
  | names :: l, g, h => by
    rw [gather] at h
    rcases he : excluded names with e | ⟨_ | _⟩
    · rw [he] at h
      exact Or.inr ⟨names, he.trans (congrArg Except.error (Option.some.inj h))⟩
    · rw [he] at h
      simp only at h
      split_ifs at h
      · have hrest := fault_of_gather h
        exact hrest
      · exact Or.inl h
    · rw [he] at h
      have hrest := fault_of_gather h
      exact hrest

/-- Why sources cannot be looked for and analysed: the endings are no set, a pattern cannot be tried, or the file system
refuses the root or the path of a source. -/
inductive ScanSurprise (w : Workspace) (root : Path) (extensions patterns : Value) : Failure → Prop
  | endings (h : ∀ es, extensions.elements = .ok es → es.all Value.isName = false) :
      ScanSurprise w root extensions patterns (.fault .wrongKind)
  | pattern {fault : Fault} (h : PatternFault patterns fault) : ScanSurprise w root extensions patterns (.fault fault)
  | root (h : w.Refuses root) : ScanSurprise w root extensions patterns .system
  | source {names : List String} {bytes : ByteArray} (h : w.Refuses (root.join names))
      (hfile : (Tree.resolve [] root.parts ++ names, .file bytes) ∈ w.tree.entries) :
      ScanSurprise w root extensions patterns .system

namespace Check

variable {c : Check} {u v w : Workspace} {ps : List Path}

theorem elements_eq_error {v : Value} {fault : Fault} (h : v.elements = .error fault) : fault = .wrongKind := by
  rcases v with _ | _ | _ | _ | _ | _
  all_goals
    cases h
    try rfl

/-- The endings of sources are no set if the setting is no list or one of its items has no name. -/
theorem extensionSet_eq_error {extensions : Value} {fault : Fault} (h : extensionSet extensions = .error fault) :
    fault = .wrongKind ∧ ∀ es, extensions.elements = .ok es → es.all Value.isName = false := by
  rw [extensionSet] at h
  rcases helements : extensions.elements with e | es
  · rw [helements, error_bind, Except.error.injEq] at h
    exact ⟨h ▸ elements_eq_error helements, fun _ hes => by cases hes⟩
  · rw [helements, ok_bind] at h
    split_ifs at h with hall
    · cases h
    · refine ⟨(Except.error.inj h).symm, fun es' hes => ?_⟩
      rw [← Except.ok.inj hes, Bool.eq_false_iff]
      exact hall

theorem surprises_visited {e : Failure} (h : c.visited w = .error e) :
    ScanSurprise w c.root c.settings.extensions c.settings.excludePatterns e := by
  rw [visited] at h
  rcases hfault : (c.visit w).fault with _ | fault
  · rw [hfault] at h
    cases h
  · rw [hfault] at h
    cases h
    rcases fault_of_gather hfault with hstart | ⟨names, hnames⟩
    · cases hstart
    · exact .pattern (fails_excludedBy _ names fault hnames)

theorem surprises_sources {e : Failure} (h : c.sources w = .error e) :
    ScanSurprise w c.root c.settings.extensions c.settings.excludePatterns e := by
  rw [sources] at h
  rcases hes : extensionSet c.settings.extensions with fault | es
  · rw [hes] at h
    cases h
    obtain ⟨rfl, hnone⟩ := extensionSet_eq_error hes
    exact .endings hnone
  rw [hes] at h
  rcases hn : w.node c.root with o | ⟨_ | bytes⟩
  · rw [hn] at h
    cases o
    case nameTooLong =>
      cases h
      exact .root (Workspace.refuses_of_locate (Workspace.node_eq_nameTooLong.mp hn))
    all_goals exact surprises_visited h
  · rw [hn] at h
    exact surprises_visited h
  · rw [hn] at h
    cases h

/-- What a source is: the root itself, or a file below it. -/
def IsSource (root : Path) (w : Workspace) (p : Path) : Prop := p = root ∨ ∃ names bytes, p = root.join names ∧
  (Tree.resolve [] root.parts ++ names, .file bytes) ∈ w.tree.entries

theorem isSource_of_mem (h : c.sources w = .ok ps) : ∀ p ∈ ps, IsSource c.root w p := by
  intro p hp
  rcases sources_cases h with ⟨-, rfl⟩ | hvisited
  · exact Or.inl (List.mem_singleton.mp hp)
  · obtain ⟨names, hfound, rfl⟩ := mem_visited hvisited hp
    obtain ⟨-, -, -, bytes, hfile⟩ := mem_visit hfound
    exact Or.inr ⟨names, bytes, rfl, hfile⟩

end Check

section Scan

variable {w : Workspace} {root : Path} {extensions patterns : Value}

theorem findSources_surprises (limit : Number) : (findSources root extensions patterns (some limit)).Ends w
    (fun ps v => w.Follows v ∧ ∀ p ∈ ps, Check.IsSource root w p) fun e _ => ScanSurprise w root extensions patterns e := by
  let c : Check :=
    ⟨{ Settings.default with extensions := extensions, excludePatterns := patterns, maxFiles := limit }, root, ⟨.here⟩⟩
  exact (c.findSources_ends Workspace.follows_frame Workspace.follows_note).mono
    (fun ps v h => ⟨h.2, Check.isSource_of_mem h.1⟩) fun e v h => Check.surprises_sources h.1

theorem scored_of_listed {n : Except Obstacle Node} {p : Path} {a : FileAnalysis} (h : listed n p = .ok (some a)) :
    a.Scored := by
  obtain ⟨text, rfl⟩ := eq_analyzeText_of_listed h
  exact FileAnalysis.scored_analyzeText _ _

theorem eq_of_listed_error {n : Except Obstacle Node} {p : Path} {e : Failure} (h : listed n p = .error e) :
    e = .system ∧ n = .error .nameTooLong := by
  rcases n with o | ⟨_ | bytes⟩
  · cases o
    case nameTooLong =>
      cases h
      exact ⟨rfl, rfl⟩
    all_goals cases h
  · cases h
  · cases h

/-- Analysing sources fails only where the file system refuses one of them, and every score of an analysis is whole. -/
theorem analyzeFiles_surprises {v : Workspace} {ps : List Path} (hv : w.Follows v) (hps : ∀ p ∈ ps, Check.IsSource root w p) :
    (analyzeFiles ps).Ends v (fun as u => w.Follows u ∧ ∀ a ∈ as, a.Scored)
      fun e _ => ScanSurprise w root extensions patterns e := by
  have hstep : ∀ p ∈ ps, ∀ u, w.Follows u → (analyzeListed p).Ends u (fun r u => w.Follows u ∧ ∀ a, r = some a → a.Scored)
      fun e _ => ScanSurprise w root extensions patterns e := by
    intro p hp u hu
    refine (analyzeListed_ends Workspace.follows_frame Workspace.follows_note p).mono ?_ ?_
    · rintro r u' ⟨hlisted, hu'⟩
      refine ⟨Workspace.follows_frame.trans hu hu', ?_⟩
      rintro a rfl
      exact scored_of_listed hlisted
    · rintro e u' ⟨hlisted, -⟩
      obtain ⟨rfl, hlong⟩ := eq_of_listed_error hlisted
      have hrefuses := hu.refuses (Workspace.refuses_of_locate (Workspace.node_eq_nameTooLong.mp hlong))
      rcases hps p hp with rfl | ⟨names, bytes, rfl, hfile⟩
      · exact .root hrefuses
      · exact .source hrefuses hfile
  refine .bind (.filterMapM_collects hstep hv) fun as u hu => .bind_ok (Action.exec_note ..) (.pure ⟨?_, hu.2⟩)
  exact Workspace.follows_frame.trans hu.1 (Workspace.follows_note u _)

theorem Check.analyze_surprises (c : Check) : c.analyze.Ends w (fun as v => w.Follows v ∧ ∀ a ∈ as, a.Scored)
    fun e _ => ScanSurprise w c.root c.settings.extensions c.settings.excludePatterns e := by
  rw [analyze]
  refine .bind (findSources_surprises c.settings.maxFiles) fun ps u hps => ?_
  refine .bind (analyzeFiles_surprises hps.1 hps.2) fun as v has => .pure ⟨has.1, fun a ha => ?_⟩
  obtain ⟨b, hb, rfl⟩ := List.mem_map.mp ha
  have hpath : b.relativeTo c.root = { b with path := (b.relativeTo c.root).path } := by
    rw [FileAnalysis.relativeTo]
    split <;> rfl
  obtain ⟨counts, total, performance, memory, quality⟩ := has.2 b hb
  rw [hpath]
  exact ⟨counts, total, performance, memory, quality⟩

end Scan

/-! ### Recording -/

namespace Store

variable {s : Store} {u v w : Workspace} {p : Path} {x : Snapshot}

/-- Why a document cannot be written, apart from the file system: a number in it has no written form, or its path holds a
NUL. -/
inductive WriteSurprise (p : Path) (x : Snapshot) : Failure → Prop
  | unwritable (h : x.toValue.isWritable = false) : WriteSurprise p x (.fault (.badValue .hugeInteger))
  | nul (h : p.HasNul) : WriteSurprise p x nulFailure

theorem makeDirectoriesFrom_ne_nul {limits : Option NameLimits} : ∀ {names : List String} {t : Tree} {here : Location},
    (t.makeDirectoriesFrom limits here names).2 ≠ some .nulInName
  | [], _, _, h => by cases h
  | name :: names, t, here, h => by
    rw [Tree.makeDirectoriesFrom] at h
    by_cases hdots : name = ".."
    · rw [if_pos hdots] at h
      exact makeDirectoriesFrom_ne_nul h
    by_cases hlong : limits.any (·.name < name.utf8ByteSize) = true
    · rw [if_neg hdots, if_pos hlong] at h
      cases h
    · rw [if_neg hdots, if_neg hlong] at h
      rcases hfind : t.find? (here ++ [name]) with _ | ⟨_ | bytes⟩
      · simp only [hfind] at h
        exact makeDirectoriesFrom_ne_nul h
      · simp only [hfind] at h
        exact makeDirectoriesFrom_ne_nul h
      · simp only [hfind, Option.some.injEq] at h
        split_ifs at h

theorem hasNul_of_parent (h : p.parent.HasNul) : p.HasNul := by
  obtain ⟨part, hpart, hnul⟩ := h
  refine ⟨part, ?_, hnul⟩
  rcases List.mem_cons.mp hpart with hroot | hparts
  · exact hroot ▸ List.mem_cons_self ..
  · exact List.mem_cons_of_mem _ (List.mem_of_mem_dropLast hparts)

theorem allows_ne_nul {step : WriteStep} : w.allows step ≠ .error .nulInName := by
  rw [Workspace.allows]
  split_ifs
  · nofun
  · nofun

theorem hasNul_of_makeDirectories {o : Obstacle} (h : w.makeDirectories p = (v, some o)) (hnul : o = .nulInName) : p.HasNul := by
  subst hnul
  simp only [Workspace.makeDirectories, Prod.mk.injEq] at h
  obtain ⟨-, h⟩ := h
  rw [Tree.makeDirectories] at h
  rcases hcheck : Tree.checkPath w.limits p with _ | o
  · rw [hcheck] at h
    exact absurd h makeDirectoriesFrom_ne_nul
  · rw [hcheck] at h
    exact Workspace.hasNul_of_checkPath (hcheck.trans h)

/-- A NUL stops a step at a path only where the path is looked up. -/
theorem hasNul_of_bind_locate {α : Type} {f : Location → Except Obstacle α} (hf : ∀ loc, f loc ≠ .error .nulInName)
    (h : (w.locate p >>= f) = .error .nulInName) : p.HasNul := by
  rcases hlocate : w.locate p with o | loc
  · rw [hlocate, error_bind, Except.error.injEq] at h
    exact Workspace.hasNul_of_locate (h ▸ hlocate)
  · rw [hlocate, ok_bind] at h
    exact absurd h (hf loc)

theorem hasNul_of_target (h : w.target p = .error .nulInName) : p.HasNul :=
  hasNul_of_bind_locate (fun loc => by split <;> nofun) h

theorem hasNul_of_fillAndMove {temporary : Location} {bytes : ByteArray} {fault : SystemFault}
    (h : w.fillAndMove temporary p bytes = (v, some fault)) (hnul : fault.obstacle = .nulInName) : p.HasNul := by
  rw [Workspace.fillAndMove] at h
  simp only at h
  split at h
  · next o ho =>
    cases h
    exact absurd (ho.trans (congrArg Except.error hnul)) allows_ne_nul
  · split at h
    · cases h
    · next hmove =>
      rw [Workspace.moveOver] at hmove
      rcases hallows : Workspace.allows _ WriteStep.replacement with o | _
      · rw [hallows, error_bind, Except.error.injEq] at hmove
        exact absurd (hallows.trans (congrArg Except.error hmove)) allows_ne_nul
      · rw [hallows, ok_bind] at hmove
        rcases htarget : Workspace.target _ p with o | loc
        · rw [htarget, error_bind, Except.error.injEq] at hmove
          exact hasNul_of_target (htarget.trans (congrArg Except.error hmove))
        · rw [htarget] at hmove
          cases hmove
    · next o hother hmove =>
      cases h
      exact absurd hnul hother

theorem hasNul_of_replaceFile {bytes : ByteArray} {fault : SystemFault} (h : w.replaceFile p bytes = (v, some fault))
    (hnul : fault.obstacle = .nulInName) : p.HasNul := by
  have hattempt := w.replaceFile_attempt p bytes
  generalize w.replaceFile p bytes = r at hattempt h
  cases hattempt with
  | directories hstop | temporary _ hstop =>
    cases h
    exact absurd (hstop.trans (congrArg Except.error hnul)) allows_ne_nul
  | making made =>
    cases h
    exact hasNul_of_parent (hasNul_of_makeDirectories made hnul)
  | parent _ hlocate =>
    cases h
    exact hasNul_of_parent (Workspace.hasNul_of_locate (hlocate.trans (congrArg Except.error hnul)))
  | filling => exact hasNul_of_fillAndMove h hnul

theorem writeDocument_surprises : (writeDocument p x).Ends w (fun _ _ => x.toValue.isWritable = true)
    fun e _ => e.IsStorage ∨ WriteSurprise p x e := by
  refine ends_writeDocument (fun hunwritable => Or.inr (.unwritable hunwritable)) (fun hwritable _ _ => hwritable)
    fun _ _ fault hr => ?_
  by_cases hnul : fault.obstacle = .nulInName
  · rw [storageFailure_nul hnul]
    exact Or.inr (.nul (hasNul_of_replaceFile hr hnul))
  · rw [storageFailure_of_ne hnul]
    exact Or.inl trivial

theorem save_surprises (hid : isId x.id = true) : (s.save x).Ends w (fun _ _ => x.toValue.isWritable = true)
    fun e _ => e.IsStorage ∨ WriteSurprise ((Slot.snapshot x.id).path s) x e := by
  refine ends_save (fun hnot => ?_) fun _ => writeDocument_surprises.mono (fun _ _ h _ => h) fun _ _ h => h
  rw [hid] at hnot
  cases hnot

/-- An id that was drawn at a time. -/
def IsDrawn (clock : ℤ) (id : String) : Prop := ∃ cs, (∀ c ∈ cs, ∃ n < 36, c = digit36 n) ∧ id = drawnId clock cs

theorem figure_digit36 : ∀ n < 36, isFigure (digit36 n) = true := by decide

theorem IsDrawn.figure {clock : ℤ} {id : String} (h : IsDrawn clock id) : ∀ c ∈ id.toList, isFigure c = true := by
  obtain ⟨cs, hcs, rfl⟩ := h
  have hbegin : "snapshot-".toList.all isFigure = true := by decide
  refine forall_mem_drawnId (List.all_eq_true.mp hbegin) (fun c hc => figure_int hc) fun c hc => ?_
  obtain ⟨n, hn, rfl⟩ := hcs c hc
  exact figure_digit36 n hn

theorem IsDrawn.isId {clock : ℤ} {id : String} (h : IsDrawn clock id) : isId id = true := by
  obtain ⟨cs, hcs, rfl⟩ := h
  refine isId_drawnId clock fun c hc => ?_
  have hdigits : ∀ n < 36, digit36 n ≠ '/' ∧ digit36 n ≠ '\\' := by decide
  obtain ⟨n, hn, rfl⟩ := hcs c hc
  exact hdigits n hn

theorem IsDrawn.not_mem_nul {clock : ℤ} {id : String} (h : IsDrawn clock id) : '\x00' ∉ id.toList := by
  have hfigure : isFigure '\x00' = false := by decide
  intro hid
  rw [h.figure _ hid] at hfigure
  cases hfigure

theorem IsDrawn.hasNul {clock : ℤ} {id : String} (h : IsDrawn clock id) (hpath : ((Slot.snapshot id).path s).HasNul) :
    s.root.HasNul := by
  refine hpath.of_join fun name hname => ?_
  obtain rfl := List.mem_singleton.mp hname
  rw [documentName, String.toList_append, List.mem_append, not_or]
  exact ⟨h.not_mem_nul, by decide⟩

/-- Drawing an id takes random characters. -/
theorem generateId_draws (hw : w.DrawsDigits) (hv : w.Follows v) : generateId.Ends v
    (fun id u => IsDrawn w.clock id ∧ w.Follows u) fun _ _ => False := by
  obtain ⟨-, hdrawn, hpending⟩ := @Source.draw_all (fun c => ∃ n < 36, c = digit36 n) (fun n hn => ⟨n, hn, rfl⟩)
    suffixLength v.source (hv.digits hw)
  refine .of_ok (exec_generateId v)
    ⟨⟨(v.source.draw suffixLength).1, hdrawn, ?_⟩, hv.limits, hv.repository, hv.clock, fun _ => hpending⟩
  rw [← hv.clock]
  rfl

/-- Why analyses cannot be recorded, apart from the file system: it refuses the name of the new document, two analyses have
the same path, a number has no written form, or the path of the store holds a NUL. -/
inductive CreateSurprise (s : Store) (w : Workspace) (as : List FileAnalysis) : Failure → Prop
  | refused {id : String} (hid : IsDrawn w.clock id) (h : w.Refuses ((Slot.snapshot id).path s)) :
      CreateSurprise s w as .system
  | twice {reason : String} (h : ¬(as.map (·.path)).Nodup) : CreateSurprise s w as (.fault (.invalidInput reason))
  | unwritable {x : Snapshot} (hfiles : x.files = as.map FileAnalysis.summary)
      (hmetrics : Metrics.ofSummaries x.files = .ok x.metrics) (htime : x.timestamp = w.clock)
      (h : x.toValue.isWritable = false) : CreateSurprise s w as (.fault (.badValue .hugeInteger))
  | nul (h : s.root.HasNul) : CreateSurprise s w as nulFailure

theorem fails_checkPaths {id : String} : ∀ {files : List FileSummary} {seen : List Value}, (∀ f ∈ files, f.path.isName = true) →
    FailsOnly (Snapshot.checkPaths id seen files) fun fault => ∃ reason, fault = .invalidInput reason
  | [], _, _ => .ok _ _
  | f :: files, seen, h => by
    rw [Snapshot.checkPaths, if_neg (by simp [h f (by simp)])]
    split_ifs
    · exact .error ⟨_, rfl⟩
    · exact fails_checkPaths fun g hg => h g (List.mem_cons_of_mem f hg)

theorem check_of_summaries {as : List FileAnalysis} (hfiles : x.files = as.map FileAnalysis.summary)
    (hmetrics : Metrics.ofSummaries x.files = .ok x.metrics) {fault : Fault} (h : x.check = .error fault) :
    ¬(as.map (·.path)).Nodup ∧ ∃ reason, fault = .invalidInput reason := by
  have hcount := (Metrics.ofSummaries_eq_ok hmetrics).1
  have hnames : ∀ f ∈ x.files, f.path.isName = true := by
    rw [hfiles]
    exact List.forall_mem_map.mpr fun a _ => rfl
  refine ⟨fun hnodup => ?_, ?_⟩
  · have hpairwise : x.files.Pairwise fun f g => g.path.sameName f.path = false := by
      rw [hfiles, List.pairwise_map]
      exact (List.pairwise_map.mp hnodup).imp fun hne => beq_eq_false_iff_ne.mpr (Ne.symm hne)
    rw [Snapshot.check_eq_ok.mpr ⟨rfl, hcount, hnames, hpairwise⟩] at h
    cases h
  · rw [Snapshot.check, if_neg (by simpa using hcount)] at h
    exact (FailsOnly.bind (fails_checkPaths hnames) fun _ _ => .ok _ _) fault h

theorem check_of_distinct {as : List FileAnalysis} (hfiles : x.files = as.map FileAnalysis.summary)
    (hmetrics : Metrics.ofSummaries x.files = .ok x.metrics) (hnodup : (as.map (·.path)).Nodup) : x.check = .ok x := by
  rcases hcheck : x.check with fault | y
  · exact absurd hnodup (check_of_summaries hfiles hmetrics hcheck).1
  · rw [(Snapshot.check_eq_ok.mp hcheck).1]

/-- Recording analyses gives a snapshot that can be written, under an id that was drawn, or fails with a failure of stored
files, unless it cannot be done. -/
theorem create_surprises {as : List FileAnalysis} (has : ∀ a ∈ as, a.Scored) (hw : w.DrawsDigits) (hv : w.Follows v)
    (branch commit : String) : (s.create (as.map FileAnalysis.summary) branch commit none).Ends v
      (fun x _ => IsDrawn w.clock x.id ∧ x.toValue.isWritable = true) fun e _ => e.IsStorage ∨ CreateSurprise s w as e := by
  obtain ⟨metrics, hmetrics⟩ := Metrics.ofSummaries_ok has
  have hwarned : w.Follows (warned v (as.map FileAnalysis.summary)) :=
    warned_of_note hv fun e => Workspace.follows_frame.trans hv (Workspace.follows_note v e)
  refine ends_create (D := fun id u => IsDrawn w.clock id ∧ w.Follows u) (fun fault h => ?metrics) ?draw ?refused ?save
  case metrics =>
    rw [hmetrics] at h
    cases h
  case draw =>
    refine (freeId_draws (s := s) (fun v hv => generateId_draws hw hv) (fun _ h => h.isId) _ hwarned).mono
      (fun _ _ h => h) ?_
    rintro e u ⟨hu, rfl, id, hid, hlong⟩
    exact Or.inr (.refused hid (hu.refuses (Workspace.refuses_of_locate hlong)))
  case refused =>
    rintro x u - hdrafted fault hcheck
    obtain ⟨htwice, reason, rfl⟩ := check_of_summaries hdrafted.listed (hdrafted.listed ▸ hdrafted.counted) hcheck
    exact Or.inr (.twice htwice)
  case save =>
    rintro x u ⟨hid, hu⟩ hdrafted -
    refine (save_surprises hid.isId).mono (fun _ _ hwritable _ => ⟨hid, hwritable⟩) ?_
    rintro e _ (hstorage | hunwritable | hnul)
    · exact Or.inl hstorage
    · exact Or.inr (.unwritable hdrafted.listed (hdrafted.listed ▸ hdrafted.counted)
        (by rw [hdrafted.time, hu.clock]) hunwritable)
    · exact Or.inr (.nul (hid.hasNul hnul))

end Store

end ScoreGate
