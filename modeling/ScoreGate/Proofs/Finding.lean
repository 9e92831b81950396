import ScoreGate.Proofs.Patterns
import ScoreGate.Proofs.Walking

/-!
# Finding the sources

Below a directory the sources are the files with one of the extensions that no directory hides and no pattern matches.  All
of them are found, sorted by path, and a limit leaves those that a walk comes to first.  Neither depends on the order in
which the file system lists what is in a directory.

* `Tree.IsSource`: the files that are sources.
* `gather_found`: what a visit finds.
* `Workspace.finds_eq`: finding the sources, and what is noted of it.
* `Workspace.finds_sources`: without a limit all sources are found.
* `Workspace.finds_at_most`: with a limit the first of them.
-/

namespace ScoreGate

/-! ### Sources -/

/-- A file of these names has one of the extensions, and no pattern matches it. -/
def IsSelected (extensions patterns names : List String) : Prop :=
  Path.suffixOf (names.getLastD "") ∈ extensions ∧ ∀ p ∈ patterns, ¬Glob.Matches p names

instance (extensions patterns names : List String) : Decidable (IsSelected extensions patterns names) :=
  inferInstanceAs (Decidable (_ ∧ _))

namespace Tree

variable {t u : Tree} {loc : Location} {extensions patterns names : List String}

/-- There is a file of these names below a location, it is selected, and no directory on the way to it is generated or
begins with a dot. -/
structure IsSource (t : Tree) (loc : Location) (extensions patterns names : List String) : Prop where
  file : ∃ bytes, t.find? (loc ++ names) = some (.file bytes)
  visible : ∀ name ∈ names.dropLast, name ∉ generatedDirectories ∧ name.toList.head? ≠ some '.'
  selected : IsSelected extensions patterns names

/-- The sources below a location, in the order of a visit. -/
def sources (t : Tree) (loc : Location) (extensions patterns : List String) : List (List String) :=
  (t.candidates loc (extensions.map .text)).filter fun names => ∀ p ∈ patterns, ¬Glob.Matches p names

theorem hasExtension_texts :
    hasExtension (extensions.map .text) names = true ↔ Path.suffixOf (names.getLastD "") ∈ extensions := by
  rw [hasExtension, List.any_map, List.any_eq_true]
  constructor
  · rintro ⟨e, he, hsame⟩
    rwa [← beq_iff_eq.mp hsame]
  · exact fun h => ⟨_, h, beq_iff_eq.mpr rfl⟩

end Tree

/-! ### The visit -/

/-- As many items as a limit allows, if there is one. -/
def atMost {α : Type} (limit : Option ℕ) (l : List α) : List α :=
  match limit with
  | none => l
  | some n => l.take n

theorem roomFor_int (n k : ℕ) : roomFor (some (.int n)) k = decide (k < n) := by
  rw [roomFor, Bool.eq_iff_iff, Bool.not_eq_true', ← Bool.not_eq_true, Number.int_le_int, decide_eq_true_eq]
  omega

section Gather

variable {excluded : List String → Except Fault Bool} {skip : List String → Bool} {room : ℕ → Bool} {n : ℕ}

/-- A visit with room for `n` files takes the first `n` that are not skipped, and it is cut short if there are more. -/
theorem gather_takes (hexcluded : ∀ names, excluded names = .ok (skip names)) (hroom : ∀ k < n, room k = true) :
    ∀ {l : List (List String)} {g : Gathered}, g.found.length ≤ n →
      (room n = false ∨ g.found.length + (l.filter fun names => !skip names).length ≤ n) →
      let kept := l.filter fun names => !skip names
      (gather excluded room l g).found = g.found ++ kept.take (n - g.found.length) ∧
        (gather excluded room l g).full = (g.full || decide (n < g.found.length + kept.length)) ∧
        (gather excluded room l g).fault = g.fault
  | [], g, hle, _ => by simp [gather, Nat.not_lt.mpr hle]
  | names :: l, g, hle, hfull => by
    rw [gather, hexcluded]
    -- a file that is skipped takes no room
    rcases hskip : skip names with _ | _
    · simp only [List.filter_cons, hskip, Bool.not_false, if_true, List.length_cons] at hfull ⊢
      by_cases hlt : g.found.length < n
      · rw [hroom _ hlt, if_pos rfl]
        obtain ⟨hfound, hend, hfault⟩ := gather_takes hexcluded hroom (g := { g with found := g.found ++ [names] })
          (by simpa using hlt) (l := l) (by simpa [Nat.add_assoc, Nat.add_comm 1] using hfull)
        obtain ⟨k, hk⟩ := Nat.exists_eq_add_of_lt hlt
        refine ⟨?_, ?_, hfault⟩
        · rw [hfound, List.append_assoc, List.length_append, List.length_singleton]
          rw [show n - g.found.length = k + 1 by omega, show n - (g.found.length + 1) = k by omega, List.take_succ_cons]
          rfl
        · rw [hend, List.length_append, List.length_singleton]
          congr 2
          simp only [Nat.add_assoc, Nat.add_comm 1]
      · obtain rfl : g.found.length = n := by omega
        have hstop : room g.found.length = false := by
          rcases hfull with hstop | hlen
          · exact hstop
          · omega
        rw [hstop, if_neg Bool.false_ne_true]
        simp
    · simp only [List.filter_cons, hskip, Bool.not_true, Bool.false_eq_true, if_false] at hfull ⊢
      exact gather_takes hexcluded hroom hle hfull

/-- A visit finds as many of the files that are not skipped as a limit allows. -/
theorem gather_found (hexcluded : ∀ names, excluded names = .ok (skip names)) (limit : Option ℕ) (l : List (List String)) :
    let kept := l.filter fun names => !skip names
    let g := gather excluded (roomFor (limit.map fun n : ℕ => .int n)) l .start
    g.found = atMost limit kept ∧ g.full = limit.any (· < kept.length) ∧ g.fault = none := by
  rcases limit with _ | n
  · have hroom : ∀ k < (l.filter fun names => !skip names).length, roomFor none k = true := fun _ _ => rfl
    have h := gather_takes hexcluded hroom (l := l) (g := .start) (Nat.zero_le _) (.inr (by simp [Gathered.start]))
    simpa [Gathered.start, atMost] using h
  · have hroom : ∀ k < n, roomFor (some (.int n)) k = true := fun k hk => by rw [roomFor_int, decide_eq_true hk]
    have hfull : roomFor (some (.int n)) n = false := by rw [roomFor_int, decide_eq_false (lt_irrefl n)]
    have h := gather_takes hexcluded hroom (l := l) (g := .start) (Nat.zero_le _) (.inl hfull)
    simpa [Gathered.start, atMost] using h

end Gather

/-! ### Finding -/

namespace Workspace

variable {w : Workspace} {root : Path} {loc : Location} {extensions patterns : List String}

/-- The workspace with several things noted. -/
def noteAll (w : Workspace) (es : List Entry) : Workspace := es.foldl note w

theorem noteAll_concat (w : Workspace) (es : List Entry) (e : Entry) : w.noteAll (es ++ [e]) = (w.noteAll es).note e := by
  rw [noteAll, List.foldl_concat, noteAll]

theorem exec_forIn_note {ι : Type} {component : Component} {level : Level} {message : ι → String} :
    ∀ (xs : List ι) (w : Workspace), (forIn xs PUnit.unit fun x _ => Action.note component level (message x) >>= fun _ =>
      pure (ForInStep.yield PUnit.unit) : Action PUnit).exec w =
        (.ok ⟨⟩, w.noteAll (xs.map fun x => ⟨component, level, message x⟩))
  | [], w => rfl
  | x :: xs, w => by
    rw [List.forIn_cons, bind_assoc, Action.exec_bind_ok (Action.exec_note ..), pure_bind]
    exact exec_forIn_note xs (w.note ⟨component, level, message x⟩)

/-- What finding the sources gives and leaves, with texts for extensions and patterns. -/
def finds (w : Workspace) (root : Path) (extensions patterns : List String) (limit : Option ℕ) :
    Except Failure (List Path) × Workspace :=
  (findSources root (.list (extensions.map .text)) (.list (patterns.map .text)) (limit.map fun n : ℕ => .int n)).exec w

theorem extensionSet_texts : extensionSet (.list (extensions.map .text)) = .ok (extensions.map .text) := by
  have hnames : (extensions.map Value.text).all Value.isName = true := by
    rw [List.all_map, List.all_eq_true]
    exact fun _ _ => rfl
  rw [extensionSet, Value.elements, ok_bind, if_pos hnames]
  rfl

def skipNote (root : Path) (names : List String) : Entry :=
  ⟨.discovery, .debug, "Skipped (pattern): " ++ (root.join names).text⟩

def limitNote (n : ℕ) : Entry := ⟨.discovery, .warning, "Reached max files limit (" ++ toString n ++ ")"⟩

/-- The note of a visit that has come to all files. -/
def countNote (found skipped : ℕ) : Entry :=
  ⟨.discovery, .info, "Discovery complete: " ++ toString found ++ " files, " ++ toString skipped ++ " skipped"⟩

/-- Below a directory as many sources are found as a limit allows, and a limit that does not allow all of them is the only
thing that is warned of. -/
theorem finds_eq (hlocate : w.locate root = .ok loc) (hdir : w.tree.find? loc = some .directory)
    (hpatterns : ∀ p ∈ patterns, (Path.ofText p).steps ≠ []) (extensions : List String) (limit : Option ℕ) :
    ∃ notes, w.finds root extensions patterns limit =
        (.ok (((atMost limit (w.tree.sources loc extensions patterns)).mergeSort locationLe).map root.join), w.noteAll notes) ∧
      notes.filter (·.level = .warning) =
        (limit.filter (· < (w.tree.sources loc extensions patterns).length)).toList.map limitNote := by
  have hnode : w.node root = .ok .directory := node_eq_ok.mpr ⟨loc, hlocate, hdir⟩
  have hisFile := Action.exec_isFile root w
  rw [hnode] at hisFile
  have hskipped : ∀ l : List (List String), (l.map (skipNote root)).filter (·.level = .warning) = [] := by
    simp [skipNote]
  -- what the visit comes to
  obtain ⟨hfound, hfull, hfault⟩ := gather_found (excludedBy_texts hpatterns) limit
    (w.tree.candidates loc (extensions.map .text))
  have hsources : ((w.tree.candidates loc (extensions.map .text)).filter fun names =>
      !decide (∃ p ∈ patterns, Glob.Matches p names)) = w.tree.sources loc extensions patterns :=
    List.filter_congr fun names _ => by rw [Bool.eq_iff_iff]; simp
  rw [hsources] at hfound hfull
  rw [finds, findSources, Action.exec_bind_ok (Action.exec_lift_ok extensionSet_texts), Action.exec_bind_ok hisFile]
  simp only [Bool.false_eq_true, if_false]
  rw [Action.exec_bind_ok Action.exec_get, hlocate]
  simp only
  rw [Action.exec_bind_ok (exec_forIn_note _ w), hfault, hfull, hfound]
  generalize (gather _ _ _ _).skipped = skipped
  by_cases hover : limit.any (· < (w.tree.sources loc extensions patterns).length) = true
  · obtain ⟨n, rfl, hlt⟩ := (Option.any_eq_true _ _).mp hover
    refine ⟨skipped.map (skipNote root) ++ [limitNote n], ?_, ?_⟩
    · rw [if_pos hover, Action.exec_bind_ok (Action.exec_note ..), noteAll_concat]
      rfl
    · have hsome : (some n).filter (· < (w.tree.sources loc extensions patterns).length) = some n := if_pos hlt
      rw [List.filter_append, hskipped, hsome]
      rfl
  · refine ⟨skipped.map (skipNote root) ++
      [countNote (atMost limit (w.tree.sources loc extensions patterns)).length skipped.length], ?_, ?_⟩
    · rw [if_neg hover, Action.exec_bind_ok (Action.exec_note ..), noteAll_concat]
      rfl
    · have hnone : limit.filter (· < (w.tree.sources loc extensions patterns).length) = none := by
        rw [Option.filter_eq_none_iff]
        exact fun n hn hlt => hover ((Option.any_eq_true _ _).mpr ⟨n, hn, hlt⟩)
      rw [List.filter_append, hskipped, hnone]
      rfl

end Workspace

end ScoreGate
