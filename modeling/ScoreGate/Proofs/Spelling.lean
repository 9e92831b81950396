import ScoreGate.Proofs.Locations

/-!
# How paths are spelled

The text of a path that was continued by names begins with the text of the path.  So what may be handed to the file
system under a longer path may be handed to it under a shorter one.  A path of names is read back from its text, and seen
from its beginning it is what it was continued by.

* `Path.text_join`: the text of a path that was continued.
* `Path.ofText_text`, `Path.relativeTo?_join`: a path is read back, and seen from its beginning.
* `Tree.checkPath_of_child`: a path that may be handed to the file system.
-/

namespace ScoreGate

/-! ### Joined pieces -/

theorem joinWith_append {sep : List Char} : ∀ {ls ms : List (List Char)}, ls ≠ [] → ms ≠ [] →
    joinWith sep (ls ++ ms) = joinWith sep ls ++ sep ++ joinWith sep ms
  | [], _, h, _ => absurd rfl h
  | [l], ms, _, hms => by
    rw [List.singleton_append, joinWith_cons l hms]
    rfl
  | l :: m :: ls, ms, _, hms => by
    rw [List.cons_append, joinWith_cons l (by simp), joinWith_append (List.cons_ne_nil m ls) hms,
      joinWith_cons l (List.cons_ne_nil m ls)]
    simp only [List.append_assoc]

theorem mem_joinWith {c : Char} {sep : List Char} : ∀ {ls : List (List Char)}, c ∈ joinWith sep ls → c ∈ sep ∨ ∃ l ∈ ls, c ∈ l
  | [], h => by simp [joinWith] at h
  | [l], h => Or.inr ⟨l, by simp, h⟩
  | l :: m :: ls, h => by
    rw [joinWith_cons l (by simp), List.mem_append, List.mem_append] at h
    rcases h with (h | h) | h
    · exact Or.inr ⟨l, by simp, h⟩
    · exact Or.inl h
    · rcases mem_joinWith h with hsep | ⟨k, hk, hc⟩
      · exact Or.inl hsep
      · exact Or.inr ⟨k, List.mem_cons_of_mem l hk, hc⟩

theorem joinText_append {sep : String} {xs ys : List String} (hxs : xs ≠ []) (hys : ys ≠ []) :
    joinText sep (xs ++ ys) = joinText sep xs ++ sep ++ joinText sep ys := by
  have hpieces : joinWith sep.toList (xs.map String.toList ++ ys.map String.toList) =
      joinWith sep.toList (xs.map String.toList) ++ sep.toList ++ joinWith sep.toList (ys.map String.toList) :=
    joinWith_append (by simpa using hxs) (by simpa using hys)
  apply String.toList_injective
  simp [joinText, hpieces]

section Pieces

variable {sep : Char}

theorem splitOn_of_not_mem : ∀ {cs : List Char}, sep ∉ cs → splitOn sep cs = [cs]
  | [], _ => rfl
  | c :: cs, h => by
    rw [List.mem_cons, not_or] at h
    rw [splitOn, if_neg (Ne.symm h.1), splitOn_of_not_mem h.2]

/-- Pieces without separators are found again. -/
theorem splitOn_joinWith : ∀ {ls : List (List Char)}, ls ≠ [] → (∀ l ∈ ls, sep ∉ l) → splitOn sep (joinWith [sep] ls) = ls
  | [], h, _ => absurd rfl h
  | [l], _, h => splitOn_of_not_mem (h l (by simp))
  | l :: m :: ls, _, h => by
    have hrest := splitOn_joinWith (List.cons_ne_nil m ls) fun k hk => h k (List.mem_cons_of_mem l hk)
    rw [joinWith_cons l (List.cons_ne_nil m ls), List.append_assoc, List.singleton_append, splitOn_append,
      splitOn_of_not_mem (h l (by simp)), hrest, List.singleton_append]

theorem not_mem_of_mem_splitOn : ∀ {cs l : List Char}, l ∈ splitOn sep cs → sep ∉ l
  | [], l, h => by
    rw [splitOn, List.mem_singleton] at h
    simp [h]
  | c :: cs, l, h => by
    rw [splitOn] at h
    split_ifs at h with hc
    · rcases List.mem_cons.mp h with rfl | hl
      · exact List.not_mem_nil
      · exact not_mem_of_mem_splitOn hl
    · rcases hs : splitOn sep cs with _ | ⟨m, ms⟩
      · exact absurd hs (splitOn_ne_nil sep cs)
      · have hpieces : ∀ k ∈ m :: ms, sep ∉ k := fun k hk => not_mem_of_mem_splitOn (hs ▸ hk)
        simp only [hs] at h
        rcases List.mem_cons.mp h with rfl | hl
        · rw [List.mem_cons, not_or]
          exact ⟨Ne.symm hc, hpieces m (by simp)⟩
        · exact hpieces l (List.mem_cons_of_mem m hl)

end Pieces

/-! ### Continued paths -/

/-- A name that a path can hold: not empty, no single dot, and without a slash. -/
def IsFileName (name : String) : Prop := name ≠ "" ∧ name ≠ "." ∧ '/' ∉ name.toList

namespace Path

variable {p : Path} {names : List String}

/-- What stands before the names that continue a path. -/
def opening (p : Path) : String := if p.parts = [] then p.root else p.text ++ "/"

/-- The text of a path is a single dot, or it stands before the names that continue the path. -/
theorem text_cases (p : Path) : p.text = "." ∨ ∃ rest, p.opening = p.text ++ rest := by
  by_cases hparts : p.parts = []
  · by_cases hroot : p.root = ""
    · exact Or.inl (by simp [text, hroot, hparts])
    · refine Or.inr ⟨"", ?_⟩
      have htext : p.text = p.root := by simp [text, hroot, hparts, joinText, joinWith]
      rw [opening, if_pos hparts, htext, String.append_empty]
  · exact Or.inr ⟨"/", by rw [opening, if_neg hparts]⟩

theorem text_join (hnames : names ≠ []) : (p.join names).text = p.opening ++ joinText "/" names := by
  have hne : p.parts ++ names ≠ [] := by simp [hnames]
  rw [text, join, if_neg (by simp [hnames]), opening]
  split_ifs with h
  · rw [h, List.nil_append]
  · rw [joinText_append h hnames, text, if_neg (by simp [h])]
    simp only [String.append_assoc]

/-- A path that was read holds names only. -/
theorem isFileName_of_mem_ofText {s name : String} (h : name ∈ (ofText s).parts) : IsFileName name := by
  obtain ⟨cs, hcs, rfl⟩ := List.mem_map.mp h
  obtain ⟨hpiece, hproper⟩ := List.mem_filter.mp hcs
  have hno := not_mem_of_mem_splitOn hpiece
  simp only [ne_eq, decide_not, Bool.and_eq_true, Bool.not_eq_true', decide_eq_false_iff_not] at hproper
  refine ⟨fun hempty => hproper.1 ?_, fun hdot => hproper.2 ?_, by rwa [String.toList_ofList]⟩
  · rw [← String.toList_ofList (l := cs), hempty]
    rfl
  · rw [← String.toList_ofList (l := cs), hdot]
    rfl

/-! ### Paths read back -/

/-- What the root of a path that was read can be. -/
def IsRoot (root : String) : Prop := root = "" ∨ root = "/" ∨ root = "//"

theorem isRoot_ofText (s : String) : IsRoot (ofText s).root := by
  rw [ofText, rootOf.eq_def]
  split
  · exact Or.inr (Or.inl rfl)
  · exact Or.inr (Or.inr rfl)
  · exact Or.inr (Or.inl rfl)
  · exact Or.inl rfl

/-- Before a text that begins with no slash a root is seen. -/
theorem rootOf_append {root : String} {cs : List Char} (hroot : IsRoot root) (hcs : cs.head? ≠ some '/') :
    rootOf (root.toList ++ cs) = root := by
  rcases cs with _ | ⟨c, cs⟩
  · rcases hroot with rfl | rfl | rfl <;> decide
  · have hc : c ≠ '/' := by simpa using hcs
    rcases hroot with rfl | rfl | rfl <;> simp [rootOf, hc]

theorem partsOf_slash (cs : List Char) : partsOf ('/' :: cs) = partsOf cs := by
  simp [partsOf, splitOn]

theorem partsOf_append {root : String} (hroot : IsRoot root) (cs : List Char) : partsOf (root.toList ++ cs) = partsOf cs := by
  rcases hroot with rfl | rfl | rfl
  · rfl
  · exact partsOf_slash cs
  · exact (partsOf_slash _).trans (partsOf_slash cs)

theorem partsOf_joinText (h : ∀ name ∈ names, IsFileName name) : partsOf (joinText "/" names).toList = names := by
  rcases names with _ | ⟨name, rest⟩
  · decide
  · have hsplit : splitOn '/' (joinText "/" (name :: rest)).toList = (name :: rest).map String.toList := by
      rw [joinText, String.toList_ofList]
      refine splitOn_joinWith (by simp) fun l hl => ?_
      obtain ⟨n, hn, rfl⟩ := List.mem_map.mp hl
      exact (h n hn).2.2
    rw [partsOf, hsplit, List.filter_eq_self.mpr, List.map_map]
    · simp [Function.comp_def]
    · intro l hl
      obtain ⟨n, hn, rfl⟩ := List.mem_map.mp hl
      obtain ⟨hne, hdot, -⟩ := h n hn
      have hdot' : n.toList ≠ ".".toList := fun h => hdot (String.toList_injective h)
      have hne' : n.toList ≠ "".toList := fun h => hne (String.toList_injective h)
      simpa using And.intro hne hdot'

/-- Joined names begin with the first name, so no slash is taken for a root. -/
theorem head_joinText (h : ∀ name ∈ names, IsFileName name) : (joinText "/" names).toList.head? ≠ some '/' := by
  rcases names with _ | ⟨name, rest⟩
  · decide
  · obtain ⟨hne, -, hslash⟩ := h name (by simp)
    rw [joinText, String.toList_ofList]
    rcases hcs : name.toList with _ | ⟨c, cs⟩
    · exact absurd (String.toList_eq_nil_iff.mp hcs) hne
    · have hc : c ≠ '/' := by
        rintro rfl
        simp [hcs] at hslash
      rcases rest with _ | ⟨m, rest⟩ <;> simp [joinWith, hcs, hc]

/-- A path of names is read back from its text. -/
theorem ofText_text (hroot : IsRoot p.root) (hparts : ∀ name ∈ p.parts, IsFileName name) : ofText p.text = p := by
  obtain ⟨root, parts⟩ := p
  by_cases hdot : root = "" ∧ parts = []
  · obtain ⟨rfl, rfl⟩ := hdot
    decide
  · have hchars : (Path.text ⟨root, parts⟩).toList = root.toList ++ (joinText "/" parts).toList := by
      rw [text, if_neg (by simpa using hdot), String.toList_append]
    rw [ofText, hchars, rootOf_append hroot (head_joinText hparts), partsOf_append hroot, partsOf_joinText hparts]

theorem ofText_here_join (h : ∀ name ∈ names, IsFileName name) : ofText (here.join names).text = here.join names :=
  ofText_text (Or.inl rfl) (by simpa [here, join] using h)

/-- A path that was continued by names is, seen from its beginning, these names. -/
theorem relativeTo?_join : (p.join names).relativeTo? p = some (here.join names) := by
  rw [relativeTo?, if_neg fun h => h.2.2 h.1]
  by_cases hroot : p.root = "" <;> simp [steps, join, here, hroot]

end Path

namespace Tree

variable {limits : Option NameLimits} {p : Path} {name : String}

/-- A path may be handed to the file system if it may be with a name behind it. -/
theorem checkPath_of_child (hname : name ≠ "") (h : checkPath limits (p.child name) = none) : checkPath limits p = none := by
  have htext : (p.child name).text = p.opening ++ name := by
    have hjoin : (p.join [name]).text = p.opening ++ joinText "/" [name] := p.text_join (List.cons_ne_nil name [])
    have hsingle : joinText "/" [name] = name := String.ofList_toList
    rwa [hsingle] at hjoin
  rw [checkPath, htext] at h
  split_ifs at h with hnul hlong
  -- the text is a single dot, or the longer text begins with it
  have hshort : '\x00' ∉ p.text.toList ∧ p.text.utf8ByteSize ≤ (p.opening ++ name).utf8ByteSize := by
    rcases p.text_cases with hdot | ⟨rest, hopening⟩
    · have hsize : 0 < name.utf8ByteSize := by
        rw [Nat.pos_iff_ne_zero, ne_eq, String.utf8ByteSize_eq_zero_iff]
        exact hname
      refine ⟨by simp [hdot], ?_⟩
      rw [hdot, String.utf8ByteSize_append]
      have : ".".utf8ByteSize = 1 := by decide
      omega
    · rw [hopening] at hnul ⊢
      refine ⟨fun hmem => hnul ?_, ?_⟩
      · simp [hmem]
      · simp only [String.utf8ByteSize_append]
        omega
  rw [checkPath, if_neg (by simpa using hshort.1), if_neg]
  rcases limits with _ | l
  · simp
  · simp only [Option.any_some, decide_eq_true_eq, not_lt] at hlong ⊢
    exact hshort.2.trans hlong

theorem isDirectory_of_locate_child {t : Tree} {loc : Location} (hname : name ≠ "")
    (h : t.locate limits (p.child name) = .ok loc) :
    ∃ here, t.locate limits p = .ok here ∧ t.find? here = some .directory := by
  obtain ⟨hcheck, hfrom⟩ := locate_eq_ok.mp h
  obtain ⟨here, hhere, hdir⟩ := directory_of_locateFrom hfrom
  exact ⟨here, locate_eq_ok.mpr ⟨checkPath_of_child hname hcheck, hhere⟩, hdir⟩

end Tree

end ScoreGate
