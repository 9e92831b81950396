import ScoreGate.Proofs.Coherence
import ScoreGate.Proofs.Respacing
import ScoreGate.Proofs.Spelling

/-!
# Lines that are not checked

Blank lines and lines that open a comment are passed over line by line, so making one empty changes no issue of a line.
The rules about components read the whole text, comments and all.  No declaration and no call runs over the slash that
opens a comment: what stands before it is read by itself, and the text of the comment is read with what comes after it.
So an analysis stays the same if the line is blank or the file is no component file, and else it depends on what the
comment declares and calls, and on what it keeps apart.

* `clearLine`: a text with an empty line in the place of one of its lines.
* `isSkippedLine_iff`: the lines that are not checked.
* `countComponents_wall`, `callsHookFrom_wall`: nothing is found across a character that is no part of what is looked for.
* `FileAnalysis.Passes`: what an analysis does with a line that is not checked; `analyzeText_clearLine`.
-/

namespace ScoreGate

/-! ### A line and what is around it -/

/-- A text with an empty line in the place of one of its lines. -/
def clearLine (i : ℕ) (content : String) : String := String.ofList (joinWith ['\n'] ((lines content.toList).set i []))

theorem lines_clearLine (i : ℕ) (content : String) :
    lines (clearLine i content).toList = (lines content.toList).set i [] := by
  have hne : (lines content.toList).set i [] ≠ [] := by
    rw [Ne, List.set_eq_nil_iff]
    exact splitOn_ne_nil _ _
  have hpieces : ∀ l ∈ (lines content.toList).set i [], '\n' ∉ l := by
    intro l hl
    rcases List.mem_or_eq_of_mem_set hl with hl | rfl
    · exact not_mem_of_mem_splitOn hl
    · exact List.not_mem_nil
  rw [clearLine, String.toList_ofList]
  exact splitOn_joinWith hne hpieces

/-- Before a line there is nothing or a line feed, and likewise after it. -/
structure Encloses (before after : List Char) : Prop where
  start : before = [] ∨ ∃ cs, before = cs ++ ['\n']
  stop : after = [] ∨ ∃ cs, after = '\n' :: cs

/-- Joined lines stand around one of them in the same way, whatever it is. -/
theorem exists_encloses (ls ms : List (List Char)) :
    ∃ before after, Encloses before after ∧ ∀ l, joinWith ['\n'] (ls ++ l :: ms) = before ++ (l ++ after) := by
  have hafter : ∃ after, (after = [] ∨ ∃ cs, after = '\n' :: cs) ∧ ∀ l, joinWith ['\n'] (l :: ms) = l ++ after := by
    by_cases hms : ms = []
    · subst hms
      exact ⟨[], Or.inl rfl, fun l => (List.append_nil l).symm⟩
    · refine ⟨'\n' :: joinWith ['\n'] ms, Or.inr ⟨_, rfl⟩, fun l => ?_⟩
      rw [joinWith_cons l hms, List.append_assoc]
      rfl
  obtain ⟨after, hstop, hafter⟩ := hafter
  by_cases hls : ls = []
  · subst hls
    exact ⟨[], after, ⟨Or.inl rfl, hstop⟩, hafter⟩
  · refine ⟨joinWith ['\n'] ls ++ ['\n'], after, ⟨Or.inr ⟨_, rfl⟩, hstop⟩, fun l => ?_⟩
    rw [joinWith_append hls (List.cons_ne_nil l ms), hafter]

/-- A line of a text, what stands before and after it, and what is left where the line is made empty. -/
structure Around (i : ℕ) (content : String) (l before after : List Char) : Prop where
  encloses : Encloses before after
  text : content.toList = before ++ (l ++ after)
  cleared : (clearLine i content).toList = before ++ after

theorem exists_around {i : ℕ} {content : String} {l : List Char} (h : (lines content.toList)[i]? = some l) :
    ∃ before after, Around i content l before after := by
  obtain ⟨hi, hl⟩ := List.getElem?_eq_some_iff.mp h
  obtain ⟨before, after, hencloses, hjoin⟩ :=
    exists_encloses ((lines content.toList).take i) ((lines content.toList).drop (i + 1))
  refine ⟨before, after, hencloses, ?_, ?_⟩
  · rw [← hjoin, ← hl, List.cons_getElem_drop_succ, List.take_append_drop]
    exact (joinWith_splitOn '\n' _).symm
  · rw [clearLine, String.toList_ofList, List.set_eq_take_append_cons_drop, if_pos hi, hjoin, List.nil_append]

/-! ### Lines that are not checked -/

/-- A line that opens a comment with some text: blanks, two characters that open it, and the text. -/
def OpensComment (l text : List Char) : Prop :=
  ∃ bs, (∀ b ∈ bs, isBlank b = true) ∧ ∃ second, (second = '/' ∨ second = '*') ∧ l = bs ++ '/' :: second :: text

/-- What is left of a text without the blanks at its end begins it. -/
theorem dropEndWhile_prefix (p : Char → Bool) (cs : List Char) : dropEndWhile p cs <+: cs := by
  rw [dropEndWhile, ← List.reverse_suffix, List.reverse_reverse]
  exact List.dropWhile_suffix p

theorem dropEndWhile_cons {p : Char → Bool} {c : Char} (hc : p c = false) (cs : List Char) :
    dropEndWhile p (c :: cs) = c :: dropEndWhile p cs := by
  rw [dropEndWhile, dropEndWhile, List.reverse_cons, List.dropWhile_append]
  by_cases hcs : cs.reverse.dropWhile p = []
  · rw [hcs]
    simp [hc]
  · rw [if_neg (by simpa using hcs), List.reverse_append]
    rfl

theorem isSkippedLine_iff {l : List Char} :
    isSkippedLine l = true ↔ (∀ c ∈ l, isBlank c = true) ∨ ∃ text, OpensComment l text := by
  constructor
  · intro h
    -- only the blanks at the front matter: what is stripped from the end is no part of a comment mark
    obtain ⟨bs, ys, rfl, hbs, hys⟩ := exists_run isBlank l
    have hstrip : strip (bs ++ ys) = dropEndWhile isBlank ys := by
      rw [strip, trimWhile, dropWhile_of_stops hbs hys]
    obtain ⟨rest, hrest⟩ := dropEndWhile_prefix isBlank ys
    unfold isSkippedLine at h
    rw [hstrip] at h
    split at h
    · next hnil =>
      rcases ys with _ | ⟨c, ys⟩
      · exact Or.inl (by simpa using hbs)
      · rw [dropEndWhile_cons (hys c rfl)] at hnil
        cases hnil
    · next text hslash =>
      rw [hslash] at hrest
      exact Or.inr ⟨text ++ rest, bs, hbs, '/', Or.inl rfl, by rw [← hrest]; rfl⟩
    · next text hstar =>
      rw [hstar] at hrest
      exact Or.inr ⟨text ++ rest, bs, hbs, '*', Or.inr rfl, by rw [← hrest]; rfl⟩
    · cases h
  · rintro (hblank | ⟨text, bs, hbs, second, hsecond, rfl⟩)
    · have hstrip : strip l = [] := by
        rw [strip, trimWhile, List.dropWhile_eq_nil_iff.mpr hblank]
        rfl
      rw [isSkippedLine, hstrip]
    · have hslash : Stops isBlank ('/' :: second :: text) := by
        intro c hc
        obtain rfl : '/' = c := by simpa using hc
        decide
      rw [isSkippedLine, strip, trimWhile, dropWhile_of_stops hbs hslash, dropEndWhile_cons (by decide)]
      rcases hsecond with rfl | rfl
      · rw [dropEndWhile_cons (by decide)]
        rfl
      · rw [dropEndWhile_cons (by decide)]
        rfl

theorem readsAlike_nil {l : List Char} (h : isSkippedLine l = true) : ReadsAlike [] l := by
  constructor
  · intro components
    rw [rulesFor, rulesFor, if_pos (by decide), if_pos h]
  · show false = "import".toList.isPrefixOf l
    symm
    rw [← Bool.not_eq_true, List.isPrefixOf_iff_prefix]
    rintro ⟨rest, rfl⟩
    have hstart : ∀ c ∈ ("import".toList ++ rest).head?, isBlank c = true ∨ c = '/' := by
      rcases isSkippedLine_iff.mp h with hblank | ⟨text, bs, hbs, second, -, heq⟩
      · exact fun c hc => Or.inl (hblank c (List.mem_of_mem_head? hc))
      · rw [heq]
        rcases bs with _ | ⟨b, bs⟩
        · simp
        · simp [hbs b]
    exact absurd (hstart 'i' rfl) (by decide)

theorem readsAlike_set : ∀ {ls : List (List Char)} {i : ℕ} {l : List Char}, ls[i]? = some l → isSkippedLine l = true →
    List.Forall₂ ReadsAlike (ls.set i []) ls
  | m :: ms, 0, l, h, hl => by
    obtain rfl : m = l := Option.some.inj h
    exact .cons (readsAlike_nil hl) (List.forall₂_same.mpr fun k _ => .refl k)
  | m :: ms, i + 1, l, h, hl => .cons (.refl m) (readsAlike_set h hl)

/-! ### Characters that nothing runs over -/

section Walls

variable {cs more rest run tail : List Char} {w : Char}

/-- What is made of blanks, words and marks lies before a character that is none of them. -/
theorem before_wall (hw : ¬IsInner w) (hrun : ∀ c ∈ run, IsInner c) (h : cs ++ w :: more = run ++ tail) :
    ∃ ys, cs = run ++ ys ∧ tail = ys ++ w :: more := by
  rcases append_cons_cases h with hbefore | ⟨as, rfl⟩
  · exact hbefore
  · exact absurd (hrun w (by simp)) hw

theorem stops_wall (hw : ¬IsInner w) (more : List Char) : Stops isWordChar (w :: more) := by
  intro c hc
  obtain rfl : w = c := by simpa using hc
  exact Bool.eq_false_iff.mpr fun hword => hw (Or.inr (Or.inl hword))

theorem Named.of_append_append {word : String} (h : Named word (cs ++ more) (rest ++ more)) : Named word cs rest := by
  obtain ⟨bs, name, hnil, hbs, hempty, hname, heq, hrest⟩ := h
  refine ⟨bs, name, hnil, hbs, hempty, hname, ?_, fun c hc => hrest c ?_⟩
  · simpa only [← List.append_assoc, List.append_cancel_right_eq] using heq
  · rw [List.head?_append, Option.mem_def.mp hc]
    rfl

theorem Marked.of_append_right {mark : Char} (h : Marked mark cs (rest ++ more)) :
    ∃ ys, cs = ys ++ more ∧ Marked mark ys rest := by
  obtain ⟨bs, hbs, rfl⟩ := h
  exact ⟨bs ++ mark :: rest, by simp, bs, hbs, rfl⟩

/-- A declaration that ends before the text goes on does not need the rest. -/
theorem IsDeclaration.of_append_append (h : IsDeclaration (cs ++ more) (rest ++ more)) : IsDeclaration cs rest := by
  rcases h with h | ⟨r, s, hr, hs, ht⟩
  · exact Or.inl h.of_append_append
  · obtain ⟨s, rfl, ht'⟩ := ht.of_append_right
    obtain ⟨r, rfl, hs'⟩ := hs.of_append_right
    exact Or.inr ⟨r, s, hr.of_append_append, hs', ht'⟩

/-- A declaration at the start of a text ends before a character that no declaration has. -/
theorem IsDeclaration.before_wall (hw : ¬IsInner w) (h : IsDeclaration (cs ++ w :: more) rest) :
    ∃ ys, IsDeclaration cs ys := by
  obtain ⟨run, -, hrun, heq⟩ := h.exists_run
  obtain ⟨ys, rfl, rfl⟩ := ScoreGate.before_wall hw hrun heq
  exact ⟨ys, h.of_append_append⟩

/-- What stands before and after a character that no declaration has is counted by itself. -/
theorem countComponents_wall (hw : ¬IsInner w) (cs more : List Char) :
    countComponents (cs ++ w :: more) = countComponents cs + countComponents more := by
  -- after a declaration the count goes on where it ends, so the induction is on the length
  induction hn : cs.length using Nat.strong_induction_on generalizing cs with
  | _ n ih =>
    subst hn
    rcases cs with _ | ⟨c, cs⟩
    · have hnone : ∀ rest, ¬IsDeclaration (w :: more) rest := fun rest h => by
        obtain ⟨ys, hys⟩ : ∃ ys, IsDeclaration [] ys := h.before_wall hw
        simpa using hys.head?_eq
      rw [List.nil_append, countComponents_cons hnone]
      exact (Nat.zero_add _).symm
    · by_cases hfound : ∃ rest, IsDeclaration (c :: cs) rest
      · obtain ⟨rest, hrest⟩ := hfound
        rw [countComponents_of_declaration (hrest.append (stops_wall hw more)), countComponents_of_declaration hrest,
          ih _ hrest.length_lt rest rfl]
        omega
      · have hnone : ∀ rest, ¬IsDeclaration (c :: (cs ++ w :: more)) rest := fun rest h =>
          hfound (h.before_wall hw)
        rw [List.cons_append, countComponents_cons hnone, countComponents_cons (not_exists.mp hfound),
          ih _ (Nat.lt_succ_self _) cs rfl]

/-! ### Calls -/

theorem IsCall.inner (h : IsCall run) : ∀ c ∈ run, IsInner c := by
  obtain ⟨hook, hhook, bs, hbs, rfl⟩ := h
  obtain ⟨-, -, hword⟩ := mainHooks_start hook hhook
  intro c hc
  simp only [List.mem_append, List.mem_singleton] at hc
  rcases hc with hc | hc | rfl
  · exact Or.inr (Or.inl (hword c hc))
  · exact Or.inl (hbs c hc)
  · exact Or.inr (Or.inr (Or.inr rfl))

theorem startsWithHookCall_wall (hw : ¬IsInner w) (cs more : List Char) :
    startsWithHookCall (cs ++ w :: more) = startsWithHookCall cs := by
  rw [Bool.eq_iff_iff]
  refine ⟨fun h => ?_, fun h => startsWithHookCall_append h _⟩
  obtain ⟨run, hrun, tail, heq⟩ := startsWithHookCall_iff.mp h
  obtain ⟨ys, rfl, -⟩ := before_wall hw hrun.inner heq.symm
  exact startsWithHookCall_iff.mpr ⟨run, hrun, List.prefix_append _ _⟩

theorem callsHookFrom_wall (hw : ¬IsInner w) (afterWordChar : Bool) (cs more : List Char) :
    callsHookFrom afterWordChar (cs ++ w :: more) = (callsHookFrom afterWordChar cs || callsHook more) := by
  induction cs generalizing afterWordChar with
  | nil =>
    have hnone : startsWithHookCall (w :: more) = false := by
      rw [← List.nil_append (w :: more), startsWithHookCall_wall hw]
      rfl
    have hword : isWordChar w = false := stops_wall hw more w rfl
    show ((!afterWordChar && startsWithHookCall (w :: more)) || callsHookFrom (isWordChar w) more) =
      (false || callsHook more)
    rw [hnone, hword, Bool.and_false]
    rfl
  | cons c cs ih =>
    have hhere : startsWithHookCall (c :: (cs ++ w :: more)) = startsWithHookCall (c :: cs) :=
      startsWithHookCall_wall hw (c :: cs) more
    rw [List.cons_append, callsHookFrom, callsHookFrom, hhere, ih, Bool.or_assoc]

end Walls

/-! ### What is declared and called around a line -/

section Around

variable {before after l text : List Char}

theorem respaced_indent (hl : ∀ c ∈ l, isBlank c = true) (cs after : List Char) :
    Respaced (cs ++ ['\n'] ++ (l ++ after)) (cs ++ ['\n'] ++ after) := by
  have hindent : AreBlanks ('\n' :: l) := ⟨List.cons_ne_nil _ _, List.forall_mem_cons.mpr ⟨by decide, hl⟩⟩
  rw [List.append_assoc, List.append_assoc]
  refine (Respaced.refl cs).append ?_
  rw [← List.append_assoc]
  exact .blanks hindent (areBlanks_singleton (by decide)) (.refl after)

theorem countComponents_indent (h : Encloses before after) (hl : ∀ c ∈ l, isBlank c = true) (rest : List Char) :
    countComponents (before ++ (l ++ rest)) = countComponents (before ++ rest) := by
  rcases h.start with rfl | ⟨cs, rfl⟩
  · exact countComponents_blanks hl rest
  · exact (respaced_indent hl cs rest).countComponents_eq

theorem callsHook_indent (h : Encloses before after) (hl : ∀ c ∈ l, isBlank c = true) (rest : List Char) :
    callsHook (before ++ (l ++ rest)) = callsHook (before ++ rest) := by
  rcases h.start with rfl | ⟨cs, rfl⟩
  · by_cases hnil : l = []
    · rw [hnil, List.nil_append]
    · exact callsHookFrom_blanks ⟨hnil, hl⟩ false rest
  · exact (respaced_indent hl cs rest).callsHookFrom_eq false

/-- No declaration and no call has one of the characters that open a comment. -/
theorem OpensComment.exists_walls (h : OpensComment l text) : ∃ bs w₁ w₂, (∀ b ∈ bs, isBlank b = true) ∧ ¬IsInner w₁ ∧
    ¬IsInner w₂ ∧ l = bs ++ w₁ :: ([] ++ w₂ :: text) := by
  obtain ⟨bs, hbs, second, hsecond, rfl⟩ := h
  refine ⟨bs, '/', second, hbs, ?_, ?_, rfl⟩
  · unfold IsInner
    decide
  · unfold IsInner
    rcases hsecond with rfl | rfl <;> decide

/-- What stands before a comment is counted by itself, and the text of the comment with what comes after it. -/
theorem countComponents_comment (h : Encloses before after) (hl : OpensComment l text) :
    countComponents (before ++ (l ++ after)) = countComponents before + countComponents (text ++ after) := by
  obtain ⟨bs, w₁, w₂, hbs, h₁, h₂, rfl⟩ := hl.exists_walls
  rw [List.append_assoc, countComponents_indent h hbs, List.cons_append, countComponents_wall h₁, List.append_assoc,
    List.cons_append, countComponents_wall h₂]
  exact congrArg (_ + ·) (Nat.zero_add _)

/-- What stands before a comment is searched by itself, and the text of the comment with what comes after it. -/
theorem callsHook_comment (h : Encloses before after) (hl : OpensComment l text) :
    callsHook (before ++ (l ++ after)) = (callsHook before || callsHook (text ++ after)) := by
  obtain ⟨bs, w₁, w₂, hbs, h₁, h₂, rfl⟩ := hl.exists_walls
  have htext : callsHook ([] ++ w₂ :: (text ++ after)) = callsHook (text ++ after) := callsHookFrom_wall h₂ false [] _
  rw [List.append_assoc, callsHook_indent h hbs, List.cons_append, callsHook, callsHookFrom_wall h₁, List.append_assoc,
    List.cons_append, htext]
  rfl

/-- What the text of a comment declares is found, whatever comes after the line. -/
theorem countComponents_text_le (h : Encloses before after) (text : List Char) :
    countComponents text ≤ countComponents (text ++ after) := by
  rcases h.stop with rfl | ⟨cs, rfl⟩
  · rw [List.append_nil]
  · exact countComponents_append text cs

end Around

/-! ### Analyses -/

theorem componentIssues_inj {m n : ℕ} :
    componentIssues m = componentIssues n ↔ max maxComponents m = max maxComponents n := by
  have hmessage (h : componentIssues m = componentIssues n) (hm : maxComponents < m) (hn : maxComponents < n) : m = n := by
    rw [componentIssues, componentIssues, if_pos hm, if_pos hn, List.singleton_inj] at h
    have htext := congrArg String.toList (Value.text.inj (congrArg Issue.suggestion h))
    simp only [String.toList_append, List.append_cancel_left_eq, List.append_cancel_right_eq] at htext
    exact Nat.repr_injective (String.toList_injective htext)
  constructor
  · intro h
    by_cases hm : maxComponents < m
    · by_cases hn : maxComponents < n
      · rw [hmessage h hm hn]
      · rw [componentIssues, componentIssues, if_pos hm, if_neg hn] at h
        cases h
    · by_cases hn : maxComponents < n
      · rw [componentIssues, componentIssues, if_neg hm, if_pos hn] at h
        cases h
      · omega
  · intro h
    by_cases hm : maxComponents < m
    · obtain rfl : m = n := by omega
      rfl
    · rw [componentIssues, componentIssues, if_neg hm, if_neg (by omega)]

theorem hookIssues_inj {a b : Bool} : hookIssues a = hookIssues b ↔ a = b := by
  cases a <;> cases b <;> simp [hookIssues]

theorem wholeIssues_inj {m n : ℕ} {a b : Bool} : componentIssues m ++ hookIssues a = componentIssues n ++ hookIssues b ↔
    max maxComponents m = max maxComponents n ∧ a = b := by
  have hmedium (n : ℕ) : (componentIssues n).filter (fun i => i.severity = .high) = [] := by
    unfold componentIssues
    split_ifs <;> rfl
  have hhigh (a : Bool) : (hookIssues a).filter (fun i => i.severity = .high) = hookIssues a := by
    unfold hookIssues
    split_ifs <;> rfl
  rw [← componentIssues_inj, ← hookIssues_inj]
  refine ⟨fun h => ?_, fun h => by rw [h.1, h.2]⟩
  have hhooks := congrArg (List.filter fun i => i.severity = .high) h
  rw [List.filter_append, List.filter_append, hmedium, hmedium, hhigh, hhigh, List.nil_append, List.nil_append] at hhooks
  rw [hhooks] at h
  exact ⟨List.append_cancel_right h, hhooks⟩

/-- Texts of lines that read alike have the same analysis if they declare as many components, as far as too many are
reported, and call hooks alike, or if neither matters under the path. -/
theorem analyzeText_eq_iff {a b path : String} (h : List.Forall₂ ReadsAlike (lines a.toList) (lines b.toList)) :
    analyzeText a path = analyzeText b path ↔ (isComponentFile path = true →
      max maxComponents (countComponents a.toList) = max maxComponents (countComponents b.toList) ∧
        (isHookFile path = false → callsHook a.toList = callsHook b.toList)) := by
  have hhooks : (!isHookFile path && callsHook a.toList) = (!isHookFile path && callsHook b.toList) ↔
      (isHookFile path = false → callsHook a.toList = callsHook b.toList) := by
    cases isHookFile path <;> simp
  constructor
  · intro hsame hpath
    have hissues : textIssues path a.toList = textIssues path b.toList := congrArg FileAnalysis.issues hsame
    rw [textIssues, textIssues, fileIssues, fileIssues, issuesOfLines_congr h, h.length_eq, countImports_congr h,
      if_pos hpath, if_pos hpath] at hissues
    rw [← hhooks]
    exact wholeIssues_inj.mp (List.append_cancel_left (List.append_cancel_left hissues))
  · intro hwhole
    refine analyzeText_congr (textIssues_congr path h fun hpath => ?_) h.length_eq
    obtain ⟨hcomponents, hcalls⟩ := hwhole hpath
    exact ⟨componentIssues_inj.mpr hcomponents, by rw [hhooks.mpr hcalls]⟩

theorem totalLines_analyzeText (content path : String) :
    (analyzeText content path).totalLines = (lines content.toList).length := rfl

/-- What an analysis makes of a line that is not checked, seen by making it empty. -/
structure FileAnalysis.Passes (path : String) (i : ℕ) (l : List Char) (content : String) : Prop where
  totalLines : (analyzeText (clearLine i content) path).totalLines = (analyzeText content path).totalLines
  onLines : issuesOnLines path (clearLine i content).toList = issuesOnLines path content.toList
  imports : countImports (lines (clearLine i content).toList) = countImports (lines content.toList)
  /-- a blank line does not matter, and in a file of another kind no line that is not checked does -/
  unread : (∀ c ∈ l, isBlank c = true) ∨ isComponentFile path = false →
    analyzeText (clearLine i content) path = analyzeText content path
  /-- in a component file the number of components and the calls of hooks decide -/
  same_iff : analyzeText (clearLine i content) path = analyzeText content path ↔ (isComponentFile path = true →
    max maxComponents (countComponents (clearLine i content).toList) = max maxComponents (countComponents content.toList) ∧
      (isHookFile path = false → callsHook (clearLine i content).toList = callsHook content.toList))
  /-- a comment is read with what comes after it, but not with what stands before it -/
  comment : ∀ text, OpensComment l text → ∃ before after, Around i content l before after ∧
    countComponents content.toList = countComponents before + countComponents (text ++ after) ∧
    callsHook content.toList = (callsHook before || callsHook (text ++ after))
  /-- so what the comment itself declares and calls counts -/
  counted : ∀ text, OpensComment l text → countComponents text ≤ countComponents content.toList ∧
    (callsHook text = true → callsHook content.toList = true)

/-- Making a line empty that is not checked changes an analysis only by what a comment in a component file declares, calls or
keeps apart. -/
theorem analyzeText_clearLine {i : ℕ} {content : String} {l : List Char} (path : String)
    (hl : (lines content.toList)[i]? = some l) (hskipped : isSkippedLine l = true) :
    FileAnalysis.Passes path i l content := by
  have halike : List.Forall₂ ReadsAlike (lines (clearLine i content).toList) (lines content.toList) := by
    rw [lines_clearLine]
    exact readsAlike_set hl hskipped
  obtain ⟨before, after, haround⟩ := exists_around hl
  have hcomponents : ∀ text, OpensComment l text → countComponents content.toList =
      countComponents before + countComponents (text ++ after) := fun text htext => by
    rw [haround.text, countComponents_comment haround.encloses htext]
  have hcalls : ∀ text, OpensComment l text → callsHook content.toList =
      (callsHook before || callsHook (text ++ after)) := fun text htext => by
    rw [haround.text, callsHook_comment haround.encloses htext]
  exact {
    totalLines := by rw [totalLines_analyzeText, totalLines_analyzeText, halike.length_eq]
    onLines := issuesOfLines_congr halike _ _
    imports := countImports_congr halike
    unread := fun h => (analyzeText_eq_iff halike).mpr fun hpath => by
      rcases h with hblank | hother
      · rw [haround.text, haround.cleared, countComponents_indent haround.encloses hblank,
          callsHook_indent haround.encloses hblank]
        exact ⟨rfl, fun _ => rfl⟩
      · rw [hother] at hpath
        cases hpath
    same_iff := analyzeText_eq_iff halike
    comment := fun text htext => ⟨before, after, haround, hcomponents text htext, hcalls text htext⟩
    counted := fun text htext => by
      rw [hcomponents text htext, hcalls text htext]
      refine ⟨(countComponents_text_le haround.encloses text).trans (Nat.le_add_left _ _), fun htext => ?_⟩
      rw [callsHook, callsHook, callsHookFrom_append false htext after, Bool.or_true] }

def commentedCall : String := "// const [n, setN] = useState(0)"

def belowComment : String := commentedCall ++ "\nfunction Counter() {}"

theorem analyzeText_clearLine_commented : (lines belowComment.toList)[0]? = some commentedCall.toList ∧
    isSkippedLine commentedCall.toList = true ∧
    analyzeText (clearLine 0 belowComment) "Counter.tsx" ≠ analyzeText belowComment "Counter.tsx" ∧
    analyzeText (clearLine 0 belowComment) "Counter.ts" = analyzeText belowComment "Counter.ts" := by
  have hl : (lines belowComment.toList)[0]? = some commentedCall.toList := by decide +kernel
  have hskipped : isSkippedLine commentedCall.toList = true := by decide +kernel
  have hplain := (analyzeText_clearLine "Counter.ts" hl hskipped).unread (Or.inr (by decide +kernel))
  refine ⟨hl, hskipped, fun hsame => ?_, hplain⟩
  have hcomponent := (analyzeText_clearLine "Counter.tsx" hl hskipped).same_iff.mp hsame (by decide +kernel)
  exact absurd (hcomponent.2 (by decide +kernel)) (by decide +kernel)

end ScoreGate
