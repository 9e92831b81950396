import ScoreGate.Analysis
import ScoreGate.Proofs.Components

/-!
# Blanks that do not matter

The rules about a whole text look at words and marks with blanks between them, and a line feed is a blank like any other.  So
it does not matter which blanks stand in a place, and how many, as long as there are some.  The rules about lines look at
fixed words, which do not reach over the end of a line.

* `Respaced`: two texts with the same characters between their runs of blanks.
* `Respaced.countComponents_eq`, `Respaced.callsHookFrom_eq`: they declare as many components and call hooks alike.
* `ReadsAlike`: two lines of which the rules see the same; `textIssues_congr`, `analyzeText_congr`: texts of such lines.
-/

namespace ScoreGate

/-! ### Runs of blanks -/

/-- At least one blank and nothing else. -/
def AreBlanks (bs : List Char) : Prop := bs ≠ [] ∧ ∀ b ∈ bs, isBlank b = true

theorem areBlanks_singleton {b : Char} (h : isBlank b = true) : AreBlanks [b] :=
  ⟨List.cons_ne_nil _ _, by simpa using h⟩

theorem AreBlanks.exists_cons {bs : List Char} (h : AreBlanks bs) : ∃ b bs', bs = b :: bs' ∧ isBlank b = true := by
  obtain ⟨b, bs', rfl⟩ := List.exists_cons_of_ne_nil h.1
  exact ⟨b, bs', rfl, h.2 b List.mem_cons_self⟩

/-- The same text, but for which blanks stand between its characters and how many. -/
inductive Respaced : List Char → List Char → Prop
  | nil : Respaced [] []
  | keep {c : Char} {cs ds : List Char} (hc : isBlank c = false) (h : Respaced cs ds) : Respaced (c :: cs) (c :: ds)
  | blanks {bs bs' cs ds : List Char} (hbs : AreBlanks bs) (hbs' : AreBlanks bs') (h : Respaced cs ds) :
      Respaced (bs ++ cs) (bs' ++ ds)

namespace Respaced

variable {cs ds cs' ds' xs bs word : List Char} {c : Char}

theorem refl : ∀ cs : List Char, Respaced cs cs
  | [] => .nil
  | c :: cs => by
    by_cases hc : isBlank c = true
    · exact .blanks (areBlanks_singleton hc) (areBlanks_singleton hc) (refl cs)
    · exact .keep (by simpa using hc) (refl cs)

theorem symm (h : Respaced cs ds) : Respaced ds cs := by
  induction h with
  | nil => exact .nil
  | keep hc _ ih => exact .keep hc ih
  | blanks hbs hbs' _ ih => exact .blanks hbs' hbs ih

theorem append (h : Respaced cs ds) (h' : Respaced cs' ds') : Respaced (cs ++ cs') (ds ++ ds') := by
  induction h with
  | nil => exact h'
  | keep hc _ ih => exact .keep hc ih
  | blanks hbs hbs' _ ih =>
    rw [List.append_assoc, List.append_assoc]
    exact .blanks hbs hbs' ih

/-- Blanks at the start stand at the start of both. -/
theorem dropWhile_blanks (h : Respaced cs ds) : Respaced (cs.dropWhile isBlank) (ds.dropWhile isBlank) := by
  induction h with
  | nil => exact .nil
  | keep hc h =>
    rw [List.dropWhile_cons_of_neg (by simp [hc]), List.dropWhile_cons_of_neg (by simp [hc])]
    exact .keep hc h
  | blanks hbs hbs' _ ih =>
    rw [List.dropWhile_append_of_pos hbs.2, List.dropWhile_append_of_pos hbs'.2]
    exact ih

/-- Where one text starts with a character that is no blank, so does the other. -/
theorem of_cons (hc : isBlank c = false) (h : Respaced (c :: cs) ds) : ∃ ds', ds = c :: ds' ∧ Respaced cs ds' := by
  generalize hstart : c :: cs = zs at h
  cases h with
  | nil => cases hstart
  | keep _ h =>
    obtain ⟨rfl, rfl⟩ := List.cons.inj hstart
    exact ⟨_, rfl, h⟩
  | blanks hbs _ _ =>
    obtain ⟨b, bs', rfl, hb⟩ := hbs.exists_cons
    obtain ⟨rfl, -⟩ := List.cons.inj hstart
    rw [hc] at hb
    cases hb

theorem of_word (hword : ∀ c ∈ word, isBlank c = false) (h : Respaced (word ++ xs) ds) :
    ∃ ys, ds = word ++ ys ∧ Respaced xs ys := by
  induction word generalizing ds with
  | nil => exact ⟨ds, rfl, h⟩
  | cons c word ih =>
    obtain ⟨ds', rfl, h'⟩ := h.of_cons (hword c List.mem_cons_self)
    obtain ⟨ys, rfl, hys⟩ := ih (fun d hd => hword d (List.mem_cons_of_mem c hd)) h'
    exact ⟨ys, rfl, hys⟩

theorem of_blanks (hbs : AreBlanks bs) (hxs : Stops isBlank xs) (h : Respaced (bs ++ xs) ds) :
    ∃ bs' ys, ds = bs' ++ ys ∧ AreBlanks bs' ∧ Respaced xs ys := by
  have hrest := h.dropWhile_blanks
  rw [dropWhile_of_stops hbs.2 hxs] at hrest
  refine ⟨ds.takeWhile isBlank, ds.dropWhile isBlank, List.takeWhile_append_dropWhile.symm,
    ⟨fun hnil => ?_, fun _ => List.mem_takeWhile_imp⟩, hrest⟩
  obtain ⟨b, bs, rfl, hb⟩ := hbs.exists_cons
  generalize hstart : b :: bs ++ xs = zs at h
  cases h with
  | nil => cases hstart
  | keep hc _ =>
    obtain ⟨rfl, -⟩ := List.cons.inj hstart
    rw [hc] at hb
    cases hb
  | blanks _ hbs' _ =>
    obtain ⟨b', bs', rfl, hb'⟩ := hbs'.exists_cons
    simp [hb'] at hnil

/-- A name ends in both where it ends in one. -/
theorem stops (h : Respaced cs ds) (hcs : Stops isWordChar cs) : Stops isWordChar ds := by
  cases h with
  | nil => exact hcs
  | keep _ _ => exact hcs
  | blanks _ hbs' _ =>
    obtain ⟨b, bs, rfl, hb⟩ := hbs'.exists_cons
    intro c hc
    obtain rfl : b = c := by simpa using hc
    exact isWordChar_of_isBlank hb

end Respaced

/-! ### Declarations -/

section Declarations

variable {cs ds rest : List Char} {word : String} {mark : Char}

theorem Named.respaced (hword : ∀ c ∈ word.toList, isBlank c = false) (h : Named word cs rest) (hs : Respaced cs ds) :
    ∃ rest', Named word ds rest' ∧ Respaced rest rest' := by
  obtain ⟨bs, name, hnil, hbs, hempty, hname, rfl, hrest⟩ := h
  obtain ⟨ys, rfl, hys⟩ := hs.of_word hword
  obtain ⟨bs', zs, rfl, hbs', hzs⟩ := hys.of_blanks ⟨hnil, hbs⟩ (stops_name hempty hname rest)
  obtain ⟨rest', rfl, hrest'⟩ := hzs.of_word fun c hc => isBlank_of_isWordChar (hname c hc)
  exact ⟨rest', ⟨bs', name, hbs'.1, hbs'.2, hempty, hname, rfl, hrest'.stops hrest⟩, hrest'⟩

theorem Marked.respaced (hmark : isBlank mark = false) (h : Marked mark cs rest) (hs : Respaced cs ds) :
    ∃ rest', Marked mark ds rest' ∧ Respaced rest rest' := by
  obtain ⟨bs, hbs, rfl⟩ := h
  have hmarked : Stops isBlank (mark :: rest) := by
    intro c hc
    obtain rfl : mark = c := by simpa using hc
    exact hmark
  have hdrop := hs.dropWhile_blanks
  rw [dropWhile_of_stops hbs hmarked] at hdrop
  obtain ⟨rest', heq, hrest'⟩ := hdrop.of_cons hmark
  refine ⟨rest', ⟨ds.takeWhile isBlank, fun _ => List.mem_takeWhile_imp, ?_⟩, hrest'⟩
  rw [← heq, List.takeWhile_append_dropWhile]

/-- A declaration is found in both texts, and what comes after it differs in blanks only. -/
theorem IsDeclaration.respaced (h : IsDeclaration cs rest) (hs : Respaced cs ds) :
    ∃ rest', IsDeclaration ds rest' ∧ Respaced rest rest' := by
  rcases h with h | ⟨r, s, hr, hequals, hparen⟩
  · obtain ⟨rest', h', hrest⟩ := h.respaced (by simp [isBlank, isWideBlank]) hs
    exact ⟨rest', Or.inl h', hrest⟩
  · obtain ⟨r', hr', hrs⟩ := hr.respaced (by simp [isBlank, isWideBlank]) hs
    obtain ⟨s', hequals', hss⟩ := hequals.respaced (by decide) hrs
    obtain ⟨rest', hparen', hrest⟩ := hparen.respaced (by decide) hss
    exact ⟨rest', Or.inr ⟨r', s', hr', hequals', hparen'⟩, hrest⟩

/-- No declaration begins with a blank. -/
theorem countComponents_blanks {bs : List Char} (hbs : ∀ b ∈ bs, isBlank b = true) (cs : List Char) :
    countComponents (bs ++ cs) = countComponents cs := by
  apply countComponentsFrom_append_left
  intro b hb
  constructor
  · rintro rfl
    exact absurd (hbs _ hb) (by decide)
  · rintro rfl
    exact absurd (hbs _ hb) (by decide)

/-- The number of declarations does not depend on the blanks between words. -/
theorem Respaced.countComponents_eq {cs ds : List Char} (h : Respaced cs ds) : countComponents cs = countComponents ds := by
  -- a declaration may end anywhere further on, so the induction is on the length
  induction hn : cs.length using Nat.strong_induction_on generalizing cs ds with
  | _ n ih =>
    subst hn
    cases h with
    | nil => rfl
    | @keep c cs ds hc h =>
      by_cases hfound : ∃ rest, IsDeclaration (c :: cs) rest
      · obtain ⟨rest, hrest⟩ := hfound
        obtain ⟨rest', hrest', hrs⟩ := hrest.respaced (.keep hc h)
        rw [countComponents_of_declaration hrest, countComponents_of_declaration hrest', ih _ hrest.length_lt hrs rfl]
      · have hnone : ∀ rest, ¬IsDeclaration (c :: ds) rest := by
          intro rest hrest
          obtain ⟨rest', hrest', -⟩ := hrest.respaced (.keep hc h.symm)
          exact hfound ⟨rest', hrest'⟩
        rw [countComponents_cons (not_exists.mp hfound), countComponents_cons hnone,
          ih cs.length (Nat.lt_succ_self _) h rfl]
    | @blanks bs bs' cs ds hbs hbs' h =>
      have hshorter : cs.length < (bs ++ cs).length := by
        rw [List.length_append]
        have := List.length_pos_of_ne_nil hbs.1
        omega
      rw [countComponents_blanks hbs.2, countComponents_blanks hbs'.2, ih _ hshorter h rfl]

end Declarations

/-! ### Calls -/

section Calls

variable {cs ds : List Char}

theorem mainHooks_start : ∀ hook ∈ mainHooks, ∃ cs, hook.toList = 'u' :: cs ∧ ∀ c ∈ hook.toList, isWordChar c = true := by
  simp [mainHooks, isWordChar]

/-- A call begins in both texts or in none. -/
theorem Respaced.startsWithHookCall_of (h : Respaced cs ds) (hcall : startsWithHookCall cs = true) :
    startsWithHookCall ds = true := by
  obtain ⟨_, ⟨hook, hhook, bs, hbs, rfl⟩, rest, rfl⟩ := startsWithHookCall_iff.mp hcall
  obtain ⟨-, -, hword⟩ := mainHooks_start hook hhook
  rw [List.append_assoc] at h
  obtain ⟨ys, rfl, hys⟩ := h.of_word fun c hc => isBlank_of_isWordChar (hword c hc)
  have hmarked : Marked '(' (bs ++ ['('] ++ rest) rest := ⟨bs, hbs, by simp⟩
  obtain ⟨rest', ⟨bs', hbs', rfl⟩, -⟩ := hmarked.respaced (by decide) hys
  exact startsWithHookCall_iff.mpr ⟨_, ⟨hook, hhook, bs', hbs', rfl⟩, rest', by simp⟩

theorem Respaced.startsWithHookCall_eq (h : Respaced cs ds) : startsWithHookCall cs = startsWithHookCall ds :=
  Bool.eq_iff_iff.mpr ⟨h.startsWithHookCall_of, h.symm.startsWithHookCall_of⟩

/-- Every call begins with the same letter. -/
theorem startsWithHookCall_cons {c : Char} (hc : c ≠ 'u') (cs : List Char) : startsWithHookCall (c :: cs) = false := by
  rw [← Bool.not_eq_true]
  intro hcall
  obtain ⟨_, ⟨hook, hhook, bs, -, rfl⟩, rest, heq⟩ := startsWithHookCall_iff.mp hcall
  obtain ⟨letters, hletters, -⟩ := mainHooks_start hook hhook
  rw [hletters] at heq
  exact hc (List.cons.inj heq).1.symm

theorem callsHookFrom_blanks {bs : List Char} (hbs : AreBlanks bs) (afterWordChar : Bool) (cs : List Char) :
    callsHookFrom afterWordChar (bs ++ cs) = callsHookFrom false cs := by
  obtain ⟨hne, hblank⟩ := hbs
  induction bs generalizing afterWordChar with
  | nil => exact absurd rfl hne
  | cons b bs ih =>
    have hb := hblank b List.mem_cons_self
    have hstart : startsWithHookCall (b :: (bs ++ cs)) = false := by
      apply startsWithHookCall_cons
      rintro rfl
      exact absurd hb (by decide)
    rw [List.cons_append, callsHookFrom, hstart, Bool.and_false, Bool.false_or, isWordChar_of_isBlank hb]
    by_cases hrest : bs = []
    · rw [hrest, List.nil_append]
    · exact ih false hrest fun c hc => hblank c (List.mem_cons_of_mem b hc)

theorem Respaced.callsHookFrom_eq (h : Respaced cs ds) (afterWordChar : Bool) :
    callsHookFrom afterWordChar cs = callsHookFrom afterWordChar ds := by
  induction h generalizing afterWordChar with
  | nil => rfl
  | @keep c cs ds hc h ih =>
    rw [callsHookFrom, callsHookFrom, (Respaced.keep hc h).startsWithHookCall_eq, ih]
  | blanks hbs hbs' _ ih => rw [callsHookFrom_blanks hbs, callsHookFrom_blanks hbs', ih]

end Calls

/-! ### Lines that read alike -/

/-- Two lines of which the rules see the same. -/
structure ReadsAlike (l m : List Char) : Prop where
  rules : ∀ components, rulesFor components l = rulesFor components m
  imports : "import".toList.isPrefixOf l = "import".toList.isPrefixOf m

section Alike

variable {ls ms : List (List Char)} {cs ds : List Char}

theorem ReadsAlike.refl (l : List Char) : ReadsAlike l l := ⟨fun _ => rfl, rfl⟩

theorem issuesOfLines_congr (h : List.Forall₂ ReadsAlike ls ms) (components : Bool) (before : ℕ) :
    issuesOfLines components before ls = issuesOfLines components before ms := by
  induction h generalizing before with
  | nil => rfl
  | cons hl _ ih => rw [issuesOfLines, issuesOfLines, lineIssues, lineIssues, hl.rules, ih]

theorem countImports_congr (h : List.Forall₂ ReadsAlike ls ms) : countImports ls = countImports ms := by
  induction h with
  | nil => rfl
  | cons hl _ ih =>
    unfold countImports at ih ⊢
    rw [List.countP_cons, List.countP_cons, hl.imports, ih]

/-- Texts of lines that read alike have the same issues under the same path, if what they declare and call as component files
gives the same issues. -/
theorem textIssues_congr (path : String) (h : List.Forall₂ ReadsAlike (lines cs) (lines ds))
    (hwhole : isComponentFile path = true → componentIssues (countComponents cs) = componentIssues (countComponents ds) ∧
      hookIssues (!isHookFile path && callsHook cs) = hookIssues (!isHookFile path && callsHook ds)) :
    textIssues path cs = textIssues path ds := by
  rw [textIssues, textIssues, fileIssues, fileIssues, issuesOfLines_congr h, h.length_eq, countImports_congr h]
  by_cases hpath : isComponentFile path = true
  · obtain ⟨hcomponents, hhooks⟩ := hwhole hpath
    rw [if_pos hpath, if_pos hpath, hcomponents, hhooks]
  · rw [if_neg hpath, if_neg hpath]

theorem analyzeText_congr {a b path : String} (hissues : textIssues path a.toList = textIssues path b.toList)
    (hsize : (lines a.toList).length = (lines b.toList).length) : analyzeText a path = analyzeText b path := by
  unfold analyzeText
  simp only [hissues, hsize]

end Alike

end ScoreGate
