import Mathlib
import ScoreGate.Rule.File

/-!
# Declarations and calls in a text that goes on

A declaration of a component and a call of a hook are found by their beginning, and may run over several lines.  Where a
text goes on after a line feed, whatever was found stays found and ends where it did.  A declaration that begins in the
old text and ends in the new one takes the rest of the old text with it, but there was nothing left to be found: after
its beginning no word comes after a blank.

* `IsDeclaration`: the form of a declaration; `afterComponent?_eq_some`: what is found has this form.
* `countComponentsFrom_append`: the number of declarations does not fall.
* `IsCall`: the form of a call; `callsHookFrom_append`: a call is not lost.
-/

namespace ScoreGate

/-! ### Blanks and words -/

theorem isWordChar_of_isBlank {c : Char} (h : isBlank c = true) : isWordChar c = false := by
  have hcodes : ∀ n ∈ List.range' 0x09 5 ++ List.range' 0x1c 5 ++ [0x85, 0xa0, 0x1680] ++ List.range' 0x2000 11 ++
      [0x2028, 0x2029, 0x202f, 0x205f, 0x3000], isWordChar (Char.ofNat n) = false := by decide +kernel
  rw [← Char.ofNat_toNat c]
  refine hcodes _ ?_
  simp only [isBlank, isWideBlank, Bool.or_eq_true, Bool.and_eq_true, decide_eq_true_eq, beq_iff_eq] at h
  simp only [List.mem_append, List.mem_range'_1, List.mem_cons, List.not_mem_nil, or_false]
  omega

theorem isBlank_of_isWordChar {c : Char} (h : isWordChar c = true) : isBlank c = false := by
  by_contra hblank
  rw [isWordChar_of_isBlank (by simpa using hblank)] at h
  cases h

section Runs

variable {α : Type} {p : α → Bool} {xs ys rest : List α}

/-- A run of a class is over where a text begins: there is nothing more, or something of another class. -/
def Stops (p : α → Bool) (rest : List α) : Prop := ∀ c ∈ rest.head?, p c = false

theorem Stops.append (h : Stops p rest) (h' : Stops p ys) : Stops p (rest ++ ys) := by
  rcases rest with _ | ⟨c, rest⟩
  · exact h'
  · exact h

theorem takeWhile_of_stops (hxs : ∀ c ∈ xs, p c = true) (hrest : Stops p rest) : (xs ++ rest).takeWhile p = xs := by
  rw [List.takeWhile_append_of_pos hxs]
  rcases rest with _ | ⟨c, rest⟩
  · simp
  · have hc : p c = false := hrest c rfl
    simp [hc]

theorem dropWhile_of_stops (hxs : ∀ c ∈ xs, p c = true) (hrest : Stops p rest) : (xs ++ rest).dropWhile p = rest := by
  rw [List.dropWhile_append_of_pos hxs]
  rcases rest with _ | ⟨c, rest⟩
  · rfl
  · have hc : p c = false := hrest c rfl
    simp [hc]

theorem stops_dropWhile (p : α → Bool) (xs : List α) : Stops p (xs.dropWhile p) := by
  intro c hc
  have := List.head?_dropWhile_not p xs
  rw [hc] at this
  simpa using this

/-- A text splits into a run of a class and what comes after. -/
theorem exists_run (p : α → Bool) (xs : List α) : ∃ run rest, xs = run ++ rest ∧ (∀ c ∈ run, p c = true) ∧ Stops p rest :=
  ⟨xs.takeWhile p, xs.dropWhile p, List.takeWhile_append_dropWhile.symm, fun _ => List.mem_takeWhile_imp,
    stops_dropWhile p xs⟩

end Runs

/-! ### The form of a declaration -/

section Forms

variable {cs rest : List Char} {word : String} {mark : Char}

/-- A word, at least one blank, and a name. -/
def Named (word : String) (cs rest : List Char) : Prop := ∃ bs name, bs ≠ [] ∧ (∀ b ∈ bs, isBlank b = true) ∧
  name ≠ [] ∧ (∀ c ∈ name, isWordChar c = true) ∧ cs = word.toList ++ (bs ++ (name ++ rest)) ∧ Stops isWordChar rest

/-- A mark, after blanks. -/
def Marked (mark : Char) (cs rest : List Char) : Prop := ∃ bs, (∀ b ∈ bs, isBlank b = true) ∧ cs = bs ++ mark :: rest

/-- A declaration of a component at the start of a text: a named function, or a constant that begins with a
parenthesis. -/
def IsDeclaration (cs rest : List Char) : Prop :=
  Named "function" cs rest ∨ ∃ r s, Named "const" cs r ∧ Marked '=' r s ∧ Marked '(' s rest

theorem afterMark?_eq_some (hmark : isBlank mark = false) : afterMark? mark cs = some rest ↔ Marked mark cs rest := by
  obtain ⟨bs, ys, rfl, hbs, hys⟩ := exists_run isBlank cs
  rw [afterMark?, dropWhile_of_stops hbs hys]
  constructor
  · intro h
    rcases ys with _ | ⟨c, ys⟩
    · cases h
    · simp only [Option.ite_none_right_eq_some, Option.some.injEq] at h
      obtain ⟨rfl, rfl⟩ := h
      exact ⟨bs, hbs, rfl⟩
  · rintro ⟨bs', hbs', heq⟩
    have hrest : Stops isBlank (mark :: rest) := fun c hc => by
      obtain rfl : mark = c := by simpa using hc
      exact hmark
    have hys' : ys = mark :: rest := by
      rw [← dropWhile_of_stops hbs hys, heq, dropWhile_of_stops hbs' hrest]
    simp [hys']

theorem afterWord?_append (word : String) {bs ys : List Char} (hbs : ∀ b ∈ bs, isBlank b = true) (hys : Stops isBlank ys) :
    afterWord? word (word.toList ++ (bs ++ ys)) = if bs = [] then none else some ys := by
  rw [afterWord?, if_pos (List.isPrefixOf_iff_prefix.mpr (List.prefix_append _ _)), ← String.length_toList,
    List.drop_left]
  simp only [takeWhile_of_stops hbs hys, dropWhile_of_stops hbs hys, List.isEmpty_iff]

theorem afterName?_append {name : List Char} (hname : ∀ c ∈ name, isWordChar c = true) (hrest : Stops isWordChar rest) :
    afterName? (name ++ rest) = if name = [] then none else some rest := by
  rw [afterName?, takeWhile_of_stops hname hrest, dropWhile_of_stops hname hrest]
  simp only [List.isEmpty_iff]

theorem stops_name {name : List Char} (hne : name ≠ []) (hname : ∀ c ∈ name, isWordChar c = true) (rest : List Char) :
    Stops isBlank (name ++ rest) := by
  intro c hc
  rw [List.head?_append_of_ne_nil _ hne] at hc
  exact isBlank_of_isWordChar (hname c (List.mem_of_mem_head? hc))

theorem named_eq_some : (afterWord? word cs).bind afterName? = some rest ↔ Named word cs rest := by
  constructor
  · intro h
    by_cases hprefix : word.toList <+: cs
    · obtain ⟨ys, rfl⟩ := hprefix
      obtain ⟨bs, zs, rfl, hbs, hzs⟩ := exists_run isBlank ys
      obtain ⟨name, ts, rfl, hname, hts⟩ := exists_run isWordChar zs
      rw [afterWord?_append word hbs hzs] at h
      split_ifs at h with hnil
      · cases h
      · rw [Option.bind_some, afterName?_append hname hts] at h
        split_ifs at h with hempty
        obtain rfl := Option.some.inj h
        exact ⟨bs, name, hnil, hbs, hempty, hname, rfl, hts⟩
    · rw [afterWord?, if_neg (by rwa [List.isPrefixOf_iff_prefix])] at h
      cases h
  · rintro ⟨bs, name, hnil, hbs, hempty, hname, rfl, hrest⟩
    rw [afterWord?_append word hbs (stops_name hempty hname rest), if_neg hnil, Option.bind_some,
      afterName?_append hname hrest, if_neg hempty]

/-- The two words of a declaration do not begin alike. -/
theorem Named.head?_eq {c : Char} (h : Named word cs rest) (hc : word.toList.head? = some c) : cs.head? = some c := by
  obtain ⟨bs, name, -, -, -, -, rfl, -⟩ := h
  rw [List.head?_append, hc]
  rfl

/-- What is found at the start of a text is a declaration, and every one is found. -/
theorem afterComponent?_eq_some : afterComponent? cs = some rest ↔ IsDeclaration cs rest := by
  have hconst : ((afterWord? "const" cs).bind afterName?).bind (fun r => (afterMark? '=' r).bind (afterMark? '(')) =
      some rest ↔ ∃ r s, Named "const" cs r ∧ Marked '=' r s ∧ Marked '(' s rest := by
    simp only [Option.bind_eq_some_iff, ← named_eq_some, ← afterMark?_eq_some (show isBlank '=' = false by decide),
      ← afterMark?_eq_some (show isBlank '(' = false by decide)]
    constructor
    · rintro ⟨r, hr, s, hs, ht⟩
      exact ⟨r, s, hr, hs, ht⟩
    · rintro ⟨r, s, hr, hs, ht⟩
      exact ⟨r, hr, s, hs, ht⟩
  rw [afterComponent?, IsDeclaration, ← named_eq_some]
  rcases hfunction : (afterWord? "function" cs).bind afterName? with _ | r
  · simp only [hconst, reduceCtorEq, false_or]
  · simp only [Option.some.injEq]
    refine ⟨Or.inl, fun h => h.resolve_right ?_⟩
    rintro ⟨r', s, hr', -⟩
    have hf := (named_eq_some.mp hfunction).head?_eq (c := 'f') rfl
    rw [hr'.head?_eq (c := 'c') rfl] at hf
    cases hf

end Forms

/-! ### The characters of a declaration -/

section Runs

variable {cs rest : List Char} {word : String} {mark : Char}

/-- The characters that a declaration is made of. -/
def IsInner (c : Char) : Prop := isBlank c = true ∨ isWordChar c = true ∨ c = '=' ∨ c = '('

theorem Named.exists_run (hword : ∀ c ∈ word.toList, isWordChar c = true) (h : Named word cs rest) :
    ∃ run, run ≠ [] ∧ (∀ c ∈ run, IsInner c) ∧ cs = run ++ rest := by
  obtain ⟨bs, name, -, hbs, hempty, hname, rfl, -⟩ := h
  refine ⟨word.toList ++ (bs ++ name), by simp [hempty], fun c hc => ?_, by simp⟩
  rcases List.mem_append.mp hc with hc | hc
  · exact Or.inr (Or.inl (hword c hc))
  · exact (List.mem_append.mp hc).imp (hbs c) fun hc => Or.inl (hname c hc)

theorem Marked.exists_run (hmark : IsInner mark) (h : Marked mark cs rest) :
    ∃ run, (∀ c ∈ run, IsInner c) ∧ cs = run ++ rest := by
  obtain ⟨bs, hbs, rfl⟩ := h
  refine ⟨bs ++ [mark], fun c hc => ?_, by simp⟩
  rcases List.mem_append.mp hc with hc | hc
  · exact Or.inl (hbs c hc)
  · obtain rfl := List.mem_singleton.mp hc
    exact hmark

/-- A declaration is some text, made of blanks, words and the two marks. -/
theorem IsDeclaration.exists_run (h : IsDeclaration cs rest) :
    ∃ run, run ≠ [] ∧ (∀ c ∈ run, IsInner c) ∧ cs = run ++ rest := by
  rcases h with h | ⟨r, s, hr, hs, ht⟩
  · exact h.exists_run (by simp [isWordChar])
  · obtain ⟨a, hne, ha, rfl⟩ := hr.exists_run (by simp [isWordChar])
    obtain ⟨b, hb, rfl⟩ := hs.exists_run (Or.inr (Or.inr (Or.inl rfl)))
    obtain ⟨d, hd, rfl⟩ := ht.exists_run (Or.inr (Or.inr (Or.inr rfl)))
    refine ⟨a ++ (b ++ d), by simp [hne], fun c hc => ?_, by simp⟩
    rcases List.mem_append.mp hc with hc | hc
    · exact ha c hc
    · exact (List.mem_append.mp hc).elim (hb c) (hd c)

theorem IsDeclaration.length_lt (h : IsDeclaration cs rest) : rest.length < cs.length := by
  obtain ⟨run, hne, -, rfl⟩ := h.exists_run
  rw [List.length_append]
  have := List.length_pos_of_ne_nil hne
  omega

end Runs

/-! ### A text that goes on -/

section Further

variable {cs rest more : List Char} {word : String} {mark : Char}

/-- No name runs over a line feed. -/
theorem stops_newline (more : List Char) : Stops isWordChar ('\n' :: more) := by
  intro c hc
  obtain rfl : '\n' = c := by simpa using hc
  decide

theorem Named.append (h : Named word cs rest) (hmore : Stops isWordChar more) : Named word (cs ++ more) (rest ++ more) := by
  obtain ⟨bs, name, hnil, hbs, hempty, hname, rfl, hrest⟩ := h
  exact ⟨bs, name, hnil, hbs, hempty, hname, by simp, hrest.append hmore⟩

theorem Marked.append (h : Marked mark cs rest) (more : List Char) : Marked mark (cs ++ more) (rest ++ more) := by
  obtain ⟨bs, hbs, rfl⟩ := h
  exact ⟨bs, hbs, by simp⟩

/-- What was found is found in a text that goes on, and ends where it did. -/
theorem IsDeclaration.append (h : IsDeclaration cs rest) (hmore : Stops isWordChar more) :
    IsDeclaration (cs ++ more) (rest ++ more) := by
  rcases h with h | ⟨r, s, hr, hs, ht⟩
  · exact Or.inl (h.append hmore)
  · exact Or.inr ⟨_, _, hr.append hmore, hs.append _, ht.append _⟩

/-- What a text that goes on begins with lies in the old text, or runs over its end. -/
theorem append_cons_cases {w : Char} {run tail : List Char} (h : cs ++ w :: more = run ++ tail) :
    (∃ ys, cs = run ++ ys ∧ tail = ys ++ w :: more) ∨ ∃ as, run = cs ++ w :: as := by
  rcases List.append_eq_append_iff.mp h with ⟨as, hrun, has⟩ | ⟨ys, hcs, htail⟩
  · rcases as with _ | ⟨a, as⟩
    · exact Or.inl ⟨[], by simpa using hrun.symm, by simpa using has.symm⟩
    · obtain ⟨rfl, -⟩ := List.cons.inj has
      exact Or.inr ⟨as, hrun⟩
  · exact Or.inl ⟨ys, hcs, htail⟩

/-- A name found in a text that goes on was there before, or the old text ends with the word and blanks. -/
theorem Named.of_append (hword : '\n' ∉ word.toList) (h : Named word (cs ++ '\n' :: more) rest) :
    (∃ r, Named word cs r ∧ rest = r ++ '\n' :: more) ∨ ∃ bs, (∀ b ∈ bs, isBlank b = true) ∧ cs = word.toList ++ bs := by
  obtain ⟨bs, name, hnil, hbs, hempty, hname, heq, hrest⟩ := h
  rcases append_cons_cases heq with ⟨ys, rfl, hys⟩ | ⟨as, has⟩
  · rcases append_cons_cases hys.symm with ⟨zs, rfl, hzs⟩ | ⟨as, rfl⟩
    · rcases append_cons_cases hzs.symm with ⟨r, rfl, hr⟩ | ⟨as, rfl⟩
      · refine Or.inl ⟨r, ⟨bs, name, hnil, hbs, hempty, hname, rfl, fun c hc => hrest c ?_⟩, hr⟩
        rw [hr, List.head?_append, Option.mem_def.mp hc]
        rfl
      · have := hname '\n' (by simp)
        exact absurd this (by decide)
    · exact Or.inr ⟨ys, fun b hb => hbs b (by simp [hb]), rfl⟩
  · exact absurd (by simp [has]) hword

/-- A mark found in a text that goes on was there before, or the old text has blanks only. -/
theorem Marked.of_append (hmark : mark ≠ '\n') (h : Marked mark (cs ++ '\n' :: more) rest) :
    (∃ r, Marked mark cs r ∧ rest = r ++ '\n' :: more) ∨ ∀ b ∈ cs, isBlank b = true := by
  obtain ⟨bs, hbs, heq⟩ := h
  rcases append_cons_cases heq with ⟨ys, rfl, hys⟩ | ⟨as, rfl⟩
  · rcases ys with _ | ⟨c, ys⟩
    · exact absurd (List.cons.inj hys).1 hmark
    · obtain ⟨rfl, hrest⟩ := List.cons.inj hys
      exact Or.inl ⟨ys, ⟨bs, hbs, rfl⟩, hrest⟩
  · exact Or.inr fun b hb => hbs b (by simp [hb])

end Further

/-! ### The number of declarations -/

/-- No word comes after a blank. -/
def Quiet (cs : List Char) : Prop := cs.Pairwise fun b c => isBlank b = true → isWordChar c = false

section Counting

variable {cs rest more pre ys : List Char} {word : String}

theorem quiet_append (hpre : ∀ c ∈ pre, isBlank c = false) (hys : ∀ c ∈ ys, isWordChar c = false) : Quiet (pre ++ ys) := by
  rw [Quiet, List.pairwise_append]
  refine ⟨List.pairwise_of_forall_mem_list fun b hb c _ hblank => ?_,
    List.pairwise_of_forall_mem_list fun b _ c hc _ => hys c hc, fun b _ c hc _ => hys c hc⟩
  rw [hpre b hb] at hblank
  cases hblank

theorem Named.not_quiet (h : Named word cs rest) : ¬Quiet cs := by
  obtain ⟨bs, name, hnil, hbs, hempty, hname, rfl, -⟩ := h
  obtain ⟨b, hb⟩ := List.exists_mem_of_ne_nil bs hnil
  obtain ⟨c, hc⟩ := List.exists_mem_of_ne_nil name hempty
  intro hquiet
  have hrest := (List.pairwise_append.mp hquiet).2.1
  have hafter := (List.pairwise_append.mp hrest).2.2 b hb c (by simp [hc]) (hbs b hb)
  rw [hname c hc] at hafter
  cases hafter

theorem IsDeclaration.not_quiet (h : IsDeclaration cs rest) : ¬Quiet cs := by
  rcases h with h | ⟨r, s, hr, -, -⟩
  · exact h.not_quiet
  · exact hr.not_quiet

theorem IsDeclaration.head?_eq (h : IsDeclaration cs rest) : cs.head? = some 'f' ∨ cs.head? = some 'c' := by
  rcases h with h | ⟨r, s, hr, -, -⟩
  · exact Or.inl (h.head?_eq rfl)
  · exact Or.inr (hr.head?_eq rfl)

/-- After the first character there is nothing left to be found: up to characters that begin no declaration, no word comes
after a blank. -/
def Spent (cs : List Char) : Prop :=
  ∃ c pre ys, cs = c :: (pre ++ ys) ∧ (∀ d ∈ pre, d ≠ 'f' ∧ d ≠ 'c') ∧ Quiet ys

/-- A first word with blanks after it is spent. -/
theorem spent_blanks (c : Char) (pre : List Char) {bs : List Char} (hpre : ∀ d ∈ pre, isBlank d = false)
    (hbs : ∀ b ∈ bs, isBlank b = true) : Spent (c :: (pre ++ bs)) :=
  ⟨c, [], pre ++ bs, rfl, by simp, quiet_append hpre fun d hd => isWordChar_of_isBlank (hbs d hd)⟩

theorem Named.spent (h : Named "const" cs rest) (hrest : ∀ c ∈ rest, isWordChar c = false) : Spent cs := by
  obtain ⟨bs, name, -, hbs, -, hname, rfl, -⟩ := h
  have honst : ∀ d ∈ "onst".toList, d ≠ 'f' ∧ d ≠ 'c' := by simp
  have hneither : ∀ d, isBlank d = true → d ≠ 'f' ∧ d ≠ 'c' := by
    intro d hd
    constructor <;> rintro rfl <;> exact absurd hd (by decide)
  refine ⟨'c', "onst".toList ++ bs, name ++ rest, by simp, fun d hd => ?_,
    quiet_append (fun d hd => isBlank_of_isWordChar (hname d hd)) hrest⟩
  exact (List.mem_append.mp hd).elim (honst d) fun hb => hneither d (hbs d hb)

/-- A declaration found in a text that goes on was there before, or the old text is spent. -/
theorem IsDeclaration.of_append (h : IsDeclaration (cs ++ '\n' :: more) rest) : (∃ r, IsDeclaration cs r) ∨ Spent cs := by
  rcases h with h | ⟨r', s', hr', hs', ht'⟩
  · obtain ⟨r, hr, -⟩ | ⟨bs, hbs, rfl⟩ := h.of_append (by decide)
    · exact Or.inl ⟨r, Or.inl hr⟩
    · exact Or.inr (spent_blanks 'f' "unction".toList (by simp [isBlank, isWideBlank]) hbs)
  · obtain ⟨r, hr, rfl⟩ | ⟨bs, hbs, rfl⟩ := hr'.of_append (by decide)
    · -- the name was there, so the old text ends before one of the marks
      obtain ⟨s, hs, rfl⟩ | hblank := hs'.of_append (by decide)
      · obtain ⟨t, ht, rfl⟩ | hblank := ht'.of_append (by decide)
        · exact Or.inl ⟨t, Or.inr ⟨r, s, hr, hs, ht⟩⟩
        · obtain ⟨bs, hbs, rfl⟩ := hs
          refine Or.inr (hr.spent fun c hc => ?_)
          rcases List.mem_append.mp hc with hc | hc
          · exact isWordChar_of_isBlank (hbs c hc)
          · rcases List.mem_cons.mp hc with rfl | hc
            · decide
            · exact isWordChar_of_isBlank (hblank c hc)
      · exact Or.inr (hr.spent fun c hc => isWordChar_of_isBlank (hblank c hc))
    · exact Or.inr (spent_blanks 'c' "onst".toList (by simp [isBlank, isWideBlank]) hbs)

theorem countComponentsFrom_of_quiet (h : Quiet cs) : countComponentsFrom 0 cs = 0 := by
  induction cs with
  | nil => rfl
  | cons c cs ih =>
    rw [countComponentsFrom]
    rcases hfound : afterComponent? (c :: cs) with _ | rest
    · exact ih (List.Pairwise.of_cons h)
    · exact absurd h (afterComponent?_eq_some.mp hfound).not_quiet

/-- Characters that begin no declaration do not count. -/
theorem countComponentsFrom_append_left (hpre : ∀ c ∈ pre, c ≠ 'f' ∧ c ≠ 'c') :
    countComponentsFrom 0 (pre ++ ys) = countComponentsFrom 0 ys := by
  induction pre with
  | nil => rfl
  | cons c pre ih =>
    rw [List.cons_append, countComponentsFrom]
    rcases hfound : afterComponent? (c :: (pre ++ ys)) with _ | rest
    · exact ih fun d hd => hpre d (by simp [hd])
    · have hhead := (afterComponent?_eq_some.mp hfound).head?_eq
      simp [hpre c (by simp)] at hhead

/-- Where the old text is spent and nothing is found at its start, nothing is found in it. -/
theorem Spent.countComponentsFrom_eq_zero (h : Spent cs) (hnone : afterComponent? cs = none) :
    countComponentsFrom 0 cs = 0 := by
  obtain ⟨c, pre, ys, rfl, hpre, hys⟩ := h
  rw [countComponentsFrom, hnone]
  simp only [countComponentsFrom_append_left hpre, countComponentsFrom_of_quiet hys]

/-- Characters that belong to an earlier declaration are passed over. -/
theorem countComponentsFrom_eq_drop (skip : ℕ) (cs : List Char) :
    countComponentsFrom skip cs = countComponents (cs.drop skip) := by
  induction cs generalizing skip with
  | nil => rw [List.drop_nil]; rfl
  | cons c cs ih =>
    rcases skip with _ | skip
    · rfl
    · exact ih skip

/-- A declaration counts, and the count goes on where it ends. -/
theorem countComponents_of_declaration (h : IsDeclaration cs rest) : countComponents cs = countComponents rest + 1 := by
  obtain ⟨run, hne, -, rfl⟩ := h.exists_run
  obtain ⟨c, run, rfl⟩ := List.exists_cons_of_ne_nil hne
  have hfound : afterComponent? (c :: (run ++ rest)) = some rest := afterComponent?_eq_some.mpr h
  rw [countComponents, List.cons_append, countComponentsFrom, hfound]
  simp only [countComponentsFrom_eq_drop, List.length_append, Nat.add_sub_cancel, List.drop_left]

/-- Where no declaration begins, the count goes on with the next character. -/
theorem countComponents_cons {c : Char} (h : ∀ rest, ¬IsDeclaration (c :: cs) rest) :
    countComponents (c :: cs) = countComponents cs := by
  have hnone : afterComponent? (c :: cs) = none := by
    rcases hfound : afterComponent? (c :: cs) with _ | rest
    · rfl
    · exact absurd (afterComponent?_eq_some.mp hfound) (h rest)
  rw [countComponents, countComponentsFrom, hnone]
  rfl

/-- Where a text goes on, no declaration gets lost. -/
theorem countComponentsFrom_append (skip : ℕ) (cs more : List Char) :
    countComponentsFrom skip cs ≤ countComponentsFrom skip (cs ++ '\n' :: more) := by
  induction cs generalizing skip with
  | nil => exact Nat.zero_le _
  | cons c cs ih =>
    rcases skip with _ | skip
    · rcases hold : afterComponent? (c :: cs) with _ | rest
      · rcases hnew : afterComponent? (c :: (cs ++ '\n' :: more)) with _ | rest
        · rw [List.cons_append, countComponentsFrom, countComponentsFrom, hold, hnew]
          exact ih 0
        · -- what is found now takes the rest of the old text, in which nothing was found
          have hfound : IsDeclaration (c :: cs ++ '\n' :: more) rest := afterComponent?_eq_some.mp hnew
          obtain ⟨r, hr⟩ | hspent := hfound.of_append
          · rw [afterComponent?_eq_some.mpr hr] at hold
            cases hold
          · rw [hspent.countComponentsFrom_eq_zero hold]
            exact Nat.zero_le _
      · have hnew : afterComponent? (c :: (cs ++ '\n' :: more)) = some (rest ++ '\n' :: more) :=
          afterComponent?_eq_some.mpr ((afterComponent?_eq_some.mp hold).append (stops_newline more))
        rw [List.cons_append, countComponentsFrom, countComponentsFrom, hold, hnew]
        simp only [List.length_append, Nat.add_sub_add_right]
        exact Nat.succ_le_succ (ih _)
    · exact ih skip

theorem countComponents_append (cs more : List Char) : countComponents cs ≤ countComponents (cs ++ '\n' :: more) :=
  countComponentsFrom_append 0 cs more

-- the declaration that ends in the new line takes the end of the old one, in which nothing was found
example : countComponents "const f = ".toList = 0 ∧ countComponents "const f = \n(x) => x".toList = 1 := by decide +kernel

end Counting

/-! ### Calls -/

/-- The form of a call: the name of a hook, blanks, and a parenthesis. -/
def IsCall (run : List Char) : Prop :=
  ∃ hook ∈ mainHooks, ∃ bs, (∀ b ∈ bs, isBlank b = true) ∧ run = hook.toList ++ (bs ++ ['('])

/-- What is found at the start of a text is a call, and every one is found. -/
theorem startsWithHookCall_iff {cs : List Char} : startsWithHookCall cs = true ↔ ∃ run, IsCall run ∧ run <+: cs := by
  rw [startsWithHookCall, List.any_eq_true]
  constructor
  · rintro ⟨hook, hhook, hcall⟩
    rw [Bool.and_eq_true, List.isPrefixOf_iff_prefix, Option.isSome_iff_exists] at hcall
    obtain ⟨⟨ys, rfl⟩, rest, hrest⟩ := hcall
    rw [← String.length_toList, List.drop_left, afterMark?_eq_some (by decide)] at hrest
    obtain ⟨bs, hbs, rfl⟩ := hrest
    exact ⟨_, ⟨hook, hhook, bs, hbs, rfl⟩, rest, by simp⟩
  · rintro ⟨_, ⟨hook, hhook, bs, hbs, rfl⟩, rest, rfl⟩
    refine ⟨hook, hhook, ?_⟩
    rw [Bool.and_eq_true, List.isPrefixOf_iff_prefix, Option.isSome_iff_exists, List.append_assoc]
    refine ⟨List.prefix_append _ _, rest, ?_⟩
    rw [← String.length_toList, List.drop_left, afterMark?_eq_some (by decide)]
    exact ⟨bs, hbs, by simp⟩

theorem startsWithHookCall_append {cs : List Char} (h : startsWithHookCall cs = true) (more : List Char) :
    startsWithHookCall (cs ++ more) = true := by
  obtain ⟨run, hrun, hprefix⟩ := startsWithHookCall_iff.mp h
  exact startsWithHookCall_iff.mpr ⟨run, hrun, hprefix.trans (List.prefix_append _ _)⟩

/-- Where a text goes on, no call gets lost. -/
theorem callsHookFrom_append (afterWordChar : Bool) {cs : List Char} (h : callsHookFrom afterWordChar cs = true)
    (more : List Char) : callsHookFrom afterWordChar (cs ++ more) = true := by
  induction cs generalizing afterWordChar with
  | nil => cases h
  | cons c cs ih =>
    rw [List.cons_append, callsHookFrom, Bool.or_eq_true, Bool.and_eq_true]
    rw [callsHookFrom, Bool.or_eq_true, Bool.and_eq_true] at h
    exact h.imp (fun h => ⟨h.1, startsWithHookCall_append h.2 more⟩) (ih _)

end ScoreGate
