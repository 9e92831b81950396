import ScoreGate.Text.Character

/-!
# Pieces of text

Splitting, trimming and searching on lists of characters, and the two readings of line ends: a line feed ends a line
of analysed text, while stored text may end its lines in a carriage return, a line feed, or both.
-/

namespace ScoreGate

/-- The pieces between the separators: always one more piece than separators. -/
def splitOn (sep : Char) : List Char → List (List Char)
  | [] => [[]]
  | c :: cs =>
      if c = sep then [] :: splitOn sep cs
      else
        match splitOn sep cs with
        | [] => [[c]]
        | l :: ls => (c :: l) :: ls

theorem splitOn_ne_nil (sep : Char) (cs : List Char) : splitOn sep cs ≠ [] := by
  induction cs with
  | nil => simp [splitOn]
  | cons c cs ih =>
      simp only [splitOn]
      split
      · simp
      · split <;> simp

/-- There is one more piece than separators. -/
theorem length_splitOn (sep : Char) (cs : List Char) : (splitOn sep cs).length = cs.count sep + 1 := by
  induction cs with
  | nil => simp [splitOn]
  | cons c cs ih =>
      by_cases h : c = sep
      · simp [splitOn, h, ih]
      · simp only [splitOn, if_neg h, List.count_cons_of_ne h, ← ih]
        split
        · next hs => exact absurd hs (splitOn_ne_nil sep cs)
        · next hs => rw [hs, List.length_cons, List.length_cons]

/-- The pieces of a text that continues after a separator are those of its two parts. -/
theorem splitOn_append (sep : Char) (as bs : List Char) :
    splitOn sep (as ++ sep :: bs) = splitOn sep as ++ splitOn sep bs := by
  induction as with
  | nil => simp [splitOn]
  | cons a as ih =>
      by_cases h : a = sep
      · simp [splitOn, h, ih]
      · simp only [List.cons_append, splitOn, if_neg h, ih]
        split
        · next hs => exact absurd (List.append_eq_nil_iff.1 hs).1 (splitOn_ne_nil sep as)
        · next l ls hs =>
          split
          · next ha => exact absurd ha (splitOn_ne_nil sep as)
          · next m ms ha =>
            rw [ha, List.cons_append] at hs
            obtain ⟨rfl, rfl⟩ := List.cons.inj hs
            rfl

/-- The lines of a text, without their line feeds. -/
def lines (cs : List Char) : List (List Char) := splitOn '\n' cs

/-- The pieces with a separator between each two. -/
def joinWith (sep : List Char) : List (List Char) → List Char
  | [] => []
  | [l] => l
  | l :: ls => l ++ sep ++ joinWith sep ls

theorem joinWith_cons {sep : List Char} (l : List Char) {ls : List (List Char)} (h : ls ≠ []) :
    joinWith sep (l :: ls) = l ++ sep ++ joinWith sep ls := by
  cases ls with
  | nil => exact absurd rfl h
  | cons m ms => rfl

/-- Joining the pieces gives the text back. -/
theorem joinWith_splitOn (sep : Char) (cs : List Char) : joinWith [sep] (splitOn sep cs) = cs := by
  induction cs with
  | nil => rfl
  | cons c cs ih =>
      by_cases h : c = sep
      · rw [splitOn, if_pos h, joinWith_cons _ (splitOn_ne_nil sep cs), ih, h]
        rfl
      · rw [splitOn, if_neg h]
        split
        · next hs => exact absurd hs (splitOn_ne_nil sep cs)
        · next l ls hs =>
          rw [hs] at ih
          cases ls with
          | nil => simpa [joinWith] using ih
          | cons m ms => simpa [joinWith] using ih

/-- The text without the characters of a class at its end. -/
def dropEndWhile (p : Char → Bool) (cs : List Char) : List Char :=
  (cs.reverse.dropWhile p).reverse

/-- The text without the characters of a class at either end. -/
def trimWhile (p : Char → Bool) (cs : List Char) : List Char :=
  dropEndWhile p (cs.dropWhile p)

/-- The text without white space at either end. -/
def strip (cs : List Char) : List Char := trimWhile isBlank cs

/-- Whether one text stands somewhere in another. -/
def occursIn (needle : List Char) : List Char → Bool
  | [] => needle.isEmpty
  | c :: cs => needle.isPrefixOf (c :: cs) || occursIn needle cs

/-- Every carriage return, with the line feed after it if there is one, read as one line feed. -/
def unifyLineEnds : List Char → List Char
  | [] => []
  | '\r' :: '\n' :: cs => '\n' :: unifyLineEnds cs
  | '\r' :: cs => '\n' :: unifyLineEnds cs
  | c :: cs => c :: unifyLineEnds cs

/-- The items between commas, trimmed, the blank ones left out. -/
def commaItems (s : String) : List String :=
  ((splitOn ',' s.toList).map strip).filterMap fun item =>
    if item.isEmpty then none else some (String.ofList item)

/-- The items with a separator between each two. -/
def joinText (sep : String) (items : List String) : String :=
  String.ofList (joinWith sep.toList (items.map String.toList))

/-- A number's digits with zeros before them up to a width. -/
def padZeros (width : Nat) (ds : List Char) : List Char :=
  List.replicate (width - ds.length) '0' ++ ds

end ScoreGate
