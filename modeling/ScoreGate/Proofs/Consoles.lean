import ScoreGate.Console
import ScoreGate.Proofs.Printing
import ScoreGate.Proofs.Running

/-!
# What a console is trusted with

Nothing is known of a console but what it is made for: markup that is put together from plain texts, escaped texts and styles
is read as the text that it spells, and texts of printable characters can be printed.

* `Console.Spells`: the text that markup spells.
* `Console.Faithful`: what is assumed of a console where its answers matter.
* `Console.Proper`: markup that spells a text, with rules for the forms that lines have.
-/

namespace ScoreGate

def Output.texts : Output String → List String
  | .line text => [text]
  | .rule title => [title]
  | .table columns rows => columns.map Column.heading ++ rows.flatten
  | .document text => [text]

namespace Console

/-! ### Markup -/

/-- A character that has no meaning in markup. -/
def isPlain (c : Char) : Bool := c ≠ '[' && c ≠ ']' && c ≠ '\\'

/-- A text that stands for itself. -/
def Plain (s : String) : Prop := s.toList.all isPlain = true

instance : DecidablePred Plain := fun _ => inferInstanceAs (Decidable (_ = true))

def styles : List String := [
  "bold", "dim", "red", "yellow", "green", "blue", "bold cyan", "bold blue", "bold green", "bold red", "bold yellow"]

section Spelling

variable [Console] {m n s t : String}

/-- Markup spells a text: plain texts and escaped ones one after the other, with styles around some of them. -/
inductive Spells : String → String → Prop
  | plain {s : String} (h : Plain s) : Spells s s
  | escaped (s : String) : Spells (escape s) s
  | styled {style m s : String} (hstyle : style ∈ styles) (h : Spells m s) : Spells (styled style m) s
  | append {m n s t : String} (hm : Spells m s) (hn : Spells n t) : Spells (m ++ n) (s ++ t)

/-- Markup that spells some text. -/
def Proper (m : String) : Prop := ∃ s, Spells m s

theorem Plain.proper (h : Plain s) : Proper s := ⟨s, .plain h⟩

theorem proper_escape (s : String) : Proper (escape s) := ⟨s, .escaped s⟩

theorem Proper.append (hm : Proper m) (hn : Proper n) : Proper (m ++ n) := by
  obtain ⟨s, hs⟩ := hm
  obtain ⟨t, ht⟩ := hn
  exact ⟨s ++ t, hs.append ht⟩

theorem Proper.styled {style : String} (h : Proper m) (hstyle : style ∈ styles) : Proper (styled style m) := by
  obtain ⟨s, hs⟩ := h
  exact ⟨s, hs.styled hstyle⟩

end Spelling

@[simp] theorem plain_append {s t : String} : Plain (s ++ t) ↔ Plain s ∧ Plain t := by
  simp [Plain]

/-- A text of figures stands for itself. -/
theorem plain_of_figures {s : String} (h : ∀ c ∈ s.toList, isFigure c = true) : Plain s := by
  refine List.all_eq_true.mpr fun c hc => ?_
  have hfigure := h c hc
  have hnot : ∀ d : Char, isFigure d = false → c ≠ d := by
    rintro d hd rfl
    exact absurd hfigure (by simp [hd])
  simp [isPlain, hnot '[' (by decide), hnot ']' (by decide), hnot '\\' (by decide)]

/-! ### What consoles are trusted with -/

/-- A character that every console can print. -/
def isPrintable (c : Char) : Bool := 0x20 ≤ c.toNat && c.toNat < 0x7f

/-- No code of an emoji begins at a colon before this: a blank or nothing follows, or two digits with a colon behind them,
or no colon at all. -/
def EndsCode (cs : List Char) : Prop :=
  (∀ c, cs.head? = some c → isBlank c = true) ∨
    (∃ a b rest, a.isDigit = true ∧ b.isDigit = true ∧ cs = a :: b :: ':' :: rest) ∨ ':' ∉ cs

/-- A text without codes of emojis, which stand between colons. -/
def Codeless : List Char → Prop
  | [] => True
  | c :: cs => (c = ':' → EndsCode cs) ∧ Codeless cs

theorem codeless_append {p : List Char} (hp : ':' ∉ p) (cs : List Char) : Codeless (p ++ cs) ↔ Codeless cs := by
  induction p with
  | nil => rfl
  | cons c p ih =>
    obtain ⟨hc, hp⟩ := not_or.mp (List.mem_cons.not.mp hp)
    rw [List.cons_append, Codeless, ih hp]
    exact and_iff_right fun h => absurd h.symm hc

theorem codeless_of_not_mem {cs : List Char} (h : ':' ∉ cs) : Codeless cs := by
  rw [← List.append_nil cs, codeless_append h]
  trivial

theorem codeless_colon_blank {c : Char} (hc : isBlank c = true) (cs : List Char) :
    Codeless (':' :: c :: cs) ↔ Codeless (c :: cs) := by
  rw [Codeless]
  refine and_iff_right fun _ => Or.inl fun d hd => ?_
  cases hd
  exact hc

/-- What markup shows without its tags, read from within a tag or from outside of one; a backslash takes the meaning of the
next character away. -/
def untag : Bool → List Char → List Char
  | _, [] => []
  | false, '\\' :: c :: cs => c :: untag false cs
  | false, '[' :: cs => untag true cs
  | true, ']' :: cs => untag false cs
  | true, _ :: cs => untag true cs
  | false, c :: cs => c :: untag false cs

/-- A text with a backslash before each opening bracket and each backslash. -/
def guarded (cs : List Char) : List Char := cs.flatMap fun c => if c = '[' || c = '\\' then ['\\', c] else [c]

/-- A console that leaves all styles out. -/
abbrev simple : Console where
  Text := String
  plain := id
  escape s := String.ofList (guarded s.toList)
  read m := .ok (String.ofList (untag false m.toList))
  print _ := .ok ()

end Console

end ScoreGate
