import ScoreGate.Value

/-!
# Tokens of documents

A document is read in two steps.  This is the first: brackets, colons, commas, and the values that are no list and no
table.  A text stands between double quotes with backslash escapes; a pair of escapes for surrogate halves is one
character.  Texts are lists of Unicode scalar values: an escape for half of a pair without its partner, which is none,
becomes the replacement character.  Beside the usual numbers there are three words for the infinities and for no number.
A text that begins no token becomes one bad token, and nothing after it is looked at.
-/

namespace ScoreGate

inductive Token where
  | openList
  | closeList
  | openTable
  | closeTable
  | colon
  | comma
  | atom (v : Value)
  | bad (fault : Fault)
  deriving Repr

namespace Token

/-- The token for a text that begins none. -/
def malformed : Token := .bad (.badValue .documentSyntax)

/-! ### Texts -/

def hexValue? (c : Char) : Option Nat :=
  if c.isDigit then some (c.toNat - 0x30)
  else if 'a' ≤ c ∧ c ≤ 'f' then some (c.toNat - 0x57)
  else if 'A' ≤ c ∧ c ≤ 'F' then some (c.toNat - 0x37)
  else none

/-- The number written by four hexadecimal digits. -/
def hexFour? (a b c d : Char) : Option Nat := do
  return (((← hexValue? a) * 16 + (← hexValue? b)) * 16 + (← hexValue? c)) * 16 + (← hexValue? d)

/-- The character that a backslash and this letter stand for. -/
def escapeValue? (c : Char) : Option Nat :=
  match c with
  | '"' => some 0x22
  | '\\' => some 0x5c
  | '/' => some 0x2f
  | 'b' => some 0x08
  | 'f' => some 0x0c
  | 'n' => some 0x0a
  | 'r' => some 0x0d
  | 't' => some 0x09
  | _ => none

/-- The code units up to the closing quote, and what follows it. -/
def takeUnits : List Char → Option (List Nat × List Char)
  | [] => none
  | '"' :: cs => some ([], cs)
  | '\\' :: 'u' :: a :: b :: c :: d :: cs => do
      let n ← hexFour? a b c d
      let (ns, rest) ← takeUnits cs
      return (n :: ns, rest)
  | '\\' :: c :: cs => do
      let n ← escapeValue? c
      let (ns, rest) ← takeUnits cs
      return (n :: ns, rest)
  | c :: cs =>
      if c.toNat < 0x20 || c = '\\' then none
      else do
        let (ns, rest) ← takeUnits cs
        return (c.toNat :: ns, rest)

def isHighHalf (n : Nat) : Bool := 0xd800 ≤ n && n < 0xdc00

def isLowHalf (n : Nat) : Bool := 0xdc00 ≤ n && n < 0xe000

/-- The characters of a list of code units; a surrogate half without its partner becomes the replacement character. -/
def ofUnits : List Nat → List Char
  | [] => []
  | [n] => [if isHighHalf n || isLowHalf n then '\ufffd' else Char.ofNat n]
  | n :: m :: ns =>
      if isHighHalf n && isLowHalf m then
        Char.ofNat (0x10000 + (n - 0xd800) * 0x400 + (m - 0xdc00)) :: ofUnits ns
      else if isHighHalf n || isLowHalf n then '\ufffd' :: ofUnits (m :: ns)
      else Char.ofNat n :: ofUnits (m :: ns)

/-! ### Numbers -/

/-- The digits of an integer without needless zeros, and what follows. -/
def takeWhole : List Char → Option (List Char × List Char)
  | '0' :: cs => some (['0'], cs)
  | cs =>
      if (cs.takeWhile Char.isDigit).isEmpty then none
      else some (cs.takeWhile Char.isDigit, cs.dropWhile Char.isDigit)

/-- The digits after a point, if there are any; otherwise the point is not part of the number. -/
def takeFraction : List Char → List Char × List Char
  | '.' :: cs =>
      if (cs.takeWhile Char.isDigit).isEmpty then ([], '.' :: cs)
      else (cs.takeWhile Char.isDigit, cs.dropWhile Char.isDigit)
  | cs => ([], cs)

/-- The value of an exponent, if there is one; otherwise the mark is not part of the number. -/
def takeExponent : List Char → Option Int × List Char
  | [] => (none, [])
  | mark :: cs =>
      let (negative, body) := takeSign cs
      let ds := body.takeWhile Char.isDigit
      if (mark = 'e' ∨ mark = 'E') ∧ ¬ ds.isEmpty then
        (some (if negative then -(digitsValue ds : Int) else digitsValue ds), body.dropWhile Char.isDigit)
      else (none, mark :: cs)

/-- A number without its sign: an integer unless it has a fraction or an exponent. -/
def takeNumber (negative : Bool) (cs : List Char) : Option (Token × List Char) :=
  match takeWhole cs with
  | none => none
  | some (whole, rest) =>
      let (fraction, rest) := takeFraction rest
      let (exponent, rest) := takeExponent rest
      if fraction.isEmpty && exponent.isNone then
        if maxIntegerDigits < whole.length then some (.bad (.badValue (.tooManyDigits whole.length)), rest)
        else some (.atom (.int (if negative then -(digitsValue whole : Int) else digitsValue whole)), rest)
      else
        some (.atom (.real (Binary64.ofDecimal negative (digitsValue (whole ++ fraction))
          (exponent.getD 0 - fraction.length))), rest)

/-! ### The next token -/

def words : List (String × Value) := [
  ("null", .null), ("true", .flag true), ("false", .flag false),
  ("NaN", .real .nan), ("Infinity", .real (.infinity false)), ("-Infinity", .real (.infinity true))]

def takeWord (cs : List Char) : Option (Token × List Char) :=
  (words.find? fun w => w.1.toList.isPrefixOf cs).map fun w => (.atom w.2, cs.drop w.1.length)

/-- The token at the start of a text that does not begin with a space. -/
def take (c : Char) (cs : List Char) : Token × List Char :=
  match c with
  | '[' => (.openList, cs)
  | ']' => (.closeList, cs)
  | '\x7b' => (.openTable, cs)
  | '\x7d' => (.closeTable, cs)
  | ':' => (.colon, cs)
  | ',' => (.comma, cs)
  | '"' =>
      match takeUnits cs with
      | some (ns, rest) => (.atom (.text (String.ofList (ofUnits ns))), rest)
      | none => (malformed, [])
  | _ =>
      let number := if c = '-' then takeNumber true cs else takeNumber false (c :: cs)
      match number <|> takeWord (c :: cs) with
      | some t => t
      | none => (malformed, [])

/-- The four characters that may stand between tokens. -/
def isSpace (c : Char) : Bool := c = ' ' || c = '\t' || c = '\n' || c = '\r'

/-! ### All tokens -/

theorem length_takeUnits {cs rest : List Char} {ns : List Nat} (h : takeUnits cs = some (ns, rest)) :
    rest.length < cs.length := by
  fun_induction takeUnits cs generalizing ns rest <;> simp_all [Option.bind_eq_some_iff] <;> grind

theorem length_dropWhile_le (p : Char → Bool) (cs : List Char) : (cs.dropWhile p).length ≤ cs.length :=
  (List.dropWhile_sublist p).length_le

theorem length_takeSign_le (cs : List Char) : (takeSign cs).2.length ≤ cs.length := by
  unfold takeSign
  split <;> simp

theorem length_takeWhole {cs whole rest : List Char} (h : takeWhole cs = some (whole, rest)) :
    rest.length < cs.length := by
  unfold takeWhole at h
  split at h
  · simp_all
  · split at h
    · simp at h
    · next hne =>
      obtain ⟨rfl, rfl⟩ := Prod.mk.inj (Option.some.inj h)
      have key := congrArg List.length (List.takeWhile_append_dropWhile (p := Char.isDigit) (l := cs))
      rw [List.length_append] at key
      have pos := List.length_pos_iff.2 (mt List.isEmpty_iff.2 hne)
      omega

theorem length_takeFraction_le (cs : List Char) : (takeFraction cs).2.length ≤ cs.length := by
  unfold takeFraction
  split
  · next cs =>
    split
    · exact Nat.le_refl _
    · exact Nat.le_succ_of_le (length_dropWhile_le _ cs)
  · exact Nat.le_refl _

theorem length_takeExponent_le (cs : List Char) : (takeExponent cs).2.length ≤ cs.length := by
  cases cs with
  | nil => exact Nat.le_refl _
  | cons mark cs =>
      simp only [takeExponent]
      split
      · have body := length_takeSign_le cs
        have dropped := length_dropWhile_le Char.isDigit (takeSign cs).2
        exact Nat.le_succ_of_le (Nat.le_trans dropped body)
      · exact Nat.le_refl _

theorem length_takeNumber {negative : Bool} {cs rest : List Char} {t : Token}
    (h : takeNumber negative cs = some (t, rest)) : rest.length < cs.length := by
  unfold takeNumber at h
  split at h
  · simp at h
  · next whole after hw =>
    have first := length_takeWhole hw
    have second := length_takeFraction_le after
    have third := length_takeExponent_le (takeFraction after).2
    have same : rest = (takeExponent (takeFraction after).2).2 := by
      simp only at h
      split at h
      · split at h <;> exact (Prod.mk.inj (Option.some.inj h)).2.symm
      · exact (Prod.mk.inj (Option.some.inj h)).2.symm
    rw [same]
    omega

theorem length_takeWord {c : Char} {cs rest : List Char} {t : Token} (h : takeWord (c :: cs) = some (t, rest)) :
    rest.length ≤ cs.length := by
  obtain ⟨w, hw, hr⟩ := Option.map_eq_some_iff.1 h
  have long : 0 < w.1.length := by
    have all : ∀ w ∈ words, 0 < w.1.length := by decide
    exact all w (List.mem_of_find?_eq_some hw)
  obtain ⟨-, rfl⟩ := Prod.mk.inj hr
  rw [List.length_drop, List.length_cons]
  omega

theorem length_take (c : Char) (cs : List Char) : (take c cs).2.length ≤ cs.length := by
  unfold take
  split
  any_goals exact Nat.le_refl _
  · split
    · next h => exact Nat.le_of_lt (length_takeUnits h)
    · exact Nat.zero_le _
  · simp only
    split
    · next t h =>
      cases hn : if c = '-' then takeNumber true cs else takeNumber false (c :: cs) with
      | none =>
        rw [hn] at h
        exact length_takeWord h
      | some r =>
        rw [hn] at h
        obtain rfl : r = t := Option.some.inj h
        split at hn
        · exact Nat.le_of_lt (length_takeNumber hn)
        · exact Nat.le_of_lt_succ (length_takeNumber hn)
    · exact Nat.zero_le _

/-- The tokens of a text. -/
def all : List Char → List Token
  | [] => []
  | c :: cs =>
      if isSpace c then all cs
      else
        let next := take c cs
        next.1 :: all next.2
  termination_by cs => cs.length
  decreasing_by
    · exact Nat.lt_succ_self _
    · exact Nat.lt_succ_of_le (length_take c cs)

end Token

end ScoreGate
