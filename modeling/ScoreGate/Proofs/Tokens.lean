import ScoreGate.Document.Printer
import ScoreGate.Document.Token
import ScoreGate.Proofs.Components
import ScoreGate.Proofs.Printing
import ScoreGate.Proofs.Shortest

/-!
# Written values as tokens

A text, a number or a word that is written in a document is read as one token, the one for its value, as long as what
follows does not go on with it.  Texts are read by their code units, numbers by their parts: the whole digits, the
digits after a point and the exponent.

* `Numeral`: a number in its parts, and the decimal that they spell.
* `Token.takeNumber_chars`: the parts of a number are read as that number.
* `Token.all_writeText`, `Token.all_writeNumber`: a written text or number is one token.
-/

namespace ScoreGate

variable {rest : List Char}

/-! ### Digits -/

section Digits

theorem digitsValue_eq (ds : List Char) : digitsValue ds = Nat.ofDigitChars 10 ds 0 := by
  rw [digitsValue, Nat.ofDigitChars]
  congr 1
  funext n d
  rw [Nat.mul_comm]
  rfl

theorem digitsValue_decimalDigits (n : ℕ) : digitsValue (decimalDigits n) = n := by
  rw [digitsValue_eq, decimalDigits, Nat.ofDigitChars_ten_toDigits]

theorem digitsValue_append_zeros (ds : List Char) (k : ℕ) :
    digitsValue (ds ++ List.replicate k '0') = digitsValue ds * 10 ^ k := by
  rw [digitsValue_eq, digitsValue_eq, Nat.ofDigitChars_append, Nat.ofDigitChars_replicate_zero, Nat.mul_comm]

theorem digitsValue_zeros_append (k : ℕ) (ds : List Char) : digitsValue (List.replicate k '0' ++ ds) = digitsValue ds := by
  rw [digitsValue_eq, digitsValue_eq, Nat.ofDigitChars_append, Nat.ofDigitChars_replicate_zero, Nat.mul_zero]

theorem isDigit_decimalDigits (n : ℕ) : ∀ c ∈ decimalDigits n, c.isDigit = true :=
  fun _ => Nat.isDigit_of_mem_toDigits (by norm_num) (by norm_num)

theorem isDigit_zeros (k : ℕ) : ∀ c ∈ List.replicate k '0', c.isDigit = true := by
  intro c hc
  rw [List.eq_of_mem_replicate hc]
  decide

/-- A positive number is not written with a zero in front. -/
theorem head?_decimalDigits {n : ℕ} (hn : 0 < n) : (decimalDigits n).head? ≠ some '0' := by
  induction n using Nat.strong_induction_on with
  | _ n ih =>
    rw [decimalDigits, Nat.toDigits_eq_if (by norm_num)]
    split_ifs with hsmall
    · interval_cases n <;> decide
    · rw [List.head?_append_of_ne_nil _ Nat.toDigits_ne_nil]
      exact ih (n / 10) (by omega) (by omega)

theorem Number.isWritable_int {n : ℤ} :
    (Number.int n).isWritable = true ↔ (decimalDigits n.natAbs).length ≤ maxIntegerDigits := by
  rw [Number.isWritable, decide_eq_true_iff, decimalDigits, Nat.length_toDigits_le_iff (by norm_num) (by decide)]
  -- the power is left alone: the two sides name the same one
  delta Number.writtenBound maxIntegerDigits
  generalize 4300 = k
  exact Iff.rfl

end Digits

/-! ### Numbers in parts -/

/-- A number without its sign: whole digits with no needless zero in front, the digits after a point, if there are any, and
the exponent. -/
structure Numeral where
  whole : List Char
  fraction : List Char
  exponent : Option ℤ
  ne_nil : whole ≠ []
  lead : whole.head? = some '0' → whole = ['0']
  whole_digits : ∀ c ∈ whole, c.isDigit = true
  fraction_digits : ∀ c ∈ fraction, c.isDigit = true

namespace Numeral

/-- The point and the digits after it. -/
def fractionChars (n : Numeral) : List Char := if n.fraction = [] then [] else '.' :: n.fraction

def exponentChars (n : Numeral) : List Char :=
  match n.exponent with
  | none => []
  | some x => 'e' :: Decimal.exponentText x

/-- How the number is written. -/
def chars (n : Numeral) : List Char := n.whole ++ (n.fractionChars ++ n.exponentChars)

/-- The decimal that the parts spell. -/
def decimal (n : Numeral) : Decimal := ⟨digitsValue (n.whole ++ n.fraction), n.exponent.getD 0 - n.fraction.length⟩

end Numeral

namespace Token

/-- What goes on with no number goes on with no run of digits. -/
theorem stops_isDigit (hrest : Stops isFigure rest) : Stops Char.isDigit rest := by
  intro c hc
  have hfigure := hrest c hc
  by_contra hdigit
  rw [isFigure_of_isDigit (by simpa using hdigit)] at hfigure
  cases hfigure

theorem takeWhole_append {ds : List Char} (hne : ds ≠ []) (hlead : ds.head? = some '0' → ds = ['0'])
    (hdigits : ∀ c ∈ ds, c.isDigit = true) (hrest : Stops Char.isDigit rest) : takeWhole (ds ++ rest) = some (ds, rest) := by
  obtain ⟨d, ds, rfl⟩ := List.exists_cons_of_ne_nil hne
  by_cases hd : d = '0'
  · obtain rfl : ds = [] := by simpa [hd] using hlead
    rw [hd]
    rfl
  · rw [takeWhole.eq_def]
    split
    · next heq =>
      rw [List.cons_append] at heq
      exact absurd (List.cons.inj heq).1 hd
    · rw [takeWhile_of_stops hdigits hrest, dropWhile_of_stops hdigits hrest]
      rfl

theorem takeFraction_chars (n : Numeral) (hpoint : rest.head? ≠ some '.') (hrest : Stops Char.isDigit rest) :
    takeFraction (n.fractionChars ++ rest) = (n.fraction, rest) := by
  rw [Numeral.fractionChars]
  split_ifs with hnil
  · rw [hnil, List.nil_append, takeFraction.eq_def]
    split
    · exact absurd rfl hpoint
    · rfl
  · rw [List.cons_append, takeFraction, takeWhile_of_stops n.fraction_digits hrest,
      dropWhile_of_stops n.fraction_digits hrest, if_neg (by simpa using hnil)]

theorem digitsValue_exponentText (x : ℤ) : ∃ sign ds, Decimal.exponentText x = sign :: ds ∧ ds ≠ [] ∧
    sign = (if x < 0 then '-' else '+') ∧ (∀ c ∈ ds, c.isDigit = true) ∧ digitsValue ds = x.natAbs := by
  have hdigits := isDigit_decimalDigits x.natAbs
  have hvalue := digitsValue_decimalDigits x.natAbs
  refine ⟨_, _, rfl, ?_, rfl, ?_, ?_⟩ <;> split_ifs
  · simp
  · exact Nat.toDigits_ne_nil
  · exact List.forall_mem_cons.mpr ⟨by decide, hdigits⟩
  · exact hdigits
  · exact (digitsValue_zeros_append 1 _).trans hvalue
  · exact hvalue

theorem takeExponent_chars (n : Numeral) (hrest : Stops isFigure rest) :
    takeExponent (n.exponentChars ++ rest) = (n.exponent, rest) := by
  rw [Numeral.exponentChars]
  rcases hn : n.exponent with _ | x
  · rcases rest with _ | ⟨c, rest⟩
    · rfl
    · have hc : isFigure c = false := hrest c rfl
      have hmark : ¬(c = 'e' ∨ c = 'E') := by
        rintro (rfl | rfl) <;> exact absurd hc (by decide)
      simp [takeExponent, hmark]
  · obtain ⟨sign, ds, htext, hne, hsign, hdigits, hvalue⟩ := digitsValue_exponentText x
    have htake := takeWhile_of_stops hdigits (stops_isDigit hrest)
    have hdrop := dropWhile_of_stops hdigits (stops_isDigit hrest)
    have hbody : takeSign (sign :: (ds ++ rest)) = (decide (x < 0), ds ++ rest) := by
      rw [hsign]
      split_ifs with hx <;> simp [takeSign, hx]
    simp only [List.cons_append, htext, takeExponent, hbody, htake, hdrop, hvalue, List.isEmpty_iff, hne]
    simp only [true_or, not_false_eq_true, and_self, if_true, decide_eq_true_eq]
    congr 2
    split_ifs <;> omega

/-- The token of a number in its parts: an integer unless it has a fraction or an exponent. -/
def ofNumeral (negative : Bool) (n : Numeral) : Token :=
  if n.fraction.isEmpty && n.exponent.isNone then
    if maxIntegerDigits < n.whole.length then .bad (.badValue (.tooManyDigits n.whole.length))
    else .atom (.int (if negative then -(digitsValue n.whole : Int) else digitsValue n.whole))
  else .atom (.real (Binary64.ofDecimal negative n.decimal.digits n.decimal.exponent))

theorem takeNumber_chars (negative : Bool) (n : Numeral) (hrest : Stops isFigure rest) :
    takeNumber negative (n.chars ++ rest) = some (ofNumeral negative n, rest) := by
  have hexponent : ∀ c ∈ (n.exponentChars ++ rest).head?, c ≠ '.' ∧ c.isDigit = false := by
    intro c hc
    rw [Numeral.exponentChars] at hc
    split at hc
    · have hfigure := hrest c hc
      exact ⟨by rintro rfl; exact absurd hfigure (by decide), stops_isDigit hrest c hc⟩
    · obtain rfl : 'e' = c := by simpa using hc
      decide
  have hfraction : Stops Char.isDigit (n.fractionChars ++ (n.exponentChars ++ rest)) := by
    rw [Numeral.fractionChars]
    split_ifs
    · exact fun c hc => (hexponent c hc).2
    · intro c hc
      obtain rfl : '.' = c := by simpa using hc
      decide
  have hwhole := takeWhole_append n.ne_nil n.lead n.whole_digits hfraction
  have hpoint : (n.exponentChars ++ rest).head? ≠ some '.' := fun hc => (hexponent '.' hc).1 rfl
  have hfraction' := takeFraction_chars n hpoint fun c hc => (hexponent c hc).2
  rw [Numeral.chars, List.append_assoc, List.append_assoc, takeNumber, hwhole]
  simp only [hfraction', takeExponent_chars n hrest, ofNumeral, Numeral.decimal]
  split_ifs <;> rfl

end Token

/-! ### The parts of written numbers -/

namespace Numeral

/-- The digits of an integer. -/
def ofNat (n : ℕ) : Numeral where
  whole := decimalDigits n
  fraction := []
  exponent := none
  ne_nil := Nat.toDigits_ne_nil
  lead := by
    rcases Nat.eq_zero_or_pos n with rfl | hn
    · exact fun _ => rfl
    · exact fun hzero => absurd hzero (head?_decimalDigits hn)
  whole_digits := isDigit_decimalDigits n
  fraction_digits := List.forall_mem_nil _

theorem chars_ofNat (n : ℕ) : (ofNat n).chars = decimalDigits n := by
  simp [chars, fractionChars, exponentChars, ofNat]

end Numeral

namespace Decimal

variable {d : Decimal}

/-- A decimal with an exponent mark: the first digit, the others after the point, and the exponent. -/
theorem exists_scientific (x : ℤ) (hx : x = (decimalDigits d.digits).length + d.exponent - 1) :
    ∃ n : Numeral, n.chars = scientific (decimalDigits d.digits) x ∧ n.decimal.value = d.value ∧ n.exponent.isSome := by
  have hdigits := isDigit_decimalDigits d.digits
  have hvalue := digitsValue_decimalDigits d.digits
  obtain ⟨c, ds, hds⟩ := List.exists_cons_of_ne_nil (Nat.toDigits_ne_nil (n := d.digits) (b := 10))
  change decimalDigits d.digits = c :: ds at hds
  rw [hds] at hdigits hvalue hx ⊢
  obtain ⟨hc, hds'⟩ := List.forall_mem_cons.mp hdigits
  refine ⟨⟨[c], ds, some x, by simp, by simp, by simpa using hc, hds'⟩, ?_, ?_, rfl⟩
  · rcases ds with _ | ⟨c', ds⟩ <;> simp [Numeral.chars, Numeral.fractionChars, Numeral.exponentChars, scientific]
  · have hdecimal : x - ds.length = d.exponent := by
      rw [hx, List.length_cons]
      push_cast
      ring
    simp only [Numeral.decimal, List.singleton_append, hvalue, Option.getD_some, hdecimal]

theorem not_mem_of_digits {ds : List Char} (hdigits : ∀ c ∈ ds, c.isDigit = true) : '.' ∉ ds :=
  fun hmem => absurd (hdigits _ hmem) (by decide)

/-! Without an exponent mark zeros stand between the point and the digits, or the point stands among the digits, or it stands
after them and is followed by one zero. -/

section Positional

variable {ds : List Char} {point : ℤ} (hdigits : ∀ c ∈ ds, c.isDigit = true) (hvalue : digitsValue ds = d.digits)
  (hlead : ds.head? ≠ some '0') (hne : ds ≠ []) (hpoint : point = ds.length + d.exponent)

include hdigits hvalue hne hpoint

theorem exists_point_before (hbefore : point ≤ 0) : ∃ n : Numeral, n.decimal.value = d.value ∧ n.fraction ≠ [] ∧
    n.chars = if (positional ds point).contains '.' then positional ds point else positional ds point ++ ['.', '0'] := by
  refine ⟨⟨['0'], List.replicate (-point).toNat '0' ++ ds, none, by simp, by simp, by simp,
    List.forall_mem_append.mpr ⟨isDigit_zeros _, hdigits⟩⟩, ?_, by simp [hne], ?_⟩
  · have hzeros : digitsValue (['0'] ++ (List.replicate (-point).toNat '0' ++ ds)) = d.digits :=
      ((digitsValue_zeros_append 1 _).trans (digitsValue_zeros_append _ _)).trans hvalue
    have hexponent : (0 : ℤ) - (List.replicate (-point).toNat '0' ++ ds).length = d.exponent := by
      rw [List.length_append, List.length_replicate]
      omega
    simp only [Numeral.decimal, hzeros, Option.getD_none, hexponent]
  · simp [positional, hbefore, Numeral.chars, Numeral.fractionChars, Numeral.exponentChars, hne]

include hlead

theorem exists_point_within (hafter : 0 < point) (hwithin : point < ds.length) :
    ∃ n : Numeral, n.decimal.value = d.value ∧ n.fraction ≠ [] ∧
      n.chars = if (positional ds point).contains '.' then positional ds point else positional ds point ++ ['.', '0'] := by
  have hdrop : ds.drop point.toNat ≠ [] := by
    rw [Ne, List.drop_eq_nil_iff]
    omega
  refine ⟨⟨ds.take point.toNat, ds.drop point.toNat, none, ?_, fun hzero => ?_,
    fun c hc => hdigits c (List.mem_of_mem_take hc), fun c hc => hdigits c (List.mem_of_mem_drop hc)⟩, ?_, hdrop, ?_⟩
  · rw [Ne, List.take_eq_nil_iff, not_or]
    exact ⟨by omega, hne⟩
  · rw [List.head?_take, if_neg (by omega)] at hzero
    exact absurd hzero hlead
  · have hexponent : (0 : ℤ) - (ds.drop point.toNat).length = d.exponent := by
      rw [List.length_drop]
      omega
    simp only [Numeral.decimal, List.take_append_drop, hvalue, Option.getD_none, hexponent]
  · simp [positional, hafter.not_ge, hwithin, Numeral.chars, Numeral.fractionChars, Numeral.exponentChars, hdrop]

theorem exists_point_beyond (hafter : 0 < point) (hbeyond : ds.length ≤ point) :
    ∃ n : Numeral, n.decimal.value = d.value ∧ n.fraction ≠ [] ∧
      n.chars = if (positional ds point).contains '.' then positional ds point else positional ds point ++ ['.', '0'] := by
  have hwhole : ∀ c ∈ ds ++ List.replicate (point.toNat - ds.length) '0', c.isDigit = true :=
    List.forall_mem_append.mpr ⟨hdigits, isDigit_zeros _⟩
  refine ⟨⟨ds ++ List.replicate (point.toNat - ds.length) '0', ['0'], none, by simp [hne], fun hzero => ?_, hwhole,
    isDigit_zeros 1⟩, ?_, by simp, ?_⟩
  · rw [List.head?_append_of_ne_nil _ hne] at hzero
    exact absurd hzero hlead
  · have hzeros : digitsValue (ds ++ List.replicate (point.toNat - ds.length) '0' ++ ['0']) =
        d.digits * 10 ^ (point.toNat - ds.length) * 10 ^ 1 := by
      rw [← hvalue, ← digitsValue_append_zeros, ← digitsValue_append_zeros]
      rfl
    have hexponent : d.exponent = (point.toNat - ds.length : ℕ) := by omega
    simp only [Numeral.decimal, value, hzeros, hexponent, Option.getD_none, List.length_singleton, zpow_natCast]
    push_cast
    norm_num
    ring
  · have hdot := not_mem_of_digits hwhole
    simp [positional, hafter.not_ge, hbeyond.not_gt, hdot, Numeral.chars, Numeral.fractionChars, Numeral.exponentChars]

end Positional

/-- A decimal without an exponent mark is a number with a fraction, which may have to be put behind it. -/
theorem exists_positional (hd : 0 < d.digits) (point : ℤ) (hpoint : point = (decimalDigits d.digits).length + d.exponent) :
    ∃ n : Numeral, n.decimal.value = d.value ∧ n.fraction ≠ [] ∧
      n.chars = if (positional (decimalDigits d.digits) point).contains '.' then positional (decimalDigits d.digits) point
        else positional (decimalDigits d.digits) point ++ ['.', '0'] := by
  have hdigits := isDigit_decimalDigits d.digits
  have hvalue := digitsValue_decimalDigits d.digits
  have hlead := head?_decimalDigits hd
  have hne : decimalDigits d.digits ≠ [] := Nat.toDigits_ne_nil
  rcases le_or_gt point 0 with hbefore | hafter
  · exact exists_point_before hdigits hvalue hne hpoint hbefore
  rcases lt_or_ge point (decimalDigits d.digits).length with hwithin | hbeyond
  · exact exists_point_within hdigits hvalue hlead hne hpoint hafter hwithin
  · exact exists_point_beyond hdigits hvalue hlead hne hpoint hafter hbeyond

/-- The form that reads back is a number in its parts with a fraction or an exponent. -/
theorem exists_numeral (hd : 0 < d.digits) :
    ∃ n : Numeral, n.chars = d.readable ∧ n.decimal.value = d.value ∧ (n.fraction.isEmpty && n.exponent.isNone) = false := by
  rw [readable]
  simp only []
  split_ifs with hfar hdot
  · obtain ⟨n, hchars, hvalue, hexponent⟩ := exists_scientific (d := d) _ rfl
    refine ⟨n, hchars, hvalue, ?_⟩
    rw [Option.isNone_eq_false_iff.mpr hexponent, Bool.and_false]
  all_goals
    obtain ⟨n, hvalue, hfraction, hchars⟩ := exists_positional hd _ rfl
    refine ⟨n, ?_, hvalue, by simp [hfraction]⟩
    rw [hchars]
  · exact if_pos hdot
  · exact if_neg hdot

end Decimal

namespace Token

/-! ### Written numbers -/

section Numbers

variable {c : Char} {cs : List Char} {t : Token}

theorem all_spaces : ∀ {cs : List Char}, (∀ c ∈ cs, isSpace c = true) → all (cs ++ rest) = all rest
  | [], _ => rfl
  | c :: cs, h => by
    obtain ⟨hc, hcs⟩ := List.forall_mem_cons.mp h
    rw [List.cons_append, all, if_pos hc, all_spaces hcs]

theorem all_of_take (hc : isSpace c = false) (h : take c cs = (t, rest)) : all (c :: cs) = t :: all rest := by
  rw [all, if_neg (by simp [hc]), h]

theorem isSpace_of_isDigit (hc : c.isDigit = true) : isSpace c = false := by
  by_contra hspace
  simp only [isSpace, Bool.not_eq_false, Bool.or_eq_true, decide_eq_true_eq] at hspace
  rcases hspace with ((rfl | rfl) | rfl) | rfl <;> exact absurd hc (by decide)

theorem take_of_isDigit (hc : c.isDigit = true) (h : takeNumber false (c :: cs) = some (t, rest)) :
    take c cs = (t, rest) := by
  have hsign : c ≠ '-' := by
    rintro rfl
    exact absurd hc (by decide)
  rw [take.eq_def]
  split
  case h_8 =>
    rw [if_neg hsign, h]
    rfl
  all_goals exact absurd hc (by decide)

/-- A number with its sign is one token. -/
theorem all_chars (negative : Bool) (n : Numeral) (hrest : Stops isFigure rest) :
    all ((if negative then '-' :: n.chars else n.chars) ++ rest) = ofNumeral negative n :: all rest := by
  have htake := takeNumber_chars negative n hrest
  cases negative
  · obtain ⟨c, cs, hwhole⟩ := List.exists_cons_of_ne_nil n.ne_nil
    have hchars : n.chars = c :: (cs ++ (n.fractionChars ++ n.exponentChars)) := by
      rw [Numeral.chars, hwhole, List.cons_append]
    have hc : c.isDigit = true := n.whole_digits c (by simp [hwhole])
    rw [hchars] at htake
    simp only [hchars, Bool.false_eq_true, if_false]
    exact all_of_take (isSpace_of_isDigit hc) (take_of_isDigit hc htake)
  · refine all_of_take (by decide) ?_
    have htake' : take '-' (n.chars ++ rest) = (ofNumeral true n, rest) := by simp [take, htake]
    exact htake'

/-- An integer that is not too long is one token. -/
theorem all_int {n : ℤ} (hn : (Number.int n).isWritable = true) (hrest : Stops isFigure rest) :
    all ((toString n).toList ++ rest) = .atom (.int n) :: all rest := by
  have hchars : (toString n).toList =
      if decide (n < 0) then '-' :: (Numeral.ofNat n.natAbs).chars else (Numeral.ofNat n.natAbs).chars := by
    rw [Int.toString_eq_repr, Int.repr_eq_if, Numeral.chars_ofNat, decimalDigits]
    by_cases hneg : n < 0
    · rw [if_neg (not_le.mpr hneg), if_pos (by simpa using hneg), String.toList_append, Nat.toList_repr,
        show (-n).toNat = n.natAbs by omega]
      rfl
    · rw [if_pos (not_lt.mp hneg), if_neg (by simpa using hneg), Nat.toList_repr, show n.toNat = n.natAbs by omega]
  have hlength : ¬maxIntegerDigits < (decimalDigits n.natAbs).length := not_lt.mpr (Number.isWritable_int.mp hn)
  have htoken : ofNumeral (decide (n < 0)) (Numeral.ofNat n.natAbs) =
      .atom (.int (if decide (n < 0) then -(n.natAbs : ℤ) else n.natAbs)) := by
    simp only [ofNumeral, Numeral.ofNat, List.isEmpty_nil, Option.isNone_none, Bool.and_self, if_true, if_neg hlength,
      digitsValue_decimalDigits]
  have hsigned : (if decide (n < 0) then -(n.natAbs : ℤ) else n.natAbs) = n := by
    simp only [decide_eq_true_eq]
    split_ifs <;> omega
  rw [hchars, all_chars _ _ hrest, htoken, hsigned]

theorem all_text (negative : Bool) {m : ℕ} {e : ℤ} (hc : Binary64.Canonical m e) (hrest : Stops isFigure rest) :
    all ((Binary64.finite negative m e hc).text.toList ++ rest) = .atom (.real (.finite negative m e hc)) :: all rest := by
  -- the parts of the text, and the number that they are read as
  obtain ⟨n, hchars, htoken⟩ : ∃ n : Numeral, n.chars = (if m = 0 then "0.0".toList else (Binary64.shortest m e).readable) ∧
      ofNumeral negative n = .atom (.real (.finite negative m e hc)) := by
    rcases Nat.eq_zero_or_pos m with rfl | hm
    · refine ⟨⟨['0'], ['0'], none, by simp, by simp, isDigit_zeros 1, isDigit_zeros 1⟩, ?_, ?_⟩
      · rw [if_pos rfl]
        decide
      obtain rfl : e = -1074 := by
        rcases hc.2.2.2 with hmin | he
        · exact absurd hmin (by decide)
        · exact he
      rfl
    · obtain ⟨hreach, hback⟩ := Binary64.ofDecimal_shortest hc hm negative
      obtain ⟨n, hchars, hvalue, hreal⟩ := Decimal.exists_numeral hreach.digits_pos
      refine ⟨n, by rw [hchars, if_neg hm.ne'], ?_⟩
      rw [ofNumeral, hreal, ← Binary64.ofDecimal_congr negative hreach hvalue.symm, hback]
      rfl
  have htext : (Binary64.finite negative m e hc).text.toList = if negative then '-' :: n.chars else n.chars := by
    rw [hchars]
    exact String.toList_ofList
  rw [htext, all_chars negative n hrest, htoken]

theorem all_words : ∀ w ∈ words, all (w.1.toList ++ rest) = .atom w.2 :: all rest := by
  simp only [words, List.forall_mem_cons]
  refine ⟨?_, ?_, ?_, ?_, ?_, ?_, List.forall_mem_nil _⟩ <;> exact all_of_take (by decide) rfl

theorem all_writeNumber {n : Number} (hn : n.isWritable = true) (hrest : Stops isFigure rest) :
    all (Document.writeNumber n ++ rest) = .atom (.number n) :: all rest := by
  rcases n with (_ | _) | n | (_ | (_ | _) | ⟨negative, m, e, hc⟩)
  case int => exact all_int hn hrest
  case real.finite => exact all_text negative hc hrest
  case flag.false => exact all_words ("false", .flag false) (by simp [words])
  case flag.true => exact all_words ("true", .flag true) (by simp [words])
  case real.nan => exact all_words ("NaN", .real .nan) (by simp [words])
  case real.infinity.false => exact all_words ("Infinity", .real (.infinity false)) (by simp [words])
  case real.infinity.true => exact all_words ("-Infinity", .real (.infinity true)) (by simp [words])

end Numbers

/-! ### Written texts -/

section Texts

/-- The code units of a character: one, or the two halves of a pair. -/
def units (c : Char) : List ℕ :=
  if c.toNat < 0x10000 then [c.toNat]
  else [0xd800 + (c.toNat - 0x10000) / 0x400, 0xdc00 + (c.toNat - 0x10000) % 0x400]

theorem hexText_succ {width : ℕ} (hwidth : 1 ≤ width) (n : ℕ) :
    hexText (width + 1) n = hexText width (n / 16) ++ [Nat.digitChar (n % 16)] := by
  simp only [hexText, padZeros]
  rcases lt_or_ge n 16 with hn | hn
  · obtain ⟨k, rfl⟩ := Nat.exists_eq_add_of_le' hwidth
    rw [Nat.toDigits_of_lt_base hn, Nat.div_eq_of_lt hn, Nat.mod_eq_of_lt hn, Nat.toDigits_zero]
    simp [List.replicate_succ']
  · rw [Nat.toDigits_of_base_le (by norm_num) hn, List.length_append, List.length_singleton, Nat.add_sub_add_right,
      List.append_assoc]

theorem hexValue?_digitChar : ∀ d < 16, hexValue? (Nat.digitChar d) = some d := by decide

theorem hexFour?_digitChar {n : ℕ} (hn : n < 0x10000) :
    hexFour? (Nat.digitChar (n / 16 / 16 / 16)) (Nat.digitChar (n / 16 / 16 % 16)) (Nat.digitChar (n / 16 % 16))
      (Nat.digitChar (n % 16)) = some n := by
  have hmod : ∀ k, k % 16 < 16 := fun k => Nat.mod_lt k (by norm_num)
  rw [hexFour?, hexValue?_digitChar _ (by omega), hexValue?_digitChar _ (hmod _), hexValue?_digitChar _ (hmod _),
    hexValue?_digitChar _ (hmod _)]
  simp only [Option.bind_eq_bind, Option.bind_some, Option.pure_def, Option.some.injEq]
  omega

theorem takeUnits_unitEscape {n : ℕ} (hn : n < 0x10000) (cs : List Char) :
    takeUnits (Document.unitEscape n ++ cs) = (takeUnits cs).map fun p => (n :: p.1, p.2) := by
  have hone : hexText 1 (n / 16 / 16 / 16) = [Nat.digitChar (n / 16 / 16 / 16)] := by
    rw [hexText, padZeros, Nat.toDigits_of_lt_base (by omega)]
    rfl
  rw [Document.unitEscape, hexText_succ (by norm_num), hexText_succ (by norm_num), hexText_succ le_rfl, hone]
  simp only [List.cons_append, List.nil_append, takeUnits, hexFour?_digitChar hn]
  cases takeUnits cs <;> rfl

theorem takeUnits_escape {c : Char} {n : ℕ} (hc : escapeValue? c = some n) (cs : List Char) :
    takeUnits ('\\' :: c :: cs) = (takeUnits cs).map fun p => (n :: p.1, p.2) := by
  rw [takeUnits.eq_def]
  split
  · next heq => cases heq
  · next heq => cases heq
  · next heq =>
    obtain ⟨rfl, -⟩ := List.cons.inj (List.cons.inj heq).2
    cases hc
  · next heq =>
    obtain ⟨rfl, rfl⟩ := List.cons.inj (List.cons.inj heq).2
    rw [hc]
    cases takeUnits cs <;> rfl
  · next hno heq =>
    obtain ⟨rfl, rfl⟩ := List.cons.inj heq
    exact absurd rfl (hno c cs rfl)

theorem takeUnits_plain {c : Char} (hquote : c ≠ '"') (hback : c ≠ '\\') (hlow : 0x20 ≤ c.toNat) (cs : List Char) :
    takeUnits (c :: cs) = (takeUnits cs).map fun p => (c.toNat :: p.1, p.2) := by
  rw [takeUnits.eq_def]
  split
  · next heq => cases heq
  · next heq => exact absurd (List.cons.inj heq).1 hquote
  · next heq => exact absurd (List.cons.inj heq).1 hback
  · next heq => exact absurd (List.cons.inj heq).1 hback
  · next heq =>
    obtain ⟨rfl, rfl⟩ := List.cons.inj heq
    rw [if_neg (by simp [hback, hlow])]
    cases takeUnits cs <;> rfl

theorem toNat_lt (c : Char) : c.toNat < 0x110000 := by
  rcases c.valid with h | ⟨-, h⟩
  · exact h.trans (by norm_num)
  · exact h

theorem not_half (c : Char) : isHighHalf c.toNat = false ∧ isLowHalf c.toNat = false := by
  have hvalid : c.toNat < 0xd800 ∨ 0xdfff < c.toNat ∧ c.toNat < 0x110000 := c.valid
  simp only [isHighHalf, isLowHalf, Bool.and_eq_false_iff, decide_eq_false_iff_not]
  omega

theorem takeUnits_writeChar (c : Char) (cs : List Char) :
    takeUnits (Document.writeChar c ++ cs) = (takeUnits cs).map fun p => (units c ++ p.1, p.2) := by
  have hunits : c.toNat < 0x10000 → units c = [c.toNat] := fun hn => if_pos hn
  simp only [Document.writeChar]
  -- the escapes of two characters, the plain ones, and those of one unit or of two
  split_ifs with hquote hback hnewline hreturn htab hbackspace hfeed hplain hsmall
  · subst hquote
    exact takeUnits_escape rfl cs
  · subst hback
    exact takeUnits_escape rfl cs
  · subst hnewline
    exact takeUnits_escape rfl cs
  · subst hreturn
    exact takeUnits_escape rfl cs
  · subst htab
    exact takeUnits_escape rfl cs
  · rw [hunits (by omega), hbackspace]
    exact takeUnits_escape rfl cs
  · rw [hunits (by omega), hfeed]
    exact takeUnits_escape rfl cs
  · rw [hunits (by omega)]
    exact takeUnits_plain hquote hback hplain.1 cs
  · rw [hunits hsmall]
    exact takeUnits_unitEscape hsmall cs
  · have hbound := toNat_lt c
    rw [List.append_assoc, takeUnits_unitEscape (by omega), takeUnits_unitEscape (by omega), Option.map_map, units,
      if_neg hsmall]
    rfl

theorem takeUnits_flatMap (cs : List Char) :
    takeUnits (cs.flatMap Document.writeChar ++ '"' :: rest) = some (cs.flatMap units, rest) := by
  induction cs with
  | nil => rfl
  | cons c cs ih => rw [List.flatMap_cons, List.append_assoc, takeUnits_writeChar, ih, Option.map_some, List.flatMap_cons]

theorem ofUnits_units (c : Char) (ns : List ℕ) : ofUnits (units c ++ ns) = c :: ofUnits ns := by
  have hbound := toNat_lt c
  obtain ⟨hhigh, hlow⟩ := not_half c
  rw [units]
  split_ifs with hsmall
  · rcases ns with _ | ⟨m, ns⟩ <;> simp [ofUnits, hhigh, hlow]
  · have hpair : isHighHalf (0xd800 + (c.toNat - 0x10000) / 0x400) = true ∧
        isLowHalf (0xdc00 + (c.toNat - 0x10000) % 0x400) = true := by
      simp only [isHighHalf, isLowHalf, Bool.and_eq_true, decide_eq_true_eq]
      omega
    have hvalue : 0x10000 + (0xd800 + (c.toNat - 0x10000) / 0x400 - 0xd800) * 0x400 +
        (0xdc00 + (c.toNat - 0x10000) % 0x400 - 0xdc00) = c.toNat := by omega
    simp only [List.cons_append, List.nil_append, ofUnits, hpair, Bool.and_self, if_true, hvalue, Char.ofNat_toNat]

theorem ofUnits_flatMap (cs : List Char) : ofUnits (cs.flatMap units) = cs := by
  induction cs with
  | nil => rfl
  | cons c cs ih => rw [List.flatMap_cons, ofUnits_units, ih]

theorem all_writeText (s : String) (rest : List Char) :
    all (Document.writeText s ++ rest) = .atom (.text s) :: all rest := by
  have htake : take '"' (s.toList.flatMap Document.writeChar ++ '"' :: rest) = (.atom (.text s), rest) := by
    simp [take, takeUnits_flatMap, ofUnits_flatMap]
  rw [Document.writeText, List.cons_append, List.cons_append, List.append_assoc]
  exact all_of_take (by decide) htake

end Texts

end Token

end ScoreGate
