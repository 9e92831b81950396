import ScoreGate.Proofs.Records
import ScoreGate.Store

/-!
# Documents as they are stored

A stored document is read with its line ends unified, so it comes back only if it holds no carriage return; written
documents hold none.  What is read back from the bytes of a snapshot is then the snapshot, as long as its text reads
back as the value that was written.

* `Document.not_mem_write`: a written document has no carriage return.
* `Store.decode_text`: the bytes of a snapshot are read as that snapshot.
-/

namespace ScoreGate

/-! ### Texts without a carriage return -/

section Plain

theorem unifyLineEnds_eq_self : ∀ {cs : List Char}, '\r' ∉ cs → unifyLineEnds cs = cs
  | [], _ => rfl
  | c :: cs, h => by
    obtain ⟨hc, hcs⟩ := List.ne_and_not_mem_of_not_mem_cons h
    have hne : c ≠ '\r' := Ne.symm hc
    rw [unifyLineEnds, unifyLineEnds_eq_self hcs]
    · exact fun _ hc' => absurd hc' hne
    · exact fun hc' => absurd hc' hne

/-- An integer is written in digits, with a sign if it is negative. -/
theorem mem_toString_int {n : ℤ} {c : Char} (h : c ∈ (toString n).toList) : c.isDigit = true ∨ c = '-' := by
  have hnat : ∀ k : ℕ, c ∈ k.repr.toList → c.isDigit = true := by
    intro k hk
    rw [Nat.toList_repr] at hk
    exact Nat.isDigit_of_mem_toDigits (by norm_num) (by norm_num) hk
  rw [Int.toString_eq_repr, Int.repr_eq_if] at h
  split_ifs at h
  · exact Or.inl (hnat n.toNat h)
  · rw [String.toList_append, List.mem_append] at h
    rcases h with hsign | hdigits
    · exact Or.inr (by simpa using hsign)
    · exact Or.inl (hnat _ hdigits)

theorem digitChar_ne : ∀ d : ℕ, Nat.digitChar d ≠ '\r'
  | 0 | 1 | 2 | 3 | 4 | 5 | 6 | 7 | 8 | 9 | 10 | 11 | 12 | 13 | 14 | 15 | _ + 16 => by simp [Nat.digitChar]

theorem not_mem_toDigitsCore (base : ℕ) : ∀ (fuel n : ℕ) {ds : List Char}, '\r' ∉ ds →
    '\r' ∉ Nat.toDigitsCore base fuel n ds
  | 0, _, _, h => h
  | fuel + 1, n, ds, h => by
    have hcons := List.not_mem_cons_of_ne_of_not_mem (digitChar_ne (n % base)).symm h
    simp only [Nat.toDigitsCore]
    split_ifs
    · exact hcons
    · exact not_mem_toDigitsCore base fuel _ hcons

theorem not_mem_hexText (width n : ℕ) : '\r' ∉ hexText width n := by
  rw [hexText, padZeros, List.mem_append, not_or]
  exact ⟨fun h => absurd (List.eq_of_mem_replicate h) (by decide), not_mem_toDigitsCore 16 _ _ List.not_mem_nil⟩

end Plain

/-! ### Written numbers -/

/-- A character of written numbers: a letter, a digit, a sign or a point. -/
def isFigure (c : Char) : Bool := c.isAlphanum || c = '-' || c = '+' || c = '.'

theorem isFigure_of_isDigit {c : Char} (h : c.isDigit = true) : isFigure c = true := by
  simp [isFigure, Char.isAlphanum, h]

theorem figure_int {n : ℤ} {c : Char} (h : c ∈ (toString n).toList) : isFigure c = true := by
  rcases mem_toString_int h with hdigit | rfl
  · exact isFigure_of_isDigit hdigit
  · decide

namespace Decimal

theorem figure_digits (n : ℕ) : ∀ c ∈ decimalDigits n, isFigure c = true :=
  fun _ h => isFigure_of_isDigit (Nat.isDigit_of_mem_toDigits (by norm_num) (by norm_num) h)

theorem figure_zeros (n : ℕ) : ∀ c ∈ List.replicate n '0', isFigure c = true := by
  intro c h
  rw [List.eq_of_mem_replicate h]
  decide

theorem figure_exponentText (x : ℤ) : ∀ c ∈ exponentText x, isFigure c = true := by
  have hdigits := figure_digits x.natAbs
  rw [exponentText, List.forall_mem_cons]
  refine ⟨by split_ifs <;> decide, ?_⟩
  split_ifs
  · exact List.forall_mem_cons.mpr ⟨by decide, hdigits⟩
  · exact hdigits

variable {ds : List Char}

theorem figure_scientific (hds : ∀ c ∈ ds, isFigure c = true) (x : ℤ) : ∀ c ∈ scientific ds x, isFigure c = true := by
  have hexponent : ∀ c ∈ 'e' :: exponentText x, isFigure c = true :=
    List.forall_mem_cons.mpr ⟨by decide, figure_exponentText x⟩
  rw [scientific.eq_def, List.forall_mem_append]
  refine ⟨?_, hexponent⟩
  rcases ds with _ | ⟨d, _ | ⟨d', ds⟩⟩
  · simp
  · exact hds
  · obtain ⟨hd, hrest⟩ := List.forall_mem_cons.mp hds
    exact List.forall_mem_cons.mpr ⟨hd, List.forall_mem_cons.mpr ⟨by decide, hrest⟩⟩

theorem figure_positional (hds : ∀ c ∈ ds, isFigure c = true) (point : ℤ) :
    ∀ c ∈ positional ds point, isFigure c = true := by
  rw [positional]
  split_ifs
  · rw [List.forall_mem_cons, List.forall_mem_cons, List.forall_mem_append]
    exact ⟨by decide, by decide, figure_zeros _, hds⟩
  · rw [List.forall_mem_append, List.forall_mem_cons]
    exact ⟨fun c h => hds c (List.mem_of_mem_take h), by decide, fun c h => hds c (List.mem_of_mem_drop h)⟩
  · rw [List.forall_mem_append]
    exact ⟨hds, figure_zeros _⟩

theorem figure_readable (d : Decimal) : ∀ c ∈ d.readable, isFigure c = true := by
  have hpositional := figure_positional (figure_digits d.digits)
  rw [readable]
  simp only []
  split_ifs
  · exact figure_scientific (figure_digits _) _
  · exact hpositional _
  · rw [List.forall_mem_append]
    exact ⟨hpositional _, List.all_eq_true.mp (by decide)⟩

theorem figure_fixed (d : Decimal) (places : ℕ) : ∀ c ∈ d.fixed places, isFigure c = true := by
  have hpadded : ∀ n, ∀ c ∈ List.replicate n '0' ++ decimalDigits d.digits, isFigure c = true :=
    fun n => List.forall_mem_append.mpr ⟨figure_zeros n, figure_digits _⟩
  have htake : ∀ n k, ∀ c ∈ (List.replicate n '0' ++ decimalDigits d.digits).take k, isFigure c = true :=
    fun n k c h => hpadded n c (List.mem_of_mem_take h)
  rw [fixed]
  split_ifs
  · exact htake _ _
  · rw [List.forall_mem_append, List.forall_mem_cons]
    exact ⟨htake _ _, by decide, fun c h => hpadded _ c (List.mem_of_mem_drop h)⟩

end Decimal

theorem figure_signed (negative : Bool) {cs : List Char} (h : ∀ c ∈ cs, isFigure c = true) :
    ∀ c ∈ (String.ofList (if negative then '-' :: cs else cs)).toList, isFigure c = true := by
  rw [String.toList_ofList]
  split_ifs
  · exact List.forall_mem_cons.mpr ⟨by decide, h⟩
  · exact h

theorem Binary64.figure_text (x : Binary64) : ∀ c ∈ x.text.toList, isFigure c = true := by
  rcases x with _ | negative | ⟨negative, m, e, hc⟩
  · exact List.all_eq_true.mp (by decide)
  · exact figure_signed negative (List.all_eq_true.mp (by decide))
  · refine figure_signed negative ?_
    simp only []
    split_ifs
    · exact List.all_eq_true.mp (by decide)
    · exact Decimal.figure_readable _

theorem Binary64.figure_fixedText (places : ℕ) (x : Binary64) : ∀ c ∈ (x.fixedText places).toList, isFigure c = true := by
  rcases x with _ | negative | ⟨negative, m, e, hc⟩
  · exact Binary64.figure_text .nan
  · exact Binary64.figure_text (.infinity negative)
  · exact figure_signed negative (Decimal.figure_fixed _ _)

theorem Number.figure_text (n : Number) : ∀ c ∈ n.text.toList, isFigure c = true := by
  rcases n with (_ | _) | n | x
  · exact List.all_eq_true.mp (by decide)
  · exact List.all_eq_true.mp (by decide)
  · exact fun _ => figure_int
  · exact x.figure_text

/-! ### Written documents -/

namespace Document

theorem not_mem_writeNumber (n : Number) : '\r' ∉ writeNumber n := by
  have hfigure : isFigure '\r' = false := by decide
  rcases n with (_ | _) | n | (_ | (_ | _) | ⟨negative, m, e, hc⟩)
  case int => exact fun h => Bool.false_ne_true (hfigure.symm.trans (figure_int h))
  case real.finite => exact fun h => Bool.false_ne_true (hfigure.symm.trans (Binary64.figure_text _ _ h))
  all_goals decide

theorem not_mem_writeText (s : String) : '\r' ∉ writeText s := by
  have hunit : ∀ n, '\r' ∉ unitEscape n := by
    intro n
    simp [unitEscape, not_mem_hexText]
  have hchar : ∀ c, '\r' ∉ writeChar c := by
    intro c
    by_cases hc : c = '\r'
    · rw [hc]
      decide
    · simp only [writeChar]
      split_ifs <;> simp [hunit, Ne.symm hc]
  simp only [writeText, List.cons_append, List.mem_cons, List.mem_append, List.mem_flatMap]
  simp [hchar]

theorem not_mem_gap (level : ℕ) : '\r' ∉ Layout.indented.gap level := by
  simp [Layout.indented]

mutual

/-- A written document holds no carriage return: texts escape it, and nothing else has one. -/
theorem not_mem_write (level : ℕ) : ∀ v : Value, '\r' ∉ write .indented level v
  | .null => by
    rw [write]
    decide
  | .number n => by
    rw [write]
    exact not_mem_writeNumber n
  | .text s => by
    rw [write]
    exact not_mem_writeText s
  | .moment m => by
    rw [write]
    exact not_mem_writeText m.text
  | .list [] => by
    rw [write]
    decide
  | .list (v :: vs) => by
    have hv := not_mem_write (level + 1) v
    have hvs := not_mem_writeItems (level + 1) vs
    simp [write, hv, hvs, not_mem_gap]
  | .table [] => by
    rw [write]
    decide
  | .table ((k, v) :: es) => by
    have hv := not_mem_write (level + 1) v
    have hes := not_mem_writeEntries (level + 1) es
    simp [write, hv, hes, not_mem_gap, not_mem_writeText]
    decide

theorem not_mem_writeItems (level : ℕ) : ∀ vs : List Value, '\r' ∉ writeItems .indented level vs
  | [] => by simp [writeItems]
  | v :: vs => by
    have hv := not_mem_write level v
    have hvs := not_mem_writeItems level vs
    simp [writeItems, hv, hvs, not_mem_gap]

theorem not_mem_writeEntries (level : ℕ) : ∀ es : List (String × Value), '\r' ∉ writeEntries .indented level es
  | [] => by simp [writeEntries]
  | (k, v) :: es => by
    have hv := not_mem_write level v
    have hes := not_mem_writeEntries level es
    simp [writeEntries, hv, hes, not_mem_gap, not_mem_writeText]
    decide

end

end Document

/-! ### Reading back -/

/-- The text of a document, read from its bytes. -/
theorem fromUTF8?_toUTF8 (s : String) : String.fromUTF8? s.toUTF8 = some s := by
  rw [String.fromUTF8?, String.toUTF8_eq_toByteArray, dif_pos s.isValidUTF8]
  rfl

theorem Store.decode_text {x : Snapshot} {depth : ℕ} (path : Path) (hcheck : x.check = .ok x)
    (hread : Document.read depth x.text = .ok x.toValue) : decode depth path x.text.toUTF8 = .ok x := by
  have hplain : String.ofList (unifyLineEnds x.text.toList) = x.text := by
    rw [unifyLineEnds_eq_self (by simpa [Snapshot.text, Document.indented] using Document.not_mem_write 0 x.toValue),
      String.ofList_toList]
  simp only [decode, fromUTF8?_toUTF8, hplain, hread, Except.bind, Snapshot.ofValue_toValue, hcheck]

end ScoreGate
