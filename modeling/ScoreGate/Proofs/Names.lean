import Mathlib
import ScoreGate.Store

/-!
# Names of documents

The document of a snapshot is named by its id as it stands, the baseline of a branch by the branch in percent quoting.
Both ways of naming tell apart what is different: percent quoting can be undone, since a percent sign stands for itself
only as the start of a byte.

* `unquoteBytes_percentQuoted`: the bytes of a name, read back from its quoted form.
* `mem_percentQuoted`: the characters of a quoted name.
* `percentQuoted_injective`, `documentName_injective`, `baselineName_injective`: different names have different forms.
-/

namespace ScoreGate

/-! ### Percent quoting -/

section Quoting

/-- The value of a hexadecimal digit. -/
def unhex (c : Char) : ℕ := if c.toNat < 0x40 then c.toNat - 0x30 else c.toNat - 0x37

/-- The bytes that a percent-quoted text stands for. -/
def unquoteBytes : List Char → List UInt8
  | '%' :: high :: low :: rest => UInt8.ofNat (16 * unhex high + unhex low) :: unquoteBytes rest
  | c :: rest => c.val.toUInt8 :: unquoteBytes rest
  | [] => []

theorem unhex_hexDigit {n : ℕ} (h : n < 16) : unhex (hexDigit n) = n := by
  interval_cases n <;> rfl

theorem unquoteBytes_percentByte (b : UInt8) (rest : List Char) :
    unquoteBytes (percentByte b ++ rest) = b :: unquoteBytes rest := by
  have hb : b.toNat < 256 := b.toNat_lt
  simp only [percentByte, List.cons_append, List.nil_append, unquoteBytes]
  rw [unhex_hexDigit (by omega), unhex_hexDigit (by omega), Nat.div_add_mod, UInt8.ofNat_toNat]

theorem unquoteBytes_percentBytes : ∀ (bs : List UInt8) (rest : List Char),
    unquoteBytes (bs.flatMap percentByte ++ rest) = bs ++ unquoteBytes rest
  | [], _ => rfl
  | b :: bs, rest => by
    rw [List.flatMap_cons, List.append_assoc, unquoteBytes_percentByte, unquoteBytes_percentBytes bs, List.cons_append]

theorem isUnreserved_lt {c : Char} (h : isUnreserved c = true) : c.toNat < 0x80 ∧ c ≠ '%' := by
  constructor
  · simp only [isUnreserved, Char.isAlphanum, Char.isAlpha, Char.isUpper, Char.isLower, Char.isDigit, Bool.or_eq_true,
      Bool.and_eq_true, decide_eq_true_eq, beq_iff_eq, UInt32.le_iff_toNat_le] at h
    rcases h with ((((((⟨-, h⟩ | ⟨-, h⟩) | ⟨-, h⟩) | rfl) | rfl) | rfl) | rfl)
    · exact h.trans_lt (by decide)
    · exact h.trans_lt (by decide)
    · exact h.trans_lt (by decide)
    all_goals decide
  · rintro rfl
    simp [isUnreserved] at h

theorem unquoteBytes_percentChar (c : Char) (rest : List Char) :
    unquoteBytes (percentChar c ++ rest) = String.utf8EncodeChar c ++ unquoteBytes rest := by
  rw [percentChar]
  split_ifs with h
  · obtain ⟨hlt, hne⟩ := isUnreserved_lt h
    have hsize : c.utf8Size = 1 := by
      rw [Char.utf8Size_eq_one_iff, UInt32.le_iff_toNat_le]
      exact Nat.lt_succ_iff.mp hlt
    rw [String.utf8EncodeChar_eq_singleton hsize, List.singleton_append, List.singleton_append, unquoteBytes]
    intro _ _ _ hc
    exact absurd hc hne
  · exact unquoteBytes_percentBytes _ rest

theorem unquoteBytes_percentQuoted : ∀ cs : List Char,
    unquoteBytes (cs.flatMap percentChar) = cs.flatMap String.utf8EncodeChar
  | [] => rfl
  | c :: cs => by
    rw [List.flatMap_cons, unquoteBytes_percentChar, unquoteBytes_percentQuoted cs, List.flatMap_cons]

/-- Different names have different quoted forms. -/
theorem percentQuoted_injective {a b : String} (h : percentQuoted a = percentQuoted b) : a = b := by
  have hchars : a.toList.flatMap percentChar = b.toList.flatMap percentChar := by
    simpa [percentQuoted] using congrArg String.toList h
  have hbytes : a.toList.flatMap String.utf8EncodeChar = b.toList.flatMap String.utf8EncodeChar := by
    rw [← unquoteBytes_percentQuoted, ← unquoteBytes_percentQuoted, hchars]
  apply String.toByteArray_inj.mp
  rw [← String.utf8Encode_toList, ← String.utf8Encode_toList, List.utf8Encode, List.utf8Encode, hbytes]

/-- Hexadecimal digits stand for themselves. -/
theorem isUnreserved_hexDigit : ∀ n < 16, isUnreserved (hexDigit n) = true := by
  decide

theorem mem_percentQuoted {name : String} {c : Char} (h : c ∈ (percentQuoted name).toList) :
    isUnreserved c = true ∨ c = '%' := by
  rw [percentQuoted, String.toList_ofList, List.mem_flatMap] at h
  obtain ⟨d, -, h⟩ := h
  rw [percentChar] at h
  split_ifs at h with hunreserved
  · rw [List.mem_singleton.mp h]
    exact Or.inl hunreserved
  · obtain ⟨b, -, hb⟩ := List.mem_flatMap.mp h
    have hlt : b.toNat < 256 := b.toNat_lt
    simp only [percentByte, List.mem_cons, List.not_mem_nil, or_false] at hb
    rcases hb with rfl | rfl | rfl
    · exact Or.inr rfl
    · exact Or.inl (isUnreserved_hexDigit _ (by omega))
    · exact Or.inl (isUnreserved_hexDigit _ (by omega))

theorem not_mem_percentQuoted {c : Char} (hc : isUnreserved c = false) (hsign : c ≠ '%') (name : String) :
    c ∉ (percentQuoted name).toList := by
  intro h
  rcases mem_percentQuoted h with hunreserved | hpercent
  · rw [hc] at hunreserved
    cases hunreserved
  · exact hsign hpercent

end Quoting

/-! ### Names of documents -/

namespace Store

theorem isId_iff {id : String} : isId id = true ↔ id ≠ "" ∧ '/' ∉ id.toList ∧ '\\' ∉ id.toList := by
  simp [isId, and_assoc]

def documentName (id : String) : String := id ++ ".json"

def baselineName (branch : String) : String := "baseline-" ++ percentQuoted branch ++ ".json"

theorem documentName_injective {a b : String} (h : documentName a = documentName b) : a = b := by
  have hlist := congrArg String.toList h
  simp only [documentName, String.toList_append, List.append_cancel_right_eq] at hlist
  exact String.toList_injective hlist

theorem baselineName_injective {a b : String} (h : baselineName a = baselineName b) : a = b := by
  have hlist := congrArg String.toList h
  simp only [baselineName, String.toList_append, List.append_cancel_right_eq, List.append_cancel_left_eq] at hlist
  exact percentQuoted_injective (String.toList_injective hlist)

/-- No document is named like the directory above, and none like the directory of the baselines. -/
theorem documentName_ne (id : String) : documentName id ≠ ".." ∧ documentName id ≠ "baselines" := by
  have hlast : (documentName id).toList.getLast? = some 'n' := by
    simp [documentName]
  constructor
  · intro h
    rw [h] at hlast
    revert hlast
    decide
  · intro h
    rw [h] at hlast
    revert hlast
    decide

theorem baselineName_ne (branch : String) : baselineName branch ≠ ".." := by
  intro h
  have hhead := congrArg (fun s => s.toList.head?) h
  simp [baselineName] at hhead

end Store

end ScoreGate
