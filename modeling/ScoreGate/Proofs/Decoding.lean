import ScoreGate.Proofs.Running
import ScoreGate.Store

/-!
# What goes wrong with a stored document

A document that cannot be read is a malformed record, whatever is wrong with it, but for two faults that no reader of
records expects: it is nested too deeply, or a number is out of range.  The second has few causes, all of them numbers
in known places: an infinity where an integer is asked, or an integer too large for the mean that it stands for.

* `Strays`: a result whose faults are expected, unless something holds.
* `Snapshot.Overflows`: a document with a number out of range.
* `Document.readFault_read`, `Snapshot.strays_ofValue`: what is wrong with a text, and with a document.
-/

namespace ScoreGate

/-! ### Unexpected faults -/

section Strays

variable {α β : Type} {x : Except Fault α} {f : α → Except Fault β} {P Q : Prop}

/-- Whatever is wrong with a value, it is not too deep, and a number is out of range only if `P` holds. -/
def Strays (x : Except Fault α) (P : Prop) : Prop := FailsOnly x fun e => e ≠ .tooDeep ∧ (e = .outOfRange → P)

theorem strays_ok (a : α) (P : Prop) : Strays (Except.ok a : Except Fault α) P := .ok a _

theorem strays_error {e : Fault} (hdeep : e ≠ .tooDeep) (hrange : e = .outOfRange → P) :
    Strays (Except.error e : Except Fault α) P := .error ⟨hdeep, hrange⟩

theorem strays_badValue (fault : ValueFault) (P : Prop) : Strays (Except.error (.badValue fault) : Except Fault α) P :=
  strays_error (by simp) (by simp)

theorem Strays.mono (h : Strays x P) (hPQ : P → Q) : Strays x Q :=
  FailsOnly.mono h fun _ he => ⟨he.1, fun hr => hPQ (he.2 hr)⟩

/-- A sequence strays where one of its parts does. -/
theorem Strays.bind (hx : Strays x P) (hf : ∀ a, x = .ok a → Strays (f a) P) : Strays (x >>= f) P := FailsOnly.bind hx hf

theorem Strays.map {g : α → β} (hx : Strays x P) : Strays (x.map g) P := FailsOnly.map hx

theorem Strays.mapM {f : α → Except Fault β} {xs : List α} (h : ∀ a ∈ xs, Strays (f a) P) : Strays (xs.mapM f) P :=
  FailsOnly.mapM h

end Strays

/-! ### Readings of values -/

namespace Value

/-- An infinity of either sign. -/
def IsInfinite (v : Value) : Prop := ∃ negative, v = .real (.infinity negative)

/-- An integer that is nearest to an infinity. -/
def IsHuge (v : Value) : Prop := ∃ n negative, v = .int n ∧ Binary64.ofInt n = .infinity negative

variable {v : Value} {key : String}

theorem strays_mapError {α : Type} (x : Except ValueFault α) (P : Prop) : Strays (x.mapError Fault.badValue) P := by
  rcases x with fault | a
  · exact strays_badValue fault P
  · exact strays_ok a P

theorem strays_toInt (v : Value) : Strays v.toInt v.IsInfinite := by
  rcases v with _ | (b | n | x) | s | _ | _ | _
  case number.real =>
    rcases x with _ | negative | ⟨negative, m, e, h⟩
    · exact strays_badValue _ _
    · exact strays_error (by simp) fun _ => ⟨negative, rfl⟩
    · exact strays_ok _ _
  case number.flag => exact strays_ok _ _
  case number.int => exact strays_ok _ _
  case text => exact strays_mapError _ _
  all_goals exact strays_error (by simp) (by simp)

theorem strays_toReal (v : Value) : Strays v.toReal v.IsHuge := by
  rcases v with _ | (b | n | x) | s | _ | _ | _
  case number.int =>
    intro e he
    rw [toReal, Number.toReal] at he
    rcases hn : Binary64.ofInt n with _ | negative | _
    · simp [hn] at he
    · simp only [hn, Except.error.injEq] at he
      exact ⟨by simp [← he], fun _ => ⟨n, negative, rfl, hn⟩⟩
    · simp [hn] at he
  case number.flag => exact strays_ok _ _
  case number.real => exact strays_ok _ _
  case text => exact strays_mapError _ _
  all_goals exact strays_error (by simp) (by simp)

theorem strays_toNumber (v : Value) (P : Prop) : Strays v.toNumber P := by
  rcases v with _ | n | _ | _ | _ | _
  case number => exact strays_ok _ _
  all_goals exact strays_error (by simp) (by simp)

theorem strays_elements (v : Value) (P : Prop) : Strays v.elements P := by
  rcases v with _ | _ | _ | _ | _ | _
  case text => exact strays_ok _ _
  case list => exact strays_ok _ _
  case table => exact strays_ok _ _
  all_goals exact strays_error (by simp) (by simp)

theorem strays_field (v : Value) (key : String) (P : Prop) : Strays (v.field key) P := by
  rcases v with _ | _ | _ | _ | entries | _
  case table =>
    rw [field]
    rcases lookup key entries with _ | x
    · exact strays_error (by simp) (by simp)
    · exact strays_ok _ _
  all_goals exact strays_error (by simp) (by simp)

theorem strays_member? (v : Value) (key : String) (P : Prop) : Strays (v.member? key) P := by
  rcases v with _ | _ | _ | _ | entries | _
  case table => exact strays_ok _ _
  all_goals exact strays_error (by simp) (by simp)

theorem strays_memberOr (v : Value) (key : String) (d : Value) (P : Prop) : Strays (v.memberOr key d) P :=
  (v.strays_member? key P).map

/-- Some field of these names is infinite. -/
def HasInfinite (v : Value) (names : List String) : Prop := ∃ key ∈ names, ∃ x, v.field key = .ok x ∧ x.IsInfinite

/-- Some field of these names is too large an integer. -/
def HasHuge (v : Value) (names : List String) : Prop := ∃ key ∈ names, ∃ x, v.field key = .ok x ∧ x.IsHuge

section

variable {α : Type} {P : Prop} {names : List String}

/-- A field that is asked for as an integer, with what is done with it. -/
theorem strays_count (hP : v.HasInfinite names → P) (hkey : key ∈ names) {f : ℤ → Except Fault α}
    (hf : ∀ n, Strays (f n) P) : Strays (v.field key >>= fun x => x.toInt >>= f) P :=
  (v.strays_field key P).bind fun x hx =>
    (x.strays_toInt.mono fun h => hP ⟨key, hkey, x, hx, h⟩).bind fun n _ => hf n

theorem strays_mean (hP : v.HasHuge names → P) (hkey : key ∈ names) {f : Binary64 → Except Fault α}
    (hf : ∀ x, Strays (f x) P) : Strays (v.field key >>= fun x => x.toReal >>= f) P :=
  (v.strays_field key P).bind fun x hx =>
    (x.strays_toReal.mono fun h => hP ⟨key, hkey, x, hx, h⟩).bind fun y _ => hf y

end

end Value

/-! ### Texts of documents -/

namespace Token

theorem eq_badValue_of_takeNumber {negative : Bool} {cs rest : List Char} {fault : Fault}
    (h : takeNumber negative cs = some (.bad fault, rest)) : ∃ f, fault = .badValue f := by
  rw [takeNumber] at h
  rcases hw : takeWhole cs with _ | ⟨whole, after⟩
  · simp [hw] at h
  · simp only [hw] at h
    split_ifs at h
    · simp only [Option.some.injEq, Prod.mk.injEq, bad.injEq] at h
      exact ⟨_, h.1.symm⟩
    · simp at h
    · simp at h
    · simp at h

theorem eq_badValue_of_take {c : Char} {cs : List Char} {fault : Fault} (h : (take c cs).1 = .bad fault) :
    ∃ f, fault = .badValue f := by
  have hmalformed : malformed = .bad fault → ∃ f, fault = .badValue f := by
    rintro ⟨⟩
    exact ⟨_, rfl⟩
  unfold take at h
  split at h
  case h_7 =>
    split at h
    · cases h
    · exact hmalformed h
  case h_8 =>
    -- a number or a word; no word is a fault
    simp only at h
    split at h
    · next t ht =>
      obtain ⟨t, rest⟩ := t
      obtain rfl : t = .bad fault := h
      rcases hn : if c = '-' then takeNumber true cs else takeNumber false (c :: cs) with _ | r
      · rw [hn] at ht
        obtain ⟨w, -, hw⟩ := Option.map_eq_some_iff.mp (show takeWord (c :: cs) = _ from ht)
        cases hw
      · rw [hn] at ht
        obtain rfl : r = (.bad fault, rest) := Option.some.inj ht
        split_ifs at hn
        · exact eq_badValue_of_takeNumber hn
        · exact eq_badValue_of_takeNumber hn
    · exact hmalformed h
  all_goals cases h

/-- The faults among the tokens of a text are faults of syntax or of a number with too many digits. -/
theorem eq_badValue_of_mem_all {fault : Fault} : ∀ {cs : List Char}, .bad fault ∈ all cs → ∃ f, fault = .badValue f := by
  intro cs
  fun_induction all cs with
  | case1 => simp
  | case2 c cs hspace ih => exact ih
  | case3 c cs hspace next ih =>
    intro h
    rcases List.mem_cons.mp h with h | h
    · exact eq_badValue_of_take h.symm
    · exact ih h

end Token

namespace Document

/-- Reading a text finds it nested too deeply, or finds an unacceptable token. -/
def ReadFault (e : Fault) : Prop := e = .tooDeep ∨ ∃ f, e = .badValue f

theorem readFault_begin {depth : ℕ} {frames : List Frame} {t : Token} {e : Fault} (ht : ∀ f, t = .bad f → ReadFault f)
    (h : State.begin depth frames t = .error e) : ReadFault e := by
  have henter : ∀ frame expected, State.enter depth frame expected frames = .error e → ReadFault e := by
    intro frame expected h
    rw [State.enter] at h
    split_ifs at h
    cases h
    exact Or.inl rfl
  cases t
  case atom => cases h
  case bad => cases h; exact ht _ rfl
  case openList => exact henter _ _ h
  case openTable => exact henter _ _ h
  all_goals cases h; exact Or.inr ⟨_, rfl⟩

theorem readFault_step {depth : ℕ} {st : State} {t : Token} {e : Fault} (ht : ∀ f, t = .bad f → ReadFault f)
    (h : State.step depth st t = .error e) : ReadFault e := by
  unfold State.step at h
  split at h
  case h_1 => exact readFault_begin ht h
  case h_3 => exact readFault_begin ht h
  case h_12 => cases h; exact Or.inr ⟨_, rfl⟩
  all_goals cases h

theorem readFault_foldlM {depth : ℕ} {ts : List Token} (hts : ∀ t ∈ ts, ∀ f, t = .bad f → ReadFault f) {st : State}
    {e : Fault} (h : ts.foldlM (State.step depth) st = .error e) : ReadFault e := by
  induction ts generalizing st with
  | nil => cases h
  | cons t ts ih =>
    rw [List.foldlM_cons] at h
    rcases hstep : State.step depth st t with e' | st'
    · rw [hstep, error_bind] at h
      cases h
      exact readFault_step (hts t (by simp)) hstep
    · rw [hstep, ok_bind] at h
      exact ih (fun u hu => hts u (List.mem_cons_of_mem t hu)) h

/-- What goes wrong with a text is never a number out of range. -/
theorem readFault_read {depth : ℕ} {s : String} {e : Fault} (h : read depth s = .error e) : ReadFault e := by
  have htokens : ∀ t ∈ Token.all s.toList, ∀ f, t = .bad f → ReadFault f := by
    rintro _ ht f rfl
    exact Or.inr (Token.eq_badValue_of_mem_all ht)
  rw [read, ofTokens] at h
  rcases hfold : (Token.all s.toList).foldlM (State.step depth) ⟨[], .value⟩ with e' | st
  · rw [hfold, error_bind] at h
    cases h
    exact readFault_foldlM htokens hfold
  · rw [hfold, ok_bind] at h
    split at h
    · cases h
    · cases h
      exact Or.inr ⟨_, rfl⟩

end Document

/-! ### Snapshots from documents -/

def FileSummary.countNames : List String := ["totalIssues", "highSeverity", "mediumSeverity", "lowSeverity"]

def Metrics.countNames : List String :=
  ["totalFiles", "totalIssues", "highSeverityIssues", "mediumSeverityIssues", "lowSeverityIssues"]

def Metrics.meanNames : List String := ["averageScore", "performanceScore", "memoryScore", "codeQualityScore"]

/-- A number of a snapshot's document is out of range: an infinity in the place of the time or of a count, or an integer
in the place of a mean for which there is no floating-point number. -/
inductive Snapshot.Overflows (v : Value) : Prop
  | time (infinite : v.HasInfinite ["timestamp"])
  | counts {m : Value} (metrics : v.field "metrics" = .ok m) (infinite : m.HasInfinite Metrics.countNames)
  | means {m : Value} (metrics : v.field "metrics" = .ok m) (huge : m.HasHuge Metrics.meanNames)
  | file {l item : Value} {items : List Value} (listed : v.memberOr "fileAnalysis" (.list []) = .ok l)
      (elements : l.elements = .ok items) (mem : item ∈ items) (infinite : item.HasInfinite FileSummary.countNames)

theorem Percent.strays_ofValue (name : String) (v : Value) (P : Prop) : Strays (Percent.ofValue name v) P := by
  refine (v.strays_toNumber P).bind fun x _ => ?_
  rw [check]
  split_ifs
  · exact strays_ok _ _
  · exact strays_error (by simp) (by simp)

theorem Breakdown.strays_ofValues (m p c : Value) (P : Prop) : Strays (Breakdown.ofValues m p c) P :=
  (Percent.strays_ofValue _ m P).bind fun _ _ => (Percent.strays_ofValue _ p P).bind fun _ _ =>
    (Percent.strays_ofValue _ c P).bind fun _ _ => strays_ok _ _

theorem FileSummary.strays_countOf (path : Value) (name : String) (n : ℤ) (P : Prop) : Strays (countOf path name n) P := by
  rw [countOf]
  split_ifs
  · exact strays_error (by simp) (by simp)
  · exact strays_ok _ _

theorem FileSummary.strays_ofValue (v : Value) : Strays (FileSummary.ofValue v) (v.HasInfinite countNames) := by
  refine (v.strays_member? _ _).bind fun b _ => ?_
  refine (v.strays_field _ _).bind fun path _ => ?_
  refine Value.strays_count id (by decide) fun total => ?_
  refine Value.strays_count id (by decide) fun high => ?_
  refine Value.strays_count id (by decide) fun medium => ?_
  refine Value.strays_count id (by decide) fun low => ?_
  refine (v.strays_field _ _).bind fun score _ => ?_
  refine (v.strays_field _ _).bind fun grade _ => ?_
  refine (Value.strays_memberOr _ _ _ _).bind fun memory _ => ?_
  refine (Value.strays_memberOr _ _ _ _).bind fun performance _ => ?_
  refine (Value.strays_memberOr _ _ _ _).bind fun quality _ => ?_
  refine (Breakdown.strays_ofValues _ _ _ _).bind fun _ _ => ?_
  refine (strays_countOf _ _ _ _).bind fun _ _ => ?_
  refine (strays_countOf _ _ _ _).bind fun _ _ => ?_
  refine (strays_countOf _ _ _ _).bind fun _ _ => ?_
  refine (strays_countOf _ _ _ _).bind fun _ _ => ?_
  exact strays_ok _ _

theorem Metrics.strays_ofValue (v : Value) :
    Strays (Metrics.ofValue v) (v.HasInfinite countNames ∨ v.HasHuge meanNames) := by
  refine Value.strays_count Or.inl (by decide) fun totalFiles => ?_
  refine Value.strays_count Or.inl (by decide) fun totalIssues => ?_
  refine Value.strays_count Or.inl (by decide) fun high => ?_
  refine Value.strays_count Or.inl (by decide) fun medium => ?_
  refine Value.strays_count Or.inl (by decide) fun low => ?_
  refine Value.strays_mean Or.inr (by decide) fun average => ?_
  refine Value.strays_mean Or.inr (by decide) fun performance => ?_
  refine Value.strays_mean Or.inr (by decide) fun memory => ?_
  refine Value.strays_mean Or.inr (by decide) fun quality => ?_
  exact strays_ok _ _

theorem Provenance.strays_ofValue (v : Value) (P : Prop) : Strays (Provenance.ofValue v) P := by
  refine (v.strays_memberOr _ _ _).bind fun _ _ => ?_
  refine (v.strays_memberOr _ _ _).bind fun _ _ => ?_
  refine (v.strays_memberOr _ _ _).bind fun _ _ => ?_
  refine (v.strays_memberOr _ _ _).bind fun _ _ => ?_
  refine (v.strays_memberOr _ _ _).bind fun _ _ => ?_
  exact strays_ok _ _

namespace Snapshot

theorem strays_checkPaths (id : String) (P : Prop) :
    ∀ (fs : List FileSummary) (seen : List Value), Strays (checkPaths id seen fs) P
  | [], _ => strays_ok _ _
  | f :: fs, seen => by
    rw [checkPaths]
    split_ifs
    · exact strays_error (by simp) (by simp)
    · exact strays_error (by simp) (by simp)
    · exact strays_checkPaths id P fs _

theorem strays_check (x : Snapshot) (P : Prop) : Strays x.check P := by
  rw [check]
  split_ifs
  · exact strays_error (by simp) (by simp)
  · exact (strays_checkPaths _ P _ _).bind fun _ _ => strays_ok _ _

/-- What is wrong with a document of a snapshot is that it is malformed, unless a number of it is out of range. -/
theorem strays_ofValue (v : Value) : Strays (Snapshot.ofValue v) (Overflows v) := by
  refine (v.strays_field _ _).bind fun id _ => ?_
  refine Value.strays_count Overflows.time (by simp) fun timestamp => ?_
  refine (v.strays_field _ _).bind fun branch _ => ?_
  refine (v.strays_field _ _).bind fun commit _ => ?_
  refine (v.strays_field _ _).bind fun m hm => ?_
  refine ((Metrics.strays_ofValue m).mono (Or.rec (Overflows.counts hm) (Overflows.means hm))).bind fun metrics _ => ?_
  refine (v.strays_memberOr _ _ _).bind fun l hl => ?_
  refine (l.strays_elements _).bind fun items hitems => ?_
  refine (Strays.mapM fun item hitem => (FileSummary.strays_ofValue item).mono (Overflows.file hl hitems hitem)).bind
    fun files _ => ?_
  refine (v.strays_member? _ _).bind fun e _ => ?_
  refine (Provenance.strays_ofValue _ _).bind fun environment _ => ?_
  exact strays_check _ _

end Snapshot

end ScoreGate
