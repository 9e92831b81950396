import ScoreGate.Proofs.Standstill
import ScoreGate.Settings

/-!
# Settings that were checked

Settings are put together from entries, and so are the limits among them.  Whatever the entries, limits that were put
together are not negative, and the formats are a list.

* `Thresholds.ofEntries_eq_ok`, `Settings.ofEntries_eq_ok`: what was put together, and what is checked of it.
* `Settings.Valid`: settings that were put together.
* `Settings.Valid.limits_sound`, `Settings.Valid.formats`: what they are good for.
-/

namespace ScoreGate

/-! ### Limits -/

namespace Thresholds

theorem refused_ne_ok (name : String) (v : Value) (reason : String) (n : Number) : limit.refused name v reason ≠ .ok n := by
  intro h
  rw [limit.refused, bind_eq_ok] at h
  obtain ⟨text, -, h⟩ := h
  cases h

/-- A limit is taken if it is an integer or a floating-point number that is not below zero. -/
theorem limit_eq_ok {name : String} {v : Value} {n : Number} :
    limit name v = .ok n ↔ v = .number n ∧ (∀ b, n ≠ .flag b) ∧ n.isNegative = false := by
  have hnumber : ∀ m : Number, (∀ b, m ≠ .flag b) →
      ((if m.isNegative = true then limit.refused name (.number m) "must be non-negative" else .ok m) = .ok n ↔
        Value.number m = .number n ∧ (∀ b, n ≠ .flag b) ∧ n.isNegative = false) := by
    intro m hm
    split_ifs with hnegative
    · refine iff_of_false (refused_ne_ok name _ _ n) ?_
      rintro ⟨⟨⟩, -, h⟩
      rw [hnegative] at h
      cases h
    · rw [Except.ok.injEq, Value.number.injEq]
      constructor
      · rintro rfl
        exact ⟨rfl, hm, by simpa using hnegative⟩
      · exact And.left
  rcases v with _ | (b | m | x) | _ | _ | _ | _
  case number.int => exact hnumber (.int m) (by simp)
  case number.real => exact hnumber (.real x) (by simp)
  case number.flag =>
    refine iff_of_false (refused_ne_ok name _ _ n) ?_
    rintro ⟨⟨⟩, h, -⟩
    exact h b rfl
  all_goals exact iff_of_false (refused_ne_ok name _ _ n) (by simp)

/-- A limit that is taken is at least zero, or it is no number. -/
theorem nonneg_or_nan {n : Number} (h : n.isNegative = false) : (0 : Number).le n = true ∨ n = .real .nan := by
  rcases n with b | m | (_ | a | ⟨a, m, e, hc⟩)
  case real.nan => exact Or.inr rfl
  all_goals
    refine Or.inl (Place.le_of_not_lt (by decide +kernel) ?_ h)
  case flag => simp [Number.place, Place.le]
  case int => simp [Number.place, Place.le]
  case real.infinity => cases a <;> rfl
  case real.finite => simp [Number.place, Binary64.place, Place.le]

/-- Limits that were put together are numbers that are not below zero: those that were given, and otherwise the defaults. -/
theorem ofEntries_eq_ok {entries : List (String × Value)} {t : Thresholds} (h : ofEntries entries = .ok t) :
    (∀ e ∈ t.entries, ∃ n, e.2 = .number n ∧ (∀ b, n ≠ .flag b) ∧ n.isNegative = false) ∧
      ∀ name ∈ names, Value.lookup name t.entries = (Value.lookup name entries).or (Value.lookup name default.entries) := by
  rw [ofEntries] at h
  rcases hunknown : entries.find? fun e => !names.contains e.1 with _ | e
  · simp only [hunknown, bind_eq_ok, pure_eq_ok, Except.ok.injEq, limit_eq_ok] at h
    obtain ⟨regression, ⟨hregression, regressionTaken⟩, high, ⟨hhigh, highTaken⟩, total, ⟨htotal, totalTaken⟩,
      improvement, ⟨himprovement, improvementTaken⟩, rfl⟩ := h
    have hor : ∀ {x : Option Value} {d v : Value}, x.getD d = v → some v = x.or (some d) := by
      rintro (_ | x) d _ rfl <;> rfl
    simp only [Thresholds.entries, names, List.forall_mem_cons, List.not_mem_nil, false_imp_iff, implies_true, and_true]
    exact ⟨⟨⟨_, rfl, regressionTaken⟩, ⟨_, rfl, highTaken⟩, ⟨_, rfl, totalTaken⟩, ⟨_, rfl, improvementTaken⟩⟩,
      hor hregression, hor hhigh, hor htotal, hor himprovement⟩
  · rw [hunknown] at h
    cases h

/-- Limits that were put together are not negative. -/
theorem sound_of_entries {entries : List (String × Value)} {t : Thresholds} (h : ofEntries entries = .ok t) : t.Sound := by
  have hsound : ∀ (name : String) {n : Number}, (name, Value.number n) ∈ t.entries → n.isNegative = false := by
    intro name n hmem
    obtain ⟨m, hm, -, hnegative⟩ := (ofEntries_eq_ok h).1 _ hmem
    cases hm
    exact hnegative
  constructor
  · exact hsound "max_score_regression" (by simp [Thresholds.entries])
  · exact hsound "max_high_severity_increase" (by simp [Thresholds.entries])
  · exact hsound "max_total_issues_increase" (by simp [Thresholds.entries])
  · exact hsound "min_score_improvement" (by simp [Thresholds.entries])

theorem sound_default : default.Sound := by
  constructor <;> decide +kernel

end Thresholds

/-! ### Settings -/

namespace Settings

theorem refuse_ne_ok {α : Type} (name reason : String) (v : Value) (x : α) : refuse name reason v ≠ .ok x := by
  intro h
  rw [refuse, bind_eq_ok] at h
  obtain ⟨text, -, h⟩ := h
  cases h

theorem nonEmpty_eq_ok {name : String} {v x : Value} : nonEmpty name v = .ok x ↔ v = x ∧ v.isTrue = true := by
  rw [nonEmpty]
  split_ifs with h
  · simp [h]
  · simp [h, refuse_ne_ok]

theorem atLeast_eq_ok {name reason : String} {least n : Number} {v : Value} :
    atLeast name least reason v = .ok n ↔ v = .number n ∧ n.lt least = false := by
  rcases v with _ | m | _ | _ | _ | _
  case number =>
    rw [atLeast]
    split_ifs with h
    · refine iff_of_false (refuse_ne_ok _ _ _ _) ?_
      rintro ⟨⟨⟩, hm⟩
      rw [h] at hm
      cases hm
    · rw [Except.ok.injEq, Value.number.injEq]
      constructor
      · rintro rfl
        exact ⟨rfl, by simpa using h⟩
      · exact And.left
  all_goals simp [atLeast]

theorem checkFormat_eq_ok {v : Value} : checkFormat v = .ok () ↔ ∃ f ∈ formats, v.sameName (.text f) = true := by
  rw [checkFormat, ← List.any_eq_true]
  split_ifs with h
  · simp [h]
  · simp [h, refuse_ne_ok]

theorem checkFormats_eq_ok {v x : Value} : checkFormats v = .ok x ↔
    v = x ∧ ∃ items, v.elements = .ok items ∧ ∀ item ∈ items, ∃ f ∈ formats, item.sameName (.text f) = true := by
  rw [checkFormats]
  rcases hitems : v.elements with fault | items
  · simp
  · simp [bind_eq_ok, forM_eq_ok, checkFormat_eq_ok, and_comm]

/-- What is checked of settings. -/
structure Checked (s : Settings) : Prop where
  snapshotsDir : s.snapshotsDir.isTrue = true
  baselineBranch : s.baselineBranch.isTrue = true
  maxAgeDays : s.maxAgeDays.lt 0 = false
  maxFiles : s.maxFiles.lt 1 = false
  extensions : s.extensions.isTrue = true
  outputFormats : ∃ items, s.outputFormats.elements = .ok items ∧ ∀ item ∈ items, ∃ f ∈ formats, item.sameName (.text f) = true

/-- The value that entries give a setting: its entry, or else its default. -/
theorem lookup_default {name : String} (h : name ∈ names) (entries : List (String × Value)) :
    some (((Value.lookup name entries).orElse fun _ => Value.lookup name defaults).getD .null) =
      (Value.lookup name entries).or (Value.lookup name defaults) := by
  have hdefault : ∀ n ∈ names, (Value.lookup n defaults).isSome = true := by decide +kernel
  obtain ⟨d, hd⟩ := Option.isSome_iff_exists.mp (hdefault name h)
  rw [hd]
  rcases Value.lookup name entries with _ | v <;> rfl

/-- Settings that were put together have known entries, are checked, and have the limits and the entries they were given,
and otherwise their defaults. -/
theorem ofEntries_eq_ok {entries : List (String × Value)} {limits : Option Thresholds} {s : Settings}
    (h : ofEntries entries limits = .ok s) : s.Checked ∧ s.thresholds = limits ∧
      ∀ name ∈ names, Value.lookup name s.entries = (Value.lookup name entries).or (Value.lookup name defaults) := by
  rw [ofEntries] at h
  rcases hunknown : entries.find? fun e => !names.contains e.1 with _ | e
  · simp only [hunknown, bind_eq_ok, pure_eq_ok, Except.ok.injEq, nonEmpty_eq_ok, atLeast_eq_ok, checkFormats_eq_ok] at h
    obtain ⟨dir, ⟨hdir, dirChecked⟩, branch, ⟨hbranch, branchChecked⟩, age, ⟨hage, ageChecked⟩, count, ⟨hcount, countChecked⟩,
      extensions, ⟨hextensions, extensionsChecked⟩, formats, ⟨hformats, formatsChecked⟩, rfl⟩ := h
    refine ⟨⟨hdir ▸ dirChecked, hbranch ▸ branchChecked, ageChecked, countChecked, hextensions ▸ extensionsChecked,
      hformats ▸ formatsChecked⟩, rfl, fun name hname => ?_⟩
    rw [← lookup_default hname]
    simp only [names, kinds, List.map_cons, List.map_nil, List.mem_cons, List.not_mem_nil, or_false] at hname
    rcases hname with rfl | rfl | rfl | rfl | rfl | rfl | rfl | rfl | rfl
    · exact congrArg some hdir.symm
    · exact congrArg some hbranch.symm
    · exact congrArg some hage.symm
    · exact congrArg some hextensions.symm
    · rfl
    · exact congrArg some hcount.symm
    · exact congrArg some hformats.symm
    · rfl
    · rfl
  · rw [hunknown] at h
    cases h

/-- Settings that were put together from entries, with limits that were put together too, or without any. -/
def Valid (s : Settings) : Prop :=
  ∃ entries limits, ofEntries entries limits = .ok s ∧ ∀ t, limits = some t → ∃ es, Thresholds.ofEntries es = .ok t

namespace Valid

variable {s : Settings}

/-- What was put together is checked, and has the limits that it was given. -/
theorem parts (h : s.Valid) : s.Checked ∧ ∀ t, s.thresholds = some t → ∃ es, Thresholds.ofEntries es = .ok t := by
  obtain ⟨entries, limits, h, hlimits⟩ := h
  obtain ⟨hchecked, rfl, -⟩ := ofEntries_eq_ok h
  exact ⟨hchecked, hlimits⟩

theorem formats (h : s.Valid) : ∃ items, s.outputFormats.elements = .ok items :=
  h.parts.1.outputFormats.imp fun _ hitems => hitems.1

theorem limits_sound (h : s.Valid) : s.limits.Sound := by
  rw [Settings.limits]
  rcases hlimits : s.thresholds with _ | t
  · exact Thresholds.sound_default
  · obtain ⟨es, hes⟩ := h.parts.2 t hlimits
    exact Thresholds.sound_of_entries hes

end Valid

end Settings

end ScoreGate
