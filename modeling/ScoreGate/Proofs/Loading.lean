import ScoreGate.Proofs.Layers
import ScoreGate.Proofs.Misreading

/-!
# What comes of loading settings

Loading ends with settings that were checked, or with a failure.  The checks see to bounds but not to every kind of
value: a setting of another kind than its own comes from a file or from an option, and a threshold that is no number is
taken.  A failure is one of settings, with words of its own, but for a few that have their cause in a file or in a value
that cannot be written.

* `Settings.Sound`: settings that are what they are declared to be.
* `Workspace.Escapes`: the failures of loading that are none of settings, with their causes.
* `loadSettings_checks`: both outcomes of loading.
-/

namespace ScoreGate

/-! ### Kinds -/

/-- Whether a value is of a kind. -/
def SettingKind.Admits : SettingKind → Value → Prop
  | .text, v => ∃ s, v = .text s
  | .integer, v => ∃ n, v = .int n
  | .real, v => ∃ n, v = .number n ∧ ∀ b, n ≠ .flag b
  | .flag, v => ∃ b, v = .flag b
  | .items, v => ∃ ts, v = Settings.texts ts

theorem SettingKind.admits_of_read {k : SettingKind} {s : String} {v : Value} (h : k.read s = .ok v) : k.Admits v := by
  rcases k
  case text =>
    cases h
    exact ⟨s, rfl⟩
  case integer =>
    obtain ⟨n, -, hn⟩ := map_eq_ok.mp h
    exact ⟨n, hn.symm⟩
  case real =>
    obtain ⟨x, -, hx⟩ := map_eq_ok.mp h
    exact ⟨.real x, hx.symm, by simp⟩
  case flag =>
    rw [read] at h
    split_ifs at h
    · cases h
      exact ⟨true, rfl⟩
    · cases h
      exact ⟨false, rfl⟩
  case items =>
    cases h
    exact ⟨_, rfl⟩

theorem Workspace.admits_environmentValue? {w : Workspace} {name : String} {kind : SettingKind} {v : Value}
    (h : w.environmentValue? name kind = some v) : kind.Admits v := by
  obtain ⟨s, -, hread⟩ := Option.bind_eq_some_iff.mp h
  rcases hv : kind.read s with fault | x
  · rw [hv] at hread
    cases hread
  · rw [hv] at hread
    cases hread
    exact SettingKind.admits_of_read hv

namespace Settings

theorem admits_default (name : String) (kind : SettingKind) (hname : (name, kind) ∈ kinds) (v : Value)
    (h : Value.lookup name defaults = some v) : kind.Admits v := by
  simp only [kinds, List.mem_cons, Prod.mk.injEq, List.not_mem_nil, or_false] at hname
  rcases hname with ⟨rfl, rfl⟩ | ⟨rfl, rfl⟩ | ⟨rfl, rfl⟩ | ⟨rfl, rfl⟩ | ⟨rfl, rfl⟩ | ⟨rfl, rfl⟩ | ⟨rfl, rfl⟩ | ⟨rfl, rfl⟩ |
    ⟨rfl, rfl⟩ <;> cases h <;> exact ⟨_, rfl⟩

def Typed (s : Settings) : Prop :=
  ∀ name kind, (name, kind) ∈ kinds → ∀ v, Value.lookup name s.entries = some v → kind.Admits v

/-- Settings that are what they are declared to be: of their kinds and within their bounds. -/
structure Sound (s : Settings) : Prop where
  snapshotsDir : ∃ t, s.snapshotsDir = .text t ∧ t ≠ ""
  baselineBranch : ∃ t, s.baselineBranch = .text t ∧ t ≠ ""
  maxAgeDays : ∃ n : ℤ, s.maxAgeDays = .int n ∧ 0 ≤ n
  maxFiles : ∃ n : ℤ, s.maxFiles = .int n ∧ 1 ≤ n
  extensions : ∃ ts, s.extensions = texts ts ∧ ts ≠ []
  excludePatterns : ∃ ts, s.excludePatterns = texts ts
  outputFormats : ∃ ts, s.outputFormats = texts ts ∧ ∀ t ∈ ts, t ∈ formats
  failOnRegression : ∃ b, s.failOnRegression = .flag b
  warnOnRegression : ∃ b, s.warnOnRegression = .flag b
  thresholds : ∃ t, s.thresholds = some t ∧
    ∀ e ∈ t.entries, ∃ n, e.2 = .number n ∧ (∀ b, n ≠ .flag b) ∧ (0 : Number).le n = true

theorem typed_iff {s : Settings} : s.Typed ↔ (∃ t, s.snapshotsDir = .text t) ∧ (∃ t, s.baselineBranch = .text t) ∧
    (∃ n : ℤ, s.maxAgeDays = .int n) ∧ (∃ ts, s.extensions = texts ts) ∧ (∃ ts, s.excludePatterns = texts ts) ∧
    (∃ n : ℤ, s.maxFiles = .int n) ∧ (∃ ts, s.outputFormats = texts ts) ∧ (∃ b, s.failOnRegression = .flag b) ∧
    ∃ b, s.warnOnRegression = .flag b := by
  constructor
  · intro h
    refine ⟨h "snapshots_dir" .text (by decide) _ rfl, h "baseline_branch" .text (by decide) _ rfl, ?_,
      h "extensions" .items (by decide) _ rfl, h "exclude_patterns" .items (by decide) _ rfl, ?_,
      h "output_formats" .items (by decide) _ rfl, h "fail_on_regression" .flag (by decide) _ rfl,
      h "warn_on_regression" .flag (by decide) _ rfl⟩
    · obtain ⟨n, hn⟩ := h "snapshot_max_age_days" .integer (by decide) _ rfl
      exact ⟨n, by simpa using hn⟩
    · obtain ⟨n, hn⟩ := h "max_files" .integer (by decide) _ rfl
      exact ⟨n, by simpa using hn⟩
  · rintro ⟨hdir, hbranch, ⟨age, hage⟩, hextensions, hpatterns, ⟨count, hcount⟩, hformats, hfail, hwarn⟩ name kind hname v hv
    simp only [kinds, List.mem_cons, Prod.mk.injEq, List.not_mem_nil, or_false] at hname
    rcases hname with ⟨rfl, rfl⟩ | ⟨rfl, rfl⟩ | ⟨rfl, rfl⟩ | ⟨rfl, rfl⟩ | ⟨rfl, rfl⟩ | ⟨rfl, rfl⟩ | ⟨rfl, rfl⟩ | ⟨rfl, rfl⟩ |
      ⟨rfl, rfl⟩ <;> cases hv
    · exact hdir
    · exact hbranch
    · exact ⟨age, congrArg Value.number hage⟩
    · exact hextensions
    · exact hpatterns
    · exact ⟨count, congrArg Value.number hcount⟩
    · exact hformats
    · exact hfail
    · exact hwarn

theorem le_of_int {n least : ℤ} (h : (Number.int n).lt (.int least) = false) : least ≤ n :=
  not_lt.mp fun hlt => absurd (Number.int_lt_int.mpr hlt) (Bool.eq_false_iff.mp h)

theorem Sound.typed {s : Settings} (h : s.Sound) : s.Typed :=
  typed_iff.mpr ⟨h.snapshotsDir.imp fun _ => And.left, h.baselineBranch.imp fun _ => And.left,
    h.maxAgeDays.imp fun _ => And.left, h.extensions.imp fun _ => And.left, h.excludePatterns,
    h.maxFiles.imp fun _ => And.left, h.outputFormats.imp fun _ => And.left, h.failOnRegression, h.warnOnRegression⟩

theorem Sound.ne_nan {s : Settings} {t : Thresholds} (h : s.Sound) (ht : s.thresholds = some t) :
    ∀ e ∈ t.entries, e.2 ≠ .real .nan := by
  intro e he hnan
  obtain ⟨u, hu, hsound⟩ := h.thresholds
  obtain rfl : u = t := Option.some.inj (hu.symm.trans ht)
  obtain ⟨n, hn, -, hle⟩ := hsound e he
  rw [hnan, Value.number.injEq] at hn
  rw [← hn] at hle
  revert hle
  decide +kernel

/-- Settings that were checked and are of their kinds are sound, if no threshold is NaN. -/
theorem Checked.sound {s : Settings} {t : Thresholds} (h : s.Checked) (ht : s.thresholds = some t)
    (hlimits : ∀ e ∈ t.entries, ∃ n, e.2 = .number n ∧ (∀ b, n ≠ .flag b) ∧ n.isNegative = false)
    (htyped : s.Typed) (hnan : ∀ e ∈ t.entries, e.2 ≠ .real .nan) : s.Sound := by
  obtain ⟨⟨dir, hdir⟩, ⟨branch, hbranch⟩, ⟨age, hage⟩, ⟨extensions, hextensions⟩, hpatterns, ⟨count, hcount⟩,
    ⟨formats, hformats⟩, hfail, hwarn⟩ := typed_iff.mp htyped
  refine ⟨⟨dir, hdir, ?dir⟩, ⟨branch, hbranch, ?branch⟩, ⟨age, hage, le_of_int (hage ▸ h.maxAgeDays)⟩,
    ⟨count, hcount, le_of_int (hcount ▸ h.maxFiles)⟩, ⟨extensions, hextensions, ?extensions⟩, hpatterns, ⟨formats, hformats, ?formats⟩,
    hfail, hwarn, t, ht, fun e he => ?thresholds⟩
  case dir =>
    rintro rfl
    have := h.snapshotsDir
    rw [hdir] at this
    cases this
  case branch =>
    rintro rfl
    have := h.baselineBranch
    rw [hbranch] at this
    cases this
  case extensions =>
    rintro rfl
    have hsome := h.extensions
    rw [hextensions] at hsome
    cases hsome
  case formats =>
    intro f hf
    obtain ⟨items, hitems, hknown⟩ := h.outputFormats
    rw [hformats, texts, Value.elements, Except.ok.injEq] at hitems
    obtain ⟨g, hg, hsame⟩ := hknown (.text f) (hitems ▸ List.mem_map_of_mem hf)
    obtain rfl : f = g := by simpa [Value.sameName] using hsame
    exact hg
  case thresholds =>
    obtain ⟨n, hn, hflag, hnegative⟩ := hlimits e he
    refine ⟨n, hn, hflag, (Thresholds.nonneg_or_nan hnegative).resolve_right ?_⟩
    rintro rfl
    exact hnan e he hn

/-- Settings that were checked are sound if every one is of its kind and every threshold is a number. -/
theorem Checked.sound_iff {s : Settings} {t : Thresholds} (h : s.Checked) (ht : s.thresholds = some t)
    (hlimits : ∀ e ∈ t.entries, ∃ n, e.2 = .number n ∧ (∀ b, n ≠ .flag b) ∧ n.isNegative = false) :
    s.Sound ↔ s.Typed ∧ ∀ e ∈ t.entries, e.2 ≠ .real .nan :=
  ⟨fun hs => ⟨hs.typed, hs.ne_nan ht⟩, fun ⟨htyped, hnan⟩ => h.sound ht hlimits htyped hnan⟩

end Settings

/-! ### Refusals -/

def Failure.IsSettings : Failure → Prop
  | .settings _ | .invalidSetting .. => True
  | _ => False

/-- A failure of settings, or that of a value among these which has no written form. -/
def Refusal (vs : List Value) (e : Failure) : Prop :=
  e.IsSettings ∨ e = .fault (.badValue .hugeInteger) ∧ ∃ v ∈ vs, v.isWritable = false

theorem Refusal.mono {vs ws : List Value} {e : Failure} (h : Refusal vs e) (hmem : ∀ v ∈ vs, v.isWritable = false → v ∈ ws) :
    Refusal ws e :=
  h.imp id fun ⟨he, v, hv, hunwritable⟩ => ⟨he, v, hmem v hv hunwritable, hunwritable⟩

/-- The words of a refusal quote the value, if it can be written. -/
theorem fails_displayed (v : Value) {α : Type} (f : String → Failure) (hf : ∀ s, (f s).IsSettings) :
    FailsOnly ((v.displayed.mapError Failure.fault) >>= fun s => throw (f s) : Except Failure α) (Refusal [v]) := by
  rw [Value.displayed, Value.checkWritable]
  split_ifs with h
  · exact .error (Or.inl (hf _))
  · exact .error (Or.inr ⟨rfl, v, List.mem_singleton_self v, by simpa using h⟩)

namespace Thresholds

theorem fails_limit (name : String) (v : Value) : FailsOnly (limit name v) (Refusal [v]) := by
  have hrefused : ∀ reason, FailsOnly (limit.refused name v reason) (Refusal [v]) :=
    fun reason => fails_displayed v (fun s => .invalidSetting name s reason) fun _ => trivial
  unfold limit
  split
  · exact hrefused _
  · split_ifs
    · exact hrefused _
    · exact .ok _ _
  · exact hrefused _

theorem fails_ofEntries (entries : List (String × Value)) : FailsOnly (ofEntries entries) (Refusal (entries.map (·.2))) := by
  have hread : ∀ name d, (Value.number d).isWritable = true →
      FailsOnly (limit name ((Value.lookup name entries).getD (.number d))) (Refusal (entries.map (·.2))) := by
    intro name d hd
    refine (fails_limit name _).mono fun e he => he.mono ?_
    intro v hv hunwritable
    rw [List.mem_singleton] at hv
    rcases hfound : Value.lookup name entries with _ | x
    · rw [hfound, Option.getD_none] at hv
      rw [hv, hd] at hunwritable
      cases hunwritable
    · rw [hfound, Option.getD_some] at hv
      rw [hv]
      exact List.mem_map_of_mem (Value.mem_of_lookup hfound)
  rw [ofEntries]
  rcases hunknown : entries.find? fun e => !names.contains e.1 with _ | e
  · simp only [hunknown]
    refine (hread "max_score_regression" default.maxScoreRegression (by decide +kernel)).bind fun _ _ => ?_
    refine (hread "max_high_severity_increase" default.maxHighIncrease (by decide +kernel)).bind fun _ _ => ?_
    refine (hread "max_total_issues_increase" default.maxTotalIncrease (by decide +kernel)).bind fun _ _ => ?_
    refine (hread "min_score_improvement" default.minScoreImprovement (by decide +kernel)).bind fun _ _ => ?_
    exact .ok _ _
  · simp only [hunknown]
    exact .error (Or.inl trivial)

end Thresholds

namespace Settings

theorem fails_refuse {α : Type} (name reason : String) (v : Value) :
    FailsOnly (refuse name reason v : Except Failure α) (Refusal [v]) :=
  fails_displayed v (fun s => .invalidSetting name s reason) fun _ => trivial

theorem fails_nonEmpty (name : String) (v : Value) : FailsOnly (nonEmpty name v) (Refusal [v]) := by
  rw [nonEmpty]
  split_ifs
  · exact .ok _ _
  · exact fails_refuse name _ v

theorem fails_atLeast (name : String) (least : Number) (reason : String) (v : Value) :
    FailsOnly (atLeast name least reason v) (Refusal [v]) := by
  unfold atLeast
  split
  · split_ifs
    · exact fails_refuse name _ _
    · exact .ok _ _
  · exact .error (Or.inl trivial)

theorem isWritable_of_elements {v : Value} {items : List Value} (h : v.elements = .ok items) (hv : v.isWritable = true) :
    ∀ item ∈ items, item.isWritable = true := by
  have hall : ∀ vs : List Value, Value.areWritable vs = true → ∀ item ∈ vs, item.isWritable = true := by
    intro vs
    induction vs with
    | nil => simp
    | cons v vs ih =>
      rw [Value.areWritable, Bool.and_eq_true, List.forall_mem_cons]
      exact And.imp_right ih
  rcases v with _ | _ | s | vs | es | _
  case list =>
    cases h
    exact hall items hv
  case text =>
    cases h
    rintro _ hitem
    obtain ⟨c, -, rfl⟩ := List.mem_map.mp hitem
    rfl
  case table =>
    cases h
    rintro _ hitem
    obtain ⟨e, -, rfl⟩ := List.mem_map.mp hitem
    rfl
  all_goals cases h

theorem fails_checkFormats (v : Value) : FailsOnly (checkFormats v) (Refusal [v]) := by
  rw [checkFormats]
  rcases hitems : v.elements with fault | items
  · exact .error (Or.inl trivial)
  · refine FailsOnly.bind (FailsOnly.forM fun item hitem => ?_) fun _ _ => .ok _ _
    rw [checkFormat]
    split_ifs
    · exact .ok _ _
    · refine (fails_refuse _ _ item).mono fun e he => he.imp id ?_
      rintro ⟨hhuge, x, hx, hunwritable⟩
      obtain rfl := List.mem_singleton.mp hx
      refine ⟨hhuge, v, List.mem_singleton_self v, ?_⟩
      by_contra hv
      rw [isWritable_of_elements hitems (by simpa using hv) _ hitem] at hunwritable
      cases hunwritable

theorem Refusal.of_lookup {entries : List (String × Value)} {name : String} {e : Failure}
    (h : Refusal [((Value.lookup name entries).orElse fun _ => Value.lookup name defaults).getD .null] e) :
    Refusal (entries.map (·.2)) e := by
  refine h.mono fun v hv hunwritable => ?_
  obtain rfl := List.mem_singleton.mp hv
  rcases hfound : Value.lookup name entries with _ | x
  · rw [hfound] at hunwritable
    have hdefaults : ∀ d ∈ defaults, d.2.isWritable = true := by decide +kernel
    rcases hdefault : Value.lookup name defaults with _ | d
    · rw [Option.orElse_none, hdefault] at hunwritable
      cases hunwritable
    · rw [Option.orElse_none, hdefault, Option.getD_some, hdefaults _ (Value.mem_of_lookup hdefault)] at hunwritable
      cases hunwritable
  · exact List.mem_map_of_mem (Value.mem_of_lookup hfound)

theorem fails_ofEntries (entries : List (String × Value)) (limits : Option Thresholds) :
    FailsOnly (ofEntries entries limits) (Refusal (entries.map (·.2))) := by
  rw [ofEntries]
  rcases hunknown : entries.find? fun e => !names.contains e.1 with _ | e
  · simp only [hunknown]
    refine ((fails_nonEmpty _ _).mono fun _ => Refusal.of_lookup).bind fun _ _ => ?_
    refine ((fails_nonEmpty _ _).mono fun _ => Refusal.of_lookup).bind fun _ _ => ?_
    refine ((fails_atLeast _ _ _ _).mono fun _ => Refusal.of_lookup).bind fun _ _ => ?_
    refine ((fails_atLeast _ _ _ _).mono fun _ => Refusal.of_lookup).bind fun _ _ => ?_
    refine ((fails_nonEmpty _ _).mono fun _ => Refusal.of_lookup).bind fun _ _ => ?_
    refine ((fails_checkFormats _).mono fun _ => Refusal.of_lookup).bind fun _ _ => ?_
    exact .ok _ _
  · simp only [hunknown]
    exact .error (Or.inl trivial)

end Settings

theorem Layers.fails_result (l : Layers) : FailsOnly l.result (Refusal ((l.settings ++ l.thresholds).map (·.2))) := by
  rw [result]
  refine ((Thresholds.fails_ofEntries _).mono fun e he => he.mono fun v hv _ => ?_).bind fun t _ =>
    (Settings.fails_ofEntries _ _).mono fun e he => he.mono fun v hv _ => ?_
  · rw [List.map_append]
    exact List.mem_append_right _ hv
  · obtain ⟨e, hmem, rfl⟩ := List.mem_map.mp hv
    exact List.mem_map_of_mem (List.mem_append_left _ (List.mem_filter.mp hmem).1)

/-! ### Escapes -/

section

variable {w : Workspace} {file : Option Path} {options : List Override}

def IsSettingsFile (file : Option Path) (p : Path) : Prop := p = projectPath ∨ file = some p

/-- The failures of loading that are none of settings: the file system refuses the name of a file; a file is no text, is
nested too deeply or holds an integer with too many digits; or a value in a layer is refused that has no written form. -/
inductive Workspace.Escapes (w : Workspace) (file : Option Path) (options : List Override)
     : Failure → Prop
  | refused {p : Path} (hp : IsSettingsFile file p) (h : w.locate p = .error .nameTooLong) :
      w.Escapes file options .system
  | encoding {p : Path} {bytes : ByteArray} (hp : IsSettingsFile file p) (h : w.read p = .ok bytes)
      (hbytes : String.fromUTF8? bytes = none) : w.Escapes file options .notUtf8
  | tooDeep {p : Path} {s : String} (hp : IsSettingsFile file p) (h : w.Holds p s)
      (hread : Toml.read (w.depth - 1) s = .error .tooDeep) : w.Escapes file options (.fault .tooDeep)
  | tooManyDigits {p : Path} {s : String} {count : ℕ} (hp : IsSettingsFile file p) (h : w.Holds p s)
      (hread : Toml.read (w.depth - 1) s = .error (.badValue (.tooManyDigits count))) :
      w.Escapes file options (.fault (.badValue (.tooManyDigits count)))
  | unwritable {l : Layers} {e : String × Value} (hl : w.Layered file options l)
      (he : e ∈ l.settings ++ l.thresholds) (hunwritable : e.2.isWritable = false) :
      w.Escapes file options (.fault (.badValue .hugeInteger))

theorem Workspace.Withholds.isSettings_or_escapes {p : Path} {e : Failure} (hp : IsSettingsFile file p) (h : w.Withholds p e) :
    e.IsSettings ∨ w.Escapes file options e := by
  rcases h with h | h | h | _
  case refused => exact Or.inr (.refused hp h)
  case missing => exact Or.inl trivial
  case notTable => exact Or.inl trivial
  case unread =>
    rcases h with h | ⟨h, hbytes⟩ | _ | ⟨h, hread, hgrammar⟩
    case obstacle => exact Or.inl trivial
    case encoding => exact Or.inr (.encoding hp h hbytes)
    case malformed => exact Or.inl trivial
    case fault =>
      rcases Toml.misreads_read _ _ _ hread
      case malformed => exact absurd rfl hgrammar
      case tooDeep => exact Or.inr (.tooDeep hp h hread)
      case tooManyDigits => exact Or.inr (.tooManyDigits hp h hread)

theorem Workspace.Misloads.isSettings_or_escapes {e : Failure} (h : w.Misloads file options e) :
    e.IsSettings ∨ w.Escapes file options e := by
  rcases h with h | ⟨hfile, h⟩ | _ | ⟨hl, h⟩
  case project => exact h.isSettings_or_escapes (Or.inl rfl)
  case named => exact h.isSettings_or_escapes (Or.inr hfile)
  case unread => exact Or.inl trivial
  case result =>
    rcases Layers.fails_result _ _ h with h | ⟨rfl, v, hv, hunwritable⟩
    · exact Or.inl h
    · obtain ⟨e, he, rfl⟩ := List.mem_map.mp hv
      exact Or.inr (.unwritable hl he hunwritable)

/-- Loading ends with settings that were checked, or with a failure of settings or one that escapes. -/
theorem loadSettings_checked : (loadSettings file options).Ends w (fun s v => v = w ∧ s.Checked)
    fun e v => v = w ∧ (e.IsSettings ∨ w.Escapes file options e) := by
  refine loadSettings_ends.mono (fun s v h => ?_) fun e v h => ⟨h.1, h.2.isSettings_or_escapes⟩
  obtain ⟨hv, -, l, -, hresult⟩ := h
  obtain ⟨-, -, -, hchecked, -⟩ := Layers.result_eq_ok hresult
  exact ⟨hv, hchecked⟩

/-- Loading settings changes nothing, and ends in one of two ways.  With settings that were checked: they are sound unless
one is of another kind than its own, which only a file or an option can give it, or a threshold is no number.  With a
failure: one of settings, unless it escapes. -/
theorem loadSettings_checks : (loadSettings file options).Ends w
    (fun s v => v = w ∧ s.Checked ∧ ∃ project named t, w.SuppliesProject project ∧ w.SuppliesNamed file named ∧
      s.thresholds = some t ∧ (s.Sound ↔ s.Typed ∧ ∀ e ∈ t.entries, e.2 ≠ .real .nan) ∧
      (∀ e ∈ t.entries, ∃ n, e.2 = .number n ∧ (∀ b, n ≠ .flag b) ∧ n.isNegative = false) ∧
      ∀ name kind, (name, kind) ∈ Settings.kinds → ∀ x, Value.lookup name s.entries = some x → kind.Admits x ∨
        Value.latest name (Layers.givenOptions options) = some x ∨ Value.latest name named = some x ∨
          Value.latest name project = some x)
    fun e v => v = w ∧ (e.IsSettings ∨ w.Escapes file options e) := by
  refine loadSettings_ends.mono (fun s v h => ?_) fun e v h => ⟨h.1, h.2.isSettings_or_escapes⟩
  obtain ⟨rfl, -, l, ⟨project, named, hproject, hnamed, rfl⟩, hresult⟩ := h
  obtain ⟨t, ht, hlimits, hchecked, hentries⟩ := Layers.result_eq_ok hresult
  have htaken := (Thresholds.ofEntries_eq_ok ht).1
  refine ⟨rfl, hchecked, project, named, t, hproject, hnamed, hlimits, hchecked.sound_iff hlimits htaken, htaken,
    fun name kind hname x hx => ?_⟩
  rw [hentries name kind hname, Layers.lookup_settings_all hname] at hx
  simp only [Option.or_assoc, Option.or_eq_some_iff] at hx
  -- a setting comes from one of the layers; only variables and defaults are of its kind by themselves
  rcases hx with hx | ⟨-, hx | ⟨-, hx | ⟨-, hx | ⟨-, hx⟩⟩⟩⟩
  · exact Or.inr (Or.inl hx)
  · exact Or.inl (Workspace.admits_environmentValue? hx)
  · exact Or.inr (Or.inr (Or.inl hx))
  · exact Or.inr (Or.inr (Or.inr hx))
  · exact Or.inl (Settings.admits_default name kind hname x hx)

end

end ScoreGate
