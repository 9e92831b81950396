import ScoreGate.Proofs.Adding
import ScoreGate.Proofs.Finding
import ScoreGate.Proofs.Naming
import ScoreGate.Proofs.Skipping
import ScoreGate.Proofs.Surrounding

/-!
# Extensions with and without their dots

The extensions of sources can be given as an option or as a variable, both as items between commas.  The option puts a dot
before each item that has none, and the variable takes the items as they stand.  The settings that come of it differ in the
extensions alone, and no name ends in an item without its dot.

* `Dotted`: the items among which each stands with its dot, `Dotted.mem_items`: then no ending is lost.
* `Tree.sources_items`, `findSources_dotted`: the sources under the items as they stand, and under those with their dots.
* `Command.loaded_extensions`: the settings from the option and from the variable.
-/

namespace ScoreGate

open Command (normalExtensions bulkOptions analyses)

/-! ### Items -/

section Items

variable {items : List String} {cs : List Char}

theorem ne_empty_of_mem_commaItems {s item : String} (h : item ∈ commaItems s) : item ≠ "" := by
  rw [commaItems, List.mem_filterMap] at h
  obtain ⟨l, -, hl⟩ := h
  rcases l with _ | ⟨c, cs⟩
  · cases hl
  · cases hl
    exact fun hempty => List.cons_ne_nil c cs (by simpa using congrArg String.toList hempty)

/-- An item has no characters but those of the text. -/
theorem subset_of_mem_commaItems {s item : String} (h : item ∈ commaItems s) : item.toList ⊆ s.toList := by
  rw [commaItems, List.mem_filterMap] at h
  obtain ⟨l, hl, hitem⟩ := h
  obtain ⟨m, hm, rfl⟩ := List.mem_map.mp hl
  have hpiece : m ⊆ s.toList := fun c hc => joinWith_splitOn ',' s.toList ▸ mem_joinWith_of_mem hm hc
  obtain rfl : String.ofList (strip m) = item := by
    split_ifs at hitem
    exact Option.some.inj hitem
  rw [String.toList_ofList, strip, trimWhile]
  have hstart := dropEndWhile_prefix isBlank (m.dropWhile isBlank)
  exact fun c hc => hpiece ((List.dropWhile_suffix _).subset (hstart.subset hc))

/-- The ending of a name is nothing, or a dot and what stands behind the last dot of the name. -/
theorem Path.suffixOf_cases (name : String) : suffixOf name = "" ∨
    ∃ cs, suffixOf name = String.ofList ('.' :: cs) ∧ '.' ∉ cs ∧ cs ⊆ name.toList := by
  rw [suffixOf]
  split_ifs
  · exact Or.inl rfl
  · refine Or.inr ⟨_, rfl, ?_, ?_⟩
    · rw [List.mem_reverse]
      exact fun hdot => by simpa using List.mem_takeWhile_imp hdot
    · intro c hc
      exact List.mem_reverse.mp ((List.takeWhile_subset _) (List.mem_reverse.mp hc))

theorem normalExtensions_eq_nil : normalExtensions items = [] ↔ items = [] := List.map_eq_nil_iff

/-- An ending is among the items with their dots if it stands among the items, with its dot or without. -/
theorem mem_normalExtensions (hcs : '.' ∉ cs) : String.ofList ('.' :: cs) ∈ normalExtensions items ↔
    String.ofList ('.' :: cs) ∈ items ∨ String.ofList cs ∈ items := by
  have hdotted : String.ofList ('.' :: cs) = "." ++ String.ofList cs := by simp
  rw [normalExtensions, List.mem_map]
  constructor
  · rintro ⟨item, hitem, h⟩
    split_ifs at h with hhead
    · exact Or.inl (h ▸ hitem)
    · rw [hdotted, String.append_right_inj] at h
      exact Or.inr (h ▸ hitem)
  · rintro (h | h)
    · exact ⟨_, h, by simp⟩
    · refine ⟨_, h, ?_⟩
      rw [if_neg, hdotted]
      rw [String.toList_ofList]
      exact fun hhead => hcs (List.mem_of_head? hhead)

/-- No ending of a name is among the items with their dots but those that stand among them. -/
theorem mem_normalExtensions_of_mem (hempty : "" ∉ items) {name : String} (h : Path.suffixOf name ∈ items) :
    Path.suffixOf name ∈ normalExtensions items := by
  rcases Path.suffixOf_cases name with hnone | ⟨cs, hcs, hdot, -⟩
  · exact absurd (hnone ▸ h) hempty
  · rw [hcs] at h ⊢
    exact (mem_normalExtensions hdot).mpr (Or.inl h)

/-- Each item without a dot that could end a name also stands among the items with a dot before it. -/
def Dotted (items : List String) : Prop :=
  ∀ item ∈ items, '.' ∉ item.toList → '/' ∉ item.toList → "." ++ item ∈ items

/-- Then a name that ends in one of the items with their dots ends in one that stands among them. -/
theorem Dotted.mem_items (h : Dotted items) {name : String} (hname : IsFileName name)
    (hmem : Path.suffixOf name ∈ normalExtensions items) : Path.suffixOf name ∈ items := by
  rcases Path.suffixOf_cases name with hnone | ⟨cs, hcs, hdot, hsubset⟩
  · rw [hnone, normalExtensions, List.mem_map] at hmem
    obtain ⟨item, hitem, heq⟩ := hmem
    split_ifs at heq with hhead
    · rwa [hnone, ← heq]
    · simp [← String.toList_inj] at heq
  · rw [hcs] at hmem ⊢
    rcases (mem_normalExtensions hdot).mp hmem with hmem | hmem
    · exact hmem
    · have hstands := h _ hmem (by rwa [String.toList_ofList]) fun hslash => ?_
      · rwa [show String.ofList ('.' :: cs) = "." ++ String.ofList cs by simp]
      · rw [String.toList_ofList] at hslash
        exact hname.2.2 (hsubset hslash)

end Items

/-! ### Sources -/

namespace Tree

variable {t : Tree} {loc : Location} {items patterns names : List String}

theorem candidates_items (hempty : "" ∉ items) (t : Tree) (loc : Location) : t.candidates loc (items.map .text) =
    (t.candidates loc ((normalExtensions items).map .text)).filter fun names => Path.suffixOf (names.getLastD "") ∈ items := by
  rw [candidates, candidates, filter_mergeSort, List.filter_filter]
  congr 1
  refine List.filter_congr fun names _ => ?_
  rw [Bool.eq_iff_iff, Bool.and_eq_true, Bool.and_eq_true, Bool.and_eq_true, hasExtension_texts, hasExtension_texts,
    decide_eq_true_eq]
  constructor
  · rintro ⟨hvisible, hmem⟩
    exact ⟨hmem, hvisible, mem_normalExtensions_of_mem hempty hmem⟩
  · rintro ⟨hmem, hvisible, -⟩
    exact ⟨hvisible, hmem⟩

theorem sources_items (hempty : "" ∉ items) (t : Tree) (loc : Location) (patterns : List String) :
    t.sources loc items patterns =
      (t.sources loc (normalExtensions items) patterns).filter fun names => Path.suffixOf (names.getLastD "") ∈ items := by
  rw [sources, sources, candidates_items hempty, List.filter_filter, List.filter_filter]
  simp only [Bool.and_comm]

theorem isFileName_of_candidate (h : t.Spelled) {extensions : List Value} (hnames : names ∈ t.candidates loc extensions) :
    IsFileName (names.getLastD "") := by
  rw [candidates, List.mem_mergeSort, List.mem_filter, mem_filesBelow h.unique] at hnames
  obtain ⟨⟨hne, bytes, hfind⟩, -⟩ := hnames
  rcases eq_nil_or_mem hfind with hnil | hmem
  · exact absurd (List.append_eq_nil_iff.mp hnil).2 hne
  · refine h.names _ hmem _ (List.mem_append_right _ ?_)
    rw [List.getLastD_eq_getLast?, List.getLast?_eq_some_getLast hne]
    exact List.getLast_mem hne

/-- Where each item stands with its dot, nothing is left out. -/
theorem candidates_dotted (ht : t.Spelled) (hempty : "" ∉ items) (h : Dotted items) (loc : Location) :
    t.candidates loc (items.map .text) = t.candidates loc ((normalExtensions items).map .text) := by
  rw [candidates_items hempty, List.filter_eq_self]
  intro names hnames
  have hextension := hnames
  rw [candidates, List.mem_mergeSort, List.mem_filter, Bool.and_eq_true, hasExtension_texts] at hextension
  exact decide_eq_true (h.mem_items (isFileName_of_candidate ht hnames) hextension.2.2)

end Tree

theorem Action.exec_bind_congr {α β : Type} {a : Action α} {f g : α → Action β} {w : Workspace}
    (h : ∀ x v, a.exec w = (.ok x, v) → (f x).exec v = (g x).exec v) : (a >>= f).exec w = (a >>= g).exec w := by
  rw [exec_bind, exec_bind]
  rcases hx : a.exec w with ⟨e | x, v⟩
  · rfl
  · exact h x v hx

theorem findSources_dotted {w : Workspace} {items : List String} (ht : w.tree.Spelled) (hempty : "" ∉ items)
    (h : Dotted items) (root : Path) (patterns : Value) (limit : Option Number) :
    (findSources root (Settings.texts items) patterns limit).exec w =
      (findSources root (Settings.texts (normalExtensions items)) patterns limit).exec w := by
  rw [findSources, findSources, Settings.texts, Settings.texts,
    Action.exec_bind_ok (Action.exec_lift_ok Workspace.extensionSet_texts),
    Action.exec_bind_ok (Action.exec_lift_ok Workspace.extensionSet_texts)]
  refine Action.exec_bind_congr fun file v hfile => ?_
  obtain rfl : w = v := by
    rw [Action.exec_isFile] at hfile
    exact congrArg Prod.snd hfile
  split_ifs
  · rfl
  · rw [Action.exec_bind_ok Action.exec_get, Action.exec_bind_ok Action.exec_get]
    rcases w.locate root with o | loc
    · rfl
    · dsimp only
      rw [Tree.candidates_dotted ht hempty h]

/-! ### Settings -/

namespace Value

variable {key : String} {keep : String → Bool}

/-- What is looked for under other names is found as before. -/
theorem find?_setEntry (h : keep key = false) (v : Value) (es : List (String × Value)) :
    (setEntry key v es).find? (fun e => keep e.1) = es.find? fun e => keep e.1 := by
  induction es with
  | nil => simp [setEntry, h]
  | cons e es ih =>
    obtain ⟨k, x⟩ := e
    rw [setEntry]
    split_ifs with hk
    · subst hk
      rw [List.find?_cons_of_neg (by simp [h]), List.find?_cons_of_neg (by simp [h])]
    · rw [List.find?_cons, List.find?_cons, ih]

theorem latest_cons (name : String) (e : String × Value) (es : List (String × Value)) :
    latest name (e :: es) = (latest name es).or (if e.1 = name then some e.2 else none) := by
  rw [latest, List.reverse_cons, lookup_append]
  rfl

theorem find?_overlay {above : List (String × Value)} (h : ∀ e ∈ above, keep e.1 = false) (below : List (String × Value)) :
    (Layers.overlay below above).find? (fun e => keep e.1) = below.find? fun e => keep e.1 := by
  rw [Layers.overlay]
  induction above generalizing below with
  | nil => rfl
  | cons e above ih =>
    rw [List.forall_mem_cons] at h
    rw [List.foldl_cons, ih h.2, find?_setEntry h.1]

end Value

/-- Entries that differ in the extensions alone give settings that differ in them alone, or are refused alike. -/
theorem Settings.ofEntries_extensions {es fs : List (String × Value)} {limits : Option Thresholds} {xs ys : List String}
    (hunknown : (fs.find? fun e => !names.contains e.1) = es.find? fun e => !names.contains e.1)
    (hsame : ∀ name ∈ names, name ≠ "extensions" → Value.lookup name fs = Value.lookup name es)
    (hes : Value.lookup "extensions" es = some (texts xs)) (hfs : Value.lookup "extensions" fs = some (texts ys))
    (hempty : xs = [] ↔ ys = []) :
    ofEntries fs limits = (ofEntries es limits).map fun s => { s with extensions := texts ys } := by
  have hextensions : nonEmpty "extensions" (texts ys) = (nonEmpty "extensions" (texts xs)).map fun _ => texts ys := by
    rcases xs with _ | ⟨x, xs⟩
    · rw [hempty.mp rfl]
      rfl
    · rcases ys with _ | ⟨y, ys⟩
      · cases hempty.mpr rfl
      · rfl
  rcases hknown : es.find? fun e => !names.contains e.1 with _ | e
  · rw [ofEntries, ofEntries, hunknown, hknown]
    simp only [hsame "snapshots_dir" (by decide) (by decide), hsame "baseline_branch" (by decide) (by decide),
      hsame "snapshot_max_age_days" (by decide) (by decide), hsame "max_files" (by decide) (by decide),
      hsame "output_formats" (by decide) (by decide), hsame "exclude_patterns" (by decide) (by decide),
      hsame "fail_on_regression" (by decide) (by decide), hsame "warn_on_regression" (by decide) (by decide), hes, hfs,
      Option.orElse_some, Option.getD_some, hextensions]
    -- the checks are made in the same order, and only what the extensions are is different
    generalize nonEmpty "snapshots_dir" _ = dir
    generalize nonEmpty "baseline_branch" _ = branch
    generalize atLeast "snapshot_max_age_days" _ _ _ = age
    generalize atLeast "max_files" _ _ _ = count
    generalize nonEmpty "extensions" _ = extensions
    generalize checkFormats _ = formats
    rcases dir with _ | dir <;> try rfl
    rcases branch with _ | branch <;> try rfl
    rcases age with _ | age <;> try rfl
    rcases count with _ | count <;> try rfl
    rcases extensions with _ | extensions <;> try rfl
    rcases formats with _ | formats <;> rfl
  · rw [ofEntries, ofEntries, hunknown, hknown]
    rfl

/-! ### The variable -/

def Workspace.withVariable (w : Workspace) (setting value : String) : Workspace :=
  w.among ((variableName setting, value) :: w.environment)

def Terminal.withVariable [Console] (t : Terminal) (setting value : String) : Terminal :=
  { t with workspace := t.workspace.withVariable setting value }

section Variables

variable {w : Workspace} {v name : String} {kinds : List (String × SettingKind)}

theorem valueOf?_withVariable (w : Workspace) (setting v : String) :
    (w.withVariable setting v).valueOf? (variableName setting) = some v := by
  simp [Workspace.valueOf?, Workspace.withVariable, Workspace.among]

theorem valueOf?_withVariable_of_ne {setting : String} (h : variableName name ≠ variableName setting) :
    (w.withVariable setting v).valueOf? (variableName name) = w.valueOf? (variableName name) := by
  simp [Workspace.valueOf?, Workspace.withVariable, Workspace.among, Ne.symm h]

theorem variableName_ne {kind : SettingKind} (h : (name, kind) ∈ Settings.kinds ++ thresholdKinds)
    (hne : name ≠ "extensions") : variableName name ≠ variableName "extensions" := by
  have hall : ∀ n ∈ (Settings.kinds ++ thresholdKinds).map Prod.fst, n ≠ "extensions" →
      variableName n ≠ variableName "extensions" := by decide +kernel
  exact hall name (List.mem_map.mpr ⟨_, h, rfl⟩) hne

theorem environmentValue?_withVariable {kind : SettingKind} (h : (name, kind) ∈ Settings.kinds ++ thresholdKinds)
    (hne : name ≠ "extensions") :
    (w.withVariable "extensions" v).environmentValue? name kind = w.environmentValue? name kind := by
  rw [Workspace.environmentValue?, Workspace.environmentValue?, valueOf?_withVariable_of_ne (variableName_ne h hne)]

theorem thresholdEntries_withVariable (w : Workspace) (v : String) :
    variableEntries (w.withVariable "extensions" v) thresholdKinds = variableEntries w thresholdKinds := by
  have hall : ∀ k ∈ thresholdKinds, k.1 ≠ "extensions" := by decide +kernel
  refine List.filterMap_congr fun k hk => ?_
  rw [environmentValue?_withVariable (List.mem_append_right _ hk) (hall k hk)]

/-- The variable for the extensions is always read, and changes nothing about the others. -/
theorem fromVariables_withVariable (w : Workspace) (v : String) : ∀ {kinds : List (String × SettingKind)},
    (∀ k ∈ kinds, k ∈ Settings.kinds ++ thresholdKinds) →
      fromVariables (w.withVariable "extensions" v) kinds =
        (fromVariables w kinds).map fun _ => variableEntries (w.withVariable "extensions" v) kinds
  | [], _ => rfl
  | (name, kind) :: kinds, h => by
    rw [List.forall_mem_cons] at h
    have ih := fromVariables_withVariable w v h.2
    rw [fromVariables, fromVariables, variableEntries, List.filterMap_cons, ← variableEntries, Workspace.environmentValue?, ih]
    by_cases hne : name = "extensions"
    · subst hne
      obtain rfl : kind = .items := by
        have hkind : ∀ k ∈ Settings.kinds ++ thresholdKinds, k.1 = "extensions" → k.2 = .items := by decide +kernel
        exact hkind _ h.1 rfl
      rw [valueOf?_withVariable]
      rcases w.valueOf? (variableName "extensions") with _ | u
      · rcases fromVariables w kinds with e | es <;> rfl
      · simp only [SettingKind.read]
        rcases fromVariables w kinds with e | es <;> rfl
    · rw [valueOf?_withVariable_of_ne (variableName_ne h.1 hne)]
      rcases w.valueOf? (variableName name) with _ | s
      · rcases fromVariables w kinds with e | es <;> rfl
      · rcases hread : kind.read s with fault | x
        · simp only [hread]
          rfl
        · simp only [hread, Option.bind_some]
          rcases fromVariables w kinds with e | es <;> rfl

end Variables

/-! ### The option -/

namespace BulkOptions

/-- The options with a text for the extensions. -/
def withExtensions (o : BulkOptions) (v : String) : BulkOptions := { o with extensions := some v }

def withoutExtensions (o : BulkOptions) : BulkOptions := { o with extensions := none }

/-- What is given for the largest number of files. -/
def limit (o : BulkOptions) : Value := (o.maxFiles.map fun n => Value.int n.1).getD .null

theorem told_withExtensions (o : BulkOptions) (v : String) : bulkOptions (o.withExtensions v) =
    [.value ("extensions", Settings.texts (normalExtensions (commaItems v))), .value ("max_files", o.limit)] := rfl

theorem told_withoutExtensions (o : BulkOptions) :
    bulkOptions o.withoutExtensions = [.value ("extensions", .null), .value ("max_files", o.limit)] := rfl

end BulkOptions

namespace Layers

/-- The settings from the layers of files with the variables and some options put over them. -/
def finished (l : Layers) (w : Workspace) (options : List Override) : Except Failure Settings := do
  let settings ← fromVariables w Settings.kinds
  let limits ← fromVariables w thresholdKinds
  (addOptions ⟨overlay l.settings settings, overlay l.thresholds limits⟩ options).result

theorem thresholds_addOptions {l : Layers} {options : List Override} (h : ∀ e ∈ givenOptions options, e.1 ∉ Thresholds.names) :
    (l.addOptions options).thresholds = l.thresholds := by
  have hnone : (givenOptions options).filter (fun e => Thresholds.names.contains e.1) = [] := by
    rw [List.filter_eq_nil_iff]
    intro e he hname
    exact h e he (List.contains_iff_mem.mp hname)
  have hput : (l.addOptions options).thresholds =
      overlay l.thresholds ((givenOptions options).filter fun e => Thresholds.names.contains e.1) := rfl
  rw [hput, hnone]
  rfl

theorem givenOptions_extensions (items : List String) (options : List Override) :
    givenOptions (.value ("extensions", Settings.texts items) :: options) =
      ("extensions", Settings.texts items) :: givenOptions options := rfl

theorem givenOptions_null (name : String) (options : List Override) :
    givenOptions (.value (name, .null) :: options) = givenOptions options := rfl

theorem mem_givenOptions {entries : List (String × Value)} {e : String × Value}
    (h : e ∈ givenOptions (entries.map .value)) : e ∈ entries := by
  rw [givenOptions, List.flatMap_map, List.mem_flatMap] at h
  obtain ⟨⟨name, v⟩, hmem, he⟩ := h
  rcases v with _ | _ | _ | _ | _ | _
  all_goals simp_all [Override.entries]

theorem latest_extensions_other (v : Value) : Value.latest "extensions" (givenOptions [.value ("max_files", v)]) = none := by
  rcases v <;> rfl

theorem find?_unknown {l : Layers} {options : List Override} (h : ∀ e ∈ givenOptions options, e.1 ∈ Settings.names)
    (w : Workspace) (limits : List (String × Value)) :
    (((addOptions ⟨overlay l.settings (variableEntries w Settings.kinds), limits⟩ options).settings.filter fun e =>
        e.1 ≠ "thresholds").find? fun e => !Settings.names.contains e.1) =
      (l.settings.filter fun e => e.1 ≠ "thresholds").find? fun e => !Settings.names.contains e.1 := by
  let keep (name : String) : Bool := decide (decide (name ≠ "thresholds") = true ∧ (!Settings.names.contains name) = true)
  have hknown : ∀ name ∈ Settings.names, keep name = false := fun name hname => by simp [keep, hname]
  rw [List.find?_filter, List.find?_filter]
  refine (@Value.find?_overlay keep _ (fun e he => ?_) _).trans (@Value.find?_overlay keep _ (fun e he => ?_) _)
  · exact hknown _ (h e (List.mem_of_mem_filter he))
  · exact hknown _ (mem_names_of_mem_variableEntries he)

theorem lookup_finished {name : String} {kind : SettingKind} (h : (name, kind) ∈ Settings.kinds) (l : Layers) (w : Workspace)
    (limits : List (String × Value)) (options : List Override) :
    Value.lookup name ((addOptions ⟨overlay l.settings (variableEntries w Settings.kinds), limits⟩ options).settings.filter
        fun e => e.1 ≠ "thresholds") =
      (Value.latest name (givenOptions options)).or ((w.environmentValue? name kind).or (Value.lookup name l.settings)) := by
  rw [Value.lookup_filter (fun n => n ≠ "thresholds"), if_pos (decide_eq_true (ne_thresholds_of_mem_kinds h)),
    lookup_settings_given h]

/-- Whether the extensions are given as an option or as a variable, the settings are the same but for them. -/
theorem finished_extensions (l : Layers) (w : Workspace) (o : BulkOptions) (v : String) :
    l.finished (w.withVariable "extensions" v) (bulkOptions o.withoutExtensions) =
      (l.finished w (bulkOptions (o.withExtensions v))).map fun s =>
        { s with extensions := Settings.texts (commaItems v) } := by
  have hkinds : ∀ k ∈ Settings.kinds, k ∈ Settings.kinds ++ thresholdKinds := fun k => List.mem_append_left _
  have hlimits : ∀ k ∈ thresholdKinds, k ∈ Settings.kinds ++ thresholdKinds := fun k => List.mem_append_right _
  rw [finished, finished, fromVariables_withVariable w v hkinds, fromVariables_withVariable w v hlimits]
  -- variables that cannot be read fail both
  rcases fromVariables_eq w Settings.kinds with ⟨hsettings, -⟩ | ⟨_, _, hsettings⟩
  case inr => rw [hsettings]; rfl
  rcases fromVariables_eq w thresholdKinds with ⟨hthresholds, -⟩ | ⟨_, _, hthresholds⟩
  case inr => rw [hsettings, hthresholds]; rfl
  rw [hsettings, hthresholds]
  simp only [Except.map, ok_bind]
  -- both give options under the same two names, so neither unknown names nor thresholds tell them apart
  have hnames : ∀ x m : Value, ∀ e ∈ givenOptions [.value ("extensions", x), .value ("max_files", m)],
      e.1 ∈ Settings.names ∧ e.1 ∉ Thresholds.names := by
    intro x m e he
    have hmem := @mem_givenOptions [("extensions", x), ("max_files", m)] e he
    have hname : e.1 = "extensions" ∨ e.1 = "max_files" := by
      rcases List.mem_pair.mp hmem with rfl | rfl
      · exact Or.inl rfl
      · exact Or.inr rfl
    rcases hname with hname | hname
    all_goals
      rw [hname]
      decide +kernel
  rw [o.told_withoutExtensions, o.told_withExtensions, result, result,
    thresholds_addOptions fun e he => (hnames _ _ e he).2, thresholds_addOptions fun e he => (hnames _ _ e he).2,
    thresholdEntries_withVariable]
  rcases Thresholds.ofEntries _ with e | t
  · rfl
  simp only [ok_bind]
  have hitems : ("extensions", SettingKind.items) ∈ Settings.kinds := by decide
  refine Settings.ofEntries_extensions ?unknown ?same ?option ?env normalExtensions_eq_nil
  case unknown =>
    rw [find?_unknown fun e he => (hnames _ _ e he).1, find?_unknown fun e he => (hnames _ _ e he).1]
  case same =>
    intro name hname hne
    obtain ⟨⟨_, kind⟩, hkind, rfl⟩ := List.mem_map.mp hname
    rw [lookup_finished hkind, lookup_finished hkind, environmentValue?_withVariable (hkinds _ hkind) hne,
      givenOptions_extensions, givenOptions_null, Value.latest_cons, if_neg (Ne.symm hne), Option.or_none]
  case option =>
    rw [lookup_finished hitems, givenOptions_extensions, Value.latest_cons, latest_extensions_other]
    rfl
  case env =>
    rw [lookup_finished hitems, givenOptions_null, latest_extensions_other,
      Workspace.environmentValue?, valueOf?_withVariable]
    rfl

end Layers

/-! ### Loading -/

/-- The layers of the files of settings. -/
def Workspace.filed (w : Workspace) (file : Option Path) : Except Failure Layers :=
  ((do addNamedFile (← addProjectFile .empty) file : Action Layers).exec w).1

theorem Workspace.filed_among (w : Workspace) (env : List (String × String)) (file : Option Path) :
    (w.among env).filed file = w.filed file := by
  have hfiles := (Action.unaware_addProjectFile .empty).bind fun l => Action.unaware_addNamedFile l file
  rw [Workspace.filed, hfiles.exec w env, Workspace.filed]

/-- Settings are put together from the files, the variables and the options, and nothing is changed. -/
theorem exec_loadSettings (w : Workspace) (file : Option Path) (options : List Override) :
    (loadSettings file options).exec w = ((w.filed file).bind fun l => l.finished w options, w) := by
  rw [loadSettings, Workspace.filed]
  rcases hproject : (addProjectFile .empty).exec w with ⟨e | l, v⟩
  · obtain rfl := (addProjectFile_ends.error hproject).1
    rw [Action.exec_bind_error hproject, Action.exec_bind_error hproject]
    rfl
  · obtain rfl := (addProjectFile_ends.ok hproject).1
    rw [Action.exec_bind_ok hproject, Action.exec_bind_ok hproject]
    rcases hnamed : (addNamedFile l file).exec v with ⟨e | m, u⟩
    · obtain rfl := (addNamedFile_ends.error hnamed).1
      rw [Action.exec_bind_error hnamed]
      rfl
    · obtain rfl := (addNamedFile_ends.ok hnamed).1
      rw [Action.exec_bind_ok hnamed, Action.exec_bind_ok Action.exec_get]
      simp only [Except.bind, Layers.finished]
      rcases fromVariables u Settings.kinds with e | es
      · rfl
      rcases fromVariables u thresholdKinds with e | fs
      · rfl
      · rfl

namespace Command

variable {o : BulkOptions} {v : String}

/-- What loading the settings of an analysis of all files comes to. -/
def loaded (o : BulkOptions) (w : Workspace) : Except Failure Settings :=
  (w.filed o.config).bind fun l => l.finished w (bulkOptions o)

theorem exec_load (o : BulkOptions) (w : Workspace) :
    (loadSettings o.config (bulkOptions o)).exec w = (loaded o w, w) :=
  exec_loadSettings ..

theorem loaded_extensions (w : Workspace) (o : BulkOptions) (v : String) :
    loaded o.withoutExtensions (w.withVariable "extensions" v) = (loaded (o.withExtensions v) w).map fun s =>
      { s with extensions := Settings.texts (commaItems v) } := by
  have hconfig : o.withoutExtensions.config = (o.withExtensions v).config := rfl
  rw [loaded, loaded, hconfig, Workspace.withVariable, Workspace.filed_among, ← Workspace.withVariable]
  rcases w.filed _ with e | l
  · rfl
  · exact l.finished_extensions w o v

theorem extensions_of_option {w : Workspace} {s : Settings} (h : loaded (o.withExtensions v) w = .ok s) :
    s.extensions = Settings.texts (normalExtensions (commaItems v)) ∧ commaItems v ≠ [] := by
  have hexec := exec_load (o.withExtensions v) w
  rw [h] at hexec
  have hchecked := (loadSettings_checked.ok hexec).2.extensions
  obtain ⟨-, -, project, named, t, -, -, -, hsettings, -⟩ := loadSettings_resolves hexec
  have hextensions := hsettings "extensions" .items (by decide)
  rw [o.told_withExtensions, Layers.givenOptions_extensions, Value.latest_cons, Layers.latest_extensions_other] at hextensions
  have hset : s.extensions = Settings.texts (normalExtensions (commaItems v)) := Option.some.inj hextensions
  refine ⟨hset, fun hnone => ?_⟩
  rw [hset, hnone] at hchecked
  cases hchecked

end Command

end ScoreGate
