import ScoreGate.Proofs.Dotting
import ScoreGate.Proofs.Exits

/-!
# Files that a variable leaves out

An analysis of all files comes to the same whether its extensions are an option or a variable, as long as each item stands
with its dot.  An item that stands without it only makes a difference: the option finds the files with that ending, and the
variable leaves them out without a word.

* `Command.bulk_dotted`: the same runs.
* `Command.analysed`: the analyses of a run, `Command.analysed_dotted`: the same analyses.
* `analysed_undotted`: for every other text, a project of which the option analyses a file and the variable none.
* `bulk_extensions`: all of this for every text.
-/

namespace ScoreGate

open Command (normalExtensions bulkOptions analyses)

namespace Command

section Runs

variable [Console] {o : BulkOptions} {v : String}

/-! ### Runs -/

theorem exec_perform_congr {α : Type} {act act' : Action α} {t : Terminal} (h : act.exec t.workspace = act'.exec t.workspace) :
    (liftM act : Command α).exec t = (liftM act' : Command α).exec t := by
  change (perform act).exec t = (perform act').exec t
  rw [perform, perform, exec_bind, exec_bind, exec_attempted, exec_attempted, h]

theorem exec_bind_congr {α β : Type} {c d : Command α} {f g : α → Command β} {t : Terminal} (h : c.exec t = d.exec t)
    (hf : ∀ x u, d.exec t = (.ok x, u) → (f x).exec u = (g x).exec u) : (c >>= f).exec t = (d >>= g).exec t := by
  rw [exec_bind, exec_bind, h]
  rcases hx : d.exec t with ⟨e | x, u⟩
  · rfl
  · exact hf x u hx

/-- What settings that were loaded, or the failure to load them, come to in a command. -/
def settled (r : Except Failure Settings) : Command Settings :=
  match r with
  | .ok s => pure s
  | .error f => match settingsFailure f with
    | some (message, code) => refuse message code
    | none => throw (.crash f)

theorem exec_settings (o : BulkOptions) (t : Terminal) :
    (settings o.config (bulkOptions o)).exec t = (settled (loaded o t.workspace)).exec t := by
  rw [settings, attempt, exec_bind, exec_attempted, exec_load]
  rcases loaded o t.workspace with f | s
  · rfl
  · rfl

theorem unaware_settled (r : Except Failure Settings) : Unaware (settled r) := by
  rcases r with f | s
  · rw [settled]
    rcases settingsFailure f with _ | ⟨message, code⟩
    · exact .throw _
    · exact .refuse _ _
  · exact .pure _

/-- Where each item stands with its dot, nothing depends on whether the others were put there. -/
theorem bulkUnder_dotted {t : Terminal} {items : List String} (ht : t.workspace.tree.Spelled) (hempty : "" ∉ items)
    (h : Dotted items) (o : BulkOptions) {s : Settings} (hs : s.extensions = Settings.texts (normalExtensions items)) :
    (bulkUnder o { s with extensions := Settings.texts items }).exec t = (bulkUnder o s).exec t := by
  refine exec_bind_congr rfl fun patterns u hu => ?_
  obtain rfl : u = t := by
    rcases hpatterns : excludePatterns s o.exclude with fault | ps
    · rw [hpatterns] at hu
      cases hu
    · rw [hpatterns] at hu
      cases hu
      rfl
  refine exec_bind_congr (exec_perform_congr ?_) fun _ _ _ => rfl
  rw [hs]
  exact findSources_dotted ht hempty h o.directory patterns _

theorem bulk_dotted {t : Terminal} (ht : t.workspace.tree.Spelled) (h : Dotted (commaItems v)) (o : BulkOptions) :
    (bulk o.withoutExtensions).exec (t.withVariable "extensions" v) =
      (((bulk (o.withExtensions v)).exec t).1, ((bulk (o.withExtensions v)).exec t).2.withVariable "extensions" v) := by
  have hempty : "" ∉ commaItems v := fun hmem => ne_empty_of_mem_commaItems hmem rfl
  have hamong : ∀ u : Terminal, u.workspace.environment = t.workspace.environment →
      u.withVariable "extensions" v = u.among ((variableName "extensions", v) :: t.workspace.environment) := by
    intro u hu
    rw [Terminal.withVariable, Workspace.withVariable, Terminal.among, hu]
  have hdirectory : o.withoutExtensions.directory = (o.withExtensions v).directory := rfl
  rw [bulk_eq, bulk_eq, exec_bind, exec_bind, hamong t rfl, unaware_requirePath.exec, hdirectory]
  rcases hpath : (requirePath (o.withExtensions v).directory).exec t with ⟨stop | _, u⟩
  · simp only [hamong u (unaware_requirePath.environment hpath)]
  have hu : u.workspace = t.workspace := ((requirePath_ends _).ok hpath).1
  -- both go on in the same way once the settings are known or have failed
  let rest (r : Except Failure Settings) : Command Unit := do bulkUnder (o.withExtensions v) (← settled r)
  have hrest : ∀ r, Unaware (rest r) := fun r => (unaware_settled r).bind fun s => unaware_bulkUnder _ s
  have hoption : (do bulkUnder (o.withExtensions v) (← settings (o.withExtensions v).config
      (bulkOptions (o.withExtensions v))) : Command Unit).exec u =
        (rest (loaded (o.withExtensions v) u.workspace)).exec u :=
    exec_bind_congr (exec_settings _ u) fun _ _ _ => rfl
  have hvariable : (do bulkUnder o.withoutExtensions (← settings o.withoutExtensions.config
      (bulkOptions o.withoutExtensions)) : Command Unit).exec (u.withVariable "extensions" v) =
        (rest (loaded o.withoutExtensions (u.workspace.withVariable "extensions" v))).exec (u.withVariable "extensions" v) :=
    exec_bind_congr (exec_settings _ _) fun s x _ => rfl
  have hsame : (rest (loaded o.withoutExtensions (u.workspace.withVariable "extensions" v))).exec u =
      (rest (loaded (o.withExtensions v) u.workspace)).exec u := by
    rw [loaded_extensions]
    rcases hloaded : loaded (o.withExtensions v) u.workspace with f | s
    · rfl
    · exact bulkUnder_dotted (hu ▸ ht) hempty h _ (extensions_of_option hloaded).1
  have hu' : u.workspace.environment = t.workspace.environment := by rw [hu]
  simp only
  rw [← hamong u hu', hoption, hvariable, hamong u hu', (hrest _).exec, hsame]
  rcases hexec : (rest (loaded (o.withExtensions v) u.workspace)).exec u with ⟨r, x⟩
  rw [hamong x (((hrest _).environment hexec).trans hu')]

end Runs

/-! ### Analyses -/

def analysed (o : BulkOptions) (w : Workspace) : Except Failure (List FileAnalysis) := do
  let s ← loaded o w
  let patterns ← (excludePatterns s o.exclude).mapError Failure.fault
  ((analyses o.directory s patterns).exec w).1

theorem unaware_analyses (p : Path) (s : Settings) (patterns : Value) : Action.Unaware (analyses p s patterns) :=
  (Action.unaware_findSources ..).bind fun ps => Action.unaware_analyzeFiles ps

/-- Where each item stands with its dot, the same is analysed whether the option or the variable gives the extensions. -/
theorem analysed_dotted {v : String} {w : Workspace} (ht : w.tree.Spelled) (h : Dotted (commaItems v)) (o : BulkOptions) :
    analysed o.withoutExtensions (w.withVariable "extensions" v) = analysed (o.withExtensions v) w := by
  have hempty : "" ∉ commaItems v := fun hmem => ne_empty_of_mem_commaItems hmem rfl
  rw [analysed, analysed, loaded_extensions]
  rcases hloaded : loaded (o.withExtensions v) w with f | s
  · rfl
  have hpatterns : excludePatterns { s with extensions := Settings.texts (commaItems v) } o.withoutExtensions.exclude =
      excludePatterns s (o.withExtensions v).exclude := rfl
  simp only [Except.map, ok_bind, hpatterns]
  rcases excludePatterns s (o.withExtensions v).exclude with fault | patterns
  · rfl
  have hsame : (analyses o.withoutExtensions.directory { s with extensions := Settings.texts (commaItems v) } patterns).exec w =
      (analyses (o.withExtensions v).directory s patterns).exec w := by
    rw [analyses, analyses, Action.exec_bind, Action.exec_bind, findSources_dotted ht hempty h, (extensions_of_option hloaded).1]
    rfl
  simp only [Except.mapError, ok_bind, Workspace.withVariable, (unaware_analyses _ _ patterns).exec, hsame]

end Command

open Command (analysed)

/-! ### A project with one source -/

/-- A project with one source, whose name is `x` and an extension; no pattern excludes it. -/
def single (extension : String) : Workspace :=
  { Store.blank with
    limits := none
    tree := ⟨[(["src"], .directory), (["src", "x." ++ extension], .file "let n = 0".toUTF8)]⟩
    environment := [("PERF_SENTINEL_EXCLUDE_PATTERNS", "")] }

theorem filed_single (e : String) : (single e).filed none = .ok .empty := rfl

theorem finished_single (e item : String) (items : List String) :
    Layers.empty.finished (single e) [.value ("extensions", Settings.texts (item :: items)), .value ("max_files", .null)] =
      .ok { Settings.default with extensions := Settings.texts (item :: items), excludePatterns := Settings.texts [] } := by
  have hsettings : fromVariables (single e) Settings.kinds = .ok [("exclude_patterns", Settings.texts [])] := rfl
  have hlimits : fromVariables (single e) thresholdKinds = .ok [] := rfl
  rw [Layers.finished, hsettings, hlimits]
  rfl

theorem spelled_single {e : String} (hslash : '/' ∉ e.toList) : (single e).tree.Spelled := by
  have hx : IsFileName ("x." ++ e) := by
    refine ⟨?_, ?_, ?_⟩
    · intro h
      simpa using congrArg String.toList h
    · intro h
      simpa using congrArg String.toList h
    · simpa using hslash
  have hsrc : IsFileName "src" := ⟨by decide, by decide, by decide⟩
  refine ⟨?_, ?_⟩
  · simp [Tree.Unique, single]
  · simp only [single, List.forall_mem_cons, List.not_mem_nil, false_imp_iff, implies_true, and_true]
    exact ⟨hsrc, hsrc, hx⟩

theorem suffixOf_single {e : String} (hempty : e ≠ "") (hdot : '.' ∉ e.toList) : Path.suffixOf ("x." ++ e) = "." ++ e := by
  have hcs : ("x." ++ e).toList = 'x' :: '.' :: e.toList := by simp
  have htail : ((("x." ++ e).toList.reverse.takeWhile (· ≠ '.')).reverse) = e.toList := by
    have hpos : ∀ c ∈ e.toList.reverse, decide (c ≠ '.') = true :=
      fun c hc => decide_eq_true fun h => hdot (h ▸ List.mem_reverse.mp hc)
    rw [hcs, List.reverse_cons, List.reverse_cons, List.append_assoc, List.takeWhile_append_of_pos hpos]
    simp
  have hne : e.toList ≠ [] := fun h => hempty (String.toList_inj.mp h)
  rw [Path.suffixOf]
  simp only [htail]
  rw [if_neg]
  · simp
  · simp [hcs, hne]

theorem sources_single {e : String} (hempty : e ≠ "") (hdot : '.' ∉ e.toList) (items : List String) :
    (single e).tree.sources ["src"] items [] = if "." ++ e ∈ items then [["x." ++ e]] else [] := by
  have hbelow : (single e).tree.filesBelow ["src"] = [["x." ++ e]] := by
    simp [single, Tree.filesBelow, Tree.files]
  have hext : hasExtension (items.map .text) ["x." ++ e] = decide ("." ++ e ∈ items) := by
    rw [Bool.eq_iff_iff, Tree.hasExtension_texts, decide_eq_true_eq]
    simp [suffixOf_single hempty hdot]
  rw [Tree.sources, Tree.candidates, hbelow]
  split_ifs with h <;> simp [hext, h]

theorem node_single {e : String} (hnul : '\x00' ∉ e.toList) {w : Workspace} (htree : w.tree = (single e).tree)
    (hlimits : w.limits = none) : w.node ((Path.ofText "src").join ["x." ++ e]) = .ok (.file "let n = 0".toUTF8) := by
  have hne : "x." ++ e ≠ ".." := fun h => by simpa using congrArg String.toList h
  have hpath : (Path.ofText "src").join ["x." ++ e] = ⟨"", ["src", "x." ++ e]⟩ := rfl
  have hcheck : Tree.checkPath none ⟨"", ["src", "x." ++ e]⟩ = none := by
    simp [Tree.checkPath, Path.text, joinText, joinWith, hnul]
  refine Workspace.node_eq_ok.mpr ⟨["src", "x." ++ e], ?_, ?_⟩
  · rw [Workspace.locate, Tree.locate, hpath, hlimits, hcheck, htree]
    simp [Tree.locateFrom, Tree.find?, Tree.findIn, single, hne]
  · rw [htree]
    simp [Tree.find?, Tree.findIn, single]

/-- What is left by an action that changes neither the files nor what the file system takes, as long as no file takes notes. -/
def Workspace.Unlogged (w v : Workspace) : Prop := w.log = none → v.tree = w.tree ∧ v.limits = w.limits ∧ v.log = none

theorem frame_unlogged : Action.Frame Workspace.Unlogged := by
  refine ⟨fun w h => ⟨rfl, rfl, h⟩, fun huv hvw h => ?_⟩
  obtain ⟨htree, hlimits, hlog⟩ := huv h
  obtain ⟨htree', hlimits', hlog'⟩ := hvw hlog
  exact ⟨htree'.trans htree, hlimits'.trans hlimits, hlog'⟩

theorem unlogged_note (w : Workspace) (e : Entry) : w.Unlogged (w.note e) := by
  intro h
  exact ⟨by rw [Workspace.note, Workspace.logged, h], rfl, h⟩

theorem unlogged_noteAll (w : Workspace) (es : List Entry) : w.Unlogged (w.noteAll es) := by
  induction es generalizing w with
  | nil => exact frame_unlogged.refl w
  | cons e es ih => exact frame_unlogged.trans (unlogged_note w e) (ih (w.note e))

theorem analyses_single {e : String} (hempty : e ≠ "") (hdot : '.' ∉ e.toList) (hnul : '\x00' ∉ e.toList) {s : Settings}
    {items : List String} (hs : s.extensions = Settings.texts items) (hmax : s.maxFiles = .int 1000) :
    ∃ as, ((analyses (.ofText "src") s (Settings.texts [])).exec (single e)).1 = .ok as ∧ (as = [] ↔ "." ++ e ∉ items) := by
  have hlocate : (single e).locate (.ofText "src") = .ok ["src"] := rfl
  have hpatterns : ∀ p ∈ ([] : List String), (Path.ofText p).steps ≠ [] := nofun
  obtain ⟨notes, hfinds, -⟩ := Workspace.finds_eq hlocate rfl hpatterns items (some 1000)
  -- the scan finds the one source exactly if its ending is among the items
  have hfound : (findSources (.ofText "src") s.extensions (Settings.texts []) (some s.maxFiles)).exec (single e) =
      (.ok (if "." ++ e ∈ items then [(Path.ofText "src").join ["x." ++ e]] else []), (single e).noteAll notes) := by
    rw [hs, hmax]
    refine hfinds.trans ?_
    rw [sources_single hempty hdot]
    split_ifs <;> simp [atMost]
  -- notes that are taken on the way change nothing of what is read
  have hread : ∀ u : Workspace, (single e).Unlogged u →
      u.node ((Path.ofText "src").join ["x." ++ e]) = .ok (.file "let n = 0".toUTF8) := by
    intro u hu
    obtain ⟨htree, hlimits, -⟩ := hu rfl
    exact node_single hnul htree hlimits
  obtain ⟨a, ha⟩ : ∃ a, listed ((single e).node ((Path.ofText "src").join ["x." ++ e]))
      ((Path.ofText "src").join ["x." ++ e]) = .ok (some a) := by
    have hutf8 : String.fromUTF8? "let n = 0".toUTF8 = some "let n = 0" := by decide +kernel
    rw [hread _ (frame_unlogged.refl _), listed, hutf8]
    exact ⟨_, rfl⟩
  have hpass : (if "." ++ e ∈ items then [(Path.ofText "src").join ["x." ++ e]] else []).filterMapM
      (fun p => listed ((single e).node p) p) = .ok (if "." ++ e ∈ items then [a] else []) := by
    split_ifs
    · rw [List.filterMapM_cons, ha]
      rfl
    · rfl
  have hsame : ∀ p ∈ (if "." ++ e ∈ items then [(Path.ofText "src").join ["x." ++ e]] else []), ∀ u,
      (single e).Unlogged u → listed (u.node p) p = listed ((single e).node p) p := by
    intro p hp u hu
    split_ifs at hp
    · rw [List.mem_singleton.mp hp, hread u hu, hread _ (frame_unlogged.refl _)]
    · simp at hp
  have hends := Check.analyzeFiles_ends frame_unlogged unlogged_note (unlogged_noteAll (single e) notes) hsame
  refine ⟨if "." ++ e ∈ items then [a] else [], ?_, by simp⟩
  rw [analyses, Action.exec_bind_ok hfound]
  rcases hexec : (analyzeFiles _).exec _ with ⟨f | as, v⟩
  · have herror := (hends.error hexec).1
    rw [hpass] at herror
    cases herror
  · exact (hends.ok hexec).1.symm.trans hpass

/-- An item that stands without a dot only: the variable leaves out a source that the option finds. -/
theorem analysed_undotted {v item : String} (hv : '\x00' ∉ v.toList) (hitem : item ∈ commaItems v)
    (hdot : '.' ∉ item.toList) (hslash : '/' ∉ item.toList) (habsent : "." ++ item ∉ commaItems v) :
    ∃ (o : BulkOptions) (w : Workspace), w.tree.Spelled ∧
      (∃ as, analysed (o.withExtensions v) w = .ok as ∧ as ≠ []) ∧
        analysed o.withoutExtensions (w.withVariable "extensions" v) = .ok [] := by
  have hempty := ne_empty_of_mem_commaItems hitem
  have hnul : '\x00' ∉ item.toList := fun h => hv (subset_of_mem_commaItems hitem h)
  have hdotted : "." ++ item ∈ normalExtensions (commaItems v) := by
    rw [show "." ++ item = String.ofList ('.' :: item.toList) by simp, mem_normalExtensions hdot, String.ofList_toList]
    exact Or.inr hitem
  -- the option puts a dot before every item, while a variable is taken as it stands
  let o : BulkOptions := { directory := .ofText "src" }
  let s : Settings := { Settings.default with
    extensions := Settings.texts (normalExtensions (commaItems v)), excludePatterns := Settings.texts [] }
  have hloaded : Command.loaded (o.withExtensions v) (single item) = .ok s := by
    obtain ⟨d, ds, hd⟩ := List.exists_cons_of_ne_nil (List.ne_nil_of_mem hdotted)
    have hfinished := finished_single item d ds
    rw [← hd] at hfinished
    have hfiles : (single item).filed (o.withExtensions v).config = .ok .empty := filed_single item
    have hmax : o.limit = .null := rfl
    rw [Command.loaded, hfiles, o.told_withExtensions, hmax, Except.bind, hfinished]
  have hpatterns : ∀ items, Command.excludePatterns { s with extensions := Settings.texts items } [] =
      .ok (Settings.texts []) := fun _ => rfl
  refine ⟨o, single item, spelled_single hslash, ?_, ?_⟩
  · obtain ⟨as, has, hnil⟩ := analyses_single (s := s) hempty hdot hnul rfl rfl
    refine ⟨as, ?_, fun h => hnil.mp h hdotted⟩
    rw [analysed, hloaded, ok_bind]
    exact has
  · obtain ⟨as, has, hnil⟩ :=
      analyses_single (s := { s with extensions := Settings.texts (commaItems v) }) hempty hdot hnul rfl rfl
    obtain rfl := hnil.mpr habsent
    have hexclude : o.withoutExtensions.exclude = [] := rfl
    rw [analysed, Command.loaded_extensions, hloaded, hexclude]
    simp only [Except.map, ok_bind, hpatterns (commaItems v), Except.mapError,
      Workspace.withVariable, (Command.unaware_analyses _ _ _).exec]
    exact has

/-- What comes of a text for extensions, as an option and as a variable. -/
structure GivesExtensions [Console] (v : String) : Prop where
  settings : ∀ (o : BulkOptions) (w : Workspace),
    Command.loaded o.withoutExtensions (w.withVariable "extensions" v) =
      (Command.loaded (o.withExtensions v) w).map fun s => { s with extensions := Settings.texts (commaItems v) }
  extensions : ∀ (o : BulkOptions) (w : Workspace) (s : Settings), Command.loaded (o.withExtensions v) w = .ok s →
    s.extensions = Settings.texts (normalExtensions (commaItems v)) ∧ commaItems v ≠ []
  sources : ∀ (t : Tree) (loc : Location) (patterns : List String), t.sources loc (commaItems v) patterns =
    (t.sources loc (normalExtensions (commaItems v)) patterns).filter fun names =>
      Path.suffixOf (names.getLastD "") ∈ commaItems v
  runs : Dotted (commaItems v) → ∀ (o : BulkOptions) (t : Terminal), t.workspace.tree.Spelled →
    (Command.bulk o.withoutExtensions).exec (t.withVariable "extensions" v) =
      (((Command.bulk (o.withExtensions v)).exec t).1,
        ((Command.bulk (o.withExtensions v)).exec t).2.withVariable "extensions" v)
  same_iff : (∀ (o : BulkOptions) (w : Workspace), w.tree.Spelled →
    analysed o.withoutExtensions (w.withVariable "extensions" v) = analysed (o.withExtensions v) w) ↔
      Dotted (commaItems v)

/-- A text gives an analysis of all files the same settings as an option and as a variable, but for the extensions: the
option adds the dots that are missing.  So under the variable the sources are those of the option that end in an item as it
stands, and the same is analysed on every tree exactly if each item that could end a name also stands with its dot.  Neither
an argument nor a variable can hold a NUL. -/
theorem bulk_extensions [Console] (v : String) (hv : '\x00' ∉ v.toList) : GivesExtensions v := by
  have hempty : "" ∉ commaItems v := fun hmem => ne_empty_of_mem_commaItems hmem rfl
  refine ⟨fun o w => Command.loaded_extensions w o v, fun o w s => Command.extensions_of_option,
    Tree.sources_items hempty, fun h o t ht => Command.bulk_dotted ht h o, fun hsame => ?_,
    fun h o w ht => Command.analysed_dotted ht h o⟩
  intro item hitem hdot hslash
  by_contra habsent
  obtain ⟨o, w, ht, ⟨as, has, hne⟩, hnone⟩ := analysed_undotted hv hitem hdot hslash habsent
  have heq := hsame o w ht
  rw [has, hnone] at heq
  exact hne (Except.ok.inj heq).symm

/-- Without the dot, component files are found under the option and left out under the variable. -/
theorem bulk_extensions_tsx : '\x00' ∉ "tsx".toList ∧ ¬∀ (o : BulkOptions) (w : Workspace), w.tree.Spelled →
    analysed o.withoutExtensions (w.withVariable "extensions" "tsx") = analysed (o.withExtensions "tsx") w := by
  refine ⟨by decide, fun hsame => ?_⟩
  let := Console.simple
  have hdotted := (bulk_extensions "tsx" (by decide)).same_iff.mp hsame
  have habsent : "." ++ "tsx" ∉ commaItems "tsx" := by decide +kernel
  exact habsent (hdotted "tsx" (by decide +kernel) (by decide) (by decide))

end ScoreGate
