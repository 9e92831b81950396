import ScoreGate.Proofs.Histories
import ScoreGate.Proofs.Validity
import ScoreGate.Settings.Load

/-!
# Settings from layers

Settings are resolved one by one: each has the value that the highest layer gives it.  The layers are, from the highest
down, the options, the variables, the named file, the file of the project, and the defaults.  Thresholds are resolved in
the same way among themselves, so that no layer resets what it does not set.

* `Layers.lookup_overlay`: entries with others put over them.
* `loadSettings_ends`: the layers of settings that were loaded, and the layer at fault where they were not.
* `loadSettings_resolves`: every setting and every threshold, from its layers.
-/

namespace ScoreGate

/-! ### Entries by name -/

namespace Value

variable {name : String} {es fs : List (String × Value)}

/-- The value of a name in entries of which a later one replaces an earlier one. -/
def latest (name : String) (es : List (String × Value)) : Option Value := lookup name es.reverse

theorem lookup_append (name : String) : ∀ es fs : List (String × Value),
    lookup name (es ++ fs) = (lookup name es).or (lookup name fs)
  | [], _ => rfl
  | e :: es, fs => by
    by_cases h : e.1 = name <;> simp [lookup, h, lookup_append name es fs]

/-- What is kept by its name is found as before. -/
theorem lookup_filter (keep : String → Bool) (name : String) : ∀ es : List (String × Value),
    lookup name (es.filter fun e => keep e.1) = if keep name then lookup name es else none
  | [] => by simp [lookup]
  | e :: es => by
    have ih := lookup_filter keep name es
    by_cases he : e.1 = name
    · by_cases hk : keep name <;> simp [lookup, he, hk, ih]
    · by_cases hk : keep e.1 <;> simp [lookup, he, hk, ih]

theorem latest_filter (keep : String → Bool) (name : String) (es : List (String × Value)) :
    latest name (es.filter fun e => keep e.1) = if keep name then latest name es else none := by
  rw [latest, ← List.filter_reverse, lookup_filter]
  rfl

theorem lookup_eq_none (h : name ∉ es.map (·.1)) : lookup name es = none := by
  induction es with
  | nil => rfl
  | cons e es ih =>
    simp only [List.map_cons, List.mem_cons, not_or] at h
    simp [lookup, Ne.symm h.1, ih h.2]

theorem mem_of_lookup {v : Value} (h : lookup name es = some v) : (name, v) ∈ es := by
  induction es with
  | nil => cases h
  | cons e es ih =>
    rw [lookup] at h
    split_ifs at h with he
    · cases h
      exact he ▸ List.mem_cons_self
    · exact List.mem_cons_of_mem e (ih h)

end Value

namespace Layers

open Value (latest)

/-- Of the entries put over others the last one counts, and where there is none what was there before. -/
theorem lookup_overlay (name : String) (below above : List (String × Value)) :
    Value.lookup name (overlay below above) = (latest name above).or (Value.lookup name below) := by
  rw [latest, overlay]
  induction above generalizing below with
  | nil => rfl
  | cons e above ih =>
    rw [List.foldl_cons, ih, List.reverse_cons, Value.lookup_append]
    by_cases he : e.1 = name
    · subst he
      simp [Value.lookup]
    · simp [Value.lookup, he, Value.lookup_setEntry_of_ne (Ne.symm he)]

/-! ### Files -/

/-- The settings among the entries of a file. -/
def plainEntries (es : List (String × Value)) : List (String × Value) := es.filter fun e => e.1 ≠ "thresholds"

/-- The thresholds among the entries of a file, which stand in a table of their own. -/
def thresholdEntries (es : List (String × Value)) : List (String × Value) :=
  match Value.lookup "thresholds" es with
  | some (.table ts) => ts
  | _ => []

def withFile (l : Layers) (es : List (String × Value)) : Layers :=
  ⟨overlay l.settings (plainEntries es), overlay l.thresholds (thresholdEntries es)⟩

theorem addFile_eq (l : Layers) (path : String) (es : List (String × Value)) :
    (l.addFile path es = .ok (l.withFile es) ∧ ∀ x, Value.lookup "thresholds" es = some x → ∃ ts, x = .table ts) ∨
      l.addFile path es = .error (.settings (.thresholdsNotTable path)) := by
  rw [addFile, withFile, thresholdEntries]
  rcases Value.lookup "thresholds" es with _ | (_ | _ | _ | _ | ts | _)
  case none => exact Or.inl ⟨rfl, by simp⟩
  case some.table => exact Or.inl ⟨rfl, by simp⟩
  all_goals exact Or.inr rfl

variable {name : String}

theorem lookup_settings_withFile (h : name ≠ "thresholds") (l : Layers) (es : List (String × Value)) :
    Value.lookup name (l.withFile es).settings = (latest name es).or (Value.lookup name l.settings) := by
  rw [withFile, lookup_overlay, plainEntries, Value.latest_filter (fun n => n ≠ "thresholds"), if_pos (decide_eq_true h)]

theorem lookup_thresholds_withFile (name : String) (l : Layers) (es : List (String × Value)) :
    Value.lookup name (l.withFile es).thresholds = (latest name (thresholdEntries es)).or (Value.lookup name l.thresholds) :=
  lookup_overlay ..

/-! ### Options -/

def givenOptions (options : List Override) : List (String × Value) := options.flatMap Override.entries

theorem lookup_settings_addOptions (h : name ∉ Thresholds.names) (l : Layers) (options : List Override) :
    Value.lookup name (l.addOptions options).settings =
      (latest name (givenOptions options)).or (Value.lookup name l.settings) := by
  have hkeep : (!Thresholds.names.contains name) = true := by simpa using h
  have hput : (l.addOptions options).settings =
      overlay l.settings ((givenOptions options).filter fun e => !Thresholds.names.contains e.1) := rfl
  rw [hput, lookup_overlay, Value.latest_filter (fun n => !Thresholds.names.contains n), if_pos hkeep]

theorem lookup_thresholds_addOptions (h : name ∈ Thresholds.names) (l : Layers) (options : List Override) :
    Value.lookup name (l.addOptions options).thresholds =
      (latest name (givenOptions options)).or (Value.lookup name l.thresholds) := by
  have hkeep : Thresholds.names.contains name = true := by simpa using h
  have hput : (l.addOptions options).thresholds =
      overlay l.thresholds ((givenOptions options).filter fun e => Thresholds.names.contains e.1) := rfl
  rw [hput, lookup_overlay, Value.latest_filter Thresholds.names.contains, if_pos hkeep]

end Layers

/-! ### Variables -/

def Workspace.environmentValue? (w : Workspace) (name : String) (kind : SettingKind) : Option Value :=
  (w.valueOf? (variableName name)).bind fun s => (kind.read s).toOption

/-- The variables that are set can be read as what they are to set. -/
def Workspace.ReadsVariables (w : Workspace) (kinds : List (String × SettingKind)) : Prop :=
  ∀ k ∈ kinds, ∀ s, w.valueOf? (variableName k.1) = some s → ∃ v, k.2.read s = .ok v

section Variables

/-- What the variables give to some settings, each of which has its own. -/
def variableEntries (w : Workspace) (kinds : List (String × SettingKind)) : List (String × Value) :=
  kinds.filterMap fun k => (w.environmentValue? k.1 k.2).map (k.1, ·)

variable {w : Workspace} {name : String} {kind : SettingKind} {kinds : List (String × SettingKind)} {es : List (String × Value)}

/-- Variables that are read give their settings what they hold; one that cannot be read is refused. -/
theorem fromVariables_eq : ∀ (w : Workspace) (kinds : List (String × SettingKind)),
    (fromVariables w kinds = .ok (variableEntries w kinds) ∧ w.ReadsVariables kinds) ∨
      ∃ name fault, fromVariables w kinds = .error (.settings (.badVariable name fault))
  | _, [] => Or.inl ⟨rfl, by simp [Workspace.ReadsVariables]⟩
  | w, (name, kind) :: kinds => by
    have ih := fromVariables_eq w kinds
    rw [fromVariables, variableEntries, List.filterMap_cons, ← variableEntries, Workspace.environmentValue?,
      Workspace.ReadsVariables, List.forall_mem_cons, ← Workspace.ReadsVariables]
    rcases hs : w.valueOf? (variableName name) with _ | s
    · rcases ih with ⟨ih, hread⟩ | ih
      · exact Or.inl ⟨ih, by simp, hread⟩
      · exact Or.inr ih
    · rcases hv : kind.read s with fault | v
      · refine Or.inr ⟨variableName name, fault, ?_⟩
        simp only [hv]
      · simp only [hv]
        rcases ih with ⟨ih, hread⟩ | ⟨other, fault, ih⟩
        · refine Or.inl ⟨by rw [ih]; simp only [ok_bind, Option.bind_some, hv]; rfl, ?_, hread⟩
          rintro _ ⟨⟩
          exact ⟨v, hv⟩
        · exact Or.inr ⟨other, fault, by rw [ih]; rfl⟩

theorem fromVariables_ends : (liftM (fromVariables w kinds) : Action (List (String × Value))).Ends w
    (fun es v => v = w ∧ es = variableEntries w kinds ∧ w.ReadsVariables kinds)
    fun e v => v = w ∧ ∃ name fault, e = .settings (.badVariable name fault) := by
  rcases fromVariables_eq w kinds with ⟨h, hread⟩ | ⟨name, fault, h⟩
  · exact h ▸ .of_ok rfl ⟨rfl, rfl, hread⟩
  · exact h ▸ .of_error rfl ⟨rfl, name, fault, rfl⟩

theorem mem_names_of_mem_variableEntries {e : String × Value} (h : e ∈ variableEntries w kinds) : e.1 ∈ kinds.map (·.1) := by
  simp only [variableEntries, List.mem_filterMap, Option.map_eq_some_iff] at h
  obtain ⟨k, hk, v, -, rfl⟩ := h
  exact List.mem_map_of_mem hk

theorem latest_variableEntries (hnodup : (kinds.map (·.1)).Nodup) (h : (name, kind) ∈ kinds) :
    Value.latest name (variableEntries w kinds) = w.environmentValue? name kind := by
  induction kinds with
  | nil => cases h
  | cons k kinds ih =>
    rw [List.map_cons, List.nodup_cons] at hnodup
    rw [variableEntries, List.filterMap_cons, ← variableEntries]
    rcases List.mem_cons.mp h with rfl | h
    · -- names are there once, so nothing after this entry is of the same name
      have hnone : Value.latest name (variableEntries w kinds) = none := by
        refine Value.lookup_eq_none fun hmem => hnodup.1 ?_
        obtain ⟨e, he, rfl⟩ := List.mem_map.mp hmem
        exact mem_names_of_mem_variableEntries (List.mem_reverse.mp he)
      rcases w.environmentValue? name kind with _ | v
      · exact hnone
      · rw [Option.map_some, Value.latest, List.reverse_cons, Value.lookup_append, ← Value.latest, hnone]
        simp [Value.lookup]
    · have hne : k.1 ≠ name := by
        rintro rfl
        exact hnodup.1 (List.mem_map.mpr ⟨_, h, rfl⟩)
      rcases w.environmentValue? k.1 k.2 with _ | v
      · exact ih hnodup.2 h
      · rw [Option.map_some, Value.latest, List.reverse_cons, Value.lookup_append, ← Value.latest, ih hnodup.2 h]
        simp [Value.lookup, hne]

end Variables

/-! ### Loading -/

section Files

variable {w : Workspace} {p : Path} {l : Layers}

/-- A file holds a text; a document of settings is read from it. -/
def Workspace.Holds (w : Workspace) (p : Path) (s : String) : Prop :=
  ∃ bytes, w.read p = .ok bytes ∧ String.fromUTF8? bytes = some s

/-- Why a file is no file of settings. -/
inductive Workspace.Unread (w : Workspace) (p : Path) : Failure → Prop
  | obstacle {o : Obstacle} (h : w.read p = .error o) : w.Unread p (.settings (.unreadableFile p.text))
  | encoding {bytes : ByteArray} (h : w.read p = .ok bytes) (hbytes : String.fromUTF8? bytes = none) : w.Unread p .notUtf8
  | malformed {s : String} (h : w.Holds p s) (hread : Toml.read (w.depth - 1) s = .error (.badValue .documentSyntax)) :
      w.Unread p (.settings (.unreadableFile p.text))
  | fault {s : String} {e : Fault} (h : w.Holds p s) (hread : Toml.read (w.depth - 1) s = .error e)
      (hgrammar : e ≠ .badValue .documentSyntax) : w.Unread p (.fault e)

/-- A file of settings is read and nothing else is done. -/
theorem readSettings_ends : (readSettings p).Ends w
    (fun es v => v = w ∧ ∃ s, w.Holds p s ∧ Toml.read (w.depth - 1) s = .ok es) fun e v => v = w ∧ w.Unread p e := by
  rw [readSettings]
  refine .bind_ok Action.exec_get ?_
  rcases hread : w.read p with o | bytes
  · exact .of_error rfl ⟨rfl, .obstacle hread⟩
  dsimp only
  rcases htext : String.fromUTF8? bytes with _ | s
  · exact .of_error rfl ⟨rfl, .encoding hread htext⟩
  have hholds : w.Holds p s := ⟨bytes, hread, htext⟩
  dsimp only
  split
  · next es hes => exact .pure ⟨rfl, s, hholds, hes⟩
  · next hes => exact .of_error rfl ⟨rfl, .malformed hholds hes⟩
  · next e hgrammar hes => exact .of_error rfl ⟨rfl, .fault hholds hes fun h => hgrammar (h ▸ rfl)⟩

/-- A file gives its entries to settings: they are read from its text, and its thresholds stand in a table if it has any. -/
structure Workspace.Supplies (w : Workspace) (p : Path) (es : List (String × Value)) : Prop where
  read : ∃ s, w.Holds p s ∧ Toml.read (w.depth - 1) s = .ok es
  thresholds : ∀ x, Value.lookup "thresholds" es = some x → ∃ ts, x = .table ts

/-- Why a file gives nothing to settings. -/
inductive Workspace.Withholds (w : Workspace) (p : Path) : Failure → Prop
  | refused (h : w.locate p = .error .nameTooLong) : w.Withholds p .system
  | missing (h : ∀ n, w.node p ≠ .ok n) : w.Withholds p (.settings (.missingFile p.text))
  | unread {e : Failure} (h : w.Unread p e) : w.Withholds p e
  | notTable : w.Withholds p (.settings (.thresholdsNotTable p.text))

/-- A file that is there is put over layers, or the failure says what is wrong with it. -/
theorem addFile_ends : (do l.addFile p.text (← readSettings p) : Action Layers).Ends w
    (fun m v => v = w ∧ ∃ es, w.Supplies p es ∧ m = l.withFile es) fun e v => v = w ∧ w.Withholds p e := by
  refine .bind (readSettings_ends.mono (fun _ _ h => h) fun e v h => ⟨h.1, .unread h.2⟩) ?_
  rintro es _ ⟨rfl, hread⟩
  rcases l.addFile_eq p.text es with ⟨hadd, htable⟩ | hadd
  · exact hadd ▸ .of_ok rfl ⟨rfl, es, ⟨hread, htable⟩, rfl⟩
  · exact hadd ▸ .of_error rfl ⟨rfl, .notTable⟩

/-- The file of a project, which need not be there. -/
def projectPath : Path := Path.here.child projectFile

def Workspace.SuppliesProject (w : Workspace) (es : List (String × Value)) : Prop :=
  w.Supplies projectPath es ∨ (∀ n, w.node projectPath ≠ .ok n) ∧ es = []

def Workspace.SuppliesNamed (w : Workspace) (file : Option Path) (es : List (String × Value)) : Prop :=
  match file with
  | none => es = []
  | some p => w.Supplies p es

theorem addProjectFile_ends : (addProjectFile l).Ends w
    (fun m v => v = w ∧ ∃ es, w.SuppliesProject es ∧ m = l.withFile es) fun e v => v = w ∧ w.Withholds projectPath e := by
  refine .bind (Action.Ends.exists?.mono (fun _ _ h => h) fun e v h => ⟨h.2.1, ?_⟩) ?_
  · rw [h.1]
    exact .refused h.2.2
  · rintro b _ ⟨rfl, hb⟩
    rcases b with _ | _
    · exact .pure ⟨rfl, [], Or.inr ⟨fun n hn => by simpa using hb.mpr ⟨n, hn⟩, rfl⟩, rfl⟩
    · exact addFile_ends.mono (fun m v ⟨hv, es, hes, hm⟩ => ⟨hv, es, Or.inl hes, hm⟩) fun _ _ h => h

theorem addNamedFile_ends {file : Option Path} : (addNamedFile l file).Ends w
    (fun m v => v = w ∧ ∃ es, w.SuppliesNamed file es ∧ m = l.withFile es)
    fun e v => v = w ∧ ∃ p, file = some p ∧ w.Withholds p e := by
  rcases file with _ | p
  · exact .pure ⟨rfl, [], rfl, rfl⟩
  · refine .bind (Action.Ends.exists?.mono (fun _ _ h => h) fun e v h => ⟨h.2.1, p, rfl, ?_⟩) ?_
    · rw [h.1]
      exact .refused h.2.2
    · rintro b _ ⟨rfl, hb⟩
      rcases b with _ | _
      · exact .of_error rfl ⟨rfl, p, rfl, .missing fun n hn => by simpa using hb.mpr ⟨n, hn⟩⟩
      · exact addFile_ends.mono (fun _ _ h => h) fun e v h => ⟨h.1, p, rfl, h.2⟩

end Files

/-! ### All layers -/

def Layers.all (w : Workspace) (project named : List (String × Value)) (options : List Override) : Layers :=
  let files := (Layers.empty.withFile project).withFile named
  Layers.addOptions ⟨Layers.overlay files.settings (variableEntries w Settings.kinds),
    Layers.overlay files.thresholds (variableEntries w thresholdKinds)⟩ options

namespace Layers

variable {w : Workspace} {name : String} {kind : SettingKind}

/-- A setting is found among the options, else in its variable, else below. -/
theorem lookup_settings_given (h : (name, kind) ∈ Settings.kinds) (settings limits : List (String × Value))
    (options : List Override) :
    Value.lookup name (addOptions ⟨overlay settings (variableEntries w Settings.kinds), limits⟩ options).settings =
      (Value.latest name (givenOptions options)).or ((w.environmentValue? name kind).or (Value.lookup name settings)) := by
  have hnames : ∀ n ∈ Settings.kinds.map (·.1), n ∉ Thresholds.names := by decide +kernel
  rw [lookup_settings_addOptions (hnames name (List.mem_map.mpr ⟨_, h, rfl⟩)), lookup_overlay,
    latest_variableEntries (by decide +kernel) h]

theorem ne_thresholds_of_mem_kinds (h : (name, kind) ∈ Settings.kinds) : name ≠ "thresholds" := by
  have hnames : ∀ n ∈ Settings.kinds.map (·.1), n ≠ "thresholds" := by decide +kernel
  exact hnames name (List.mem_map.mpr ⟨_, h, rfl⟩)

theorem lookup_settings_all (h : (name, kind) ∈ Settings.kinds) (project named : List (String × Value)) (options : List Override)
     : Value.lookup name (all w project named options).settings =
      (Value.latest name (givenOptions options)).or ((w.environmentValue? name kind).or
        ((Value.latest name named).or (Value.latest name project))) := by
  have htable := ne_thresholds_of_mem_kinds h
  rw [all, lookup_settings_given h, lookup_settings_withFile htable, lookup_settings_withFile htable]
  simp only [empty, Value.lookup, Option.or_none]

/-- A threshold is found in the highest layer that has it; an option that gives all of them gives each. -/
theorem lookup_thresholds_all (h : name ∈ Thresholds.names) (project named : List (String × Value)) (options : List Override) :
    Value.lookup name (all w project named options).thresholds =
      (Value.latest name (givenOptions options)).or ((w.environmentValue? name .real).or
        ((Value.latest name (thresholdEntries named)).or (Value.latest name (thresholdEntries project)))) := by
  have hkind : (name, SettingKind.real) ∈ thresholdKinds := List.mem_map.mpr ⟨name, h, rfl⟩
  simp only [all, lookup_overlay, lookup_thresholds_addOptions h, latest_variableEntries (by decide +kernel) hkind,
    lookup_thresholds_withFile, empty, Value.lookup, Option.or_none]

end Layers

/-- What all layers together come to. -/
def Workspace.Layered (w : Workspace) (file : Option Path) (options : List Override) 
    (l : Layers) : Prop :=
  ∃ project named, w.SuppliesProject project ∧ w.SuppliesNamed file named ∧ l = .all w project named options

/-- Why settings are not loaded: the layer at fault. -/
inductive Workspace.Misloads (w : Workspace) (file : Option Path) (options : List Override)
     : Failure → Prop
  | project {e : Failure} (h : w.Withholds projectPath e) : w.Misloads file options e
  | named {p : Path} {e : Failure} (hfile : file = some p) (h : w.Withholds p e) : w.Misloads file options e
  | unread (name : String) (fault : ValueFault) : w.Misloads file options (.settings (.badVariable name fault))
  | result {l : Layers} {e : Failure} (hl : w.Layered file options l) (h : l.result = .error e) :
      w.Misloads file options e

/-- Settings are loaded from all layers, without any change to the workspace, or the failure has a cause in a layer. -/
theorem loadSettings_ends {w : Workspace} {file : Option Path} {options : List Override} :
    (loadSettings file options).Ends w
      (fun s v => v = w ∧ w.ReadsVariables (Settings.kinds ++ thresholdKinds) ∧
        ∃ l, w.Layered file options l ∧ l.result = .ok s)
      fun e v => v = w ∧ w.Misloads file options e := by
  unfold loadSettings
  refine .bind (addProjectFile_ends.mono (fun _ _ h => h) fun e v h => ⟨h.1, .project h.2⟩) ?_
  rintro _ _ ⟨rfl, project, hproject, rfl⟩
  refine .bind (addNamedFile_ends.mono (fun _ _ h => h) fun e v h => ⟨h.1, ?_⟩) ?_
  · obtain ⟨p, hfile, hp⟩ := h.2
    exact .named hfile hp
  rintro _ w ⟨rfl, named, hnamed, rfl⟩
  refine .bind_ok Action.exec_get ?_
  have hbad : ∀ (e : Failure) (v : Workspace), (v = w ∧ ∃ name fault, e = .settings (.badVariable name fault)) →
      v = w ∧ w.Misloads file options e := by
    rintro _ _ ⟨rfl, name, fault, rfl⟩
    exact ⟨rfl, .unread name fault⟩
  refine .bind (fromVariables_ends.mono (fun _ _ h => h) hbad) ?_
  rintro _ w ⟨rfl, rfl, hsettings⟩
  refine .bind (fromVariables_ends.mono (fun _ _ h => h) hbad) ?_
  rintro _ w ⟨rfl, rfl, hthresholds⟩
  have hread : w.ReadsVariables (Settings.kinds ++ thresholdKinds) :=
    fun k hk => (List.mem_append.mp hk).elim (hsettings k) (hthresholds k)
  have hl : w.Layered file options (.all w project named options) := ⟨project, named, hproject, hnamed, rfl⟩
  exact .lift_failure (fun s hs => ⟨rfl, hread, _, hl, hs⟩) fun e he => ⟨rfl, .result hl he⟩

/-- The result of layers has the thresholds and the settings that they give, and otherwise the defaults. -/
theorem Layers.result_eq_ok {l : Layers} {s : Settings} (h : l.result = .ok s) :
    ∃ t, Thresholds.ofEntries l.thresholds = .ok t ∧ s.thresholds = some t ∧ s.Checked ∧
      ∀ name kind, (name, kind) ∈ Settings.kinds → Value.lookup name s.entries =
        (Value.lookup name l.settings).or (Value.lookup name Settings.defaults) := by
  rw [result, bind_eq_ok] at h
  obtain ⟨t, ht, hs⟩ := h
  obtain ⟨hchecked, hlimits, hentries⟩ := Settings.ofEntries_eq_ok hs
  refine ⟨t, ht, hlimits, hchecked, fun name kind hname => ?_⟩
  have htable := Layers.ne_thresholds_of_mem_kinds hname
  rw [hentries name (List.mem_map.mpr ⟨_, hname, rfl⟩), Value.lookup_filter (fun n => n ≠ "thresholds"),
    if_pos (decide_eq_true htable)]

/-- Every setting has the value of the highest layer that gives it one, and so has every threshold among the four. -/
theorem loadSettings_resolves {w v : Workspace} {file : Option Path} {options : List Override} {s : Settings}
    (h : (loadSettings file options).exec w = (.ok s, v)) :
    v = w ∧ w.ReadsVariables (Settings.kinds ++ thresholdKinds) ∧
      ∃ project named t, w.SuppliesProject project ∧ w.SuppliesNamed file named ∧ s.thresholds = some t ∧
        (∀ name kind, (name, kind) ∈ Settings.kinds → Value.lookup name s.entries =
          (Value.latest name (Layers.givenOptions options)).or
            ((w.environmentValue? name kind).or
              ((Value.latest name named).or ((Value.latest name project).or (Value.lookup name Settings.defaults))))) ∧
        ∀ name ∈ Thresholds.names, Value.lookup name t.entries =
          (Value.latest name (Layers.givenOptions options)).or
            ((w.environmentValue? name .real).or
              ((Value.latest name (Layers.thresholdEntries named)).or
                ((Value.latest name (Layers.thresholdEntries project)).or
                  (Value.lookup name Thresholds.default.entries)))) := by
  obtain ⟨rfl, hread, l, ⟨project, named, hproject, hnamed, rfl⟩, hresult⟩ := loadSettings_ends.ok h
  obtain ⟨t, ht, hlimits, -, hentries⟩ := Layers.result_eq_ok hresult
  -- options are over variables, those over the named file, and that over the file of the project
  refine ⟨rfl, hread, project, named, t, hproject, hnamed, hlimits, fun name kind hname => ?_, fun name hname => ?_⟩
  · rw [hentries name kind hname, Layers.lookup_settings_all hname]
    simp only [Option.or_assoc]
  · rw [(Thresholds.ofEntries_eq_ok ht).2 name hname, Layers.lookup_thresholds_all hname]
    simp only [Option.or_assoc]

def twoThresholds : String := "[thresholds]\nmax_score_regression = 3\nmin_score_improvement = 1\n"

/-- A project with this file, where a variable sets one of the two. -/
def layered : Workspace :=
  { Store.blank with
    tree := ⟨[(["perf-sentinel.toml"], .file twoThresholds.toUTF8)]⟩
    environment := [("PERF_SENTINEL_MAX_SCORE_REGRESSION", "4")] }

/-- The threshold of a variable does not reset the others of the file, and an option that is nothing masks none. -/
theorem loadSettings_resolves_layered : ∃ s v t,
    (loadSettings none [.value ("min_score_improvement", .null), .value ("baseline_branch", .text "dev")]).exec layered = (.ok s, v) ∧
      s.thresholds = some t ∧ Value.lookup "baseline_branch" s.entries = some (.text "dev") ∧
      Value.lookup "max_score_regression" t.entries = some (.real (.ofInt 4)) ∧
      Value.lookup "min_score_improvement" t.entries = some (.int 1) ∧
      Value.lookup "max_total_issues_increase" t.entries = some (.real (.ofInt 10)) := by
  have hloads : ((loadSettings none [.value ("min_score_improvement", .null), .value ("baseline_branch", .text "dev")]).exec
      layered).1.toBool = true := by decide +kernel
  rcases hexec :
      (loadSettings none [.value ("min_score_improvement", .null), .value ("baseline_branch", .text "dev")]).exec layered with ⟨e | s, v⟩
  · rw [hexec] at hloads
    cases hloads
  obtain ⟨-, -, project, named, t, hproject, rfl, ht, hsettings, hthresholds⟩ := loadSettings_resolves hexec
  have hes : Layers.thresholdEntries project = [("max_score_regression", .int 3), ("min_score_improvement", .int 1)] := by
    rcases hproject with ⟨⟨text, ⟨bytes, hread, htext⟩, hes⟩, -⟩ | ⟨habsent, -⟩
    · obtain rfl : bytes = twoThresholds.toUTF8 := by
        have hfile : layered.read projectPath = .ok twoThresholds.toUTF8 := by decide +kernel
        exact Except.ok.inj (hread.symm.trans hfile)
      obtain rfl : text = twoThresholds := by
        have hutf8 : String.fromUTF8? twoThresholds.toUTF8 = some twoThresholds := by decide +kernel
        exact Option.some.inj (htext.symm.trans hutf8)
      have hdocument : Toml.read (layered.depth - 1) twoThresholds =
          .ok [("thresholds", .table [("max_score_regression", .int 3), ("min_score_improvement", .int 1)])] := by
        decide +kernel
      rw [hdocument] at hes
      cases hes
      rfl
    · exact absurd rfl (habsent (.file twoThresholds.toUTF8))
  refine ⟨s, v, t, rfl, ht, ?_, ?_, ?_, ?_⟩
  · rw [hsettings "baseline_branch" .text (by decide)]
    rfl
  · rw [hthresholds _ (by decide), hes]
    decide +kernel
  · rw [hthresholds _ (by decide), hes]
    decide +kernel
  · rw [hthresholds _ (by decide), hes]
    decide +kernel

end ScoreGate
