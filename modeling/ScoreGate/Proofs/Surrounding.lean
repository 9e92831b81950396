import ScoreGate.Proofs.Endings

/-!
# Actions in another environment

Only the settings are read from variables.  Looking for sources, reading and analysing them, and writing and printing what
came of it give the same whatever the variables are, and leave the same but for them.

* `Action.Unaware`: an action that does not look at variables, with the rules for the forms that actions are written in.
* `Action.unaware_findSources`, `Action.unaware_analyzeFiles`: looking for sources and analysing them.
* `Command.Unaware`, `Command.unaware_bulkUnder`: commands, and the analysis of all files once its settings are known.
-/

namespace ScoreGate

def Workspace.among (w : Workspace) (env : List (String × String)) : Workspace := { w with environment := env }

theorem Workspace.write_among (w : Workspace) (env : List (String × String)) (p : Path) (bytes : ByteArray) :
    (w.among env).write p bytes = (w.write p bytes).map (·.among env) := by
  have htarget : (w.among env).target p = w.target p := rfl
  rw [write, write, htarget]
  rcases w.target p with o | loc <;> rfl

/-! ### Actions -/

namespace Action

variable {α β ι : Type}

/-- Under other variables the action gives the same, and leaves the same but for them. -/
structure Unaware (a : Action α) : Prop where
  exec : ∀ w env, a.exec (w.among env) = ((a.exec w).1, (a.exec w).2.among env)

namespace Unaware

variable {a : Action α} {f : α → Action β}

theorem pure (x : α) : Unaware (Pure.pure x : Action α) := ⟨fun _ _ => rfl⟩

theorem throw (e : Failure) : Unaware (MonadExcept.throw e : Action α) := ⟨fun _ _ => rfl⟩

theorem lift_fault (x : Except Fault α) : Unaware (liftM x : Action α) := ⟨fun _ _ => rfl⟩

theorem lift_failure (x : Except Failure α) : Unaware (liftM x : Action α) := ⟨fun _ _ => rfl⟩

theorem note (c : Component) (l : Level) (m : String) : Unaware (Action.note c l m) := ⟨fun _ _ => rfl⟩

theorem bind (ha : Unaware a) (hf : ∀ x, Unaware (f x)) : Unaware (a >>= f) := by
  refine ⟨fun w env => ?_⟩
  rw [exec_bind, exec_bind, ha.exec w env]
  rcases a.exec w with ⟨e | x, v⟩
  · rfl
  · exact (hf x).exec v env

theorem read {f : Workspace → Action β} (h : ∀ w env, f (w.among env) = f w) (hf : ∀ w, Unaware (f w)) :
    Unaware ((get : Action Workspace) >>= f) := by
  refine ⟨fun w env => ?_⟩
  rw [exec_bind_ok exec_get, exec_bind_ok exec_get, h w env]
  exact (hf w).exec w env

theorem tryCatch {g : Failure → Action α} (ha : Unaware a) (hg : ∀ e, Unaware (g e)) :
    Unaware (MonadExcept.tryCatch a g) := by
  refine ⟨fun w env => ?_⟩
  rw [exec_tryCatch, exec_tryCatch, ha.exec w env]
  rcases a.exec w with ⟨e | x, v⟩
  · exact (hg e).exec v env
  · rfl

theorem map (g : α → β) (ha : Unaware a) : Unaware (g <$> a) := by
  rw [← bind_pure_comp]
  exact ha.bind fun x => pure (g x)

theorem filterMapM {f : α → Action (Option β)} (hf : ∀ x, Unaware (f x)) : ∀ xs : List α, Unaware (xs.filterMapM f)
  | [] => pure []
  | x :: xs => by
    rw [List.filterMapM_cons]
    refine (hf x).bind fun r => ?_
    rcases r with _ | y
    · exact filterMapM hf xs
    · exact (filterMapM hf xs).bind fun _ => pure _

theorem forIn_yield {body : ι → Action PUnit} (hbody : ∀ x, Unaware (body x)) : ∀ xs : List ι,
    Unaware (forIn xs PUnit.unit fun x _ => body x >>= fun _ => Pure.pure (ForInStep.yield PUnit.unit) : Action PUnit)
  | [] => pure _
  | x :: xs => by
    rw [List.forIn_cons, bind_assoc]
    refine (hbody x).bind fun _ => ?_
    rw [pure_bind]
    exact forIn_yield hbody xs

end Unaware

/-! ### Files -/

variable {p : Path}

theorem unaware_node? : Unaware (node? p) := by
  refine .read (fun _ _ => rfl) fun w => ?_
  rcases w.node p with o | n
  · cases o
    case nameTooLong => exact .throw _
    all_goals exact .pure _
  · exact .pure _

theorem unaware_exists? : Unaware (exists? p) := unaware_node?.bind fun _ => .pure _

theorem unaware_isFile : Unaware (isFile p) := unaware_node?.bind fun _ => .pure _

theorem unaware_readSource : Unaware (readSource p) := by
  refine unaware_isFile.bind fun there => ?_
  rcases there with _ | _
  · exact .throw _
  · refine .read (fun _ _ => rfl) fun w => ?_
    rcases w.read p with o | bytes
    · exact .throw _
    · dsimp only
      rcases String.fromUTF8? bytes with _ | s
      · exact .throw _
      · exact .pure _

theorem unaware_analyzeFiles (ps : List Path) : Unaware (analyzeFiles ps) := by
  have hfile : ∀ p, Unaware (analyzeFile p) := fun p =>
    unaware_readSource.bind fun _ => (Unaware.note ..).bind fun _ => .pure _
  have hlisted : ∀ p, Unaware (analyzeListed p) := by
    refine fun p => ((hfile p).map some).tryCatch fun e => ?_
    cases e
    case fileAccess => exact (Unaware.note ..).bind fun _ => .pure _
    all_goals exact .throw _
  exact (Unaware.filterMapM hlisted ps).bind fun _ => (Unaware.note ..).bind fun _ => .pure _

theorem unaware_findSources (root : Path) (extensions patterns : Value) (limit : Option Number) :
    Unaware (findSources root extensions patterns limit) := by
  refine (Unaware.lift_fault _).bind fun es => unaware_isFile.bind fun file => ?_
  rcases file with _ | _
  · refine .read (fun _ _ => rfl) fun w => (Unaware.forIn_yield (fun _ => .note ..) _).bind fun _ => ?_
    have hrest : ∀ g : Gathered, Unaware (do
        if g.full then
          Action.note .discovery .warning ("Reached max files limit (" ++ (limit.getD 0).text ++ ")")
        else
          Action.note .discovery .info ("Discovery complete: " ++ toString g.found.length ++ " files, " ++
            toString g.skipped.length ++ " skipped")
        return (g.found.mergeSort locationLe).map root.join : Action (List Path)) := by
      intro g
      split_ifs
      · exact (Unaware.note ..).bind fun _ => .pure _
      · exact (Unaware.note ..).bind fun _ => .pure _
    generalize gather _ _ _ _ = g
    rcases hfault : g.fault with _ | fault
    · exact hrest g
    · exact (Unaware.throw _).bind fun _ => hrest g
  · exact .pure _

/-! ### Files of settings -/

theorem unaware_readSettings : Unaware (readSettings p) := by
  refine .read (fun _ _ => rfl) fun w => ?_
  rcases w.read p with o | bytes
  · exact .throw _
  dsimp only
  rcases String.fromUTF8? bytes with _ | s
  · exact .throw _
  dsimp only
  split
  · exact .pure _
  · exact .throw _
  · exact .throw _

theorem unaware_addProjectFile (l : Layers) : Unaware (addProjectFile l) := by
  refine unaware_exists?.bind fun there => ?_
  rcases there with _ | _
  · exact .pure _
  · exact unaware_readSettings.bind fun _ => .lift_failure _

theorem unaware_addNamedFile (l : Layers) (file : Option Path) : Unaware (addNamedFile l file) := by
  rcases file with _ | p
  · exact .pure _
  · refine unaware_exists?.bind fun there => ?_
    rcases there with _ | _
    · exact .throw _
    · exact unaware_readSettings.bind fun _ => .lift_failure _

end Action

/-! ### Commands -/

variable [Console]

def Terminal.among (t : Terminal) (env : List (String × String)) : Terminal :=
  { t with workspace := t.workspace.among env }

@[simp] theorem Terminal.workspace_among (t : Terminal) (env : List (String × String)) :
    (t.among env).workspace = t.workspace.among env := rfl

namespace Command

variable {α β : Type}

/-- Under other variables the command comes to the same and prints the same, and leaves the same but for them. -/
structure Unaware (c : Command α) : Prop where
  exec : ∀ t env, c.exec (t.among env) = ((c.exec t).1, (c.exec t).2.among env)

namespace Unaware

theorem pure (x : α) : Unaware (Pure.pure x : Command α) := ⟨fun _ _ => rfl⟩

theorem throw (stop : Stop) : Unaware (MonadExcept.throw stop : Command α) := ⟨fun _ _ => rfl⟩

theorem lift_fault (x : Except Fault α) : Unaware (liftM x : Command α) := ⟨fun _ _ => rfl⟩

theorem lift_failure (x : Except Failure α) : Unaware (liftM x : Command α) := ⟨fun _ _ => rfl⟩

theorem bind {c : Command α} {f : α → Command β} (hc : Unaware c) (hf : ∀ x, Unaware (f x)) : Unaware (c >>= f) := by
  refine ⟨fun t env => ?_⟩
  rw [exec_bind, exec_bind, hc.exec t env]
  rcases c.exec t with ⟨e | x, u⟩
  · rfl
  · exact (hf x).exec u env

/-- Nor does it change the variables. -/
theorem environment {c : Command α} (hc : Unaware c) {t u : Terminal} {r : Except Stop α} (h : c.exec t = (r, u)) :
    u.workspace.environment = t.workspace.environment := by
  have hsame := hc.exec t t.workspace.environment
  rw [show t.among t.workspace.environment = t from rfl, h] at hsame
  exact congrArg (fun x => x.2.workspace.environment) hsame

theorem perform {a : Action α} (ha : Action.Unaware a) : Unaware (liftM a : Command α) := by
  have hattempted : Unaware (attempted a) := by
    refine ⟨fun t env => ?_⟩
    rw [exec_attempted, exec_attempted]
    simp only [Terminal.among, ha.exec t.workspace env]
  change Unaware (Command.perform a)
  refine hattempted.bind fun r => ?_
  rcases r with e | x
  · exact throw _
  · exact pure _

theorem put (o : Output Console.Text) : Unaware (Command.put o) := (lift_failure _).bind fun _ => ⟨fun _ _ => rfl⟩

theorem say (m : String) : Unaware (Command.say m) := (lift_failure _).bind fun _ => put _

theorem sayRule (m : String) : Unaware (Command.sayRule m) := (lift_failure _).bind fun _ => put _

theorem sayTable (columns : List Column) (rows : List (List String)) : Unaware (Command.sayTable columns rows) :=
  (lift_failure _).bind fun _ => put _

theorem sayAll : ∀ ms : List String, Unaware (Command.sayAll ms)
  | [] => pure _
  | m :: ms => (say m).bind fun _ => sayAll ms

theorem refuse (message : String) (code : ℕ) : Unaware (Command.refuse message code : Command α) :=
  (say _).bind fun _ => throw _

end Unaware

variable {p : Path}

theorem unaware_requirePath : Unaware (requirePath p) := by
  refine (Unaware.perform Action.unaware_exists?).bind fun there => ?_
  rcases there with _ | _
  · exact .refuse _ _
  · exact .pure _

theorem unaware_writeBulk (output : Path) (project : ProjectScore) (as : List FileAnalysis) :
    Unaware (writeBulk output project as) := by
  have hsay : Unaware (say (Console.styled "green" ("Results written to " ++ Console.escape output.text))) := .say _
  have hget : ∀ t : Terminal, (getThe Terminal : Command Terminal).exec t = (.ok t, t) := fun _ => rfl
  have hput : ∀ (t : Terminal) (v : Workspace), (modifyThe Terminal fun t => { t with workspace := v } : Command PUnit).exec t =
      (.ok ⟨⟩, { t with workspace := v }) := fun _ _ => rfl
  refine ⟨fun t env => ?_⟩
  rw [writeBulk, exec_bind, exec_bind, hget, hget]
  simp only [Terminal.workspace_among, Workspace.write_among]
  rcases t.workspace.write output (Document.indented (bulkDocument project as)).toUTF8 with o | v
  · exact ((Unaware.refuse (α := PUnit) _ _).bind fun _ => hsay).exec t env
  · simp only [Except.map]
    rw [exec_bind, exec_bind, hput, hput]
    exact hsay.exec { t with workspace := v } env

theorem unaware_tellBulk (o : BulkOptions) (as : List FileAnalysis) : Unaware (tellBulk o as) := by
  refine (Unaware.lift_fault _).bind fun project => ?_
  have hproject : Unaware (sayProject project) := (Unaware.say _).bind fun _ => (Unaware.sayRule _).bind fun _ => .sayAll _
  have hshown : Unaware (do
      if !o.summaryOnly && !as.isEmpty then
        say ""
        sayTable analysisColumns ((byIssues as).map analysisRow)
      sayProject project) := by
    simp only
    split_ifs
    · exact (Unaware.say _).bind fun _ => (Unaware.sayTable _ _).bind fun _ => hproject
    · exact hproject
  rcases o with ⟨directory, extensions, exclude, maxFiles, summaryOnly, _ | output, config⟩
  · exact hshown
  · exact (unaware_writeBulk _ _ _).bind fun _ => hshown

theorem unaware_bulkUnder (o : BulkOptions) (s : Settings) : Unaware (bulkUnder o s) :=
  (Unaware.lift_fault _).bind fun _ => (Unaware.perform (Action.unaware_findSources ..)).bind fun ps =>
    (Unaware.perform (Action.unaware_analyzeFiles ps)).bind fun as => unaware_tellBulk o as

end Command

end ScoreGate
