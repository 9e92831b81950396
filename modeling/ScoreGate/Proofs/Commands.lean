import ScoreGate.Command.Terminal
import ScoreGate.Proofs.Consoles
import ScoreGate.Proofs.Loading

/-!
# How commands end

A command ends with a result or with a reason to stop, and leaves a workspace; what it printed on the way has no bearing on
either, as long as the console prints it.

* `Command.Ends`: what holds of a result and what holds of a reason to stop, with the rules for the forms that commands
  are written in.
* `Command.Unheard`: failures of the console.
* `Command.PathStop`, `Command.SettingsStop`: why commands stop at the beginnings that they have in common.
-/

namespace ScoreGate

def Failure.IsStorage : Failure → Prop
  | .storage .. => True
  | _ => False

/-- What stopped an operation is a record that cannot be used. -/
def Failure.IsRecord : Failure → Prop
  | .malformedRecord .. => True
  | _ => False

namespace Command

theorem storageFailure_cases (e : Failure) : (e.IsStorage ∧ ∃ m, storageFailure e = some (m, ExitCode.internal)) ∨
    ¬e.IsStorage ∧ storageFailure e = none := by
  cases e
  case storage => exact Or.inl ⟨trivial, _, rfl⟩
  all_goals exact Or.inr ⟨id, rfl⟩

theorem recordFailure_cases (e : Failure) :
    ((e.IsStorage ∨ e.IsRecord) ∧ ∃ m, recordFailure e = some (m, ExitCode.internal)) ∨
      ¬(e.IsStorage ∨ e.IsRecord) ∧ recordFailure e = none := by
  cases e
  case storage => exact Or.inl ⟨Or.inl trivial, _, rfl⟩
  case malformedRecord => exact Or.inl ⟨Or.inr trivial, _, rfl⟩
  all_goals exact Or.inr ⟨by rintro (h | h) <;> exact h, rfl⟩

variable [Console] {α β : Type} {t : Terminal}

/-- The result of a command and the terminal that it leaves. -/
def exec (c : Command α) (t : Terminal) : Except Stop α × Terminal := ExceptT.run c t

theorem exec_bind (c : Command α) (f : α → Command β) (t : Terminal) :
    (c >>= f).exec t = match c.exec t with
      | (.ok x, u) => (f x).exec u
      | (.error e, u) => (.error e, u) := by
  have h : (c >>= f).exec t = ExceptT.bindCont f (c.exec t).1 (c.exec t).2 := rfl
  rw [h]
  rcases c.exec t with ⟨_ | x, u⟩ <;> rfl

theorem exec_attempted (act : Action α) (t : Terminal) :
    (attempted act).exec t = (.ok (act.exec t.workspace).1, { t with workspace := (act.exec t.workspace).2 }) := rfl

/-- A command ends with a result of one kind or with a reason to stop of another, each with the workspace that it
leaves. -/
structure Ends (c : Command α) (t : Terminal) (P : α → Workspace → Prop) (E : Stop → Workspace → Prop) : Prop where
  ok : ∀ {x u}, c.exec t = (.ok x, u) → P x u.workspace
  error : ∀ {e u}, c.exec t = (.error e, u) → E e u.workspace

namespace Ends

variable {c : Command α} {f : α → Command β} {P P' : α → Workspace → Prop} {Q : β → Workspace → Prop}
  {E E' : Stop → Workspace → Prop}

theorem of_ok {x : α} {u : Terminal} (h : c.exec t = (.ok x, u)) (hP : P x u.workspace) : c.Ends t P E := by
  refine ⟨fun hx => ?_, fun he => ?_⟩
  · rw [h] at hx
    cases hx
    exact hP
  · rw [h] at he
    cases he

theorem of_error {e : Stop} {u : Terminal} (h : c.exec t = (.error e, u)) (hE : E e u.workspace) : c.Ends t P E := by
  refine ⟨fun hx => ?_, fun he => ?_⟩
  · rw [h] at hx
    cases hx
  · rw [h] at he
    cases he
    exact hE

theorem pure {x : α} (h : P x t.workspace) : (Pure.pure x : Command α).Ends t P E := of_ok rfl h

theorem throw {e : Stop} (h : E e t.workspace) : (MonadExcept.throw e : Command α).Ends t P E := of_error rfl h

theorem mono (h : c.Ends t P E) (hP : ∀ x v, P x v → P' x v) (hE : ∀ e v, E e v → E' e v) : c.Ends t P' E' :=
  ⟨fun hx => hP _ _ (h.ok hx), fun he => hE _ _ (h.error he)⟩

/-- A sequence goes on from every result of its first part. -/
theorem bind (hc : c.Ends t P E) (hf : ∀ x u, P x u.workspace → (f x).Ends u Q E) : (c >>= f).Ends t Q E := by
  rcases hr : c.exec t with ⟨e | x, u⟩
  · exact .of_error (by rw [exec_bind, hr]) (hc.error hr)
  · have hrest := hf x u (hc.ok hr)
    have hexec : (c >>= f).exec t = (f x).exec u := by rw [exec_bind, hr]
    refine ⟨fun hy => hrest.ok ?_, fun he => hrest.error ?_⟩
    · rwa [hexec] at hy
    · rwa [hexec] at he

/-! ### Calculating -/

theorem lift_fault {x : Except Fault α} (hP : ∀ y, x = .ok y → P y t.workspace)
    (hE : ∀ e, x = .error e → E (.crash (.fault e)) t.workspace) : (liftM x : Command α).Ends t P E := by
  rcases x with e | y
  · exact of_error rfl (hE e rfl)
  · exact of_ok rfl (hP y rfl)

theorem lift_failure {x : Except Failure α} (hP : ∀ y, x = .ok y → P y t.workspace)
    (hE : ∀ e, x = .error e → E (.crash e) t.workspace) : (liftM x : Command α).Ends t P E := by
  rcases x with e | y
  · exact of_error rfl (hE e rfl)
  · exact of_ok rfl (hP y rfl)

end Ends

/-! ### Printing -/

/-- A failure of the console: it cannot read markup that is put together as it should be, or it cannot print something. -/
inductive Unheard : Failure → Prop
  | unread {m : String} {f : Failure} (hm : Console.Proper m) (h : Console.read m = .error f) : Unheard f
  | unprinted {o : Output Console.Text} {f : Failure} (h : Console.print o = .error f) : Unheard f

/-- A command that stops with an exit code after it has printed, unless the console fails. -/
inductive Closing (code : ℕ) : Stop → Prop
  | exit : Closing code (.exit code)
  | unheard {f : Failure} (h : Unheard f) : Closing code (.crash f)

/-- A command that comes to its end after it has printed, unless the console fails. -/
inductive Finish : Except Stop Unit → Prop
  | done : Finish (.ok ())
  | unheard {f : Failure} (h : Unheard f) : Finish (.error (.crash f))

/-- A command that prints and does nothing else, unless the console fails. -/
def Tells (c : Command Unit) : Prop := ∀ t, c.Ends t (fun _ v => v = t.workspace) fun e v =>
  v = t.workspace ∧ ∃ f, e = .crash f ∧ Unheard f

theorem tells_pure : Tells (pure ()) := fun _ => .pure rfl

theorem Tells.bind {c d : Command Unit} (hc : Tells c) (hd : Tells d) : Tells (c >>= fun _ => d) := fun t =>
  .bind (hc t) fun _ u hu => hu ▸ hd u

theorem tells_put (o : Output Console.Text) : Tells (put o) := by
  intro t
  rw [put]
  refine .bind (P := fun _ v => v = t.workspace) (.lift_failure (fun _ _ => rfl) fun f hf => ?_) fun _ u hu => .of_ok rfl hu
  exact ⟨rfl, f, rfl, .unprinted hf⟩

/-- What is read for the console is printed. -/
theorem Tells.read {x : Except Failure α} {g : α → Command Unit} (hx : ∀ f, x = .error f → Unheard f) (hg : ∀ y, Tells (g y)) :
    Tells ((liftM x : Command α) >>= g) := fun t =>
  .bind (P := fun _ v => v = t.workspace) (.lift_failure (fun _ _ => rfl) fun f hf => ⟨rfl, f, rfl, hx f hf⟩)
    fun y u hu => hu ▸ hg y u

theorem tells_say {m : String} (hm : Console.Proper m) : Tells (say m) := .read (fun _ hf => .unread hm hf) fun _ => tells_put _

theorem tells_sayRule {m : String} (hm : Console.Proper m) : Tells (sayRule m) :=
  .read (fun _ hf => .unread hm hf) fun _ => tells_put _

theorem tells_sayAll : ∀ {ms : List String}, (∀ m ∈ ms, Console.Proper m) → Tells (sayAll ms)
  | [], _ => tells_pure
  | m :: ms, hms => (tells_say (hms m (by simp))).bind (tells_sayAll fun n hn => hms n (List.mem_cons_of_mem m hn))

theorem fails_cells (rows : List (List String)) : FailsOnly (rows.mapM fun row => row.mapM Console.read) fun f =>
    ∃ row ∈ rows, ∃ m ∈ row, Console.read m = .error f :=
  .mapM fun row hrow => .mapM fun m hm _ hf => ⟨row, hrow, m, hm, hf⟩

theorem tells_sayTable (columns : List Column) {rows : List (List String)} (h : ∀ row ∈ rows, ∀ m ∈ row, Console.Proper m) :
    Tells (sayTable columns rows) := by
  refine .read (fun f hf => ?_) fun _ => tells_put _
  obtain ⟨row, hrow, m, hm, hread⟩ := fails_cells rows f hf
  exact .unread (h row hrow m hm) hread

namespace Ends

variable {c : Command α} {f : α → Command β} {P P' : α → Workspace → Prop} {Q : β → Workspace → Prop}
  {E E' : Stop → Workspace → Prop}

theorem tells {c : Command Unit} {P : Unit → Workspace → Prop} (hc : Tells c) (h : P () t.workspace)
    (hE : ∀ f, Unheard f → E (.crash f) t.workspace) : c.Ends t P E :=
  (hc t).mono (fun _ _ hv => hv ▸ h) fun _ _ ⟨hv, f, he, hf⟩ => he ▸ hv ▸ hE f hf

theorem after {c : Command Unit} {f : Unit → Command β} (hc : Tells c) (hE : ∀ f, Unheard f → E (.crash f) t.workspace)
    (hf : ∀ u, u.workspace = t.workspace → (f ()).Ends u Q E) : (c >>= f).Ends t Q E :=
  bind (P := fun _ v => v = t.workspace) (tells hc rfl hE) fun _ u hu => hf u hu

/-- A line whose markup may be put together otherwise. -/
theorem say {P : Unit → Workspace → Prop} {m : String} (h : P () t.workspace)
    (hread : ∀ e, Console.read m = .error e → E (.crash e) t.workspace)
    (hE : ∀ f, Unheard f → E (.crash f) t.workspace) : (Command.say m).Ends t P E :=
  bind (P := fun _ v => v = t.workspace) (lift_failure (fun _ _ => rfl) hread) fun _ _ hu =>
    tells (tells_put _) (hu ▸ h) (hu ▸ hE)

/-- Steps one after another that change nothing. -/
theorem mapM {g : α → Command β} {G : α → β → Prop} : ∀ {xs : List α} {t : Terminal},
    (∀ x ∈ xs, ∀ u, u.workspace = t.workspace → (g x).Ends u (fun y v => v = t.workspace ∧ G x y) E) →
      (xs.mapM g).Ends t (fun ys v => v = t.workspace ∧ ∀ y ∈ ys, ∃ x ∈ xs, G x y) E
  | [], _, _ => pure ⟨rfl, by simp⟩
  | x :: xs, t, hg => by
    rw [List.mapM_cons]
    refine bind (hg x (by simp) t rfl) ?_
    rintro y u ⟨hu, hy⟩
    refine bind (mapM fun z hz v hv => hu ▸ hg z (List.mem_cons_of_mem x hz) v (hv.trans hu)) ?_
    rintro ys v ⟨hv, hys⟩
    refine pure ⟨hv.trans hu, List.forall_mem_cons.mpr ⟨⟨x, by simp, hy⟩, fun z hz => ?_⟩⟩
    obtain ⟨z', hz', hG⟩ := hys z hz
    exact ⟨z', List.mem_cons_of_mem x hz', hG⟩

/-! ### Expected failures -/

theorem refuse (message : String) (code : ℕ) (h : ∀ stop, Closing code stop → E stop t.workspace) :
    (Command.refuse message code : Command α).Ends t P E := by
  have hline : Console.Proper (Console.styled "red" "Error:" ++ " " ++ Console.escape message) :=
    (((Console.Plain.proper (by decide)).styled (by decide)).append (Console.Plain.proper (by decide))).append
      (Console.proper_escape message)
  exact after (tells_say hline) (fun f hf => h _ (.unheard hf)) fun u hu => throw (hu ▸ h _ .exit)

/-- What is known of an ending of either kind. -/
def Either (P : α → Workspace → Prop) (F : Failure → Workspace → Prop) : Except Failure α → Workspace → Prop
  | .ok x, v => P x v
  | .error e, v => F e v

theorem either_exec {act : Action α} {F : Failure → Workspace → Prop} (h : act.Ends t.workspace P F) :
    Either P F (act.exec t.workspace).1 (act.exec t.workspace).2 := by
  rcases hr : act.exec t.workspace with ⟨e | x, v⟩
  · exact h.error hr
  · exact h.ok hr

/-- An action whose expected failures end the command with an exit code. -/
theorem attempt {act : Action α} {expected : Failure → Option (String × ℕ)} {F : Failure → Workspace → Prop}
    (h : act.Ends t.workspace P F) (hE : ∀ e v, F e v → match expected e with
      | some (_, code) => ∀ stop, Closing code stop → E stop v
      | none => E (.crash e) v) : (Command.attempt act expected).Ends t P E := by
  rw [Command.attempt]
  refine bind (P := Either P F) (of_ok (exec_attempted act t) (either_exec h)) fun r u hr => ?_
  rcases r with e | x
  · have hstop := hE e _ hr
    rcases hexpected : expected e with _ | ⟨message, code⟩
    · rw [hexpected] at hstop
      simp only [hexpected]
      exact throw hstop
    · rw [hexpected] at hstop
      simp only [hexpected]
      exact refuse message code hstop
  · exact pure hr

/-- An action whose failures of one kind end the command with the exit code for them, while all others escape. -/
theorem attempt_internal {act : Action α} {expected : Failure → Option (String × ℕ)} {K : Failure → Prop}
    (hexpected : ∀ e, (K e ∧ ∃ m, expected e = some (m, ExitCode.internal)) ∨ ¬K e ∧ expected e = none)
    (hK : ∀ e v, act.exec t.workspace = (.error e, v) → K e → ∀ stop, Closing ExitCode.internal stop → E stop v)
    (hescape : ∀ e v, act.exec t.workspace = (.error e, v) → ¬K e → E (.crash e) v) :
    (Command.attempt act expected).Ends t (fun x v => act.exec t.workspace = (.ok x, v)) E := by
  refine .attempt (F := fun e v => act.exec t.workspace = (.error e, v)) ⟨fun hx => hx, fun he => he⟩ fun e v he => ?_
  rcases hexpected e with ⟨hKe, m, hm⟩ | ⟨hKe, hm⟩
  · rw [hm]
    exact hK e v he hKe
  · rw [hm]
    exact hescape e v he hKe

/-- An action whose failures all stop the command. -/
theorem perform {act : Action α} (h : act.Ends t.workspace P fun e v => E (.crash e) v) :
    (liftM act : Command α).Ends t P E := by
  change (Command.perform act).Ends t P E
  rw [Command.perform]
  refine bind (P := Either P fun e => E (.crash e)) (of_ok (exec_attempted act t) (either_exec h)) fun r u hr => ?_
  rcases r with e | x
  · exact throw hr
  · exact pure hr

end Ends

/-! ### Beginnings of commands -/

/-- Why a command stops at the path that it is about: it is not there, or the file system refuses its name. -/
inductive PathStop (w : Workspace) (p : Path) : Stop → Prop
  | missing {stop : Stop} (h : ∀ n, w.node p ≠ .ok n) (hstop : Closing ExitCode.pathNotFound stop) : PathStop w p stop
  | refused (h : w.locate p = .error .nameTooLong) : PathStop w p (.crash .system)

theorem requirePath_ends (p : Path) : (requirePath p).Ends t (fun _ v => v = t.workspace ∧ ∃ n, v.node p = .ok n)
    fun e _ => PathStop t.workspace p e := by
  rw [requirePath]
  refine .bind (.perform (Action.Ends.exists?.mono (fun _ _ h => h) ?_)) ?_
  · rintro e v ⟨rfl, -, hlong⟩
    exact .refused hlong
  · rintro there u ⟨hu, hthere⟩
    rw [← hu] at hthere
    rcases there
    · refine .refuse _ _ fun stop hstop => .missing (fun n hn => ?_) hstop
      rw [← hu] at hn
      exact Bool.false_ne_true (hthere.mpr ⟨n, hn⟩)
    · exact .pure ⟨hu, hthere.mp rfl⟩

section Settings

variable (w : Workspace) (config : Option Path) (options : List Override)

/-- Loading the settings of a command under some options comes to this. -/
def Loading (r : Except Failure Settings) : Prop := (loadSettings config options).exec w = (r, w)

/-- Why a command stops at its settings: they cannot be put together, or their failure escapes. -/
inductive SettingsStop : Stop → Prop
  | refused {f : Failure} {stop : Stop} (h : Loading w config options (.error f)) (hf : f.IsSettings)
      (hstop : Closing ExitCode.badSettings stop) : SettingsStop stop
  | escaped {f : Failure} (h : Loading w config options (.error f)) (he : w.Escapes config options f) :
      SettingsStop (.crash f)

end Settings

theorem settings_ends (config : Option Path) (options : List Override) : (settings config options).Ends t
    (fun s v => v = t.workspace ∧ Loading t.workspace config options (.ok s) ∧ s.Checked)
    fun e _ => SettingsStop t.workspace config options e := by
  have hchecks := @loadSettings_checked t.workspace config options
  rw [settings]
  refine .attempt (F := fun f v => Loading t.workspace config options (.error f) ∧
    (f.IsSettings ∨ t.workspace.Escapes config options f)) ⟨fun hs => ?_, fun he => ?_⟩ ?_
  · obtain ⟨rfl, hchecked⟩ := hchecks.ok hs
    exact ⟨rfl, hs, hchecked⟩
  · obtain ⟨rfl, hcases⟩ := hchecks.error he
    exact ⟨he, hcases⟩
  · rintro f v ⟨hload, h | h⟩
    · cases f
      case settings => exact fun _ hstop => .refused hload h hstop
      case invalidSetting => exact fun _ hstop => .refused hload h hstop
      all_goals exact h.elim
    · have hnone : settingsFailure f = none := by cases h <;> rfl
      rw [hnone]
      exact .escaped hload h

end Command

end ScoreGate
