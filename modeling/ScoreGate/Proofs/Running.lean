import Mathlib
import ScoreGate.Workspace

/-!
# Running actions

An action has a result and leaves a workspace: `Action.exec`.  There is one equation for every form that actions are
written in.  What an action does to a workspace, whatever its result, is a relation between the workspace before and the
one after; where the relation can be chained, it holds of a sequence as soon as it holds of the parts.

* `Action.exec_bind`, `Action.exec_bind_eq_ok`: sequences.
* `Action.Preserves`: a relation between the workspaces before and after, with the rules for sequences and passes.
* `Action.Ends`: what holds of a result and what holds of a failure, with the rules for sequences and passes.
-/

namespace ScoreGate

/-! ### Results -/

section Results

variable {ε ε' α β : Type}

@[simp] theorem ok_bind (x : α) (f : α → Except ε β) : (Except.ok x >>= f) = f x := rfl

@[simp] theorem error_bind (e : ε) (f : α → Except ε β) : (Except.error e >>= f) = .error e := rfl

@[simp] theorem pure_eq_ok (x : α) : (pure x : Except ε α) = .ok x := rfl

theorem bind_eq_ok {x : Except ε α} {f : α → Except ε β} {y : β} :
    (x >>= f) = .ok y ↔ ∃ a, x = .ok a ∧ f a = .ok y := by
  cases x <;> simp

theorem map_eq_ok {x : Except ε α} {f : α → β} {y : β} : x.map f = .ok y ↔ ∃ a, x = .ok a ∧ f a = y := by
  cases x <;> simp [Except.map]

theorem mapError_eq_ok {x : Except ε α} {f : ε → ε'} {y : α} : x.mapError f = .ok y ↔ x = .ok y := by
  cases x <;> simp [Except.mapError]

theorem mapM_eq_ok {f : α → Except ε β} {g : α → β} : ∀ {xs : List α}, (∀ x ∈ xs, f x = .ok (g x)) →
    xs.mapM f = .ok (xs.map g)
  | [], _ => rfl
  | x :: xs, h => by
    rw [List.mapM_cons, h x (by simp), mapM_eq_ok fun y hy => h y (by simp [hy])]
    rfl

/-- A pass that succeeds has succeeded at every item. -/
theorem ok_of_mapM {f : α → Except ε β} : ∀ {xs : List α} {ys : List β}, xs.mapM f = .ok ys → ∀ x ∈ xs, ∃ y, f x = .ok y
  | [], _, _ => by simp
  | x :: xs, _, h => by
    rw [List.mapM_cons, bind_eq_ok] at h
    obtain ⟨y, hy, h⟩ := h
    rw [bind_eq_ok] at h
    obtain ⟨zs, hzs, -⟩ := h
    exact List.forall_mem_cons.mpr ⟨⟨y, hy⟩, ok_of_mapM hzs⟩

/-- A pass over steps without results succeeds if every step does. -/
theorem forM_eq_ok {f : α → Except ε Unit} {u : Unit} : ∀ {xs : List α},
    forM xs f = .ok u ↔ ∀ x ∈ xs, f x = .ok ()
  | [] => by simp
  | x :: xs => by
    rw [List.forM_cons, bind_eq_ok, List.forall_mem_cons, ← forM_eq_ok (u := u)]
    exact ⟨fun ⟨_, h⟩ => h, fun h => ⟨(), h⟩⟩

theorem filterMapM_congr {f g : α → Except ε (Option β)} : ∀ {xs : List α}, (∀ x ∈ xs, f x = g x) →
    xs.filterMapM f = xs.filterMapM g
  | [], _ => rfl
  | x :: xs, h => by
    rw [List.filterMapM_cons, List.filterMapM_cons, h x (by simp), filterMapM_congr fun y hy => h y (by simp [hy])]

/-- Whatever goes wrong is of some kind. -/
def FailsOnly (x : Except ε α) (E : ε → Prop) : Prop := ∀ e, x = .error e → E e

namespace FailsOnly

variable {x : Except ε α} {f : α → Except ε β} {E E' : ε → Prop}

theorem ok (a : α) (E : ε → Prop) : FailsOnly (.ok a) E := by
  intro e he
  cases he

theorem error {e : ε} (h : E e) : FailsOnly (.error e : Except ε α) E := by
  rintro _ ⟨⟩
  exact h

theorem mono (h : FailsOnly x E) (hE : ∀ e, E e → E' e) : FailsOnly x E' := fun e he => hE e (h e he)

/-- A sequence fails where one of its parts does. -/
theorem bind (hx : FailsOnly x E) (hf : ∀ a, x = .ok a → FailsOnly (f a) E) : FailsOnly (x >>= f) E := by
  intro e he
  rcases hr : x with e' | a
  · rw [hr, error_bind] at he
    cases he
    exact hx e hr
  · rw [hr, ok_bind] at he
    exact hf a hr e he

theorem map {g : α → β} (hx : FailsOnly x E) : FailsOnly (x.map g) E := by
  intro e he
  rcases hr : x with e' | a
  · rw [hr] at he
    cases he
    exact hx e hr
  · rw [hr] at he
    cases he

theorem mapError {g : ε → ε'} {E : ε' → Prop} (hx : FailsOnly x fun e => E (g e)) : FailsOnly (x.mapError g) E := by
  intro e he
  rcases hr : x with e' | a
  · rw [hr] at he
    cases he
    exact hx e' hr
  · rw [hr] at he
    cases he

theorem mapM : ∀ {xs : List α}, (∀ a ∈ xs, FailsOnly (f a) E) → FailsOnly (xs.mapM f) E
  | [], _ => ok _ _
  | a :: xs, h => by
    rw [List.mapM_cons]
    refine (h a (by simp)).bind fun b _ => ?_
    exact (mapM fun c hc => h c (List.mem_cons_of_mem a hc)).bind fun bs _ => ok _ _

theorem forM {f : α → Except ε Unit} : ∀ {xs : List α}, (∀ a ∈ xs, FailsOnly (f a) E) → FailsOnly (xs.forM f) E
  | [], _ => ok _ _
  | a :: xs, h => (h a (by simp)).bind fun _ _ => forM fun c hc => h c (List.mem_cons_of_mem a hc)

end FailsOnly

end Results

/-! ### Nodes and notes -/

namespace Workspace

theorem node_eq_ok {w : Workspace} {n : Node} {p : Path} :
    w.node p = .ok n ↔ ∃ loc, w.locate p = .ok loc ∧ w.tree.find? loc = some n := by
  simp only [Workspace.node, bind_eq_ok]
  constructor
  · rintro ⟨loc, hloc, h⟩
    rcases hfind : w.tree.find? loc with _ | m
    · simp only [hfind] at h
      cases h
    · simp only [hfind, pure_eq_ok, Except.ok.injEq] at h
      exact ⟨loc, hloc, by rw [hfind, h]⟩
  · rintro ⟨loc, hloc, h⟩
    exact ⟨loc, hloc, by rw [h]; rfl⟩

theorem node_eq_nameTooLong {w : Workspace} {p : Path} :
    w.node p = .error .nameTooLong ↔ w.locate p = .error .nameTooLong := by
  rcases hl : w.locate p with o | loc
  · simp [Workspace.node, hl]
  · simp only [Workspace.node, hl, ok_bind, reduceCtorEq, iff_false]
    rcases w.tree.find? loc with _ | n
    · exact fun h => by cases h
    · exact fun h => by cases h

/-- A note is added to the log file, if there is one that takes it; nothing else of the tree changes. -/
theorem logged_cases (w : Workspace) (e : Entry) : w.logged e = w.tree ∨
    ∃ f bytes, w.log = some f ∧ w.logged e = w.tree.put f.location (.file bytes) := by
  rcases hlog : w.log with _ | f
  · exact Or.inl (by rw [logged, hlog])
  · simp only [logged, hlog]
    split_ifs
    · exact Or.inr ⟨f, _, rfl, rfl⟩
    · exact Or.inl rfl

end Workspace

/-! ### Actions -/

namespace Action

variable {α β : Type} {w : Workspace}

/-- The result of an action and the workspace that it leaves. -/
def exec (a : Action α) (w : Workspace) : Except Failure α × Workspace := ExceptT.run a w

@[simp] theorem exec_pure (x : α) : (pure x : Action α).exec w = (.ok x, w) := rfl

@[simp] theorem exec_throw (e : Failure) : (throw e : Action α).exec w = (.error e, w) := rfl

@[simp] theorem exec_get : (get : Action Workspace).exec w = (.ok w, w) := rfl

@[simp] theorem exec_set (v : Workspace) : (set v : Action PUnit).exec w = (.ok ⟨⟩, v) := rfl

@[simp] theorem exec_modify (f : Workspace → Workspace) : (modify f : Action PUnit).exec w = (.ok ⟨⟩, f w) := rfl

@[simp] theorem exec_note (c : Component) (l : Level) (m : String) :
    (Action.note c l m).exec w = (.ok ⟨⟩, w.note ⟨c, l, m⟩) := rfl

@[simp] theorem exec_lift_fault (x : Except Fault α) :
    (liftM x : Action α).exec w = (x.mapError Failure.fault, w) := rfl

@[simp] theorem exec_lift_failure (x : Except Failure α) : (liftM x : Action α).exec w = (x, w) := rfl

theorem exec_lift_ok {x : Except Fault α} {y : α} (h : x = .ok y) : (liftM x : Action α).exec w = (.ok y, w) := by
  rw [h]
  rfl

theorem exec_bind (a : Action α) (f : α → Action β) (w : Workspace) :
    (a >>= f).exec w = match a.exec w with
      | (.ok x, v) => (f x).exec v
      | (.error e, v) => (.error e, v) := by
  have h : (a >>= f).exec w = ExceptT.bindCont f (a.exec w).1 (a.exec w).2 := rfl
  rw [h]
  rcases a.exec w with ⟨_ | x, v⟩ <;> rfl

theorem exec_bind_ok {a : Action α} {x : α} {v : Workspace} (h : a.exec w = (.ok x, v)) (f : α → Action β) :
    (a >>= f).exec w = (f x).exec v := by
  rw [exec_bind, h]

theorem exec_bind_error {a : Action α} {e : Failure} {v : Workspace} (h : a.exec w = (.error e, v))
    (f : α → Action β) : (a >>= f).exec w = (.error e, v) := by
  rw [exec_bind, h]

theorem exec_bind_eq_ok {a : Action α} {f : α → Action β} {y : β} {v : Workspace} :
    (a >>= f).exec w = (.ok y, v) ↔ ∃ x u, a.exec w = (.ok x, u) ∧ (f x).exec u = (.ok y, v) := by
  rw [exec_bind]
  rcases a.exec w with ⟨e | x, u⟩ <;> simp

theorem exec_map (f : α → β) (a : Action α) (w : Workspace) : (f <$> a).exec w = ((a.exec w).1.map f, (a.exec w).2) := by
  rw [← bind_pure_comp, exec_bind]
  rcases a.exec w with ⟨e | x, v⟩ <;> rfl

theorem exec_tryCatch (a : Action α) (f : Failure → Action α) (w : Workspace) :
    (tryCatch a f).exec w = match a.exec w with
      | (.ok x, v) => (.ok x, v)
      | (.error e, v) => (f e).exec v := by
  have h : ∀ (x : StateM Workspace (Except Failure α)) (k : Except Failure α → StateM Workspace (Except Failure α)),
      (x >>= k) w = k (x w).1 (x w).2 := fun _ _ => rfl
  simp only [exec, ExceptT.run_tryCatch, h]
  rcases (ExceptT.run a : StateM Workspace _) w with ⟨_ | x, v⟩ <;> rfl

theorem exec_tryCatch_error {a : Action α} {f : Failure → Action α} {e : Failure} {v : Workspace}
    (h : a.exec w = (.error e, v)) : (tryCatch a f).exec w = (f e).exec v := by
  rw [exec_tryCatch, h]

theorem exec_tryCatch_ok {a : Action α} {f : Failure → Action α} {x : α} {v : Workspace} (h : a.exec w = (.ok x, v)) :
    (tryCatch a f).exec w = (.ok x, v) := by
  rw [exec_tryCatch, h]

/-! ### Asking the file system -/

theorem exec_node? (p : Path) (w : Workspace) : (node? p).exec w = (match w.node p with
    | .ok n => .ok (some n)
    | .error .nameTooLong => .error .system
    | .error _ => .ok none, w) := by
  simp only [node?, exec_bind, exec_get]
  rcases w.node p with o | n
  · rcases o <;> rfl
  · rfl

theorem exec_isFile (p : Path) (w : Workspace) : (isFile p).exec w = (match w.node p with
    | .ok (.file _) => .ok true
    | .error .nameTooLong => .error .system
    | _ => .ok false, w) := by
  simp only [isFile, exec_bind, exec_node?]
  rcases w.node p with o | ⟨_ | bytes⟩
  · rcases o <;> rfl
  · rfl
  · rfl

/-! ### Relations that actions preserve -/

/-- A relation that can be chained. -/
structure Frame (R : Workspace → Workspace → Prop) : Prop where
  refl : ∀ w, R w w
  trans : ∀ {u v w}, R u v → R v w → R u w

/-- The workspace that an action leaves is related to the one before, whatever the result. -/
def Preserves (R : Workspace → Workspace → Prop) (a : Action α) : Prop := ∀ w, R w (a.exec w).2

namespace Preserves

variable {R : Workspace → Workspace → Prop} {a : Action α} {f : α → Action β}

theorem pure (hR : Frame R) (x : α) : Preserves R (Pure.pure x : Action α) := hR.refl

theorem throw (hR : Frame R) (e : Failure) : Preserves R (MonadExcept.throw e : Action α) := hR.refl

theorem get (hR : Frame R) : Preserves R (MonadState.get : Action Workspace) := hR.refl

theorem lift_fault (hR : Frame R) (x : Except Fault α) : Preserves R (liftM x : Action α) := hR.refl

theorem note (h : ∀ w e, R w (w.note e)) (c : Component) (l : Level) (m : String) :
    Preserves R (Action.note c l m) := fun w => h w ⟨c, l, m⟩

theorem bind (hR : Frame R) (ha : Preserves R a) (hf : ∀ x, Preserves R (f x)) : Preserves R (a >>= f) := by
  intro w
  have h := ha w
  rw [exec_bind]
  rcases hx : a.exec w with ⟨e | x, v⟩
  · rwa [hx] at h
  · rw [hx] at h
    exact hR.trans h (hf x v)

theorem tryCatch {g : Failure → Action α} (hR : Frame R) (ha : Preserves R a) (hg : ∀ e, Preserves R (g e)) :
    Preserves R (MonadExcept.tryCatch a g) := by
  intro w
  have h := ha w
  rw [exec_tryCatch]
  rcases hx : a.exec w with ⟨e | x, v⟩
  · rw [hx] at h
    exact hR.trans h (hg e v)
  · rwa [hx] at h

theorem filterMapM {f : α → Action (Option β)} (hR : Frame R) (hf : ∀ x, Preserves R (f x)) :
    ∀ xs : List α, Preserves R (xs.filterMapM f)
  | [] => hR.refl
  | x :: xs => by
    rw [List.filterMapM_cons]
    refine bind hR (hf x) fun r => ?_
    rcases r with _ | y
    · exact filterMapM hR hf xs
    · exact bind hR (filterMapM hR hf xs) fun _ => hR.refl

end Preserves

/-! ### How actions end -/

/-- An action ends with a result of one kind or with a failure of another, each with the workspace that it leaves. -/
structure Ends (a : Action α) (w : Workspace) (P : α → Workspace → Prop) (E : Failure → Workspace → Prop) : Prop where
  ok : ∀ {x v}, a.exec w = (.ok x, v) → P x v
  error : ∀ {e v}, a.exec w = (.error e, v) → E e v

namespace Ends

variable {a : Action α} {f : α → Action β} {P P' : α → Workspace → Prop} {Q : β → Workspace → Prop}
  {E E' : Failure → Workspace → Prop} {v : Workspace}

theorem of_ok {x : α} (h : a.exec w = (.ok x, v)) (hP : P x v) : a.Ends w P E := by
  refine ⟨fun hx => ?_, fun he => ?_⟩
  · rw [h] at hx
    cases hx
    exact hP
  · rw [h] at he
    cases he

theorem of_error {e : Failure} (h : a.exec w = (.error e, v)) (hE : E e v) : a.Ends w P E := by
  refine ⟨fun hx => ?_, fun he => ?_⟩
  · rw [h] at hx
    cases hx
  · rw [h] at he
    cases he
    exact hE

theorem pure {x : α} (h : P x w) : (Pure.pure x : Action α).Ends w P E := of_ok (exec_pure x) h

theorem note {P : Unit → Workspace → Prop} {c : Component} {l : Level} {m : String} (h : P () (w.note ⟨c, l, m⟩)) :
    (Action.note c l m).Ends w P E := of_ok (exec_note c l m) h

theorem lift_fault {x : Except Fault α} (hP : ∀ y, x = .ok y → P y w) (hE : ∀ e, x = .error e → E (.fault e) w) :
    (liftM x : Action α).Ends w P E := by
  rcases x with e | y
  · exact of_error (exec_lift_fault (.error e)) (hE e rfl)
  · exact of_ok (exec_lift_fault (.ok y)) (hP y rfl)

theorem lift_failure {x : Except Failure α} (hP : ∀ y, x = .ok y → P y w) (hE : ∀ e, x = .error e → E e w) :
    (liftM x : Action α).Ends w P E := by
  rcases x with e | y
  · exact of_error (exec_lift_failure (.error e)) (hE e rfl)
  · exact of_ok (exec_lift_failure (.ok y)) (hP y rfl)

theorem mono (h : a.Ends w P E) (hP : ∀ x v, P x v → P' x v) (hE : ∀ e v, E e v → E' e v) : a.Ends w P' E' :=
  ⟨fun hx => hP _ _ (h.ok hx), fun he => hE _ _ (h.error he)⟩

theorem congr {b : Action α} (h : a.exec w = b.exec w) (hb : b.Ends w P E) : a.Ends w P E :=
  ⟨fun hx => hb.ok (h ▸ hx), fun he => hb.error (h ▸ he)⟩

theorem bind_ok {x : α} (hx : a.exec w = (.ok x, v)) (h : (f x).Ends v Q E) : (a >>= f).Ends w Q E := by
  refine ⟨fun hy => h.ok ?_, fun he => h.error ?_⟩
  · rwa [exec_bind_ok hx f] at hy
  · rwa [exec_bind_ok hx f] at he

/-- A sequence goes on from every result of its first part. -/
theorem bind (ha : a.Ends w P E) (hf : ∀ x v, P x v → (f x).Ends v Q E) : (a >>= f).Ends w Q E := by
  rcases hr : a.exec w with ⟨e | x, v⟩
  · exact .of_error (exec_bind_error hr f) (ha.error hr)
  · exact bind_ok hr (hf x v (ha.ok hr))

theorem of_preserves {R : Workspace → Workspace → Prop} (h : Preserves R a) (w : Workspace) :
    a.Ends w (fun _ v => R w v) fun _ v => R w v := by
  have hw := h w
  refine ⟨fun hx => ?_, fun he => ?_⟩
  · rwa [hx] at hw
  · rwa [he] at hw

/-- What holds of every end holds between the workspaces before and after. -/
theorem preserves {R : Workspace → Workspace → Prop} (h : ∀ w, a.Ends w (fun _ v => R w v) fun _ v => R w v) :
    Preserves R a := by
  intro w
  rcases hr : a.exec w with ⟨e | x, v⟩
  · exact (h w).error hr
  · exact (h w).ok hr

/-- The results of a pass belong to some of its items, in their order, as long as every step is taken from a workspace that
the steps keep in an invariant. -/
theorem filterMapM_sublist {I : Workspace → Prop} {G : α → β → Prop} {f : α → Action (Option β)} : ∀ {xs : List α},
    (∀ x ∈ xs, ∀ w, I w → (f x).Ends w (fun r v => I v ∧ ∀ y, r = some y → G x y) E) →
      ∀ {w}, I w → (xs.filterMapM f).Ends w (fun ys v => I v ∧ ∃ zs, zs.Sublist xs ∧ List.Forall₂ G zs ys) E
  | [], _, _, hw => pure ⟨hw, [], .slnil, .nil⟩
  | x :: xs, hf, w, hw => by
    have hrest : ∀ {w}, I w → (xs.filterMapM f).Ends w (fun ys v => I v ∧ ∃ zs, zs.Sublist xs ∧ List.Forall₂ G zs ys) E :=
      filterMapM_sublist fun y hy => hf y (List.mem_cons_of_mem x hy)
    rw [List.filterMapM_cons]
    refine bind (hf x (by simp) w hw) ?_
    rintro r v ⟨hv, hG⟩
    rcases r with _ | y
    · refine (hrest hv).mono ?_ fun _ _ h => h
      rintro ys u ⟨hu, zs, hzs, hys⟩
      exact ⟨hu, zs, hzs.cons x, hys⟩
    · refine bind (hrest hv) ?_
      rintro ys u ⟨hu, zs, hzs, hys⟩
      exact pure ⟨hu, x :: zs, hzs.cons_cons x, .cons (hG y rfl) hys⟩

/-- What a pass collects has a property that each step gives to what it adds. -/
theorem filterMapM_collects {I : Workspace → Prop} {G : β → Prop} {f : α → Action (Option β)} {xs : List α}
    (hf : ∀ x ∈ xs, ∀ w, I w → (f x).Ends w (fun r v => I v ∧ ∀ y, r = some y → G y) E) (hw : I w) :
    (xs.filterMapM f).Ends w (fun ys v => I v ∧ ∀ y ∈ ys, G y) E := by
  refine (filterMapM_sublist hf hw).mono ?_ fun _ _ h => h
  rintro ys v ⟨hv, zs, -, hys⟩
  refine ⟨hv, ?_⟩
  induction hys with
  | nil => simp
  | cons hG _ ih => exact List.forall_mem_cons.mpr ⟨hG, ih⟩

theorem filterMapM_keeps {I : Workspace → Prop} {f : α → Action (Option β)} {xs : List α}
    (hf : ∀ x ∈ xs, ∀ w, I w → (f x).Ends w (fun _ v => I v) E) (hw : I w) : (xs.filterMapM f).Ends w (fun _ v => I v) E := by
  have hstep : ∀ x ∈ xs, ∀ w, I w → (f x).Ends w (fun r v => I v ∧ ∀ y, r = some y → True) E := fun x hx w hw =>
    (hf x hx w hw).mono (fun _ _ hv => ⟨hv, fun _ _ => trivial⟩) fun _ _ he => he
  exact (filterMapM_collects (G := fun _ => True) hstep hw).mono (fun _ _ hv => hv.1) fun _ _ he => he

/-- Whether a path leads anywhere can be said unless the file system refuses a name. -/
theorem exists? {p : Path} : (Action.exists? p).Ends w (fun b v => v = w ∧ (b = true ↔ ∃ n, w.node p = .ok n))
    fun e v => e = .system ∧ v = w ∧ w.locate p = .error .nameTooLong := by
  have hexec : (Action.exists? p).exec w = (((node? p).exec w).1.map Option.isSome, w) := by
    rw [Action.exists?, exec_bind, exec_node?]
    rcases w.node p with o | n
    · rcases o <;> rfl
    · rfl
  rw [exec_node?] at hexec
  rcases hn : w.node p with o | n
  · rw [hn] at hexec
    rcases o
    case nameTooLong => exact of_error hexec ⟨rfl, rfl, Workspace.node_eq_nameTooLong.mp hn⟩
    all_goals exact of_ok hexec ⟨rfl, by simp⟩
  · rw [hn] at hexec
    exact of_ok hexec ⟨rfl, by simp⟩

/-- A pass gives what pure steps give, if every step does so in all workspaces of an invariant and stays in it. -/
theorem filterMapM {f : α → Action (Option β)} {g : α → Except Failure (Option β)} {I : Workspace → Prop} :
    ∀ {xs : List α}, (∀ x ∈ xs, ∀ w, I w → (f x).Ends w (fun y v => g x = .ok y ∧ I v) fun e v => g x = .error e ∧ I v) →
      ∀ {w}, I w → (xs.filterMapM f).Ends w (fun ys v => xs.filterMapM g = .ok ys ∧ I v)
        fun e v => xs.filterMapM g = .error e ∧ I v
  | [], _, _, hw => pure ⟨rfl, hw⟩
  | x :: xs, hf, w, hw => by
    have hrest : ∀ {w}, I w → (xs.filterMapM f).Ends w (fun ys v => xs.filterMapM g = .ok ys ∧ I v)
        fun e v => xs.filterMapM g = .error e ∧ I v := filterMapM fun y hy => hf y (List.mem_cons_of_mem x hy)
    rw [List.filterMapM_cons, List.filterMapM_cons]
    have hstep := hf x (by simp) w hw
    -- the action does what the pure step says, so the first step ends both passes or lets both go on
    rcases hx : g x with e | y
    · rw [hx] at hstep
      have hfails : (f x).Ends w (fun _ _ => False) fun e' v => (Except.error e : Except Failure (Option β)) = .error e' ∧ I v :=
        hstep.mono (fun y v h => by cases h.1) fun e' v h => h
      refine (bind hfails fun _ _ h => h.elim).mono (fun _ _ h => h) fun e' v h => ?_
      obtain ⟨he, hv⟩ := h
      cases he
      exact ⟨rfl, hv⟩
    · rw [hx] at hstep
      have hgoes : (f x).Ends w (fun y' v => y' = y ∧ I v) fun e' v =>
          (do match y with
            | none => xs.filterMapM g
            | some b => do return b :: (← xs.filterMapM g) : Except Failure (List β)) = .error e' ∧ I v :=
        hstep.mono (fun y' v h => ⟨by cases h.1; rfl, h.2⟩) fun e' v h => by cases h.1
      refine bind hgoes fun y' v h => ?_
      obtain ⟨rfl, hv⟩ := h
      rcases y' with _ | b
      · exact hrest hv
      · refine bind ((hrest hv).mono (fun _ _ h => h) fun e' u h => ?_) fun ys u h => ?_
        · obtain ⟨he, hu⟩ := h
          simp only [ok_bind, he, error_bind, and_self, hu]
        · obtain ⟨hys, hu⟩ := h
          refine pure ⟨?_, hu⟩
          simp only [ok_bind, hys, pure_eq_ok]

/-- A loop that only goes on never fails if no step of it does. -/
theorem forIn_yield {ι : Type} {R : Workspace → Workspace → Prop} (hR : Frame R) {body : ι → Action PUnit}
    (hbody : ∀ x w, (body x).Ends w (fun _ v => R w v) fun _ _ => False) : ∀ (xs : List ι) (w : Workspace),
      (forIn xs PUnit.unit fun x _ => body x >>= fun _ => Pure.pure (ForInStep.yield PUnit.unit) : Action PUnit).Ends w
        (fun _ v => R w v) fun _ _ => False
  | [], w => pure (hR.refl w)
  | x :: xs, w => by
    rw [List.forIn_cons, bind_assoc]
    refine bind (hbody x w) fun _ v hv => ?_
    rw [pure_bind]
    exact (forIn_yield hR hbody xs v).mono (fun _ _ hu => hR.trans hv hu) fun _ _ hfalse => hfalse

end Ends

end Action

end ScoreGate
