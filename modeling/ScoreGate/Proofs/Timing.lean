import ScoreGate.Proofs.Comparing
import ScoreGate.Timer

/-!
# Timers and the calls on them

Timers are started, ended, asked for and reset, in any order and under any names.  What a name stands for afterwards can be
read off the calls and their answers: it runs if it was started last, and has a duration if it was ended last.  Calls under
other names do not matter to it.

* `Timer.Call`, `Timer.Log`: what can be called, and what is known after some calls.
* `Timer.latest?`: the latest start or successful end of a name, or reset.
* `Timer.Agrees`, `Timer.agrees_log`: every name stands in the two tables where its latest mark left it.
* `Timer.Follows`, `Timer.follows_calls`: what the next call of each kind does.
-/

namespace ScoreGate

namespace Timer

/-! ### Calls -/

/-- What a clock shows.  It tells the time in floating-point numbers; another number counts if it has such a form. -/
structure Reading where
  number : Number
  isReal : ∃ x, number.toReal = .ok x

def Reading.ofReal (x : Binary64) : Reading := ⟨.real x, x, rfl⟩

/-- There is always a difference between two readings, and it is a number. -/
theorem Reading.exists_sub (now began : Reading) : ∃ elapsed, now.number.sub began.number = .ok elapsed := by
  obtain ⟨x, hx⟩ := now.isReal
  obtain ⟨y, hy⟩ := began.isReal
  exact Number.sub_eq_ok.mpr (Or.inr ⟨x, y, hx, hy⟩)

/-- What can be called on timers, with what the clock shows then. -/
inductive Call where
  | start (name : String) (now : Reading)
  | stop (name : String) (now : Reading)
  | duration (name : String)
  | reset

/-- A call under this name, or on all timers. -/
def Call.concerns (name : String) : Call → Bool
  | .start n _ | .stop n _ | .duration n => n = name
  | .reset => true

/-- What a call gives, if anything, and the timers after it. -/
def perform (t : Timer) : Call → Except Fault (Option Number) × Timer
  | .start name now => (.ok none, t.start name now.number)
  | .stop name now => ((t.stop name now.number).1.map some, (t.stop name now.number).2)
  | .duration name => (.ok (t.duration? name), t)
  | .reset => (.ok none, t.reset)

/-- A call with its answer. -/
structure Event where
  call : Call
  answer : Except Fault (Option Number)

/-- What has happened, the latest first, and the timers after it. -/
structure Log where
  events : List Event
  timer : Timer

def Log.add (l : Log) (c : Call) : Log := ⟨⟨c, (l.timer.perform c).1⟩ :: l.events, (l.timer.perform c).2⟩

/-- What happens when calls are made one after the other, from no timers on. -/
def log (calls : List Call) : Log := calls.foldl Log.add ⟨[], empty⟩

theorem log_concat (calls : List Call) (c : Call) : log (calls ++ [c]) = (log calls).add c := by
  rw [log, List.foldl_concat, log]

/-! ### What was last called -/

/-- What a call means for a name. -/
inductive Mark where
  | started (began : Reading)
  | ended (elapsed : Number)
  | cleared

/-- The mark of a call on a name.  Asking for a duration leaves none, and neither does an end that failed. -/
def Event.mark? (name : String) : Event → Option Mark
  | ⟨.start n now, _⟩ => if n = name then some (.started now) else none
  | ⟨.stop n _, .ok (some elapsed)⟩ => if n = name then some (.ended elapsed) else none
  | ⟨.reset, _⟩ => some .cleared
  | _ => none

/-- The latest start or successful end of a name, or reset. -/
def latest? (name : String) (events : List Event) : Option Mark := events.findSome? (Event.mark? name)

theorem latest?_cons (name : String) (e : Event) (es : List Event) :
    latest? name (e :: es) = (e.mark? name).or (latest? name es) := by
  rw [latest?, List.findSome?_cons, latest?]
  cases e.mark? name <;> rfl

/-! ### What a name stands for -/

/-- Where a name stands in the tables: since when it has been running, and how long it ran. -/
def standing (t : Timer) (name : String) : Option Number × Option Number := (find? name t.running, t.duration? name)

/-- Where a name stands after its latest mark. -/
def Mark.standing : Option Mark → Option Number × Option Number
  | some (.started began) => (some began.number, none)
  | some (.ended elapsed) => (none, some elapsed)
  | some .cleared | none => (none, none)

theorem Mark.standing_running {m : Option Mark} {x : Number} :
    (standing m).1 = some x ↔ ∃ began, m = some (.started began) ∧ began.number = x := by
  rcases m with _ | began | elapsed | _ <;> simp [standing]

theorem Mark.standing_finished {m : Option Mark} {x : Number} : (standing m).2 = some x ↔ m = some (.ended x) := by
  rcases m with _ | began | elapsed | _ <;> simp [standing]

/-- A mark puts a name into one table at most. -/
theorem Mark.standing_apart (m : Option Mark) : (standing m).1 = none ∨ (standing m).2 = none := by
  rcases m with _ | began | elapsed | _ <;> simp [standing]

theorem Mark.standing_or (n name : String) (m : Mark) (earlier : Option Mark) :
    standing ((if n = name then some m else none).or earlier) =
      if name = n then standing (some m) else standing earlier := by
  by_cases h : n = name
  · rw [if_pos h, if_pos h.symm, Option.some_or]
  · rw [if_neg h, if_neg (Ne.symm h), Option.none_or]

variable {t u : Timer} {name : String}

theorem standing_start (t : Timer) (name other : String) (now : Number) :
    (t.start name now).standing other = if other = name then (some now, none) else t.standing other := by
  simp only [standing, duration?, start, find?_put, find?_drop]
  split_ifs <;> rfl

theorem stop_of_running {began now elapsed : Number} (hrunning : find? name t.running = some began)
    (hsub : now.sub began = .ok elapsed) :
    t.stop name now = (.ok elapsed, ⟨drop name t.running, (name, elapsed) :: drop name t.finished⟩) := by
  simp only [stop, hrunning, hsub]

theorem stop_of_not_running (hrunning : find? name t.running = none) (now : Number) :
    t.stop name now = (.error (.invalidInput ("timer '" ++ name ++ "' was not started")), t) := by
  rw [stop, hrunning]

/-- What an end gives depends on whether the name runs and since when. -/
theorem stop_answer (t : Timer) (name : String) (now : Number) : (t.stop name now).1 =
    match find? name t.running with
    | none => .error (.invalidInput ("timer '" ++ name ++ "' was not started"))
    | some began => now.sub began := by
  rw [stop]
  rcases find? name t.running with _ | began
  · rfl
  · cases hsub : now.sub began <;> simp only [hsub]

theorem standing_stop {began now elapsed : Number} (hrunning : find? name t.running = some began)
    (hsub : now.sub began = .ok elapsed) (other : String) :
    (t.stop name now).2.standing other = if other = name then (none, some elapsed) else t.standing other := by
  rw [stop_of_running hrunning hsub]
  simp only [standing, duration?, find?_put, find?_drop]
  split_ifs <;> rfl

/-- Every name stands where its latest mark left it. -/
def Agrees (t : Timer) (events : List Event) : Prop :=
  ∀ name, t.standing name = Mark.standing (latest? name events)

/-- A name runs exactly if it was started last, and has done so since then. -/
theorem Agrees.running {events : List Event} (h : Agrees t events) {x : Number} :
    find? name t.running = some x ↔ ∃ began, latest? name events = some (.started began) ∧ began.number = x := by
  rw [← Mark.standing_running, ← h name]
  rfl

/-- One call moves the name that it is under, and no other, to where its mark says. -/
theorem agrees_add {l : Log} (h : Agrees l.timer l.events) (c : Call) : Agrees (l.add c).timer (l.add c).events := by
  intro name
  rw [Log.add, latest?_cons]
  cases c with
  | start n now =>
    rw [perform, standing_start, Event.mark?, Mark.standing_or, h name]
    rfl
  | stop n now =>
    rw [perform]
    rcases hrunning : find? n l.timer.running with _ | x
    · -- an end that fails leaves the timers and no mark
      rw [stop_of_not_running hrunning]
      exact h name
    · -- the clock was read when the timer was started, so there is a difference
      obtain ⟨began, -, rfl⟩ := h.running.mp hrunning
      obtain ⟨elapsed, hsub⟩ := now.exists_sub began
      rw [standing_stop hrunning hsub, stop_of_running hrunning hsub, Except.map, Event.mark?, Mark.standing_or, h name]
      rfl
  | duration n => exact h name
  | reset => rfl

/-- The timers agree with the events whatever was called. -/
theorem agrees_log (calls : List Call) : Agrees (log calls).timer (log calls).events := by
  induction calls using List.reverseRecOn with
  | nil => exact fun _ => rfl
  | append_singleton calls c ih =>
    rw [log_concat]
    exact agrees_add ih c

/-! ### Names apart -/

theorem mark?_of_not_concerns {e : Event} (h : e.call.concerns name = false) : e.mark? name = none := by
  obtain ⟨c, answer⟩ := e
  cases c with
  | start n now => exact if_neg (of_decide_eq_false h)
  | stop n now =>
    rcases answer with fault | _ | elapsed
    · rfl
    · rfl
    · exact if_neg (of_decide_eq_false h)
  | duration n => rfl
  | reset => cases h

theorem latest?_filter (name : String) (es : List Event) :
    latest? name (es.filter fun e => e.call.concerns name) = latest? name es := by
  induction es with
  | nil => rfl
  | cons e es ih =>
    rw [latest?_cons, List.filter_cons]
    cases he : e.call.concerns name with
    | true => rw [if_pos rfl, latest?_cons, ih]
    | false => rw [if_neg Bool.false_ne_true, ih, mark?_of_not_concerns he, Option.none_or]

theorem perform_congr (h : t.standing name = u.standing name) {c : Call} (hc : c.concerns name = true) :
    (t.perform c).1 = (u.perform c).1 := by
  obtain ⟨hrunning, hfinished⟩ := Prod.mk.inj h
  cases c with
  | start n now => rfl
  | stop n now =>
    obtain rfl : n = name := of_decide_eq_true hc
    have hanswer : (t.stop n now.number).1 = (u.stop n now.number).1 := by rw [stop_answer, stop_answer, hrunning]
    exact congrArg (Except.map some) hanswer
  | duration n =>
    obtain rfl : n = name := of_decide_eq_true hc
    exact congrArg Except.ok hfinished
  | reset => rfl

/-- The calls under a name, and those on all timers, are answered as if there had been no others. -/
theorem events_filter (calls : List Call) (name : String) :
    ((log calls).events.filter fun e => e.call.concerns name) = (log (calls.filter (Call.concerns name))).events := by
  induction calls using List.reverseRecOn with
  | nil => rfl
  | append_singleton calls c ih =>
    have hstanding : (log calls).timer.standing name = (log (calls.filter (Call.concerns name))).timer.standing name := by
      rw [agrees_log, agrees_log, ← latest?_filter, ih]
    rw [log_concat, Log.add, List.filter_cons, List.filter_append, List.filter_singleton, ih]
    cases hc : c.concerns name with
    | true => rw [if_pos rfl, cond_true, log_concat, Log.add, perform_congr hstanding hc]
    | false => rw [if_neg Bool.false_ne_true, cond_false, List.append_nil]

/-! ### What the next call does -/

/-- Timers follow their events. -/
structure Follows (t : Timer) (events : List Event) : Prop where
  /-- a timer can be ended exactly if it was started last -/
  ends : ∀ name (now : Reading), (∃ elapsed, (t.stop name now.number).1 = .ok elapsed) ↔
    ∃ began, latest? name events = some (.started began)
  /-- this gives the time since that start -/
  elapsed : ∀ name (now began : Reading), latest? name events = some (.started began) →
    (t.stop name now.number).1 = now.number.sub began.number
  /-- any other end is refused and changes nothing -/
  refused : ∀ name (now : Reading), (∀ began, latest? name events ≠ some (.started began)) →
    t.stop name now.number = (.error (.invalidInput ("timer '" ++ name ++ "' was not started")), t)
  /-- a timer has the duration with which it was ended last, until it is started again or reset -/
  duration : ∀ name elapsed, t.duration? name = some elapsed ↔ latest? name events = some (.ended elapsed)
  /-- no timer is running and finished -/
  apart : ∀ name, find? name t.running = none ∨ t.duration? name = none

section Ends

variable {events : List Event}

theorem Agrees.stop_of_started (h : Agrees t events) {began : Reading}
    (hlatest : latest? name events = some (.started began)) (now : Reading) :
    (t.stop name now.number).1 = now.number.sub began.number := by
  obtain ⟨elapsed, hsub⟩ := now.exists_sub began
  rw [stop_of_running (h.running.mpr ⟨began, hlatest, rfl⟩) hsub, hsub]

theorem Agrees.stop_of_not_started (h : Agrees t events) (hlatest : ∀ began, latest? name events ≠ some (.started began))
    (now : Reading) : t.stop name now.number = (.error (.invalidInput ("timer '" ++ name ++ "' was not started")), t) := by
  refine stop_of_not_running (Option.eq_none_iff_forall_ne_some.mpr fun x hx => ?_) now.number
  obtain ⟨began, hstarted, -⟩ := h.running.mp hx
  exact hlatest began hstarted

theorem Agrees.stop_eq_ok (h : Agrees t events) (now : Reading) :
    (∃ elapsed, (t.stop name now.number).1 = .ok elapsed) ↔ ∃ began, latest? name events = some (.started began) := by
  constructor
  · rintro ⟨elapsed, hok⟩
    by_contra hnone
    rw [h.stop_of_not_started (not_exists.mp hnone)] at hok
    cases hok
  · rintro ⟨began, hlatest⟩
    rw [h.stop_of_started hlatest]
    exact now.exists_sub began

theorem Agrees.follows (h : Agrees t events) : Follows t events where
  ends _ := h.stop_eq_ok
  elapsed _ now _ hlatest := h.stop_of_started hlatest now
  refused _ now hlatest := h.stop_of_not_started hlatest now
  duration name elapsed := by
    rw [← Mark.standing_finished, ← h name]
    rfl
  apart name := by
    have hapart := Mark.standing_apart (latest? name events)
    rw [← h name] at hapart
    exact hapart

end Ends

/-- Whatever was called on timers, they follow their events, and each name those events alone that are under it or on all
timers. -/
theorem follows_calls (calls : List Call) : Follows (log calls).timer (log calls).events ∧ ∀ name,
    ((log calls).events.filter fun e => e.call.concerns name) = (log (calls.filter (Call.concerns name))).events :=
  ⟨(agrees_log calls).follows, events_filter calls⟩

/-- Two names are timed at once, and one of them is started again and ended twice. -/
example (x y z : Binary64) : (log [.start "a" (.ofReal x), .start "b" (.ofReal x), .start "a" (.ofReal y),
    .stop "a" (.ofReal z), .stop "b" (.ofReal z), .stop "a" (.ofReal z), .duration "a"]).events.map Event.answer =
      [.ok (some (.real (z.sub y))), .error (.invalidInput "timer 'a' was not started"), .ok (some (.real (z.sub x))),
        .ok (some (.real (z.sub y))), .ok none, .ok none, .ok none] := rfl

end Timer

end ScoreGate
