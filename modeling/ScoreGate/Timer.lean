import ScoreGate.Number

/-!
# Timers

Named timers on one clock.  A timer runs from its start to its end; then it has a duration until it is started again.
A name is never running and finished at once.
-/

namespace ScoreGate

/-- The clock readings at which running timers were started, and the durations of finished ones. -/
structure Timer where
  running : List (String × Number)
  finished : List (String × Number)
  deriving Repr

namespace Timer

def empty : Timer := ⟨[], []⟩

def find? (name : String) (entries : List (String × Number)) : Option Number :=
  (entries.find? fun e => e.1 = name).map (·.2)

/-- The entries without those under a name. -/
def drop (name : String) (entries : List (String × Number)) : List (String × Number) :=
  entries.filter fun e => e.1 ≠ name

theorem find?_drop (name other : String) (entries : List (String × Number)) :
    find? other (drop name entries) = if other = name then none else find? other entries := by
  induction entries with
  | nil => simp [find?, drop]
  | cons e es ih =>
      simp only [find?, drop] at ih ⊢
      by_cases he : e.1 = name
      · by_cases ho : other = name
        · simp_all
        · simp_all [Ne.symm ho]
      · by_cases ho : e.1 = other <;> simp_all

theorem find?_put (name other : String) (x : Number) (entries : List (String × Number)) :
    find? other ((name, x) :: drop name entries) = if other = name then some x else find? other entries := by
  by_cases h : other = name
  · simp [find?, h]
  · have hdrop := find?_drop name other entries
    rw [if_neg h] at hdrop ⊢
    rw [← hdrop]
    simp [find?, Ne.symm h]

/-- Starts a timer, also one that runs or has finished. -/
def start (t : Timer) (name : String) (now : Number) : Timer :=
  ⟨(name, now) :: drop name t.running, drop name t.finished⟩

/-- Ends a running timer and gives its duration. -/
def stop (t : Timer) (name : String) (now : Number) : Except Fault Number × Timer :=
  match find? name t.running with
  | none => (.error (.invalidInput ("timer '" ++ name ++ "' was not started")), t)
  | some began =>
      match now.sub began with
      | .error fault => (.error fault, { t with running := drop name t.running })
      | .ok elapsed => (.ok elapsed, ⟨drop name t.running, (name, elapsed) :: drop name t.finished⟩)

/-- The duration of a finished timer. -/
def duration? (t : Timer) (name : String) : Option Number := find? name t.finished

/-- Forgets every timer, those that run and those that have finished. -/
def reset (_t : Timer) : Timer := empty

@[simp] theorem find?_running_start (t : Timer) (name : String) (now : Number) :
    find? name (t.start name now).running = some now := by
  simp [start, find?]

@[simp] theorem duration?_start (t : Timer) (name : String) (now : Number) :
    (t.start name now).duration? name = none := by
  simp [start, duration?, find?_drop]

end Timer

end ScoreGate
