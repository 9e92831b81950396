import ScoreGate.Proofs.Running
import ScoreGate.Toml.Reader

/-!
# What goes wrong with a file of settings

Reading a document of settings fails in three ways only: it is no document, its values stand too deeply one within
another, or an integer has more digits than are ever read.  Only the first is a fault of the document's syntax.

* `Toml.Misread`: the three faults.
* `Toml.misreads_read`: reading a document has no other.
-/

namespace ScoreGate.Toml

/-- What can be wrong with a document of settings. -/
inductive Misread : Fault → Prop
  | malformed : Misread (.badValue .documentSyntax)
  | tooDeep : Misread .tooDeep
  | tooManyDigits (count : ℕ) : Misread (.badValue (.tooManyDigits count))

/-- A reader that fails in these ways only. -/
def Misreads {α : Type} (x : Except Fault α) : Prop := FailsOnly x Misread

section Rules

variable {α β : Type} {x : Except Fault α} {f : α → Except Fault β}

@[simp] theorem misreads_ok (a : α) : Misreads (.ok a) := .ok a _

@[simp] theorem misreads_pure (a : α) : Misreads (pure a : Except Fault α) := .ok a _

@[simp] theorem misreads_malformed : Misreads (.error malformed : Except Fault α) := .error .malformed

@[simp] theorem misreads_throw : Misreads (throw malformed : Except Fault α) := .error .malformed

@[simp] theorem misreads_tooDeep : Misreads (.error .tooDeep : Except Fault α) := .error .tooDeep

theorem Misreads.bind (hx : Misreads x) (hf : ∀ a, Misreads (f a)) : Misreads (x >>= f) := FailsOnly.bind hx fun a _ => hf a

end Rules

/-! ### Texts -/

theorem misreads_takeContinuation (cs : List Char) : Misreads (takeContinuation cs) := by
  unfold takeContinuation
  split <;> simp

theorem misreads_takeEscape (multiline : Bool) (cs : List Char) : Misreads (takeEscape multiline cs) := by
  unfold takeEscape
  split
  · simp
  · split_ifs
    · exact misreads_takeContinuation _
    · repeat' split
      all_goals simp

theorem misreads_takeBasic (multiline : Bool) (fuel : ℕ) (cs : List Char) : Misreads (takeBasic multiline fuel cs) := by
  fun_induction takeBasic multiline fuel cs
  case case5 ih => exact ih.bind fun _ => misreads_pure _
  case case6 ih => exact (misreads_takeEscape _ _).bind fun ⟨_, rest⟩ => (ih rest).bind fun _ => misreads_pure _
  case case8 ih => exact ih.bind fun _ => misreads_pure _
  all_goals simp

theorem misreads_takeLiteral (multiline : Bool) (cs : List Char) : Misreads (takeLiteral multiline cs) := by
  unfold takeLiteral
  repeat' split
  all_goals simp

theorem misreads_takeLine (quote : Char) (cs : List Char) : Misreads (takeLine quote cs) := by
  rw [takeLine]
  split_ifs
  · exact (misreads_takeBasic _ _ _).bind fun _ => misreads_pure _
  · exact (misreads_takeLiteral _ _).bind fun _ => misreads_pure _

theorem misreads_takeText (quote : Char) (cs : List Char) : Misreads (takeText quote cs) := by
  unfold takeText
  split
  · split_ifs
    · exact (misreads_takeBasic _ _ _).bind fun _ => misreads_pure _
    · exact (misreads_takeLiteral _ _).bind fun _ => misreads_pure _
    · exact misreads_takeLine _ _
  · exact misreads_takeLine _ _

/-! ### Numbers and moments -/

theorem misreads_takeMoment {cs : List Char} {r : Except Fault (Value × List Char)} (h : takeMoment cs = some r) :
    Misreads r := by
  simp only [takeMoment, Option.bind_eq_bind, Option.bind_eq_some_iff] at h
  obtain ⟨⟨date, rest⟩, -, h⟩ := h
  simp only [Option.pure_def, Option.some.injEq] at h
  rw [← h]
  split_ifs
  · exact misreads_ok _
  · exact misreads_malformed

theorem misreads_takeDecimal {cs : List Char} {r : Except Fault (Value × List Char)} (h : takeDecimal cs = some r) :
    Misreads r := by
  simp only [takeDecimal, Option.bind_eq_bind, Option.bind_eq_some_iff] at h
  obtain ⟨⟨whole, rest⟩, -, h⟩ := h
  split_ifs at h
  all_goals
    simp only [Option.pure_def, Option.some.injEq] at h
    rw [← h]
  case pos => exact .error (.tooManyDigits _)
  all_goals exact misreads_ok _

theorem misreads_takeScalar (cs : List Char) : Misreads (takeScalar cs) := by
  rw [takeScalar]
  rcases hmoment : takeMoment cs with _ | r
  · rcases takeClock? cs with _ | r
    · rcases takeBased? cs with _ | r
      · rcases hdecimal : takeDecimal cs with _ | r
        · rcases takeSpecial? cs with _ | r
          · exact misreads_malformed
          · exact misreads_ok _
        · exact misreads_takeDecimal hdecimal
      · exact misreads_ok _
    · exact misreads_ok _
  · exact misreads_takeMoment hmoment

/-! ### Keys and tables -/

theorem misreads_changeTable (enterLists : Bool) {f : Entries → Except Fault Entries} (hf : ∀ es, Misreads (f es)) :
    ∀ (key : Key) (es : Entries), Misreads (changeTable enterLists f key es) := by
  intro key es
  fun_induction changeTable enterLists f key es
  case case1 es => exact hf es
  case case2 ih => exact ih.bind fun _ => misreads_pure _
  case case3 ih => exact ih.bind fun _ => misreads_pure _
  case case5 ih => exact ih.bind fun _ => misreads_pure _
  all_goals simp

theorem misreads_addEntry (name : String) (v : Value) (es : Entries) : Misreads (addEntry name v es) := by
  unfold addEntry
  split <;> simp

theorem misreads_addListed (name : String) (es : Entries) : Misreads (addListed name es) := by
  unfold addListed
  split <;> simp

theorem misreads_addInline (closed : List Key) (key : Key) (v : Value) (es : Entries) :
    Misreads (addInline closed key v es) := by
  rw [addInline]
  split_ifs
  · exact misreads_malformed
  · exact misreads_changeTable _ (misreads_addEntry _ _) _ _

theorem misreads_dropComment (cs : List Char) : Misreads (dropComment cs) := by
  unfold dropComment
  repeat' split
  all_goals simp

theorem misreads_dropFiller (fuel : ℕ) (cs : List Char) : Misreads (dropFiller fuel cs) := by
  induction fuel generalizing cs with
  | zero => exact misreads_ok _
  | succ fuel ih =>
    unfold dropFiller
    split
    · exact (misreads_dropComment _).bind ih
    · exact misreads_ok _

theorem misreads_takeName (cs : List Char) : Misreads (takeName cs) := by
  unfold takeName
  split
  · simp
  · split_ifs
    · simp
    · exact misreads_takeLine _ _
    · simp

theorem misreads_takeKeyUpTo (fuel : ℕ) (cs : List Char) : Misreads (takeKeyUpTo fuel cs) := by
  induction fuel generalizing cs with
  | zero => exact misreads_malformed
  | succ fuel ih =>
    unfold takeKeyUpTo
    refine (misreads_takeName cs).bind fun ⟨name, rest⟩ => ?_
    dsimp only
    split
    · exact (ih _).bind fun _ => misreads_pure _
    · exact misreads_pure _

theorem misreads_takeKey (cs : List Char) : Misreads (takeKey cs) := misreads_takeKeyUpTo _ _

theorem misreads_dropEquals (cs : List Char) : Misreads (dropEquals cs) := by
  unfold dropEquals
  split <;> simp

/-! ### Values -/

theorem misreads_roomInList? (room : ℕ) : Misreads (roomInList? room) := by
  rw [roomInList?]
  split_ifs <;> simp

theorem misreads_roomInTable? (room : ℕ) : Misreads (roomInTable? room) := by
  rw [roomInTable?]
  split_ifs <;> simp

/-- Values, the items of a list and the entries of a table are read with fuel that every step takes some of. -/
theorem misreads_takeValue_takeItems_takeInline : ∀ fuel : ℕ,
    (∀ room cs, Misreads (takeValue room fuel cs)) ∧ (∀ room cs, Misreads (takeItems room fuel cs)) ∧
      ∀ room closed es cs, Misreads (takeInline room fuel closed es cs)
  | 0 => by
    refine ⟨fun room cs => ?value, fun room cs => ?items, fun room closed es cs => ?inline⟩
    case value =>
      rw [takeValue]
      exact misreads_malformed
    case items =>
      rw [takeItems]
      exact misreads_malformed
    case inline =>
      rw [takeInline]
      exact misreads_malformed
  | fuel + 1 => by
    -- a value of a list or table reads its items or entries, these read values: each with the fuel below
    obtain ⟨hvalue, hitems, hinline⟩ := misreads_takeValue_takeItems_takeInline fuel
    refine ⟨fun room cs => ?value, fun room cs => ?items, fun room closed es cs => ?inline⟩
    case value =>
      unfold takeValue
      split
      · exact (misreads_takeText _ _).bind fun _ => misreads_pure _
      · exact (misreads_takeText _ _).bind fun _ => misreads_pure _
      · refine (misreads_dropFiller _ _).bind fun rest => ?_
        split
        · exact misreads_pure _
        · exact (misreads_roomInList? room).bind fun inner => (hitems inner _).bind fun _ => misreads_pure _
      · split
        · exact misreads_ok _
        · exact (misreads_roomInTable? room).bind fun inner => (hinline inner _ _ _).bind fun _ => misreads_pure _
      · split_ifs
        · exact misreads_ok _
        · exact misreads_ok _
        · exact misreads_takeScalar _
    case items =>
      unfold takeItems
      refine (hvalue room cs).bind fun ⟨v, rest⟩ => ?_
      refine (misreads_dropFiller _ _).bind fun rest => ?_
      split
      · exact misreads_pure _
      · refine (misreads_dropFiller _ _).bind fun rest => ?_
        split
        · exact misreads_pure _
        · exact (hitems room _).bind fun _ => misreads_pure _
      · exact misreads_throw
    case inline =>
      unfold takeInline
      refine (misreads_takeKey cs).bind fun ⟨key, rest⟩ => ?_
      refine (misreads_dropEquals rest).bind fun rest => ?_
      refine (hvalue room rest).bind fun ⟨v, rest⟩ => ?_
      refine (misreads_addInline closed key v es).bind fun es => ?_
      split
      · exact misreads_pure _
      · exact hinline room _ _ _
      · exact misreads_throw

/-! ### Documents -/

theorem Draft.misreads_openTable (d : Draft) (key : Key) : Misreads (d.openTable key) := by
  rw [openTable]
  split_ifs
  · exact misreads_throw
  · exact (misreads_changeTable _ misreads_ok _ _).bind fun _ => misreads_pure _

theorem Draft.misreads_openItem (d : Draft) (key : Key) : Misreads (d.openItem key) := by
  rw [openItem]
  split_ifs
  · exact misreads_throw
  · exact (misreads_changeTable _ (misreads_addListed _) _ _).bind fun _ => misreads_pure _

theorem Draft.misreads_add (d : Draft) (key : Key) (v : Value) : Misreads (d.add key v) := by
  rw [add]
  split_ifs
  any_goals exact misreads_malformed
  all_goals exact (misreads_changeTable _ (misreads_addEntry _ _) _ _).bind fun _ => misreads_pure _

theorem misreads_takeHeading (d : Draft) (cs : List Char) : Misreads (takeHeading d cs) := by
  unfold takeHeading
  split
  · refine (misreads_takeKey _).bind fun ⟨key, rest⟩ => ?_
    dsimp only
    split
    · exact (Draft.misreads_openItem _ _).bind fun _ => misreads_pure _
    · exact misreads_throw
  · refine (misreads_takeKey _).bind fun ⟨key, rest⟩ => ?_
    dsimp only
    split
    · exact (Draft.misreads_openTable _ _).bind fun _ => misreads_pure _
    · exact misreads_throw

theorem misreads_takeStatement (room : ℕ) (d : Draft) (cs : List Char) : Misreads (takeStatement room d cs) := by
  unfold takeStatement
  split
  · exact misreads_pure _
  · exact (misreads_takeHeading _ _).bind fun _ => misreads_pure _
  · refine (misreads_takeKey _).bind fun ⟨key, rest⟩ => ?_
    refine (misreads_dropEquals rest).bind fun value => ?_
    refine ((misreads_takeValue_takeItems_takeInline _).1 room value).bind fun ⟨v, rest⟩ => ?_
    exact (Draft.misreads_add _ _ _).bind fun _ => misreads_pure _

theorem misreads_readLines (room : ℕ) : ∀ (fuel : ℕ) (d : Draft) (cs : List Char), Misreads (readLines room fuel d cs)
  | 0, _, _ => misreads_ok _
  | fuel + 1, d, cs => by
    unfold readLines
    split
    · exact misreads_ok _
    · exact misreads_readLines room fuel d _
    · refine (misreads_takeStatement room d _).bind fun ⟨d, rest⟩ => ?_
      refine (misreads_dropComment rest).bind fun rest => ?_
      split
      · exact misreads_pure _
      · exact misreads_readLines room fuel d _
      · exact misreads_throw

/-- What is wrong with a document of settings is one of three things. -/
theorem misreads_read (room : ℕ) (s : String) : Misreads (read room s) :=
  (misreads_readLines room _ _ _).bind fun _ => misreads_pure _

end ScoreGate.Toml
