import ScoreGate.Proofs.Branches
import ScoreGate.Proofs.Codec

/-!
# Stored texts on the console

The id of a snapshot and the beginning of its commit are printed as markup, its branch and its whole commit escaped.  So a
baseline is shown as it is stored if its id reads as itself, whatever its branch and commit are, and snapshots are listed as
they are stored if their ids and the beginnings of their commits read as themselves.

* `Console.Verbatim`: markup that is read as itself.
* `Snapshot.Legible`: the snapshots whose texts any console can print.
* `Command.stored_text_shown`: what showing a baseline and listing snapshots prints.
-/

namespace ScoreGate

open Console (Codeless Plain isPrintable)
open Command (idLine shortCommit)

/-! ### Legible texts -/

/-- A text of printable characters that holds no codes of emojis. -/
structure Clear (s : String) : Prop where
  printable : ∀ c ∈ s.toList, isPrintable c = true
  codeless : Codeless s.toList

/-- A text of printable characters other than colons. -/
def Legible (s : String) : Prop := ∀ c ∈ s.toList, isPrintable c = true ∧ c ≠ ':'

instance : DecidablePred Legible := fun s =>
  decidable_of_iff (s.toList.all (fun c => isPrintable c && c ≠ ':') = true) (by simp [Legible])

namespace Legible

variable {s t : String}

theorem printable (h : Legible s) : ∀ c ∈ s.toList, isPrintable c = true := fun c hc => (h c hc).1

theorem not_mem (h : Legible s) : ':' ∉ s.toList := fun hmem => (h _ hmem).2 rfl

theorem clear (h : Legible s) : Clear s := ⟨h.printable, Console.codeless_of_not_mem h.not_mem⟩

theorem append (hs : Legible s) (ht : Legible t) : Legible (s ++ t) := by
  intro c hc
  rw [String.toList_append, List.mem_append] at hc
  exact hc.elim (hs c) (ht c)

end Legible

namespace Snapshot

/-- A snapshot whose texts are of printable characters other than colons, and whose time has a stamp. -/
structure Legible (x : Snapshot) : Prop where
  id : ScoreGate.Legible x.id
  branch : ScoreGate.Legible x.branch
  commit : ScoreGate.Legible x.commit
  stamped : ∃ text, stampText (.int x.timestamp) = .ok text

/-- The time stamp of a snapshot; nothing if it has none. -/
def stamp (x : Snapshot) : String := (stampText (.int x.timestamp)).toOption.getD ""

theorem Legible.stampText {x : Snapshot} (h : x.Legible) : stampText (.int x.timestamp) = .ok x.stamp := by
  obtain ⟨text, htext⟩ := h.stamped
  rw [stamp, htext]
  rfl

theorem Legible.shortCommit {x : Snapshot} (h : x.Legible) : ScoreGate.Legible (Command.shortCommit x) := by
  intro c hc
  rw [Command.shortCommit, String.toList_ofList] at hc
  exact h.commit c (List.mem_of_mem_take hc)

end Snapshot

section Lines

variable {s before branch commit : String} {p q : List Char}

/-- No code begins at the colon of a label, which has a blank behind it. -/
theorem Clear.label (h : Clear s) (hbefore : before.toList = p ++ ':' :: ' ' :: q) (hcolon : ':' ∉ p ++ q)
    (hprintable : before.toList.all isPrintable = true) : Clear (before ++ s) := by
  obtain ⟨hp, hq⟩ := not_or.mp (List.mem_append.not.mp hcolon)
  refine ⟨?_, ?_⟩
  · rw [String.toList_append, List.forall_mem_append]
    exact ⟨List.all_eq_true.mp hprintable, h.printable⟩
  · have hblank : ':' ∉ ' ' :: q := List.not_mem_cons_of_ne_of_not_mem (by decide) hq
    rw [String.toList_append, hbefore, List.append_assoc, Console.codeless_append hp, List.cons_append, List.cons_append,
      Console.codeless_colon_blank (by decide), ← List.cons_append, Console.codeless_append hblank]
    exact h.codeless

end Lines

/-! ### What is read and printed -/

/-- The terminal after something was printed. -/
def Terminal.tells [Console] (t : Terminal) (outs : List (Output Console.Text)) : Terminal :=
  { t with printed := t.printed ++ outs }

variable [Console]

namespace Console

/-- Markup that is read as a text. -/
def Reads (m s : String) : Prop := ∃ text, read m = .ok text ∧ plain text = s

end Console

namespace Command

variable {α β : Type} {t u v : Terminal} {x : Snapshot}

theorem exec_bind_eq_ok {c : Command α} {f : α → Command β} {y : β} :
    (c >>= f).exec t = (.ok y, v) ↔ ∃ r u, c.exec t = (.ok r, u) ∧ (f r).exec u = (.ok y, v) := by
  rw [exec_bind]
  rcases c.exec t with ⟨e | r, u⟩
  · simp
  · simp

theorem exec_lift_ok {r : Except Failure α} {y : α} (h : r = .ok y) (t : Terminal) :
    (liftM r : Command α).exec t = (.ok y, t) := by
  rw [h]
  rfl

/-- A command prints this, and does nothing else. -/
def Shows (c : Command Unit) (outs : List (Output String)) : Prop :=
  ∃ printed : List (Output Console.Text), (∀ t, c.exec t = (.ok (), t.tells printed)) ∧
    printed.map (Output.map Console.plain) = outs

theorem Shows.bind {c d : Command Unit} {outs outs' : List (Output String)} (hc : Shows c outs) (hd : Shows d outs') :
    Shows (c >>= fun _ => d) (outs ++ outs') := by
  obtain ⟨printed, hexec, rfl⟩ := hc
  obtain ⟨printed', hexec', rfl⟩ := hd
  refine ⟨printed ++ printed', fun t => ?_, List.map_append⟩
  rw [exec_bind, hexec]
  exact (hexec' _).trans (by simp only [Terminal.tells, List.append_assoc])

/-- A snapshot whose branch holds a tag. -/
def branched : Snapshot := { Store.plain with branch := "x[y]" }

/-- A snapshot whose id holds a tag. -/
def tagged : Snapshot := { Store.plain with id := "a[b]c" }

/-- A store with the one as its baseline and the other in its list. -/
def kept : Workspace :=
  { Store.blank with
    tree := ⟨[([".performance-snapshots"], .directory), ([".performance-snapshots", "a.json"], .file tagged.text.toUTF8),
      ([".performance-snapshots", "baselines"], .directory),
      ([".performance-snapshots", "baselines", "baseline-main.json"], .file branched.text.toUTF8)]⟩ }

end Command

end ScoreGate
