import Mathlib
import ScoreGate.Workspace

/-!
# Where paths lead

A path spells a location, whatever is there: `Tree.resolve`.  When it leads anywhere, it leads to the location that it
spells, and it goes on doing so as long as no directory goes away.  Making directories adds directories on the way of a
path, where nothing was, and changes nothing else.

* `Tree.locateFrom_eq_resolve`, `Tree.locateFrom_mono`: where a path leads.
* `Tree.locate_put`, `Tree.file_put`: what stays when something is put where no directory is.
* `Tree.Grown`, `Tree.makeDirectories_grown`: what making directories does.
-/

namespace ScoreGate

namespace Tree

variable {t u : Tree} {limits : Option NameLimits} {here loc : Location} {name : String} {parts rest : List String}

/-! ### Spelling a location -/

/-- The location that components spell from `here`, whether anything is there or not. -/
def resolve : Location → List String → Location
  | here, [] => here
  | here, name :: rest => if name = ".." then resolve here.dropLast rest else resolve (here ++ [name]) rest

theorem resolve_append : ∀ (here : Location) (parts rest : List String),
    resolve here (parts ++ rest) = resolve (resolve here parts) rest
  | _, [], _ => rfl
  | here, name :: parts, rest => by
    simp only [List.cons_append, resolve]
    split_ifs
    · exact resolve_append here.dropLast parts rest
    · exact resolve_append (here ++ [name]) parts rest

theorem resolve_concat (h : name ≠ "..") (here : Location) (parts : List String) :
    resolve here (parts ++ [name]) = resolve here parts ++ [name] := by
  rw [resolve_append, resolve, if_neg h, resolve]

theorem resolve_of_no_dots : ∀ {parts : List String} {here : Location}, ".." ∉ parts → resolve here parts = here ++ parts
  | [], here, _ => (List.append_nil here).symm
  | name :: parts, here, hdots => by
    rw [resolve, if_neg (by rintro rfl; simp at hdots),
      resolve_of_no_dots fun hmem => hdots (List.mem_cons_of_mem _ hmem), List.append_assoc, List.singleton_append]

/-! ### Locating -/

/-- A path that leads anywhere leads to the location that it spells. -/
theorem locateFrom_eq_resolve : ∀ {parts : List String} {here : Location},
    t.locateFrom limits here parts = .ok loc → loc = resolve here parts
  | [], _, h => by
    rw [locateFrom, Except.ok.injEq] at h
    exact h.symm
  | name :: parts, here, h => by
    rw [locateFrom] at h
    rcases hn : t.find? here with _ | ⟨_ | b⟩
    · simp [hn] at h
    · rw [resolve]
      simp only [hn] at h
      split_ifs at h ⊢
      · exact locateFrom_eq_resolve h
      · exact locateFrom_eq_resolve h
    · simp [hn] at h

theorem locateFrom_append : ∀ (here : Location) (parts rest : List String),
    t.locateFrom limits here (parts ++ rest) =
      (t.locateFrom limits here parts).bind fun loc => t.locateFrom limits loc rest
  | _, [], _ => rfl
  | here, name :: parts, rest => by
    simp only [List.cons_append, locateFrom]
    rcases t.find? here with _ | ⟨_ | b⟩
    · rfl
    · simp only []
      split_ifs
      · exact locateFrom_append here.dropLast parts rest
      · rfl
      · exact locateFrom_append (here ++ [name]) parts rest
    · rfl

theorem directory_of_locateFrom {here : Location} {parts rest : List String} {name : String}
    (h : t.locateFrom limits here (parts ++ name :: rest) = .ok loc) :
    ∃ dir, t.locateFrom limits here parts = .ok dir ∧ t.find? dir = some .directory := by
  rw [locateFrom_append] at h
  rcases hdir : t.locateFrom limits here parts with o | dir
  · rw [hdir] at h
    cases h
  · refine ⟨dir, rfl, ?_⟩
    simp only [hdir, Except.bind, locateFrom] at h
    split at h
    · cases h
    · cases h
    · assumption

/-- As long as the directories stay a path comes to what it came to, unless a part of it was missing or was a file. -/
theorem locateFrom_stays (hdirs : ∀ loc, t.find? loc = some .directory → u.find? loc = some .directory)
    {r : Except Obstacle Location} (hmissing : r ≠ .error .missing) (hfile : r ≠ .error .notDirectory) :
    ∀ {parts : List String} {here : Location}, t.locateFrom limits here parts = r → u.locateFrom limits here parts = r
  | [], _, h => h
  | name :: parts, here, h => by
    rw [locateFrom] at h ⊢
    rcases hn : t.find? here with _ | ⟨_ | b⟩
    · rw [hn] at h
      exact absurd h.symm hmissing
    · rw [hdirs here hn]
      simp only [hn] at h ⊢
      split_ifs at h ⊢
      · exact locateFrom_stays hdirs hmissing hfile h
      · exact h
      · exact locateFrom_stays hdirs hmissing hfile h
    · rw [hn] at h
      exact absurd h.symm hfile

/-- A path goes on leading to the same location as long as the directories stay. -/
theorem locateFrom_mono (hdirs : ∀ loc, t.find? loc = some .directory → u.find? loc = some .directory)
    {parts : List String} {here : Location} (h : t.locateFrom limits here parts = .ok loc) :
    u.locateFrom limits here parts = .ok loc :=
  locateFrom_stays hdirs (by simp) (by simp) h

theorem locateFrom_nameTooLong (hdirs : ∀ loc, t.find? loc = some .directory → u.find? loc = some .directory)
    {parts : List String} {here : Location} (h : t.locateFrom limits here parts = .error .nameTooLong) :
    u.locateFrom limits here parts = .error .nameTooLong :=
  locateFrom_stays hdirs (by simp) (by simp) h

theorem locate_eq_ok {p : Path} : t.locate limits p = .ok loc ↔
    checkPath limits p = none ∧ t.locateFrom limits [] p.parts = .ok loc := by
  rw [locate]
  rcases checkPath limits p with _ | o <;> simp

theorem locate_eq_resolve {p : Path} (h : t.locate limits p = .ok loc) : loc = resolve [] p.parts :=
  locateFrom_eq_resolve (locate_eq_ok.mp h).2

theorem locate_mono (hdirs : ∀ loc, t.find? loc = some .directory → u.find? loc = some .directory) {p : Path}
    (h : t.locate limits p = .ok loc) : u.locate limits p = .ok loc :=
  locate_eq_ok.mpr ⟨(locate_eq_ok.mp h).1, locateFrom_mono hdirs (locate_eq_ok.mp h).2⟩

/-- At the root there is a directory, so something else is elsewhere. -/
theorem ne_nil_of_find? {found : Option Node} (h : t.find? loc = found) (hfound : found ≠ some .directory) : loc ≠ [] := by
  rintro rfl
  exact hfound (h ▸ find?_nil t)

theorem directory_put {other : Location} (hloc : t.find? loc ≠ some .directory) (n : Node)
    (h : t.find? other = some .directory) : (t.put loc n).find? other = some .directory := by
  rw [find?_put_of_ne (by rintro rfl; exact hloc h), h]

theorem locate_put {other : Location} (hloc : t.find? loc ≠ some .directory) (n : Node) {p : Path}
    (h : t.locate limits p = .ok other) : (t.put loc n).locate limits p = .ok other :=
  locate_mono (fun _ => directory_put hloc n) h

theorem file_put {other : Location} {old : ByteArray} (h : t.find? other = some (.file old)) (loc : Location)
    (bytes : ByteArray) : ∃ now, (t.put loc (.file bytes)).find? other = some (.file now) := by
  by_cases heq : other = loc
  · exact ⟨bytes, by rw [← heq, find?_put_self (ne_nil_of_find? h (by simp))]⟩
  · exact ⟨old, by rw [find?_put_of_ne heq, h]⟩

/-! ### Entries -/

/-- What is found stands among the entries. -/
theorem mem_of_findIn_eq_some {n : Node} : ∀ {es : List (Location × Node)}, findIn loc es = some n → (loc, n) ∈ es
  | [], h => by cases h
  | (l, m) :: es, h => by
    rw [findIn] at h
    split_ifs at h with hl
    · obtain rfl := Option.some.inj h
      simp [hl]
    · exact List.mem_cons_of_mem _ (mem_of_findIn_eq_some h)

theorem mem_of_findIn {es : List (Location × Node)} (h : findIn loc es ≠ none) : loc ∈ es.map Prod.fst := by
  obtain ⟨n, hn⟩ := Option.ne_none_iff_exists'.mp h
  exact List.mem_map.mpr ⟨_, mem_of_findIn_eq_some hn, rfl⟩

theorem putIn_of_free {n : Node} : ∀ {es : List (Location × Node)}, findIn loc es = none → putIn loc n es = es ++ [(loc, n)]
  | [], _ => rfl
  | (l, m) :: es, h => by
    rw [findIn] at h
    split_ifs at h with hl
    rw [putIn, if_neg hl, putIn_of_free h, List.cons_append]

theorem findIn_of_free (hne : loc ≠ []) (h : t.find? loc = none) : findIn loc t.entries = none := by
  rwa [find?, if_neg hne] at h

theorem entries_put_of_free (hne : loc ≠ []) (h : t.find? loc = none) (n : Node) :
    (t.put loc n).entries = t.entries ++ [(loc, n)] := putIn_of_free (findIn_of_free hne h)

def fileEntries (t : Tree) : List (Location × Node) := t.entries.filter fun e => e.2 ≠ .directory

/-! ### Making directories -/

/-- What making directories changes: where nothing was there may be a directory, as far as `way` allows. -/
structure Grown (way : Location → Prop) (t u : Tree) : Prop where
  kept : ∀ {loc}, t.find? loc ≠ none → u.find? loc = t.find? loc
  added : ∀ {loc}, t.find? loc = none → u.find? loc = none ∨ u.find? loc = some .directory ∧ way loc
  entries : u.fileEntries = t.fileEntries

namespace Grown

variable {way : Location → Prop}

theorem refl (way : Location → Prop) (t : Tree) : Grown way t t := ⟨fun _ => rfl, Or.inl, rfl⟩

theorem trans {v : Tree} (h : Grown way t u) (h' : Grown way u v) : Grown way t v := by
  refine ⟨fun {loc} hloc => ?_, fun {loc} hloc => ?_, h'.entries.trans h.entries⟩
  · rw [h'.kept (by rwa [h.kept hloc]), h.kept hloc]
  · rcases h.added hloc with hnone | ⟨hdir, hway⟩
    · exact h'.added hnone
    · exact Or.inr ⟨by rw [h'.kept (by simp [hdir]), hdir], hway⟩

theorem directory (h : Grown way t u) (hloc : t.find? loc = some .directory) : u.find? loc = some .directory := by
  rw [h.kept (by simp [hloc]), hloc]

/-- No file is added, and none goes away. -/
theorem file_iff (h : Grown way t u) {bytes : ByteArray} :
    u.find? loc = some (.file bytes) ↔ t.find? loc = some (.file bytes) := by
  constructor
  · intro hu
    rcases ht : t.find? loc with _ | n
    · rcases h.added ht with hnone | ⟨hdir, -⟩
      · simp [hu] at hnone
      · simp [hu] at hdir
    · rw [← ht, ← h.kept (by simp [ht]), hu]
  · intro ht
    rw [h.kept (by simp [ht]), ht]

/-- A directory was there before, or it is on the way. -/
theorem directory_cases (h : Grown way t u) (hloc : u.find? loc = some .directory) :
    t.find? loc = some .directory ∨ way loc := by
  rcases ht : t.find? loc with _ | n
  · rcases h.added ht with hnone | ⟨-, hway⟩
    · simp [hloc] at hnone
    · exact Or.inr hway
  · rw [h.kept (by simp [ht]), ht] at hloc
    exact Or.inl hloc

theorem mono {way' : Location → Prop} (h : Grown way t u) (hway : ∀ loc, way loc → way' loc) : Grown way' t u :=
  ⟨h.kept, fun hloc => (h.added hloc).imp_right fun hw => ⟨hw.1, hway _ hw.2⟩, h.entries⟩

end Grown

theorem put_directory_grown (h : t.find? loc = none) : Grown (· = loc) t (t.put loc .directory) := by
  have hne : loc ≠ [] := ne_nil_of_find? h (by simp)
  refine ⟨fun {other} ho => find?_put_of_ne ?_ _, fun {other} ho => ?_, ?_⟩
  · rintro rfl
    exact ho h
  · by_cases heq : other = loc
    · exact Or.inr ⟨by rw [heq, find?_put_self hne], heq⟩
    · exact Or.inl (by rw [find?_put_of_ne heq, ho])
  · rw [fileEntries, entries_put_of_free hne h, List.filter_append, fileEntries]
    simp

theorem makeDirectoriesFrom_grown : ∀ (t : Tree) (here : Location) (parts : List String),
    Grown (fun loc => ∃ n, loc = resolve here (parts.take n)) t (t.makeDirectoriesFrom limits here parts).1
  | t, _, [] => .refl _ t
  | t, here, name :: parts => by
    -- what the rest of the way passes, the whole way passes one step later
    have hstep : ∀ {next : Location}, (∀ n, resolve next (parts.take n) = resolve here ((name :: parts).take (n + 1))) →
        ∀ loc, (∃ n, loc = resolve next (parts.take n)) → ∃ n, loc = resolve here ((name :: parts).take n) := by
      rintro next hnext _ ⟨n, rfl⟩
      exact ⟨n + 1, hnext n⟩
    rw [makeDirectoriesFrom]
    by_cases hup : name = ".."
    · rw [if_pos hup]
      refine (makeDirectoriesFrom_grown t here.dropLast parts).mono (hstep fun n => ?_)
      rw [List.take_succ_cons, resolve, if_pos hup]
    · rw [if_neg hup]
      have hnext : ∀ n, resolve (here ++ [name]) (parts.take n) = resolve here ((name :: parts).take (n + 1)) := by
        intro n
        rw [List.take_succ_cons, resolve, if_neg hup]
      by_cases hlong : limits.any (·.name < name.utf8ByteSize) = true
      · rw [if_pos hlong]
        exact .refl _ t
      · rw [if_neg hlong]
        simp only []
        rcases hn : t.find? (here ++ [name]) with _ | ⟨_ | b⟩
        · refine Grown.trans ((put_directory_grown hn).mono ?_)
            ((makeDirectoriesFrom_grown (t.put (here ++ [name]) .directory) (here ++ [name]) parts).mono (hstep hnext))
          rintro _ rfl
          exact ⟨1, by rw [← hnext 0]; rfl⟩
        · exact (makeDirectoriesFrom_grown t (here ++ [name]) parts).mono (hstep hnext)
        · exact .refl _ t

end Tree

/-- A location that a path goes through, the one that it leads to included. -/
def Path.Passes (p : Path) (loc : Location) : Prop := ∃ n, loc = Tree.resolve [] (p.parts.take n)

theorem Tree.makeDirectories_grown (t : Tree) (limits : Option NameLimits) (p : Path) :
    Grown p.Passes t (t.makeDirectories limits p).1 := by
  rw [makeDirectories]
  rcases checkPath limits p with _ | o
  · exact makeDirectoriesFrom_grown t [] p.parts
  · exact .refl _ t

end ScoreGate
