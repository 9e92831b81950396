import ScoreGate.Proofs.Comparing
import ScoreGate.Proofs.Histories
import ScoreGate.Proofs.Recording

/-!
# Normal forms of documents

A document may give counts as texts or fractions, leave breakdowns out and use older names.  The snapshot that it holds
is written in one form only, which reads back as that snapshot; so writing what was read a second time changes nothing
more.  The form counts the files, names each of them once, and has no negative count and no axis beyond its ends: such a
document is refused, not mended.

* `FileSummary.Reads`, `FileSummary.ofValue_eq_ok`: what the record of a file stands for.
* `Snapshot.Normal`: what holds of a snapshot and of the document that it is written as.
* `Snapshot.normal_ofValue`: every snapshot that is read or created is in normal form.
-/

namespace ScoreGate

/-- The results of a pass stand beside the items that gave them. -/
theorem forall₂_of_mapM {ε α β : Type} {f : α → Except ε β} : ∀ {xs : List α} {ys : List β}, xs.mapM f = .ok ys →
    List.Forall₂ (fun x y => f x = .ok y) xs ys
  | [], _, h => by
    cases h
    exact .nil
  | x :: xs, _, h => by
    rw [List.mapM_cons, bind_eq_ok] at h
    obtain ⟨y, hy, h⟩ := h
    rw [bind_eq_ok] at h
    obtain ⟨ys, hys, h⟩ := h
    cases h
    exact .cons hy (forall₂_of_mapM hys)

/-! ### Entries -/

namespace Value

def integer (v : Value) (key : String) : Except Fault Int := do
  (← v.field key).toInt

/-- An axis of the breakdown of a file; what is missing is full. -/
def axis (v : Value) (key : String) : Except Fault Value := do
  (Value.orEmptyTable (← v.member? "breakdown")).memberOr key (.int 100)

theorem toNumber_eq_ok {v : Value} {n : Number} : v.toNumber = .ok n ↔ v = .number n := by
  cases v <;> simp [toNumber]

end Value

theorem Percent.ofValue_eq_ok {name : String} {v : Value} {p : Percent} :
    Percent.ofValue name v = .ok p ↔ v = .number p.value := by
  constructor
  · intro h
    rw [Percent.ofValue, bind_eq_ok] at h
    obtain ⟨n, hn, h⟩ := h
    rw [Percent.check] at h
    split_ifs at h
    cases h
    exact Value.toNumber_eq_ok.mp hn
  · rintro rfl
    exact Percent.ofValue_value name p

/-! ### Records of files -/

namespace FileSummary

variable {v : Value} {f : FileSummary}

/-- The names of the counts of a file. -/
def countKeys : List String := ["totalIssues", "highSeverity", "mediumSeverity", "lowSeverity"]

/-- The names of the axes. -/
def axisKeys : List String := ["memoryLeaks", "performance", "codeQuality"]

/-- A count is refused if it is negative, and kept as it is otherwise. -/
theorem countOf_eq_ok {path : Value} {name : String} {n : Int} {k : Nat} : countOf path name n = .ok k ↔ n = k := by
  rw [countOf]
  split_ifs with h
  · simp only [false_iff]
    omega
  · simp only [Except.ok.injEq]
    omega

/-- What the record of a file in a document stands for. -/
structure Reads (v : Value) (f : FileSummary) : Prop where
  path : v.field "filePath" = .ok f.path
  total : v.integer "totalIssues" = .ok f.total
  high : v.integer "highSeverity" = .ok f.high
  medium : v.integer "mediumSeverity" = .ok f.medium
  low : v.integer "lowSeverity" = .ok f.low
  score : v.field "score" = .ok f.score
  grade : v.field "grade" = .ok f.grade
  memoryLeaks : v.axis "memoryLeaks" = .ok (.number f.breakdown.memoryLeaks.value)
  performance : v.axis "performance" = .ok (.number f.breakdown.performance.value)
  codeQuality : v.axis "codeQuality" = .ok (.number f.breakdown.codeQuality.value)

theorem ofValue_eq_ok : FileSummary.ofValue v = .ok f ↔ Reads v f := by
  simp only [FileSummary.ofValue, Breakdown.ofValues, bind_eq_ok, pure_eq_ok, Except.ok.injEq, countOf_eq_ok,
    Percent.ofValue_eq_ok]
  constructor
  · rintro ⟨b, hb, path, hpath, t, ht, total, htotal, h, hh, high, hhigh, m, hm, medium, hmedium, l, hl, low, hlow, score,
      hscore, grade, hgrade, x, hx, y, hy, z, hz, breakdown, ⟨p, rfl, q, rfl, r, rfl, rfl⟩, k₁, rfl, k₂, rfl, k₃, rfl, k₄, rfl,
      rfl⟩
    -- a count is a field and a conversion, an axis a member of the table of the breakdown
    have hcount : ∀ {key : String} {x : Value} {n : Int}, v.field key = .ok x → x.toInt = .ok n → v.integer key = .ok n :=
      fun hx hn => bind_eq_ok.mpr ⟨_, hx, hn⟩
    have haxis : ∀ {key : String} {x : Value}, (Value.orEmptyTable b).memberOr key (.int 100) = .ok x →
        v.axis key = .ok x := fun hx => bind_eq_ok.mpr ⟨b, hb, hx⟩
    exact ⟨hpath, hcount ht htotal, hcount hh hhigh, hcount hm hmedium, hcount hl hlow, hscore, hgrade, haxis hx, haxis hy,
      haxis hz⟩
  · rintro ⟨hpath, htotal, hhigh, hmedium, hlow, hscore, hgrade, hmemory, hperformance, hquality⟩
    obtain ⟨t, ht, htotal⟩ := bind_eq_ok.mp htotal
    obtain ⟨h, hh, hhigh⟩ := bind_eq_ok.mp hhigh
    obtain ⟨m, hm, hmedium⟩ := bind_eq_ok.mp hmedium
    obtain ⟨l, hl, hlow⟩ := bind_eq_ok.mp hlow
    obtain ⟨b, hb, hmemory⟩ := bind_eq_ok.mp hmemory
    have haxis : ∀ {key : String} {x : Value}, v.axis key = .ok x →
        (Value.orEmptyTable b).memberOr key (.int 100) = .ok x := by
      intro key x hx
      rwa [Value.axis, hb, ok_bind] at hx
    exact ⟨b, hb, f.path, hpath, t, ht, f.total, htotal, h, hh, f.high, hhigh, m, hm, f.medium, hmedium, l, hl, f.low, hlow,
      f.score, hscore, f.grade, hgrade, _, hmemory, _, haxis hperformance, _, haxis hquality, f.breakdown,
      ⟨_, rfl, _, rfl, _, rfl, rfl⟩, _, rfl, _, rfl, _, rfl, _, rfl, rfl⟩

end FileSummary

/-! ### Snapshots -/

namespace Snapshot

variable {s : Snapshot} {d : Value}

/-- The records of files in a document; there are none where the entry is missing. -/
def records (d : Value) : Except Fault (List Value) := do
  (← d.memberOr "fileAnalysis" (.list [])).elements

/-- The files of a snapshot are those of the records in its document, in their order. -/
theorem records_of_ofValue (h : ofValue d = .ok s) :
    ∃ items, records d = .ok items ∧ List.Forall₂ FileSummary.Reads items s.files := by
  simp only [ofValue, bind_eq_ok] at h
  obtain ⟨_, -, _, -, _, -, _, -, _, -, _, -, _, -, _, hfiles, items, hitems, files, hread, _, -, _, -, hcheck⟩ := h
  obtain ⟨rfl, -⟩ := check_eq_ok.mp hcheck
  exact ⟨items, bind_eq_ok.mpr ⟨_, hfiles, hitems⟩,
    (forall₂_of_mapM hread).imp fun _ _ h => FileSummary.ofValue_eq_ok.mp h⟩

/-- A snapshot in normal form, with the document that it is written as. -/
structure Normal (s : Snapshot) : Prop where
  counted : s.metrics.totalFiles = s.files.length
  distinct : s.files.Pairwise fun f g => g.path.sameName f.path = false
  counts : ∀ f ∈ s.files, ∀ key ∈ FileSummary.countKeys, ∃ n : Int, f.toValue.integer key = .ok n ∧ 0 ≤ n
  axes : ∀ f ∈ s.files, ∀ key ∈ FileSummary.axisKeys, ∃ x : Number,
    f.toValue.axis key = .ok (.number x) ∧ x.isPercent = true
  again : ofValue s.toValue = .ok s

theorem normal_of_check (h : s.check = .ok s) : s.Normal := by
  obtain ⟨-, hcounted, -, hdistinct⟩ := check_eq_ok.mp h
  have hreads : ∀ f : FileSummary, FileSummary.Reads f.toValue f := fun f =>
    FileSummary.ofValue_eq_ok.mp f.ofValue_toValue
  refine ⟨hcounted, hdistinct, ?_, ?_, by rw [ofValue_toValue, h]⟩
  · intro f _ key hkey
    simp only [FileSummary.countKeys, List.mem_cons, List.not_mem_nil, or_false] at hkey
    obtain rfl | rfl | rfl | rfl := hkey
    · exact ⟨_, (hreads f).total, Int.natCast_nonneg _⟩
    · exact ⟨_, (hreads f).high, Int.natCast_nonneg _⟩
    · exact ⟨_, (hreads f).medium, Int.natCast_nonneg _⟩
    · exact ⟨_, (hreads f).low, Int.natCast_nonneg _⟩
  · intro f _ key hkey
    simp only [FileSummary.axisKeys, List.mem_cons, List.not_mem_nil, or_false] at hkey
    obtain rfl | rfl | rfl := hkey
    · exact ⟨_, (hreads f).memoryLeaks, f.breakdown.memoryLeaks.within⟩
    · exact ⟨_, (hreads f).performance, f.breakdown.performance.within⟩
    · exact ⟨_, (hreads f).codeQuality, f.breakdown.codeQuality.within⟩

/-- The document that a document is written as once it was read. -/
def rewritten (d : Value) : Except Fault Value := (ofValue d).map toValue

/-- Every snapshot that is read from a document or created is in normal form.  One that is read has the files of the
records in its document, and one that is created those that it was given.  Once rewritten, a document stays as it is. -/
theorem normal_form :
    (∀ {d s}, ofValue d = .ok s →
      s.Normal ∧ ∃ items, records d = .ok items ∧ List.Forall₂ FileSummary.Reads items s.files) ∧
    (∀ {d e}, rewritten d = .ok e → rewritten e = .ok e) ∧
    ∀ {store : Store} {files branch commit environment w x v},
      (store.create files branch commit environment).exec w = (.ok x, v) → x.Normal ∧ x.files = files := by
  refine ⟨fun h => ⟨normal_of_check (check_of_ofValue h), records_of_ofValue h⟩, ?_, ?_⟩
  · intro d e h
    obtain ⟨s, hs, rfl⟩ := map_eq_ok.mp h
    rw [rewritten, (normal_of_check (check_of_ofValue hs)).again]
    rfl
  · intro store files branch commit environment w x v h
    obtain ⟨hrecords, -⟩ := Store.create_records h
    exact ⟨normal_of_check hrecords.check, hrecords.listed⟩

/-- A document of an older form: counts as texts and fractions, an axis that is given, an older name. -/
def legacy : Value := .table [("id", .int 7), ("timestamp", .text " 12 "), ("branch", .text "main"), ("commit", .null),
  ("metrics", .table [("totalFiles", .text "1"), ("totalIssues", .text "3"), ("highSeverityIssues", .int 1),
    ("mediumSeverityIssues", .flag true), ("lowSeverityIssues", .real (.ofRat 1.9)), ("averageScore", .int 70),
    ("performanceScore", .text "80.5"), ("memoryScore", .text "nan"), ("codeQualityScore", .int 95)]),
  ("fileAnalysis", .list [.table [("filePath", .text "a.ts"), ("totalIssues", .text "3"), ("highSeverity", .int 1),
    ("mediumSeverity", .flag true), ("lowSeverity", .real (.ofRat 1.9)), ("score", .int 70), ("grade", .text "B"),
    ("breakdown", .table [("performance", .real (.ofRat 80.5))])]]),
  ("environment", .table [("nodeVersion", .text "v18"), ("os", .null)])]

/-- The same document in the form that is written now. -/
def renewed : Value := .table [("id", .text "7"), ("timestamp", .int 12), ("branch", .text "main"), ("commit", .text "None"),
  ("metrics", .table [("totalFiles", .int 1), ("totalIssues", .int 3), ("highSeverityIssues", .int 1),
    ("mediumSeverityIssues", .int 1), ("lowSeverityIssues", .int 1), ("averageScore", .real (.ofInt 70)),
    ("performanceScore", .real (.ofRat 80.5)), ("memoryScore", .real .nan), ("codeQualityScore", .real (.ofInt 95))]),
  ("fileAnalysis", .list [.table [("filePath", .text "a.ts"), ("totalIssues", .int 3), ("highSeverity", .int 1),
    ("mediumSeverity", .int 1), ("lowSeverity", .int 1), ("score", .int 70), ("grade", .text "B"),
    ("breakdown", .table [("memoryLeaks", .int 100), ("performance", .real (.ofRat 80.5)), ("codeQuality", .int 100)])]]),
  ("environment", .table [("runtimeVersion", .text "v18"), ("packageVersion", .text "unknown"), ("platform", .null)])]

/-- The file of the older document. -/
def renewedFile : FileSummary := ⟨.text "a.ts", 3, 1, 1, 1, .int 70, .text "B", .full⟩

theorem normal_form_legacy : (∃ s, ofValue legacy = .ok s ∧ s.toValue = renewed ∧ s.Normal ∧
      rewritten renewed = .ok renewed) ∧
    ∃ x w, (Store.beside.create [renewedFile] "main" "c" none).exec Store.blank = (.ok x, w) ∧ x.Normal ∧
      x.files = [renewedFile] := by
  have hrewritten : rewritten legacy = .ok renewed := by decide +kernel
  obtain ⟨s, hread, hvalue⟩ := map_eq_ok.mp hrewritten
  refine ⟨⟨s, hread, hvalue, (normal_form.1 hread).1, normal_form.2.1 hrewritten⟩, ?_⟩
  have hcreated : ((Store.beside.create [renewedFile] "main" "c" none).exec Store.blank).1.isOk = true := by decide +kernel
  rcases hrun : (Store.beside.create [renewedFile] "main" "c" none).exec Store.blank with ⟨e | x, w⟩
  · rw [hrun] at hcreated
    cases hcreated
  · exact ⟨x, w, rfl, normal_form.2.2 hrun⟩

end Snapshot

end ScoreGate
