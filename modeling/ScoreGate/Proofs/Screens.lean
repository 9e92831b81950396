import ScoreGate.Command.Analyze
import ScoreGate.Command.Gate
import ScoreGate.Command.Snapshots
import ScoreGate.Proofs.Checking

/-!
# What commands print

Every line that a command prints is put together as markup should be: texts from outside stand in it escaped, everything else
is words and numbers, and styles are ended where they were begun.  Only the lines and rows about stored snapshots hold more.

* `Command.analysisHead_proper`, `Command.severityLines_proper`: an analysis.
* `Report.tells`: a report.
* `Command.analysisRows_proper`, `Command.metricRows_proper`: tables.
-/

namespace ScoreGate

open Console (Plain Proper styles styled escape proper_escape plain_of_figures)

/-! ### Words and numbers -/

section Words

theorem plain_int (n : ℤ) : Plain (toString n) := plain_of_figures fun _ => figure_int

@[simp] theorem plain_intRepr (n : ℤ) : Plain n.repr := plain_int n

theorem plain_nat (n : ℕ) : Plain (toString n) := plain_int n

@[simp] theorem plain_natRepr (n : ℕ) : Plain n.repr := plain_nat n

@[simp] theorem plain_number (n : Number) : Plain n.text := plain_of_figures n.figure_text

@[simp] theorem plain_fixedText (places : ℕ) (x : Binary64) : Plain (x.fixedText places) :=
  plain_of_figures (x.figure_fixedText places)

@[simp] theorem plain_letter (g : Grade) : Plain g.letter := by
  cases g <;> decide

@[simp] theorem plain_label (s : Severity) : Plain s.label := by
  cases s <;> decide

@[simp] theorem plain_icon (k : IssueKind) : Plain k.icon := by
  cases k <;> decide

/-- The sign and the reading of a score are words. -/
theorem plain_scoreBand (x : Number) : Plain (scoreBand x).1 ∧ Plain (scoreBand x).2 := by
  have hbands : ∀ b ∈ scoreBands, Plain b.2.1 ∧ Plain b.2.2 := by decide
  rw [scoreBand]
  split
  · next b hb => exact hbands b (List.mem_of_find?_eq_some hb)
  · decide

theorem plain_twoDigits (n : ℕ) : Plain (String.ofList (padZeros 2 (Nat.toDigits 10 n))) := by
  refine plain_of_figures fun c hc => ?_
  rw [String.toList_ofList, padZeros, List.mem_append] at hc
  rcases hc with hzero | hdigit
  · exact Decimal.figure_zeros _ c hzero
  · exact Decimal.figure_digits n c hdigit

theorem eq_secondText {x : Number} {text : String} (h : stampText x = .ok text) :
    ∃ year month day second, text = secondText year month day second ++ " UTC" := by
  rw [stampText] at h
  obtain ⟨seconds, -, h⟩ := bind_eq_ok.mp h
  split at h
  · cases h
  · split at h
    · cases h
    · simp only at h
      split_ifs at h <;> cases h
      exact ⟨_, _, _, _, rfl⟩

/-- A time stamp is written with digits and signs. -/
theorem plain_stampText {x : Number} {text : String} (h : stampText x = .ok text) : Plain text := by
  obtain ⟨year, month, day, second, rfl⟩ := eq_secondText h
  simp +decide [secondText, plain_twoDigits]

end Words

variable [Console]

/-- A text from outside behind words. -/
theorem proper_after {p : String} (hp : Plain p) (s : String) : Proper (p ++ escape s) := hp.proper.append (proper_escape s)

theorem proper_styled {style m : String} (hstyle : style ∈ styles) (hm : Proper m) : Proper (styled style m) := hm.styled hstyle

/-- Something in a style behind words. -/
theorem proper_last {style p m : String} (hstyle : style ∈ styles) (hp : Plain p) (hm : Proper m) :
    Proper (p ++ styled style m) := hp.proper.append (hm.styled hstyle)

/-! ### Analyses -/

namespace Command

theorem analysisHead_proper (a : FileAnalysis) : ∀ m ∈ analysisHead a, Proper m := by
  have hgrade : Plain ("/100 (" ++ a.score.grade.letter ++ ")") := by simp +decide
  have hpoints : ∀ (p : String) (x : Percent), Plain p → Proper (p ++ x.value.text ++ "/100") :=
    fun p x hp => Plain.proper (by simp +decide [hp])
  obtain ⟨hsign, hreading⟩ := plain_scoreBand a.score.total.value
  simp only [analysisHead, List.forall_mem_cons]
  refine ⟨proper_last (by decide) (by decide) (proper_escape _), Plain.proper (by simp +decide), Plain.proper (by decide), ?_,
    hpoints _ _ (by decide), hpoints _ _ (by decide), hpoints _ _ (by decide),
    Plain.proper (by simp +decide [hsign, hreading]), by simp⟩
  have htotal : Proper ("Overall score:  " ++ styled "bold" a.score.total.value.text) :=
    proper_last (by decide) (by decide) (plain_number _).proper
  simpa only [String.append_assoc] using htotal.append hgrade.proper

theorem severityLines_proper (a : FileAnalysis) (s : Severity) : ∀ m ∈ severityLines a s, Proper m := by
  have hissue : ∀ i : Issue, ∀ m ∈ issueLines i, Proper m := by
    intro i
    rw [issueLines, List.forall_mem_cons, List.forall_mem_singleton]
    exact ⟨proper_after (by simp +decide) _, proper_last (by decide) (by decide) (proper_escape _)⟩
  rw [severityLines]
  split_ifs
  · simp
  · rw [List.forall_mem_cons]
    refine ⟨proper_last (by decide) (by decide) (Plain.proper (by simp +decide)), fun m hm => ?_⟩
    obtain ⟨i, -, hi⟩ := List.mem_flatMap.mp hm
    exact hissue i m hi

theorem tells_sayAnalysis (a : FileAnalysis) : Tells (sayAnalysis a) := by
  have htitle : Tells (sayRule (styled "bold cyan" "Performance Analysis")) :=
    tells_sayRule (proper_styled (by decide) (Plain.proper (by decide)))
  rw [sayAnalysis]
  refine (tells_say (Plain.proper (by decide))).bind (htitle.bind ((tells_sayAll (analysisHead_proper a)).bind ?_))
  split_ifs
  · exact tells_say (proper_last (by decide) (by decide) (Plain.proper (by decide)))
  · refine tells_sayAll fun m hm => ?_
    obtain ⟨severity, -, h⟩ := List.mem_flatMap.mp hm
    exact severityLines_proper a severity m h

/-! ### Projects -/

theorem tells_sayProject (p : ProjectScore) : Tells (sayProject p) := by
  have hgrade : Plain ("/100 (" ++ p.grade.letter ++ ")") := by simp +decide
  have htitle : Tells (sayRule (styled "bold cyan" "Project Quality Score")) :=
    tells_sayRule (proper_styled (by decide) (Plain.proper (by decide)))
  have htotal : Proper ("Overall score:    " ++ styled "bold" (toString p.total)) :=
    proper_last (by decide) (by decide) (plain_int _).proper
  obtain ⟨hsign, hreading⟩ := plain_scoreBand (.int p.total)
  rw [sayProject]
  refine (tells_say (Plain.proper (by decide))).bind (htitle.bind (tells_sayAll ?_))
  simp only [List.forall_mem_cons]
  refine ⟨?_, Plain.proper (by simp +decide), Plain.proper (by simp +decide), proper_after (by decide) _,
    proper_after (by decide) _, Plain.proper (by simp +decide [hsign, hreading]), by simp⟩
  simpa only [String.append_assoc] using htotal.append hgrade.proper

theorem analysisRows_proper (as : List FileAnalysis) : ∀ row ∈ as.map analysisRow, ∀ m ∈ row, Proper m := by
  refine List.forall_mem_map.mpr fun a _ => ?_
  simp only [analysisRow, List.forall_mem_cons]
  exact ⟨proper_escape _, (plain_nat _).proper, (plain_nat _).proper, (plain_nat _).proper, (plain_nat _).proper,
    (plain_number _).proper, (plain_letter _).proper, by simp⟩

omit [Console] in
theorem metricRows_plain (m : Metrics) : ∀ row ∈ metricRows m, ∀ cell ∈ row, Plain cell := by
  simp +decide [metricRows]

end Command

/-! ### Reports -/

section Reports

variable {r : Report}

open Command (Tells tells_say tells_sayAll tells_sayRule)

theorem screenList_proper {heading style : String} (hstyle : style ∈ styles) (hbold : "bold " ++ style ∈ styles)
    (hheading : Plain heading) (items : List String) : ∀ m ∈ screenList heading style items, Proper m := by
  rw [screenList]
  split_ifs
  · simp
  · rw [List.forall_mem_cons, List.forall_mem_map]
    exact ⟨proper_last hbold (by decide) hheading.proper, fun i _ => proper_last hstyle (by decide) (proper_escape i)⟩

theorem improvementMarkup_ok (hr : r.Told) :
    ∃ ms, improvementMarkup r.details.improvement = .ok ms ∧ ∀ m ∈ ms, Proper m := by
  obtain ⟨n, hn, y, hy⟩ := fixedText_of_told hr 2
  rw [improvementMarkup]
  refine ⟨_, by simp only [hn, ok_bind, hy, pure_eq_ok]; rfl, ?_⟩
  simp only [List.forall_mem_cons]
  exact ⟨(proper_last (by decide) (by decide) (plain_fixedText 2 y).proper).append (Plain.proper (by decide)),
    (proper_last (by decide) (by decide) (plain_nat _).proper).append (Plain.proper (by decide)), by simp⟩

theorem Report.tells_improvements (hr : r.Told) : Tells r.tellImprovements := by
  obtain ⟨ms, hms, hproper⟩ := improvementMarkup_ok hr
  have hheading : Tells (Command.say ("\n" ++ styled "bold green" "Improvements")) :=
    tells_say (proper_last (by decide) (by decide) (Plain.proper (by decide)))
  rw [tellImprovements]
  split_ifs
  · refine hheading.bind fun t => ?_
    rw [hms]
    exact tells_sayAll hproper t
  · exact Command.tells_pure

theorem Report.tells (hr : r.Told) : Tells r.tell := by
  have hverdict : r.verdict.style ∈ styles ∧ Plain (String.ofList (r.verdict.name.toList.map Char.toUpper)) := by
    cases r.verdict <;> decide
  have hmetric : ∀ (style p : String) (n : ℕ), style ∈ styles → Plain p → Proper (p ++ styled style (toString n)) :=
    fun _ _ n hstyle hp => proper_last hstyle hp (plain_nat n).proper
  have htitle : Tells (Command.sayRule (styled "bold blue" "Performance Alert Report")) :=
    tells_sayRule (proper_styled (by decide) (Plain.proper (by decide)))
  have hscore : Proper ("Score:   " ++ styled "bold" r.summary.score.value.text ++ "/100") :=
    (proper_last (by decide) (by decide) (plain_number _).proper).append (Plain.proper (by decide))
  rw [tell]
  refine (tells_say (Plain.proper (by decide))).bind (htitle.bind (.bind (tells_sayAll ?_) (.bind (tells_sayAll ?_)
    ((tells_improvements hr).bind (tells_sayAll ?_)))))
  · simp only [List.forall_mem_cons]
    exact ⟨Plain.proper (by decide), proper_last hverdict.1 (by decide) hverdict.2.proper, hscore,
      proper_after (by decide) _, by simp⟩
  · rw [List.forall_mem_append]
    exact ⟨screenList_proper (by decide) (by decide) (by decide) _, screenList_proper (by decide) (by decide) (by decide) _⟩
  · simp only [List.forall_mem_append, footMarkup, List.forall_mem_cons]
    exact ⟨screenList_proper (by decide) (by decide) (by decide) _,
      proper_last (by decide) (by decide) (Plain.proper (by decide)), hmetric _ _ _ (by decide) (by decide),
      hmetric _ _ _ (by decide) (by decide), hmetric _ _ _ (by decide) (by decide), Plain.proper (by decide), by simp⟩

end Reports

end ScoreGate
