import ScoreGate.Document.Reader
import ScoreGate.Proofs.Recording
import ScoreGate.Proofs.Shelf
import ScoreGate.Proofs.Tokens

/-!
# Written documents read back

A value that is written as a document reads back as that value if the names in each of its tables are distinct, it holds
no moment, and no more lists and tables stand one within another than the reader opens.  The pass of the reader is
followed token by token: after the text of a value it is where it would be had the value been handed to it.

* `Value.Fits`: the values that come back.
* `Document.Delivers`, `Value.Fits.delivers`: what the text of a value does to a reader.
* `Document.read_indented`: a document reads back as what was written.
* `Store.readable_of_fits`: a snapshot of plain summaries reads back.
-/

namespace ScoreGate

/-! ### Values that come back -/

/-- No moment, no name twice in a table, and at most so many lists and tables one within another. -/
inductive Value.Fits : ℕ → Value → Prop where
  | null {depth : ℕ} : Fits depth .null
  | number {depth : ℕ} {n : Number} : Fits depth (.number n)
  | text {depth : ℕ} {s : String} : Fits depth (.text s)
  | list {depth : ℕ} {vs : List Value} (items : ∀ v ∈ vs, Fits depth v) : Fits (depth + 1) (.list vs)
  | table {depth : ℕ} {es : List (String × Value)} (names : (es.map Prod.fst).Nodup) (entries : ∀ e ∈ es, Fits depth e.2) :
      Fits (depth + 1) (.table es)

namespace Value

theorem isWritable_of_mem : ∀ {vs : List Value}, areWritable vs = true → ∀ v ∈ vs, v.isWritable = true
  | [], _ => List.forall_mem_nil _
  | v :: vs, h => by
    rw [areWritable, Bool.and_eq_true] at h
    exact List.forall_mem_cons.mpr ⟨h.1, isWritable_of_mem h.2⟩

theorem isWritable_of_mem_entries : ∀ {es : List (String × Value)}, entriesWritable es = true →
    ∀ e ∈ es, e.2.isWritable = true
  | [], _ => List.forall_mem_nil _
  | (k, v) :: es, h => by
    rw [entriesWritable, Bool.and_eq_true] at h
    exact List.forall_mem_cons.mpr ⟨h.1, isWritable_of_mem_entries h.2⟩

/-- A name that is not there yet goes to the end. -/
theorem setEntry_of_not_mem {key : String} {v : Value} : ∀ {es : List (String × Value)}, key ∉ es.map Prod.fst →
    setEntry key v es = es ++ [(key, v)]
  | [], _ => rfl
  | (k, w) :: es, h => by
    obtain ⟨hne, hes⟩ := List.ne_and_not_mem_of_not_mem_cons h
    rw [setEntry, if_neg (Ne.symm hne), setEntry_of_not_mem hes, List.cons_append]

end Value

/-! ### The pass over a text -/

namespace Document

variable {depth d level : ℕ} {frames : List Frame} {expected : Expected} {cs rest : List Char} {t : Token} {v : Value}

/-- The state after the tokens of a text. -/
def State.pass (depth : ℕ) (st : State) (cs : List Char) : Except Fault State :=
  (Token.all cs).foldlM (State.step depth) st

theorem State.pass_token {st st' : State} (hcs : Token.all cs = t :: Token.all rest) (hstep : st.step depth t = .ok st') :
    st.pass depth cs = st'.pass depth rest := by
  rw [pass, hcs, List.foldlM_cons, hstep]
  rfl

theorem State.pass_gap (st : State) (level : ℕ) :
    st.pass depth (Layout.indented.gap level ++ rest) = st.pass depth rest := by
  have hspaces : ∀ c ∈ Layout.indented.gap level, Token.isSpace c = true := by
    refine List.forall_mem_cons.mpr ⟨by decide, fun c hc => ?_⟩
    rw [List.eq_of_mem_replicate hc]
    decide
  rw [pass, pass, Token.all_spaces hspaces]

/-- Where a value may stand. -/
def Opens (expected : Expected) : Prop := expected = .value ∨ expected = .firstItem

theorem step_begin (hexpected : Opens expected) (ht : t ≠ .closeList) :
    State.step depth ⟨frames, expected⟩ t = State.begin depth frames t := by
  rcases hexpected with rfl | rfl
  · rfl
  · cases t <;> first | rfl | exact absurd rfl ht

theorem step_enter {frame : Frame} {next : Expected} (hdepth : frames.length < depth) :
    State.enter depth frame next frames = .ok ⟨frame :: frames, next⟩ :=
  if_neg (not_le.mpr hdepth)

/-- After the text of a value the reader is where it would be had the value been handed to it. -/
def Delivers (depth d : ℕ) (v : Value) : Prop :=
  ∀ (level : ℕ) (frames : List Frame) (expected : Expected) (rest : List Char), Opens expected → frames.length + d ≤ depth →
    Stops isFigure rest →
    State.pass depth ⟨frames, expected⟩ (write .indented level v ++ rest) = State.pass depth (State.deliver v frames) rest

/-- The mark after a value: a comma or the end of a line. -/
theorem stops_comma (rest : List Char) : Stops isFigure (',' :: rest) := by
  rintro c hc
  obtain rfl : ',' = c := by simpa using hc
  decide

theorem stops_gap (level : ℕ) (rest : List Char) : Stops isFigure (Layout.indented.gap level ++ rest) := by
  rintro c hc
  obtain rfl : '\n' = c := by simpa [Layout.indented] using hc
  decide

theorem stops_items (level : ℕ) (vs : List Value) (rest : List Char) :
    Stops isFigure (writeItems .indented (level + 1) vs ++ (Layout.indented.gap level ++ rest)) := by
  rcases vs with _ | ⟨v, vs⟩
  · exact stops_gap level rest
  · exact stops_comma _

theorem stops_entries (level : ℕ) (es : List (String × Value)) (rest : List Char) :
    Stops isFigure (writeEntries .indented (level + 1) es ++ (Layout.indented.gap level ++ rest)) := by
  rcases es with _ | ⟨e, es⟩
  · exact stops_gap level rest
  · exact stops_comma _

theorem pass_punctuation {c : Char} {st : State} (st' : State) (hspace : Token.isSpace c = false)
    (htake : Token.take c rest = (t, rest)) (hstep : st.step depth t = .ok st') :
    st.pass depth (c :: rest) = st'.pass depth rest :=
  State.pass_token (Token.all_of_take hspace htake) hstep

/-- The items after the first and the closing bracket. -/
theorem pass_items (hdepth : frames.length + (d + 1) ≤ depth) : ∀ {vs : List Value}, (∀ v ∈ vs, Delivers depth d v) →
    ∀ items : List Value, State.pass depth ⟨.list items :: frames, .separator⟩
      (writeItems .indented (level + 1) vs ++ (Layout.indented.gap level ++ ']' :: rest)) =
      State.pass depth (State.deliver (.list (items.reverse ++ vs)) frames) rest
  | [], _, items => by
    rw [writeItems, List.nil_append, State.pass_gap, List.append_nil]
    exact pass_punctuation _ (by decide) rfl rfl
  | v :: vs, h, items => by
    obtain ⟨hv, hvs⟩ := List.forall_mem_cons.mp h
    rw [writeItems, List.append_assoc, List.append_assoc, List.cons_append]
    refine (pass_punctuation ⟨.list items :: frames, .value⟩ (by decide) rfl rfl).trans ?_
    rw [State.pass_gap, hv _ _ _ _ (Or.inl rfl) (by rw [List.length_cons]; omega) (stops_items _ _ _)]
    refine (pass_items hdepth hvs (v :: items)).trans ?_
    rw [List.reverse_cons, List.append_assoc, List.singleton_append]

theorem pass_entry {key : String} {entries : List (String × Value)} {old : String} (hv : Delivers depth d v)
    (hexpected : expected = .key ∨ expected = .firstKey) (hdepth : frames.length + (d + 1) ≤ depth)
    (hkey : key ∉ entries.map Prod.fst) (hrest : Stops isFigure rest) :
    State.pass depth ⟨.table entries old :: frames, expected⟩
      (writeText key ++ (Layout.indented.colon ++ (write .indented level v ++ rest))) =
      State.pass depth ⟨.table (entries ++ [(key, v)]) key :: frames, .separator⟩ rest := by
  have hname : State.step depth ⟨.table entries old :: frames, expected⟩ (.atom (.text key)) =
      .ok ⟨.table entries key :: frames, .colon⟩ := by rcases hexpected with rfl | rfl <;> rfl
  have hspace : Token.all ([' '] ++ (write .indented level v ++ rest)) = Token.all (write .indented level v ++ rest) :=
    Token.all_spaces (List.all_eq_true.mp (by decide))
  rw [State.pass_token (Token.all_writeText _ _) hname]
  refine (pass_punctuation ⟨.table entries key :: frames, .value⟩ (by decide) rfl rfl).trans ?_
  refine (congrArg (List.foldlM _ _) hspace).trans ?_
  rw [← State.pass, hv _ _ _ _ (Or.inl rfl) (by rw [List.length_cons]; omega) hrest, State.deliver,
    Value.setEntry_of_not_mem hkey]

/-- The entries after the first and the closing brace. -/
theorem pass_entries (hdepth : frames.length + (d + 1) ≤ depth) : ∀ {es : List (String × Value)},
    (∀ e ∈ es, Delivers depth d e.2) → ∀ (entries : List (String × Value)) (key : String),
    ((entries ++ es).map Prod.fst).Nodup → State.pass depth ⟨.table entries key :: frames, .separator⟩
      (writeEntries .indented (level + 1) es ++ (Layout.indented.gap level ++ '\x7d' :: rest)) =
      State.pass depth (State.deliver (.table (entries ++ es)) frames) rest
  | [], _, entries, key, _ => by
    rw [writeEntries, List.nil_append, State.pass_gap, List.append_nil]
    exact pass_punctuation _ (by decide) rfl rfl
  | (k, v) :: es, h, entries, key, hnames => by
    obtain ⟨hv, hes⟩ := List.forall_mem_cons.mp h
    have hkey : k ∉ entries.map Prod.fst := by
      rw [List.map_append, List.nodup_append] at hnames
      exact fun hmem => hnames.2.2 k hmem k (by simp) rfl
    rw [List.append_cons] at hnames
    rw [writeEntries]
    simp only [List.append_assoc, List.cons_append]
    refine (pass_punctuation ⟨.table entries key :: frames, .key⟩ (by decide) rfl rfl).trans ?_
    rw [State.pass_gap, pass_entry hv (Or.inl rfl) hdepth hkey (stops_entries _ _ _), pass_entries hdepth hes _ _ hnames,
      ← List.append_cons]

theorem delivers_of_token (h : ∀ (level : ℕ) (rest : List Char), Stops isFigure rest →
    Token.all (write .indented level v ++ rest) = .atom v :: Token.all rest) : Delivers depth d v :=
  fun level _ _ rest hexpected _ hrest => State.pass_token (h level rest hrest) (step_begin hexpected (by simp))

theorem delivers_list {vs : List Value} (h : ∀ v ∈ vs, Delivers depth d v) : Delivers depth (d + 1) (.list vs) := by
  intro level frames expected rest hexpected hdepth _
  have hopen : State.step depth ⟨frames, expected⟩ .openList = .ok ⟨.list [] :: frames, .firstItem⟩ := by
    rw [step_begin hexpected (by simp)]
    exact step_enter (by omega)
  rcases vs with _ | ⟨v, vs⟩
  · rw [write]
    refine (pass_punctuation _ (by decide) rfl hopen).trans ?_
    exact pass_punctuation _ (by decide) rfl rfl
  · obtain ⟨hv, hvs⟩ := List.forall_mem_cons.mp h
    rw [write]
    simp only [List.append_assoc, List.cons_append, List.nil_append]
    refine (pass_punctuation _ (by decide) rfl hopen).trans ?_
    rw [State.pass_gap, hv _ _ _ _ (Or.inr rfl) (by rw [List.length_cons]; omega) (stops_items _ _ _)]
    exact pass_items hdepth hvs [v]

theorem delivers_table {es : List (String × Value)} (hnames : (es.map Prod.fst).Nodup) (h : ∀ e ∈ es, Delivers depth d e.2) :
    Delivers depth (d + 1) (.table es) := by
  intro level frames expected rest hexpected hdepth _
  have hopen : State.step depth ⟨frames, expected⟩ .openTable = .ok ⟨.table [] "" :: frames, .firstKey⟩ := by
    rw [step_begin hexpected (by simp)]
    exact step_enter (by omega)
  rcases es with _ | ⟨⟨k, v⟩, es⟩
  · rw [write]
    refine (pass_punctuation _ (by decide) rfl hopen).trans ?_
    exact pass_punctuation _ (by decide) rfl rfl
  · obtain ⟨hv, hes⟩ := List.forall_mem_cons.mp h
    rw [write]
    simp only [List.append_assoc, List.cons_append, List.nil_append]
    refine (pass_punctuation _ (by decide) rfl hopen).trans ?_
    rw [State.pass_gap, pass_entry hv (Or.inr rfl) hdepth List.not_mem_nil (stops_entries _ _ _)]
    exact pass_entries hdepth hes _ _ hnames

end Document

theorem Value.Fits.delivers {depth d : ℕ} {v : Value} (h : v.Fits d) (hwritable : v.isWritable = true) :
    Document.Delivers depth d v := by
  induction h with
  | null => exact Document.delivers_of_token fun _ _ _ => Token.all_words ("null", .null) (by simp [Token.words])
  | number => exact Document.delivers_of_token fun _ _ hrest => Token.all_writeNumber hwritable hrest
  | text => exact Document.delivers_of_token fun _ rest _ => Token.all_writeText _ rest
  | list _ ih => exact Document.delivers_list fun v hv => ih v hv (isWritable_of_mem hwritable v hv)
  | table hnames _ ih =>
    exact Document.delivers_table hnames fun e he => ih e he (isWritable_of_mem_entries hwritable e he)

theorem Document.read_indented {depth d : ℕ} {v : Value} (h : v.Fits d) (hwritable : v.isWritable = true) (hd : d ≤ depth) :
    read depth (indented v) = .ok v := by
  have hpass := h.delivers hwritable 0 [] .value [] (Or.inl rfl) (by simpa using hd) fun c hc => by cases hc
  rw [List.append_nil] at hpass
  rw [read, indented, String.toList_ofList, ofTokens, ← State.pass, hpass, State.pass, Token.all]
  rfl

/-! ### Snapshots -/

theorem FileAnalysis.fits_summary (a : FileAnalysis) : a.summary.toValue.Fits 2 := by
  refine .table (by simp) ?_
  simp only [List.forall_mem_cons]
  refine ⟨.text, .number, .number, .number, .number, .number, .text, .table (by simp) ?_, List.forall_mem_nil _⟩
  simp only [List.forall_mem_cons]
  exact ⟨.number, .number, .number, List.forall_mem_nil _⟩

theorem Metrics.fits (m : Metrics) : m.toValue.Fits 3 := by
  refine .table (by simp) ?_
  simp only [List.forall_mem_cons]
  exact ⟨.number, .number, .number, .number, .number, .number, .number, .number, .number, List.forall_mem_nil _⟩

namespace Store

variable {s : Store} {v w : Workspace} {x : Snapshot} {as : List FileAnalysis} {branch commit : String}

theorem fits_runtime : runtime.toValue.Fits 3 := by
  refine .table (by simp) ?_
  simp only [List.forall_mem_cons]
  exact ⟨.text, .text, .text, List.forall_mem_nil _⟩

/-- What a scan records is nested four deep, if what it ran in is nested no deeper. -/
theorem fits_of_analyses (hfiles : x.files = as.map FileAnalysis.summary) (henvironment : x.environment.toValue.Fits 3) :
    x.toValue.Fits 4 := by
  have hitems : Value.Fits 3 (.list (x.files.map FileSummary.toValue)) := by
    refine .list fun v hv => ?_
    rw [hfiles, List.map_map] at hv
    obtain ⟨a, -, rfl⟩ := List.mem_map.mp hv
    exact a.fits_summary
  refine .table (by simp) ?_
  simp only [List.forall_mem_cons]
  exact ⟨.text, .number, .text, .text, x.metrics.fits, hitems, henvironment, List.forall_mem_nil _⟩

/-- A snapshot of a scan reads back. -/
theorem readable_created {depth : ℕ} (h : (s.create (as.map FileAnalysis.summary) branch commit none).exec w = (.ok x, v))
    (hdepth : 4 ≤ depth) : Readable depth x := by
  obtain ⟨hfiles, -, henvironment, -, hwritable⟩ := create_eq_ok h
  exact Document.read_indented (fits_of_analyses hfiles (henvironment ▸ fits_runtime)) hwritable hdepth

end Store

end ScoreGate
