import Linklint.Mirrors.SnapshotHistory

/-!
# Damaged feeds

Which lines of a body the two feed parsers pass over. A line that cannot be read
is skipped, so a single recognizable line is enough for a body to be accepted.
-/

namespace Linklint

open Interaction

/-- The text format of a feed: the lines that lead it, those of them that sign it, and its rows. -/
structure CsvFormat (Record : Type) where
  leads : Text → Bool
  signs : Text → Bool
  columns : Nat
  record : List Text → Option Record

namespace CsvFormat

section
variable {Record : Type} (format : CsvFormat Record)

/-- A well-formed row of all the columns, and the record it contributes. -/
def Row (line : Text) (record : Record) : Prop :=
  format.leads line = false ∧ ∃ fields, parseCsvRow line = some fields ∧
    format.columns ≤ fields.length ∧ format.record fields = some record

/-- A line that makes its body a file of the feed. -/
def Recognized (line : Text) : Prop :=
  (format.leads line = true ∧ format.signs line = true) ∨ ∃ record, format.Row line record

/-- A line that neither leads the file nor is a row of it. -/
def Unreadable (line : Text) : Prop :=
  format.leads line = false ∧ ∀ record, ¬ format.Row line record

def readLine (line : Text) : Bool × Option Record :=
  if format.leads line then (format.signs line, none)
  else
    match parseCsvRow line with
    | none => (false, none)
    | some fields =>
        if fields.length < format.columns then (false, none)
        else
          match format.record fields with
          | none => (false, none)
          | some record => (true, some record)

def parse (body : Text) : Option (List Record) :=
  if body.trim = [] then none
  else
    let lines := (splitCsvLines body).map format.readLine
    if lines.any Prod.fst then some (lines.filterMap Prod.snd) else none

/-- The lines of a body that should be rows. -/
def rowLines (body : Text) : List Text := (splitCsvLines body).filter fun line => !format.leads line

/-- A well-formed export of several rows, led by a line that signs it. -/
def Export (exported : Text) : Prop :=
  ∃ lead rows, splitCsvLines exported = lead ++ rows ∧
    (∀ line ∈ lead, format.leads line = true) ∧ (∃ line ∈ lead, format.signs line = true) ∧
    (∀ line ∈ rows, ∃ record, format.Row line record) ∧ 2 ≤ rows.length

/-- A proper prefix of an export that ends inside one of its rows. -/
def CutInside (exported body : Text) : Prop :=
  body <+: exported ∧ ∃ before row after part, splitLines exported = before ++ row :: after ∧
    row.trim ≠ [] ∧ (∃ record, format.Row row record) ∧ splitLines body = before ++ [part] ∧
    part <+: row ∧ part ≠ [] ∧ part ≠ row

/-- What a parser that takes a damaged body for malformed does with a body. -/
structure RejectsDamage (parse : Text → Option (List Record)) (body : Text) : Prop where
  whole : ∀ records, parse body = some records →
    List.Forall₂ format.Row (format.rowLines body) records
  cut : ∀ exported, format.Export exported → format.CutInside exported body → parse body = none

/-- A body whose lines are all read or all foreign, and that is no export cut short. -/
structure Undamaged (body : Text) : Prop where
  lines : (∀ line ∈ splitCsvLines body, ¬ format.Recognized line) ∨
    ∀ line ∈ splitCsvLines body, ¬ format.Unreadable line
  complete : ∀ exported, format.Export exported → ¬ format.CutInside exported body

variable {format}

theorem readLine_of_leads {line : Text} (h : format.leads line = true) :
    format.readLine line = (format.signs line, none) := by
  simp [readLine, h]

theorem readLine_of_row {line : Text} {record : Record} (h : format.Row line record) :
    format.readLine line = (true, some record) := by
  obtain ⟨hleads, fields, hfields, hcolumns, hrecord⟩ := h
  simp [readLine, hleads, hfields, hrecord, Nat.not_lt.mpr hcolumns]

theorem readLine_of_unreadable {line : Text} (h : format.Unreadable line) :
    format.readLine line = (false, none) := by
  obtain ⟨hleads, hrow⟩ := h
  cases hfields : parseCsvRow line with
  | none => simp [readLine, hleads, hfields]
  | some fields =>
      by_cases hcolumns : fields.length < format.columns
      · simp [readLine, hleads, hfields, hcolumns]
      · cases hrecord : format.record fields with
        | none => simp [readLine, hleads, hfields, hrecord]
        | some record =>
            exact absurd ⟨hleads, fields, hfields, Nat.not_lt.mp hcolumns, hrecord⟩ (hrow record)

/-- Every line leads the file, is a row of it, or cannot be read. -/
theorem line_cases (format : CsvFormat Record) (line : Text) :
    format.leads line = true ∨ (∃ record, format.Row line record) ∨ format.Unreadable line := by
  by_cases hleads : format.leads line = true
  · exact Or.inl hleads
  · by_cases hrow : ∃ record, format.Row line record
    · exact Or.inr (Or.inl hrow)
    · exact Or.inr (Or.inr ⟨by simpa using hleads, fun record h => hrow ⟨record, h⟩⟩)

theorem readLine_fst_iff (line : Text) :
    (format.readLine line).1 = true ↔ format.Recognized line := by
  rcases format.line_cases line with hleads | ⟨record, hrow⟩ | hunreadable
  · rw [readLine_of_leads hleads]
    constructor
    · intro hsigns
      exact Or.inl ⟨hleads, hsigns⟩
    · rintro (⟨_, hsigns⟩ | ⟨record, hrow⟩)
      · exact hsigns
      · rw [hrow.1] at hleads
        cases hleads
  · rw [readLine_of_row hrow]
    exact ⟨fun _ => Or.inr ⟨record, hrow⟩, fun _ => rfl⟩
  · rw [readLine_of_unreadable hunreadable]
    constructor
    · intro h
      cases h
    · rintro (⟨hleads, _⟩ | ⟨record, hrow⟩)
      · rw [hunreadable.1] at hleads
        cases hleads
      · exact absurd hrow (hunreadable.2 record)

/-- The records of lines that can all be read are those of their rows, in order. -/
theorem forall₂_row_of_readable {lines : List Text}
    (h : ∀ line ∈ lines, ¬ format.Unreadable line) :
    List.Forall₂ format.Row (lines.filter fun line => !format.leads line)
      ((lines.map format.readLine).filterMap Prod.snd) := by
  induction lines with
  | nil => exact .nil
  | cons line lines ih =>
      have htail := ih fun l hl => h l (List.mem_cons_of_mem _ hl)
      rcases format.line_cases line with hleads | ⟨record, hrow⟩ | hunreadable
      · simpa [readLine_of_leads hleads, hleads] using htail
      · have hleads : format.leads line = false := hrow.1
        simp only [List.map_cons, readLine_of_row hrow, List.filterMap_cons, List.filter_cons, hleads]
        exact .cons hrow htail
      · exact absurd hunreadable (h line List.mem_cons_self)

theorem readable_of_forall₂_row {lines : List Text} {records : List Record}
    (h : List.Forall₂ format.Row (lines.filter fun line => !format.leads line) records) :
    ∀ line ∈ lines, ¬ format.Unreadable line := by
  intro line hline hunreadable
  have hmem : line ∈ lines.filter fun line => !format.leads line := by
    simp [hline, hunreadable.1]
  obtain ⟨i, hi, rfl⟩ := List.mem_iff_getElem.mp hmem
  have hrecords : i < records.length := h.length_eq ▸ hi
  exact hunreadable.2 records[i] (h.get hi hrecords)

end

end CsvFormat

/-! ### The lines of a body -/

theorem mem_of_mem_growLine {u v : CodeUnit} {lines : List Text} {line : Text}
    (h : line ∈ growLine u lines) (hv : v ∈ line) : v = u ∨ ∃ l ∈ lines, v ∈ l := by
  cases lines with
  | nil =>
      obtain rfl := List.mem_singleton.mp h
      exact Or.inl (List.mem_singleton.mp hv)
  | cons first lines =>
      rcases List.mem_cons.mp h with rfl | hline
      · rcases List.mem_cons.mp hv with rfl | hv
        · exact Or.inl rfl
        · exact Or.inr ⟨first, List.mem_cons_self, hv⟩
      · exact Or.inr ⟨line, List.mem_cons_of_mem _ hline, hv⟩

/-- Splitting a body writes nothing into its lines. -/
theorem mem_of_mem_splitLines {body line : Text} {u : CodeUnit} (h : line ∈ splitLines body)
    (hu : u ∈ line) : u ∈ body := by
  fun_induction splitLines body generalizing line with
  | case1 =>
      obtain rfl := List.mem_singleton.mp h
      exact hu
  | case2 v hbreak => simp_all
  | case3 v hbreak =>
      obtain rfl := List.mem_singleton.mp h
      exact hu
  | case4 v w rest hbreak ih =>
      rcases List.mem_cons.mp h with rfl | hline
      · cases hu
      · have hrest := ih hline hu
        simp [hrest]
  | case5 v w rest hpair hbreak ih =>
      rcases List.mem_cons.mp h with rfl | hline
      · cases hu
      · exact List.mem_cons_of_mem _ (ih hline hu)
  | case6 v w rest hpair hbreak ih =>
      rcases mem_of_mem_growLine h hu with rfl | ⟨l, hl, hul⟩
      · exact List.mem_cons_self
      · exact List.mem_cons_of_mem _ (ih hl hul)

theorem trim_eq_nil_iff (s : Text) : s.trim = [] ↔ ∀ u ∈ s, isSpace u = true := by
  have htail : s.trim = [] ↔ ∀ u ∈ s.dropWhile isSpace, isSpace u = true := by
    simp [Text.trim, List.dropWhile_eq_nil_iff]
  rw [htail]
  constructor
  · intro h u hu
    rw [← List.takeWhile_append_dropWhile (p := isSpace) (l := s)] at hu
    rcases List.mem_append.mp hu with hspace | hrest
    · exact List.mem_takeWhile_imp hspace
    · exact h u hrest
  · intro h u hu
    exact h u ((List.dropWhile_suffix isSpace).subset hu)

/-- A body with a line that is not blank is not blank. -/
theorem trim_ne_nil_of_mem_lines {body line : Text} (h : line ∈ splitCsvLines body) :
    body.trim ≠ [] := by
  obtain ⟨hline, hblank⟩ := List.mem_filter.mp h
  intro hbody
  have hspaces := (trim_eq_nil_iff body).mp hbody
  have hempty : line.trim = [] :=
    (trim_eq_nil_iff line).mpr fun u hu => hspaces u (mem_of_mem_splitLines hline hu)
  simp [hempty] at hblank

namespace CsvFormat

section
variable {Record : Type} {format : CsvFormat Record}

/-- A body is refused exactly when none of its lines is recognizable. -/
theorem parse_eq_none_iff (body : Text) :
    format.parse body = none ↔ ∀ line ∈ splitCsvLines body, ¬ format.Recognized line := by
  have hany : ((splitCsvLines body).map format.readLine).any Prod.fst = true ↔
      ∃ line ∈ splitCsvLines body, format.Recognized line := by
    simp [List.any_eq_true, readLine_fst_iff]
  constructor
  · intro h line hline hrecognized
    have hbody := trim_ne_nil_of_mem_lines hline
    have hsigned := hany.mpr ⟨line, hline, hrecognized⟩
    rw [parse, if_neg hbody, if_pos hsigned] at h
    cases h
  · intro h
    by_cases hbody : body.trim = []
    · simp [parse, hbody]
    · have hunsigned : ¬ ((splitCsvLines body).map format.readLine).any Prod.fst = true := by
        intro hsigned
        obtain ⟨line, hline, hrecognized⟩ := hany.mp hsigned
        exact h line hline hrecognized
      rw [parse, if_neg hbody, if_neg hunsigned]

theorem parse_eq_some {body : Text} {records : List Record} (h : format.parse body = some records) :
    records = ((splitCsvLines body).map format.readLine).filterMap Prod.snd := by
  unfold parse at h
  grind

/-- An export cut inside a row keeps the line that signs it. -/
theorem CutInside.recognized {exported body : Text} (hexport : format.Export exported)
    (hcut : format.CutInside exported body) :
    ∃ line ∈ splitCsvLines body, format.Recognized line := by
  obtain ⟨lead, rows, hlines, hlead, ⟨signer, hsigner, hsigns⟩, hrows, -⟩ := hexport
  obtain ⟨-, before, row, after, part, hsplit, hblank, ⟨record, hrow⟩, hbody, -⟩ := hcut
  have hcsv : before.filter (fun line => line.trim != []) ++
      row :: after.filter (fun line => line.trim != []) = lead ++ rows := by
    rw [← hlines, splitCsvLines, hsplit, List.filter_append, List.filter_cons_of_pos (by simpa using hblank)]
  -- the row leads nothing, so every leading line stands before it
  have hbefore : signer ∈ before.filter fun line => line.trim != [] := by
    rcases List.append_eq_append_iff.mp hcsv with ⟨middle, rfl, hmiddle⟩ | ⟨middle, hmiddle, -⟩
    · cases middle with
      | nil => simpa using hsigner
      | cons first middle =>
          obtain ⟨rfl, -⟩ := List.cons.inj hmiddle
          have hleads := hlead row (by simp)
          rw [hrow.1] at hleads
          cases hleads
    · rw [hmiddle]
      exact List.mem_append_left _ hsigner
  refine ⟨signer, ?_, Or.inl ⟨hlead signer hsigner, hsigns⟩⟩
  rw [splitCsvLines, hbody, List.filter_append]
  exact List.mem_append_left _ hbefore

/-- A body is damaged exactly when some line is passed over in silence, or its end is lost. -/
theorem rejectsDamage_iff {parse : Text → Option (List Record)}
    (hparse : ∀ body, parse body = format.parse body) (body : Text) :
    format.RejectsDamage parse body ↔ format.Undamaged body := by
  constructor
  · intro h
    refine ⟨?_, fun exported hexport hcut => ?_⟩
    · cases hrecords : parse body with
      | none => exact Or.inl ((parse_eq_none_iff body).mp (hparse body ▸ hrecords))
      | some records => exact Or.inr (readable_of_forall₂_row (h.whole records hrecords))
    · have hnone := h.cut exported hexport hcut
      obtain ⟨line, hline, hrecognized⟩ := hcut.recognized hexport
      rw [hparse body, parse_eq_none_iff] at hnone
      exact hnone line hline hrecognized
  · intro h
    refine ⟨fun records hrecords => ?_, fun exported hexport hcut => ?_⟩
    · rw [hparse body] at hrecords
      rcases h.lines with hforeign | hreadable
      · rw [(parse_eq_none_iff body).mpr hforeign] at hrecords
        cases hrecords
      · rw [parse_eq_some hrecords]
        exact forall₂_row_of_readable hreadable
    · exact absurd hcut (h.complete exported hexport)

end

end CsvFormat

section
variable (P : Platform) (dates : DateApi)

/-- The header row signs the file. -/
def phishTankFormat : CsvFormat PhishTankRecord where
  leads line :=
    match parseCsvRow line with
    | none => false
    | some fields => decide (PHISHTANK_COLUMN_COUNT ≤ fields.length) && PhishTank.isHeaderRow P fields
  signs _ := true
  columns := PHISHTANK_COLUMN_COUNT
  record := PhishTank.toRecord P dates

/-- Comments lead the file, and one that names the feed signs it. -/
def urlhausFormat : CsvFormat UrlhausRecord where
  leads line := line.head? == some (unit '#')
  signs := Urlhaus.signsUrlhaus
  columns := URLHAUS_COLUMN_COUNT
  record := Urlhaus.toRecord P dates

variable {P dates}

theorem phishTank_readLine (line : Text) :
    PhishTank.readLine P dates line = (phishTankFormat P dates).readLine line := by
  cases hfields : parseCsvRow line with
  | none => simp [PhishTank.readLine, CsvFormat.readLine, phishTankFormat, hfields]
  | some fields =>
      by_cases hcolumns : fields.length < PHISHTANK_COLUMN_COUNT
      · simp [PhishTank.readLine, CsvFormat.readLine, phishTankFormat, hfields, hcolumns]
      · cases hheader : PhishTank.isHeaderRow P fields with
        | true =>
            simp [PhishTank.readLine, CsvFormat.readLine, phishTankFormat, hfields, hcolumns, hheader,
              Nat.not_lt.mp hcolumns]
        | false =>
            cases hrecord : PhishTank.toRecord P dates fields <;>
              simp [PhishTank.readLine, CsvFormat.readLine, phishTankFormat, hfields, hcolumns,
                hheader, hrecord]

theorem phishTank_parse (body : Text) :
    PhishTank.parsePhishTankCsv P dates body = (phishTankFormat P dates).parse body := by
  have hread : PhishTank.readLine P dates = (phishTankFormat P dates).readLine :=
    funext phishTank_readLine
  rw [PhishTank.parsePhishTankCsv, CsvFormat.parse, hread]

theorem urlhaus_readLine (line : Text) :
    Urlhaus.readLine P dates line = (urlhausFormat P dates).readLine line := by
  cases hcomment : line.head? == some (unit '#') with
  | true => simp_all [Urlhaus.readLine, CsvFormat.readLine, urlhausFormat]
  | false =>
      cases hfields : parseCsvRow line with
      | none => simp_all [Urlhaus.readLine, CsvFormat.readLine, urlhausFormat]
      | some fields =>
          cases hrecord : Urlhaus.toRecord P dates fields <;>
            simp_all [Urlhaus.readLine, CsvFormat.readLine, urlhausFormat]

theorem urlhaus_parse (body : Text) :
    Urlhaus.parseUrlhausCsv P dates body = (urlhausFormat P dates).parse body := by
  have hread : Urlhaus.readLine P dates = (urlhausFormat P dates).readLine :=
    funext urlhaus_readLine
  rw [Urlhaus.parseUrlhausCsv, CsvFormat.parse, hread]

end

theorem feeds_rejectDamage_iff (P : Platform) (dates : DateApi) (body : Text) :
    ((phishTankFormat P dates).RejectsDamage (PhishTank.parsePhishTankCsv P dates) body ↔
      (phishTankFormat P dates).Undamaged body) ∧
    ((urlhausFormat P dates).RejectsDamage (Urlhaus.parseUrlhausCsv P dates) body ↔
      (urlhausFormat P dates).Undamaged body) :=
  ⟨CsvFormat.rejectsDamage_iff phishTank_parse body, CsvFormat.rejectsDamage_iff urlhaus_parse body⟩

def damagedPhishTank : Text :=
  text "phish_id,url,phish_detail_url,submission_time,verified,verification_time,online,target\n1,http://a/,,,yes,,yes,\n2,ht"

def damagedUrlhaus : Text :=
  text "# URLhaus\n\"1\",\"\",\"http://a/\",\"online\",\"\",\"\",\"\",\"\",\"\"\n\"2\",\"\",\"htt"

theorem not_rejectsDamage_of_lost {Record : Type} {format : CsvFormat Record}
    {parse : Text → Option (List Record)} {body : Text} {n : Nat}
    (hread : (parse body).map List.length = some n) (hlost : n < (format.rowLines body).length) :
    ¬ format.RejectsDamage parse body := by
  intro h
  obtain ⟨records, hrecords, hlength⟩ := Option.map_eq_some_iff.mp hread
  have hequal := (h.whole records hrecords).length_eq
  omega

/-- A row cut in its second or third column goes unnoticed. -/
theorem damaged_feeds_accepted :
    (¬ ∀ (P : Platform) (dates : DateApi) (body : Text),
      (phishTankFormat P dates).RejectsDamage (PhishTank.parsePhishTankCsv P dates) body) ∧
    ¬ ∀ (P : Platform) (dates : DateApi) (body : Text),
      (urlhausFormat P dates).RejectsDamage (Urlhaus.parseUrlhausCsv P dates) body := by
  constructor
  · intro h
    exact not_rejectsDamage_of_lost (n := 1) (by decide +kernel) (by decide +kernel)
      (h Platform.ascii DateApi.epochSecond damagedPhishTank)
  · intro h
    exact not_rejectsDamage_of_lost (n := 1) (by decide +kernel) (by decide +kernel)
      (h Platform.ascii DateApi.epochSecond damagedUrlhaus)

/-! ### The snapshots an update writes -/

section
variable (P : Platform) (dates : DateApi) (api : UrlApi) (parseJson : Text → Option Value)

/-- A written snapshot of a CSV feed has a record for each row of an undamaged body. -/
def WholeStep : UpdateCall → Prop
  | .urlhaus _ trace _ => ∀ snapshot ∈ writesOf trace, ∃ request response,
      ⟨.request request, some (.ok response)⟩ ∈ trace ∧
        ((urlhausFormat P dates).Undamaged response.body →
          List.Forall₂ (urlhausFormat P dates).Row ((urlhausFormat P dates).rowLines response.body)
            snapshot.records)
  | .phishtank _ trace _ => ∀ snapshot ∈ writesOf trace, ∃ request response,
      ⟨.request request, some (.ok response)⟩ ∈ trace ∧
        ((phishTankFormat P dates).Undamaged response.body →
          List.Forall₂ (phishTankFormat P dates).Row
            ((phishTankFormat P dates).rowLines response.body) snapshot.records)
  | .rdap _ _ _ => True

variable {P dates api parseJson}

theorem wholeStep {stores stores' : Stores} {call : UpdateCall}
    (step : CallStep P dates api parseJson stores call stores') : WholeStep P dates call := by
  have hatomic := atomicStep step
  cases call with
  | urlhaus options trace result =>
      intro snapshot hsnapshot
      obtain ⟨now, request, response, -, hrequest, -, -, hparse, -⟩ :=
        hatomic.2.2.written snapshot hsnapshot
      refine ⟨request, response, hrequest, fun hundamaged => ?_⟩
      exact ((CsvFormat.rejectsDamage_iff urlhaus_parse _).mpr hundamaged).whole _ hparse
  | phishtank options trace result =>
      intro snapshot hsnapshot
      obtain ⟨now, request, response, -, hrequest, -, -, hparse, -⟩ :=
        hatomic.2.2.written snapshot hsnapshot
      refine ⟨request, response, hrequest, fun hundamaged => ?_⟩
      exact ((CsvFormat.rejectsDamage_iff phishTank_parse _).mpr hundamaged).whole _ hparse
  | rdap options trace result => trivial

end

end Linklint
