import Linklint.Mirrors.DamagedFeeds
import Linklint.Parse.StrictQuads

/-!
# Rendered rows are read back

Every field is quoted, so a separator, a quote or a comment sign inside it is
read as text. A row of no fields is a blank line, which is dropped.
-/

namespace Linklint

/-! ### Rendering -/

/-- A field between quotes, with the quotes inside it doubled. -/
def quoteField (field : Text) : Text :=
  unit '"' :: field.flatMap (fun u => if u = unit '"' then [u, u] else [u]) ++ [unit '"']

def renderRow (row : List Text) : Text := Text.join [unit ','] (row.map quoteField)

inductive LineBreak where
  | crlf | cr | lf

def LineBreak.text : LineBreak → Text
  | .crlf => [13, 10]
  | .cr => [13]
  | .lf => [10]

/-- The lines one after the other, with any line breaks between them. -/
inductive Joined : List Text → Text → Prop where
  | nil : Joined [] []
  | last (line : Text) : Joined [line] line
  | cons (line : Text) (between : LineBreak) {next : Text} {lines : List Text} {body : Text}
      (rest : Joined (next :: lines) body) :
      Joined (line :: next :: lines) (line ++ (between.text ++ body))

def Unbroken (s : Text) : Prop := ∀ u ∈ s, isLineBreak u = false

instance (s : Text) : Decidable (Unbroken s) :=
  decidable_of_iff (s.all (!isLineBreak ·) = true) (by simp [Unbroken])

/-- An export of the rows, led by comments. -/
structure RenderedExport (lead : List Text) (rows : List (List Text)) (body : Text) : Prop where
  comments : ∀ line ∈ lead, line.head? = some (unit '#') ∧ Unbroken line
  fields : ∀ row ∈ rows, ∀ field ∈ row, Unbroken field
  joined : Joined (lead ++ rows.map renderRow) body

/-! ### One row -/

section
variable {fields : List Text} {field : Text} {u : CodeUnit} {rest : Text}

theorem readRow_open : readRow { fields, field, inQuotes := false } (unit '"' :: rest) =
    readRow { fields, field, inQuotes := true } rest := by
  rw [readRow.eq_def]
  simp

theorem readRow_comma : readRow { fields, field, inQuotes := false } (unit ',' :: rest) =
    readRow { fields := fields ++ [field], field := [], inQuotes := false } rest := by
  have hcomma : unit ',' ≠ unit '"' := by decide
  rw [readRow.eq_def]
  simp [hcomma]

theorem readRow_inside (hu : u ≠ unit '"') :
    readRow { fields, field, inQuotes := true } (u :: rest) =
      readRow { fields, field := field ++ [u], inQuotes := true } rest := by
  rw [readRow.eq_def]
  simp [hu]

theorem readRow_doubled :
    readRow { fields, field, inQuotes := true } (unit '"' :: unit '"' :: rest) =
      readRow { fields, field := field ++ [unit '"'], inQuotes := true } rest := by
  rw [readRow]
  simp

/-- A quote that no other quote follows ends the quotes. -/
theorem readRow_close (hrest : rest.head? ≠ some (unit '"')) :
    readRow { fields, field, inQuotes := true } (unit '"' :: rest) =
      readRow { fields, field, inQuotes := false } rest := by
  rw [readRow.eq_def]
  cases rest with
  | nil => simp
  | cons d rest =>
      have hd : d ≠ unit '"' := fun heq => hrest (by rw [heq]; rfl)
      simp [hd]

end

/-- The reader inside quotes takes a field up to the quote that ends it. -/
theorem readRow_quoted (fields : List Text) (done field rest : Text)
    (hrest : rest.head? ≠ some (unit '"')) :
    readRow { fields, field := done, inQuotes := true }
      (field.flatMap (fun u => if u = unit '"' then [u, u] else [u]) ++ unit '"' :: rest) =
    readRow { fields, field := done ++ field, inQuotes := false } rest := by
  induction field generalizing done with
  | nil => simpa using readRow_close hrest
  | cons u field ih =>
      have hih := ih (done ++ [u])
      rw [List.append_assoc, List.singleton_append] at hih
      by_cases hu : u = unit '"'
      · rw [List.flatMap_cons, if_pos hu, List.append_assoc, ← hih, hu]
        exact readRow_doubled
      · rw [List.flatMap_cons, if_neg hu, List.append_assoc, ← hih]
        exact readRow_inside hu

theorem readRow_quoteField (fields : List Text) (field rest : Text)
    (hrest : rest.head? ≠ some (unit '"')) :
    readRow { fields, field := [], inQuotes := false } (quoteField field ++ rest) =
      readRow { fields, field, inQuotes := false } rest := by
  have hquoted := readRow_quoted fields [] field rest hrest
  rw [List.nil_append] at hquoted
  rw [← hquoted, quoteField, List.append_assoc, List.cons_append]
  exact readRow_open

theorem renderRow_cons {field : Text} {row : List Text} (h : row ≠ []) :
    renderRow (field :: row) = quoteField field ++ unit ',' :: renderRow row := by
  rw [renderRow, renderRow, Text.join, Text.join, List.map_cons,
    List.intercalate_cons_of_ne_nil (by simpa using h), List.append_assoc, List.singleton_append]

theorem readRow_renderRow (fields : List Text) (field : Text) (row : List Text) :
    readRow { fields, field := [], inQuotes := false } (renderRow (field :: row)) =
      some (fields ++ field :: row) := by
  induction row generalizing fields field with
  | nil =>
      have hlast := readRow_quoteField fields field [] (by simp)
      rw [List.append_nil] at hlast
      simpa [renderRow, Text.join, readRow] using hlast
  | cons next row ih =>
      have hcomma : unit ',' ≠ unit '"' := by decide
      have hnext := ih (fields ++ [field]) next
      rw [List.append_assoc, List.singleton_append] at hnext
      rw [renderRow_cons (List.cons_ne_nil next row), readRow_quoteField _ _ _ (by simpa using hcomma),
        readRow_comma, hnext]

/-- A rendered row is read back. -/
theorem parseCsvRow_renderRow {row : List Text} (h : row ≠ []) :
    parseCsvRow (renderRow row) = some row := by
  obtain ⟨field, row, rfl⟩ := List.exists_cons_of_ne_nil h
  exact readRow_renderRow [] field row

/-- A row that ends inside quotes has an odd number of them, counting the one it began inside. -/
theorem readRow_eq_none_iff (state : RowState) (s : Text) :
    readRow state s = none ↔ (s.count (unit '"') + state.inQuotes.toNat) % 2 = 1 := by
  fun_induction readRow state s with
  | case1 state h => simp [h]
  | case2 state h => simp [h]
  | case3 state h ih => simp_all
  | case4 state h rest ih =>
      simp only [ih, List.count_cons_self]
      omega
  | case5 state h d rest hd ih =>
      simp only [ih, List.count_cons_self, h, Bool.toNat_true, Bool.toNat_false]
      omega
  | case6 state c rest h hc ih =>
      rw [ih, List.count_cons_of_ne hc]
  | case7 state rest h ih =>
      rw [ih, List.count_cons_self, Bool.not_eq_true] at *
      simp [h]
  | case8 state rest h hc ih => rw [ih, List.count_cons_of_ne hc]
  | case9 state c rest h hc hcomma ih => rw [ih, List.count_cons_of_ne hc]

/-! ### The lines -/

theorem splitLines_unit {u : CodeUnit} (h : isLineBreak u = false) (t : Text) :
    splitLines (u :: t) = growLine u (splitLines t) := by
  cases t with
  | nil => simp [splitLines, h, growLine]
  | cons v t =>
      have hcr : u ≠ 13 := by
        rintro rfl
        cases h
      simp [splitLines, h, hcr]

theorem splitLines_append {line first : Text} {more : List Text} (h : Unbroken line) {t : Text}
    (ht : splitLines t = first :: more) : splitLines (line ++ t) = (line ++ first) :: more := by
  induction line with
  | nil => exact ht
  | cons u line ih =>
      have hu := h u (List.mem_cons_self ..)
      have hline := ih fun v hv => h v (List.mem_cons_of_mem _ hv)
      rw [List.cons_append, splitLines_unit hu, hline]
      rfl

theorem splitLines_lf (t : Text) : splitLines (10 :: t) = [] :: splitLines t := by
  cases t with
  | nil => rfl
  | cons v t => rfl

theorem splitLines_cr {t : Text} (h : t.head? ≠ some 10) :
    splitLines (13 :: t) = [] :: splitLines t := by
  cases t with
  | nil => rfl
  | cons v t =>
      have hv : v ≠ 10 := fun heq => h (by rw [heq]; rfl)
      simp [splitLines, hv, isLineBreak]

/-- A break ends the line before it; a line feed after a carriage return ends no line that is kept. -/
theorem splitLines_break (between : LineBreak) (t : Text) :
    ∃ more : List Text, splitLines (between.text ++ t) = [] :: more ∧
      more.filter (fun line => line.trim != []) = splitCsvLines t := by
  cases between with
  | crlf => exact ⟨splitLines t, by simp [LineBreak.text, splitLines], rfl⟩
  | lf => exact ⟨splitLines t, splitLines_lf t, rfl⟩
  | cr =>
      by_cases hlf : t.head? = some 10
      · obtain ⟨t, rfl⟩ := List.head?_eq_some_iff.mp hlf
        refine ⟨splitLines t, by simp [LineBreak.text, splitLines], ?_⟩
        rw [splitCsvLines, splitLines_lf]
        rfl
      · exact ⟨splitLines t, splitLines_cr hlf, rfl⟩

/-- Joined lines are read back, but for the blank ones. -/
theorem splitCsvLines_joined {lines : List Text} {body : Text} (joined : Joined lines body)
    (unbroken : ∀ line ∈ lines, Unbroken line) :
    splitCsvLines body = lines.filter fun line => line.trim != [] := by
  induction joined with
  | nil => rfl
  | last line =>
      have hline := splitLines_append (unbroken line (by simp)) (show splitLines [] = [[]] from rfl)
      rw [List.append_nil] at hline
      rw [splitCsvLines, hline]
  | @cons line between next lines body rest ih =>
      obtain ⟨more, hbreak, hmore⟩ := splitLines_break between body
      have hline := splitLines_append (unbroken line (by simp)) hbreak
      have hrest := ih fun l hl => unbroken l (List.mem_cons_of_mem _ hl)
      rw [List.append_nil] at hline
      have hcons (l : List Text) : (line :: l).filter (fun line => line.trim != []) =
          [line].filter (fun line => line.trim != []) ++ l.filter fun line => line.trim != [] :=
        List.filter_append [line] l
      rw [splitCsvLines, hline, hcons, hmore, hrest, ← hcons]

theorem unbroken_renderRow {row : List Text} (h : ∀ field ∈ row, Unbroken field) :
    Unbroken (renderRow row) := by
  intro u hu
  by_cases hcomma : u = unit ','
  · rw [hcomma]
    decide
  · obtain ⟨quoted, hquoted, hu⟩ := mem_intercalate (by simpa using hcomma) hu
    obtain ⟨field, hfield, rfl⟩ := List.mem_map.mp hquoted
    by_cases hquote : u = unit '"'
    · rw [hquote]
      decide
    · apply h field hfield
      simp only [quoteField, List.mem_append, List.mem_cons, List.mem_flatMap, List.not_mem_nil,
        or_false, hquote, false_or] at hu
      obtain ⟨v, hv, huv⟩ := hu
      split at huv <;> simp_all

theorem renderRow_nonblank {row : List Text} : (renderRow row).trim ≠ [] ↔ row ≠ [] := by
  constructor
  · rintro hne rfl
    exact hne rfl
  · intro h hblank
    obtain ⟨field, row, rfl⟩ := List.exists_cons_of_ne_nil h
    have hquote : unit '"' ∈ renderRow (field :: row) := by
      by_cases hrow : row = []
      · simp [hrow, renderRow, Text.join, quoteField]
      · simp [renderRow_cons hrow, quoteField]
    exact absurd ((trim_eq_nil_iff _).mp hblank _ hquote) (by decide)

theorem comment_nonblank {line : Text} (h : line.head? = some (unit '#')) : line.trim ≠ [] := by
  intro hblank
  exact absurd ((trim_eq_nil_iff _).mp hblank _ (List.mem_of_head? h)) (by decide)

section
variable {lead : List Text} {rows : List (List Text)} {body : Text}

/-- The lines of an export: its comments and its rows that have a field. -/
theorem RenderedExport.lines (h : RenderedExport lead rows body) :
    splitCsvLines body = lead ++ (rows.filter (· ≠ [])).map renderRow := by
  have unbroken : ∀ line ∈ lead ++ rows.map renderRow, Unbroken line := by
    intro line hline
    rcases List.mem_append.mp hline with hlead | hrow
    · exact (h.comments line hlead).2
    · obtain ⟨row, hmem, rfl⟩ := List.mem_map.mp hrow
      exact unbroken_renderRow (h.fields row hmem)
  have hlead : lead.filter (fun line => line.trim != []) = lead := by
    apply List.filter_eq_self.mpr
    intro line hline
    simpa using comment_nonblank (h.comments line hline).1
  have hrows : (rows.map renderRow).filter (fun line => line.trim != []) =
      (rows.filter (· ≠ [])).map renderRow := by
    rw [List.filter_map]
    congr 1
    apply List.filter_congr
    intro row _
    by_cases hrow : row = []
    · rw [hrow]
      rfl
    · have hblank := renderRow_nonblank.mpr hrow
      simp [hrow, hblank]
  rw [splitCsvLines_joined h.joined unbroken, List.filter_append, hlead, hrows]

/-- The rows of an export are read back, but for those of no fields. -/
theorem RenderedExport.rows_read (h : RenderedExport [] rows body) :
    (splitCsvLines body).map parseCsvRow = (rows.filter (· ≠ [])).map some := by
  rw [h.lines, List.nil_append, List.map_map]
  apply List.map_congr_left
  intro row hrow
  exact parseCsvRow_renderRow (by simpa using (List.mem_filter.mp hrow).2)

/-! ### The records -/

/-- A row of all the columns whose id and URL are not blank. -/
def RecordRow (row : List Text) : Prop :=
  URLHAUS_COLUMN_COUNT ≤ row.length ∧ trimmedField row 0 ≠ [] ∧ trimmedField row 2 ≠ []

instance (row : List Text) : Decidable (RecordRow row) := by
  unfold RecordRow
  infer_instance

variable (P : Platform) (dates : DateApi)

/-- What the feed parser makes of an export: a record for each record row, in order, unless
nothing shows that the body is an export. -/
def ReadsRecords (lead : List Text) (rows : List (List Text)) (body : Text) : Prop :=
  ∃ records, List.Forall₂ (fun row record => Urlhaus.toRecord P dates row = some record)
      (rows.filter RecordRow) records ∧
    Urlhaus.parseUrlhausCsv P dates body =
      if (∃ line ∈ lead, Urlhaus.signsUrlhaus line = true) ∨ records ≠ [] then some records else none

variable {P dates}

theorem toRecord_isSome (row : List Text) : (Urlhaus.toRecord P dates row).isSome ↔
    trimmedField row 0 ≠ [] ∧ trimmedField row 2 ≠ [] := by
  by_cases hblank : trimmedField row 0 = [] ∨ trimmedField row 2 = []
  · rw [Urlhaus.toRecord, if_pos hblank, ← not_or]
    simp [hblank]
  · rw [Urlhaus.toRecord, if_neg hblank, ← not_or]
    simp [hblank]

theorem readLine_renderRow {row : List Text} (h : row ≠ []) :
    Urlhaus.readLine P dates (renderRow row) =
      if RecordRow row then (true, Urlhaus.toRecord P dates row) else (false, none) := by
  have hhead : (renderRow row).head? ≠ some (unit '#') := by
    obtain ⟨field, row, rfl⟩ := List.exists_cons_of_ne_nil h
    have hquote : unit '"' ≠ unit '#' := by decide
    by_cases hrow : row = []
    · simpa [hrow, renderRow, Text.join, quoteField] using hquote
    · simpa [renderRow_cons hrow, quoteField] using hquote
  have hsome := @toRecord_isSome P dates row
  simp only [Urlhaus.readLine, if_neg hhead, parseCsvRow_renderRow h, RecordRow, ← hsome]
  by_cases hcolumns : row.length < URLHAUS_COLUMN_COUNT
  · rw [if_pos hcolumns, if_neg (by omega)]
  · cases hrecord : Urlhaus.toRecord P dates row with
    | none => simp
    | some record => simp [Nat.not_lt.mp hcolumns]

theorem readLine_comment {line : Text} (h : line.head? = some (unit '#')) :
    Urlhaus.readLine P dates line = (Urlhaus.signsUrlhaus line, none) := by
  simp [Urlhaus.readLine, h]

theorem forall₂_filterMap {α β : Type} {f : α → Option β} {l : List α}
    (h : ∀ a ∈ l, (f a).isSome) : List.Forall₂ (fun a b => f a = some b) l (l.filterMap f) := by
  induction l with
  | nil => exact .nil
  | cons a l ih =>
      obtain ⟨b, hb⟩ := Option.isSome_iff_exists.mp (h a (List.mem_cons_self ..))
      rw [List.filterMap_cons_some hb]
      exact .cons hb (ih fun x hx => h x (List.mem_cons_of_mem _ hx))

/-- What the lines of an export are read as. -/
theorem RenderedExport.readLines (h : RenderedExport lead rows body) :
    (splitCsvLines body).map (Urlhaus.readLine P dates) =
      lead.map (fun line => (Urlhaus.signsUrlhaus line, none)) ++
        (rows.filter (· ≠ [])).map fun row =>
          if RecordRow row then (true, Urlhaus.toRecord P dates row) else (false, none) := by
  rw [h.lines, List.map_append, List.map_map]
  congr 1
  · apply List.map_congr_left
    intro line hline
    exact readLine_comment (h.comments line hline).1
  · apply List.map_congr_left
    intro row hrow
    exact readLine_renderRow (by simpa using (List.mem_filter.mp hrow).2)

theorem RecordRow.ne_nil {row : List Text} (h : RecordRow row) : row ≠ [] := by
  rintro rfl
  exact absurd h.1 (by decide)

theorem toRecord_of_recordRow {row : List Text} (h : row ∈ rows.filter RecordRow) :
    (Urlhaus.toRecord P dates row).isSome := by
  have hrecord : RecordRow row := by simpa using (List.mem_filter.mp h).2
  exact (toRecord_isSome row).mpr hrecord.2

theorem RenderedExport.records_eq (h : RenderedExport lead rows body) :
    ((splitCsvLines body).map (Urlhaus.readLine P dates)).filterMap Prod.snd =
      (rows.filter RecordRow).filterMap (Urlhaus.toRecord P dates) := by
  have hlead : lead.filterMap (Prod.snd ∘ fun line => (Urlhaus.signsUrlhaus line,
      (none : Option UrlhausRecord))) = [] := by simp
  rw [h.readLines, List.filterMap_append, List.filterMap_map, List.filterMap_map, hlead,
    List.nil_append, List.filterMap_filter, List.filterMap_filter]
  apply List.filterMap_congr
  intro row _
  by_cases hrow : RecordRow row
  · simp [hrow, hrow.ne_nil]
  · simp [hrow]

/-- A comment signs the export, or a record does. -/
theorem RenderedExport.signed_iff (h : RenderedExport lead rows body) :
    ((splitCsvLines body).map (Urlhaus.readLine P dates)).any Prod.fst = true ↔
      (∃ line ∈ lead, Urlhaus.signsUrlhaus line = true) ∨
        (rows.filter RecordRow).filterMap (Urlhaus.toRecord P dates) ≠ [] := by
  rw [h.readLines, List.any_append, Bool.or_eq_true]
  apply or_congr
  · simp
  · rw [ne_eq, List.filterMap_eq_nil_iff, List.any_eq_true]
    constructor
    · rintro ⟨_, hmem, hfst⟩ hnone
      obtain ⟨row, hrow, rfl⟩ := List.mem_map.mp hmem
      have hrecord : RecordRow row := by
        by_contra hno
        simp [hno] at hfst
      have hmem : row ∈ rows.filter RecordRow :=
        List.mem_filter.mpr ⟨(List.mem_filter.mp hrow).1, by simpa using hrecord⟩
      have hsome := @toRecord_of_recordRow rows P dates row hmem
      rw [hnone row hmem] at hsome
      cases hsome
    · intro hall
      simp only [not_forall] at hall
      obtain ⟨row, hmem, -⟩ := hall
      obtain ⟨hrow, hrecord⟩ := List.mem_filter.mp hmem
      have hrecord : RecordRow row := by simpa using hrecord
      refine ⟨_, List.mem_map_of_mem (List.mem_filter.mpr ⟨hrow, ?_⟩), by rw [if_pos hrecord]⟩
      simpa using hrecord.ne_nil

theorem RenderedExport.records (h : RenderedExport lead rows body) :
    ReadsRecords P dates lead rows body := by
  refine ⟨(rows.filter RecordRow).filterMap (Urlhaus.toRecord P dates),
    forall₂_filterMap fun row => toRecord_of_recordRow, ?_⟩
  have hsigned := @h.signed_iff _ _ _ P dates
  by_cases hbody : body.trim = []
  · have hlines : splitCsvLines body = [] := by
      apply List.eq_nil_iff_forall_not_mem.mpr
      intro line hline
      exact trim_ne_nil_of_mem_lines hline hbody
    have hunsigned : ¬ ((∃ line ∈ lead, Urlhaus.signsUrlhaus line = true) ∨
        (rows.filter RecordRow).filterMap (Urlhaus.toRecord P dates) ≠ []) := by
      rw [← hsigned, hlines]
      exact Bool.false_ne_true
    rw [Urlhaus.parseUrlhausCsv, if_pos hbody, if_neg hunsigned]
  · simp only [Urlhaus.parseUrlhausCsv, if_neg hbody, hsigned, h.records_eq]

end

/-- The reader of rows undoes their rendering, whatever the fields hold. -/
structure CsvCodec (P : Platform) (dates : DateApi) : Prop where
  unterminated : ∀ line, parseCsvRow line = none ↔ line.count (unit '"') % 2 = 1
  rows : ∀ rows body, RenderedExport [] rows body →
    (splitCsvLines body).map parseCsvRow = (rows.filter (· ≠ [])).map some
  records : ∀ lead rows body, RenderedExport lead rows body → ReadsRecords P dates lead rows body

theorem csv_codec (P : Platform) (dates : DateApi) : CsvCodec P dates where
  unterminated line := readRow_eq_none_iff { fields := [], field := [], inQuotes := false } line
  rows _ _ h := h.rows_read
  records _ _ _ h := h.records

/-- A row of no fields leaves a blank line, and a row of three columns has no record. -/
theorem empty_and_short_rows_lost :
    (¬ ∀ rows body, RenderedExport [] rows body →
      (splitCsvLines body).map parseCsvRow = rows.map some) ∧
    ¬ ∀ (P : Platform) (dates : DateApi) lead rows body, RenderedExport lead rows body →
      ∃ records, Urlhaus.parseUrlhausCsv P dates body = some records ∧
        records.length = (rows.filter fun row =>
          trimmedField row 0 != [] && trimmedField row 2 != []).length := by
  constructor
  · intro h
    have hempty : RenderedExport [] [[]] [] := ⟨by simp, by simp, .last []⟩
    exact absurd (h [[]] [] hempty) (by decide)
  · intro h
    have hshort : RenderedExport [text "# URLhaus"] [[text "1", [], text "http://a/"]]
        (text "# URLhaus" ++ (LineBreak.lf.text ++ renderRow [text "1", [], text "http://a/"])) := by
      refine ⟨?_, ?_, .cons _ .lf (.last _)⟩
      · simp only [List.mem_singleton, forall_eq]
        exact ⟨by decide, by decide⟩
      · simp only [forall_eq, List.mem_cons, List.not_mem_nil, or_false, forall_eq_or_imp]
        exact ⟨by decide, by decide, by decide⟩
    obtain ⟨records, hrecords, hlength⟩ := h Platform.ascii DateApi.epochSecond _ _ _ hshort
    have hnone : (Urlhaus.parseUrlhausCsv Platform.ascii DateApi.epochSecond (text "# URLhaus" ++
        (LineBreak.lf.text ++ renderRow [text "1", [], text "http://a/"]))).map List.length =
          some 0 := by
      decide +kernel
    rw [hrecords, Option.map_some, hlength] at hnone
    exact absurd hnone (by decide +kernel)

end Linklint
