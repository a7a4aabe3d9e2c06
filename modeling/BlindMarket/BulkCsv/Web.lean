import BlindMarket.BulkCsv.Text

/-!
# The page's CSV reader

`parseCsvRecords` of the bulk-post page, and that it reads back what the page
writes.
-/
namespace BulkCsv.Web

open JsText

/-- The local variables of `parseCsvRecords` besides `quoted`. -/
structure Scan where
  records : List (List Str) := []
  record : List Str := []
  field : Str := []
  fieldStarted : Bool := false
  deriving DecidableEq, Repr

def textAfterClosingQuote (n : Nat) : String := s!"Record {n}: text after a closing quote"

def neverClosed (n : Nat) : String := s!"Record {n}: a quoted field is never closed"

def Scan.endRecord (s : Scan) : Scan :=
  let record := s.record ++ [s.field]
  -- A blank line reads as one empty field.
  { records := if record = [[]] ∧ s.fieldStarted = false then s.records else s.records ++ [record] }

def Scan.endField (s : Scan) : Scan :=
  { s with record := s.record ++ [s.field], field := [], fieldStarted := true }

def Scan.put (s : Scan) (ch : UInt16) : Scan := { s with field := s.field ++ [ch] }

def Scan.start (s : Scan) : Scan := { s with fieldStarted := true }

/-- The loop over the text that is left, inside or outside a quoted field. -/
def scan : Bool → Scan → Str → Except String (List (List Str))
  | true, s, [] => .error (neverClosed (s.records.length + 1))
  | false, s, [] =>
    if s.field ≠ [] ∨ s.record ≠ [] ∨ s.fieldStarted then .ok s.endRecord.records else .ok s.records
  | true, s, ch :: rest =>
    if ch = dquote then
      match rest with
      | [] => scan false s []
      | next :: rest =>
        if next = dquote then scan true (s.put dquote) rest
        else if next ≠ comma ∧ next ≠ lf ∧ next ≠ cr then
          .error (textAfterClosingQuote (s.records.length + 1))
        else scan false s (next :: rest)
    else scan true (s.put ch) rest
  | false, s, ch :: rest =>
    if ch = dquote ∧ s.field = [] then scan true s.start rest
    else if ch = comma then scan false s.endField rest
    else if ch = cr ∨ ch = lf then
      match rest with
      | [] => scan false s.endRecord []
      | next :: rest =>
        if ch = cr ∧ next = lf then scan false s.endRecord rest
        else scan false s.endRecord (next :: rest)
    else scan false (s.put ch).start rest

def parseCsvRecords (text : Str) : Except String (List (List Str)) := scan false {} (stripBom text)

example : scan true {} [] = .error (neverClosed 1) := by simp [scan]

variable {s : Scan} {acc : List (List Str)} {eol rest sep last value : Str} {record : List Str}

/-! ### One step of the scan -/

theorem scan_end (s : Scan) : scan false s [] = .ok s.endRecord.records := by
  by_cases h : s.field ≠ [] ∨ s.record ≠ [] ∨ s.fieldStarted = true
  · rw [scan, if_pos h]
  · rw [scan, if_neg h]
    have h' : s.field = [] ∧ s.record = [] ∧ s.fieldStarted = false := by simpa using h
    simp [Scan.endRecord, h']

theorem scan_break (h : IsBreak eol) : scan false s (eol ++ rest) = scan false s.endRecord rest := by
  rcases h with rfl | rfl
  · cases rest <;> simp [scan]
  · simp [scan]

theorem scan_comma : scan false s (comma :: rest) = scan false s.endField rest := by
  rw [scan.eq_def]
  simp

/-- What may follow a field. -/
def Delimited (rest : Str) : Prop := ∀ next ∈ rest.head?, next = comma ∨ next = lf ∨ next = cr

theorem delimited_nil : Delimited [] := by simp [Delimited]

theorem delimited_comma : Delimited (comma :: rest) := by simp [Delimited]

theorem delimited_break (h : IsBreak eol) (rest : Str) : Delimited (eol ++ rest) := by
  rcases h with rfl | rfl <;> simp [Delimited]

theorem scan_closing (h : Delimited rest) : scan true s (dquote :: rest) = scan false s rest := by
  cases rest with
  | nil => simp [scan]
  | cons next rest =>
    have hnext : next = comma ∨ next = lf ∨ next = cr := h next rfl
    rcases hnext with rfl | rfl | rfl <;> simp [scan]

theorem scan_cr (h : rest.head? ≠ some lf) :
    scan false s (cr :: rest) = scan false s.endRecord rest := by
  cases rest with
  | nil => simp [scan]
  | cons next rest =>
    have hnext : next ≠ lf := by simpa using h
    simp [scan, hnext]

theorem scan_put {ch : UInt16} (h : isSpecial ch = false) :
    scan false s (ch :: rest) = scan false (s.put ch).start rest := by
  obtain ⟨hq, hc, hr, hl⟩ := not_special h
  rw [scan.eq_def]
  simp [hq, hc, hr, hl]

theorem scan_open (h : s.field = []) : scan false s (dquote :: rest) = scan true s.start rest := by
  rw [scan.eq_def]
  simp [h]

theorem scan_inside {ch : UInt16} (h : ch ≠ dquote) :
    scan true s (ch :: rest) = scan true (s.put ch) rest := by
  rw [scan.eq_def]
  simp [h]

theorem scan_doubled : scan true s (dquote :: dquote :: rest) = scan true (s.put dquote) rest := by
  simp [scan]

/-- Outside quotes a text without special characters is added to the field. -/
theorem scan_text (h : value.any isSpecial = false) :
    scan false s (value ++ rest) =
      scan false
        { s with field := s.field ++ value, fieldStarted := s.fieldStarted || !value.isEmpty }
        rest := by
  induction value generalizing s with
  | nil => simp
  | cons ch value ih =>
    obtain ⟨hch, hvalue⟩ : isSpecial ch = false ∧ value.any isSpecial = false := by
      simpa [List.any_cons, -isSpecial_eq] using h
    rw [List.cons_append, scan_put hch, ih hvalue]
    simp [Scan.put, Scan.start]

/-- Inside quotes a doubled text is added to the field, up to the closing quote. -/
theorem scan_double (h : Delimited rest) :
    scan true s (double value ++ dquote :: rest) =
      scan false { s with field := s.field ++ value } rest := by
  induction value generalizing s with
  | nil => simpa using scan_closing h
  | cons ch value ih =>
    have step : scan true s (double (ch :: value) ++ dquote :: rest) =
        scan true (s.put ch) (double value ++ dquote :: rest) := by
      by_cases hq : ch = dquote
      · subst hq
        simp [double_cons, scan_doubled]
      · rw [double_cons, if_neg hq, List.singleton_append, List.cons_append, scan_inside hq]
    rw [step, ih]
    simp [Scan.put]

theorem scan_cell (hs : s.field = []) (h : Delimited rest) :
    scan false s (csvCell value ++ rest) =
      scan false { s with field := value, fieldStarted := s.fieldStarted || !value.isEmpty }
        rest := by
  cases hv : value.any isSpecial with
  | false =>
    rw [csvCell_plain hv, scan_text hv]
    simp [hs]
  | true =>
    have hne : value.isEmpty = false := by
      cases value with
      | nil => simp at hv
      | cons => rfl
    rw [csvCell_quoted hv]
    simp only [List.cons_append, List.append_assoc, List.nil_append]
    rw [scan_open hs, scan_double h]
    simp [Scan.start, hs, hne]

/-! ### Lines -/

/-- The variables after a line of fields. -/
def Scan.line (s : Scan) : Str → List Str → Scan
  | value, [] => { s with field := value, fieldStarted := s.fieldStarted || !value.isEmpty }
  | value, next :: record =>
    { s with record := s.record ++ [value], fieldStarted := true }.line next record

theorem scan_line (hs : s.field = []) (h : Delimited rest) :
    scan false s (csvLine (value :: record) ++ rest) = scan false (s.line value record) rest := by
  induction record generalizing s value with
  | nil => simpa [Scan.line] using scan_cell hs h
  | cons next record ih =>
    rw [csvLine_cons, List.append_assoc, List.cons_append, scan_cell hs delimited_comma, scan_comma,
      ih rfl]
    simp [Scan.line, Scan.endField, hs]

theorem endRecord_line (s : Scan) (value : Str) (record : List Str) :
    (s.line value record).endRecord =
      { records :=
          if s.record ++ value :: record = [[]] ∧ s.fieldStarted = false then s.records
          else s.records ++ [s.record ++ value :: record] } := by
  induction record generalizing s value with
  | nil =>
    by_cases h : s.record ++ [value] = [[]]
    · obtain ⟨hr, rfl⟩ : s.record = [] ∧ value = [] := by
        cases hrec : s.record <;> simp_all
      simp [Scan.line, Scan.endRecord, hr]
    · simp [Scan.line, Scan.endRecord, h]
  | cons next record ih =>
    rw [Scan.line, ih]
    have hlong : s.record ++ value :: next :: record ≠ [[]] := by
      intro h
      have hlen := congrArg List.length h
      simp at hlen
      omega
    simp [hlong]

/-- The records that a line stands for: an empty line is a blank one. -/
def kept (record : List Str) : Bool := record ≠ [] ∧ record ≠ [[]]

theorem scan_csvLine (acc : List (List Str)) (record : List Str) (h : Delimited rest) :
    ∃ s', scan false { records := acc } (csvLine record ++ rest) = scan false s' rest ∧
      s'.endRecord = { records := acc ++ [record].filter kept } := by
  match record with
  | [] => exact ⟨{ records := acc }, rfl, by simp [Scan.endRecord, kept]⟩
  | value :: record =>
    refine ⟨_, scan_line rfl h, ?_⟩
    rw [endRecord_line]
    by_cases hr : value :: record = [[]] <;> simp [hr, kept]

theorem scan_render (acc : List (List Str)) (hsep : IsBreak sep)
    (hlast : last = [] ∨ IsBreak last) (records : List (List Str)) :
    scan false { records := acc } (render sep last records) = .ok (acc ++ records.filter kept) := by
  induction records generalizing acc with
  | nil =>
    rcases hlast with rfl | hl
    · simp [scan]
    · rw [render_nil, ← List.append_nil last, scan_break hl, scan_end]
      simp [Scan.endRecord]
  | cons record records ih =>
    match records with
    | [] =>
      rcases hlast with rfl | hl
      · obtain ⟨s', hs, hend⟩ := scan_csvLine acc record delimited_nil
        rw [render_single, hs, scan_end, hend]
      · obtain ⟨s', hs, hend⟩ :=
          scan_csvLine acc record (delimited_break hl [])
        rw [render_single, ← List.append_nil last, hs, scan_break hl, hend, scan_end]
        simp [Scan.endRecord]
    | next :: records =>
      obtain ⟨s', hs, hend⟩ := scan_csvLine acc record
        (delimited_break hsep (render sep last (next :: records)))
      rw [render_cons, hs, scan_break hsep, hend, ih, List.filter_cons (x := record)]
      cases hk : kept record <;> simp [hk]

theorem parse_render (hsep : IsBreak sep) (hlast : last = [] ∨ IsBreak last)
    {records : List (List Str)}
    (hbom : ∀ record ∈ records.head?, ∀ value ∈ record.head?, value.head? ≠ some bom) :
    parseCsvRecords (render sep last records) = .ok (records.filter kept) := by
  rw [parseCsvRecords, stripBom_of_head (render_head hsep hlast hbom)]
  simpa using scan_render [] hsep hlast records

/-! ### Every text -/

/-- The scan ends on every text, with records or with one of its two errors. -/
theorem scan_total (quoted : Bool) (s : Scan) (text : Str) :
    (∃ records, scan quoted s text = .ok records) ∨
      ∃ n, scan quoted s text = .error (textAfterClosingQuote (n + 1)) ∨
        scan quoted s text = .error (neverClosed (n + 1)) := by
  fun_induction scan quoted s text with
  | case1 s => exact .inr ⟨_, .inr rfl⟩
  | case2 s => exact .inl ⟨_, rfl⟩
  | case3 s => exact .inl ⟨_, rfl⟩
  | _ => first | assumption | exact .inr ⟨_, .inl rfl⟩

/-- What the page writes it reads back, and it reads every text or names what is wrong with it. -/
theorem csv_round_trip :
    (∀ (records : List (List Str)) (sep last : Str),
      IsBreak sep → (last = [] ∨ IsBreak last) →
      (∀ record ∈ records, record ≠ [] ∧ record ≠ [[]]) →
      (∀ record ∈ records.head?, ∀ value ∈ record.head?, value.head? ≠ some bom) →
      parseCsvRecords (render sep last records) = .ok records) ∧
    ∀ text, (∃ records, parseCsvRecords text = .ok records) ∨
      ∃ n, parseCsvRecords text = .error (textAfterClosingQuote (n + 1)) ∨
        parseCsvRecords text = .error (neverClosed (n + 1)) := by
  refine ⟨fun records sep last hsep hlast hkept hbom => ?_, fun text => scan_total false {} _⟩
  rw [parse_render hsep hlast hbom]
  congr 1
  exact List.filter_eq_self.2 fun record hr => by simpa [kept] using hkept record hr

theorem csv_round_trip_quoted :
    parseCsvRecords (render [cr, lf] [] [[[comma, dquote], []], [[65, cr], [space]]]) =
      .ok [[[comma, dquote], []], [[65, cr], [space]]] :=
  csv_round_trip.1 _ _ _ (.inr rfl) (.inl rfl) (by decide) (by decide)

/-! ### The results file -/

structure ResultLine where
  row : Nat
  status : Str
  taskHash : Option Str
  taskId : Option Str
  txHash : Option Str
  error : Option Str

def ResultLine.cells (l : ResultLine) : List Str :=
  [ascii (toString l.row), l.status, l.taskHash.getD [], l.taskId.getD [], l.txHash.getD [],
    l.error.getD []]

def resultsCsv (lines : List ResultLine) : Str :=
  join [lf] (ascii "row,status,task_hash,task_id,tx_hash,error" :: lines.map fun l => csvLine l.cells)
    ++ [lf]

def resultsHeader : List Str :=
  ["row", "status", "task_hash", "task_id", "tx_hash", "error"].map ascii

theorem csvLine_resultsHeader :
    csvLine resultsHeader = ascii "row,status,task_hash,task_id,tx_hash,error" := by
  decide +kernel

/-- The results file reads back as its header and one record a line. -/
theorem parse_resultsCsv (lines : List ResultLine) :
    parseCsvRecords (resultsCsv lines) = .ok (resultsHeader :: lines.map ResultLine.cells) := by
  have hrender : resultsCsv lines = render [lf] [lf] (resultsHeader :: lines.map ResultLine.cells) := by
    simp only [resultsCsv, render, List.map_cons, List.map_map, csvLine_resultsHeader]
    rfl
  have hbom : ∀ record ∈ (resultsHeader :: lines.map ResultLine.cells).head?,
      ∀ value ∈ record.head?, value.head? ≠ some bom := by
    simp only [List.head?_cons, Option.mem_def, Option.some.injEq]
    rintro _ rfl
    decide +kernel
  rw [hrender, parse_render (.inl rfl) (.inr (.inl rfl)) hbom]
  congr 1
  refine List.filter_eq_self.2 fun record hr => ?_
  rcases List.mem_cons.1 hr with rfl | hr
  · decide +kernel
  · obtain ⟨l, -, rfl⟩ := List.mem_map.1 hr
    simp [kept, ResultLine.cells]

end BulkCsv.Web
