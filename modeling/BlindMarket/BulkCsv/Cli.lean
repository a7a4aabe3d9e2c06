import BlindMarket.BulkCsv.Text

/-!
# The command line's CSV reader

`parseCsv` of `blind post-tasks`, and that it reads what either client writes.
-/
namespace BulkCsv.Cli

open JsText

structure CliError where
  code : String
  message : String
  deriving DecidableEq, Repr

structure CsvRecord where
  /-- The line the record starts on. -/
  line : Nat
  fields : List Str
  deriving DecidableEq, Repr

/-- The local variables of `parseCsv`. -/
structure Scan where
  records : List CsvRecord := []
  fields : List Str := []
  field : Str := []
  /-- The current field was quoted. -/
  quoted : Bool := false
  inQuotes : Bool := false
  line : Nat := 1
  recordLine : Nat := 1
  deriving DecidableEq, Repr

def badCsv (message : String) : CliError := ⟨"BAD_CSV", message⟩

def textAfterClosingQuote (line : Nat) : String :=
  s!"Line {line}: text after a closing quote. Quote the whole field, and double any quote inside it (\"\")."

def quoteInsideField (line : Nat) : String :=
  s!"Line {line}: a quote inside an unquoted field. Quote the whole field, and double any quote inside it (\"\")."

def neverClosed (line : Nat) : String := s!"Line {line}: a quoted field is never closed."

def Scan.endField (s : Scan) : Scan :=
  { s with fields := s.fields ++ [s.field], field := [], quoted := false }

def Scan.endRecord (s : Scan) : Scan :=
  { s.endField with records := s.records ++ [⟨s.recordLine, s.endField.fields⟩], fields := [] }

def Scan.put (s : Scan) (c : UInt16) : Scan := { s with field := s.field ++ [c] }

def Scan.nextLine (s : Scan) : Scan := { s with line := s.line + 1, recordLine := s.line + 1 }

/-- A character inside quotes. -/
def Scan.inside (s : Scan) (c : UInt16) : Scan :=
  { s.put c with line := if c = lf then s.line + 1 else s.line }

/-- The loop over the text that is left. -/
def scan : Scan → Str → Except CliError (List CsvRecord)
  | s, [] =>
    if s.inQuotes then .error (badCsv (neverClosed s.recordLine))
    else if s.field ≠ [] ∨ s.quoted ∨ s.fields ≠ [] then .ok s.endRecord.records
    else .ok s.records
  | s, c :: rest =>
    if s.inQuotes then
      if c = dquote then
        match rest with
        | [] => scan { s with inQuotes := false } []
        | next :: rest =>
          if next = dquote then scan (s.put dquote) rest
          else scan { s with inQuotes := false } (next :: rest)
      else scan (s.inside c) rest
    else if c = comma then scan s.endField rest
    else if c = lf then scan s.endRecord.nextLine rest
    else if s.quoted then
      if c = space ∨ c = tab then scan s rest
      else .error (badCsv (textAfterClosingQuote s.line))
    else if c = dquote then
      if trim s.field ≠ [] then .error (badCsv (quoteInsideField s.line))
      else scan { s with field := [], quoted := true, inQuotes := true } rest
    else scan (s.put c) rest

def parseCsv (text : Str) : Except CliError (List CsvRecord) :=
  scan {} (unixLines (stripBom text))

example : scan { inQuotes := true } [] = .error (badCsv (neverClosed 1)) := by simp [scan]

/-- The fields of the records. -/
def fieldsOf (records : List CsvRecord) : List (List Str) := records.map (·.fields)

@[simp] theorem fieldsOf_append (a b : List CsvRecord) :
    fieldsOf (a ++ b) = fieldsOf a ++ fieldsOf b := by simp [fieldsOf]

@[simp] theorem fieldsOf_nil : fieldsOf [] = [] := rfl

@[simp] theorem fieldsOf_cons (line : Nat) (fields : List Str) (records : List CsvRecord) :
    fieldsOf (⟨line, fields⟩ :: records) = fields :: fieldsOf records := rfl

variable {s : Scan} {rest value last : Str} {record : List Str}

/-! ### One step of the scan -/

/-- Whether or not the last record is dropped, it is read as the blank one it is. -/
theorem scan_end (hs : s.inQuotes = false) :
    ∃ records, scan s [] = .ok records ∧
      rows (fieldsOf records) = rows (fieldsOf s.endRecord.records) := by
  by_cases h : s.field ≠ [] ∨ s.quoted ∨ s.fields ≠ []
  · exact ⟨_, by rw [scan, hs, if_neg (by simp), if_pos h], rfl⟩
  · refine ⟨_, by rw [scan, hs, if_neg (by simp), if_neg h], ?_⟩
    have h' : s.field = [] ∧ s.quoted = false ∧ s.fields = [] := by simpa using h
    simp [Scan.endRecord, Scan.endField, h']

theorem scan_comma (hs : s.inQuotes = false) :
    scan s (comma :: rest) = scan s.endField rest := by
  rw [scan.eq_def]
  simp [hs]

theorem scan_lf (hs : s.inQuotes = false) :
    scan s (lf :: rest) = scan s.endRecord.nextLine rest := by
  rw [scan.eq_def]
  simp [hs]

theorem scan_put (hs : s.inQuotes = false) (hq : s.quoted = false) {c : UInt16}
    (h : isSpecial c = false) : scan s (c :: rest) = scan (s.put c) rest := by
  obtain ⟨hd, hc, -, hl⟩ := not_special h
  rw [scan.eq_def]
  simp [hs, hq, hd, hc, hl]

theorem scan_open (hs : s.inQuotes = false) (hq : s.quoted = false) (hf : trim s.field = []) :
    scan s (dquote :: rest) =
      scan { s with field := [], quoted := true, inQuotes := true } rest := by
  rw [scan.eq_def]
  simp [hs, hq, hf]

/-- Inside quotes anything but a quote is added to the field. -/
theorem scan_inside (hs : s.inQuotes = true) {c : UInt16} (h : c ≠ dquote) :
    scan s (c :: rest) = scan (s.inside c) rest := by
  rw [scan.eq_def]
  simp [hs, h]

theorem scan_doubled (hs : s.inQuotes = true) :
    scan s (dquote :: dquote :: rest) = scan (s.put dquote) rest := by
  rw [scan.eq_def]
  simp [hs]

theorem scan_closing (hs : s.inQuotes = true) (h : rest.head? ≠ some dquote) :
    scan s (dquote :: rest) = scan { s with inQuotes := false } rest := by
  cases rest with
  | nil => simp [scan, hs]
  | cons next rest =>
    have hnext : next ≠ dquote := by simpa using h
    simp [scan, hs, hnext]

theorem scan_text (hs : s.inQuotes = false) (hq : s.quoted = false)
    (h : value.any isSpecial = false) :
    scan s (value ++ rest) = scan { s with field := s.field ++ value } rest := by
  induction value generalizing s with
  | nil => simp
  | cons c value ih =>
    obtain ⟨hc, hvalue⟩ : isSpecial c = false ∧ value.any isSpecial = false := by
      simpa [List.any_cons, -isSpecial_eq] using h
    have hput : scan s (c :: (value ++ rest)) = scan (s.put c) (value ++ rest) :=
      scan_put hs hq hc
    have hrest := ih (s := s.put c) hs hq hvalue
    rw [List.cons_append, hput, hrest]
    simp [Scan.put]

theorem scan_double (value : Str) (hs : s.inQuotes = true) (h : rest.head? ≠ some dquote) :
    ∃ line, scan s (double value ++ dquote :: rest) =
      scan { s with field := s.field ++ value, inQuotes := false, line := line } rest := by
  induction value generalizing s with
  | nil => exact ⟨s.line, by simpa using scan_closing hs h⟩
  | cons c value ih =>
    by_cases hc : c = dquote
    · subst hc
      obtain ⟨line, hline⟩ := ih (s := s.put dquote) hs
      refine ⟨line, ?_⟩
      rw [double_cons, if_pos rfl]
      simp only [List.cons_append, List.nil_append]
      rw [scan_doubled hs, hline]
      simp [Scan.put]
    · obtain ⟨line, hline⟩ := ih (s := s.inside c) hs
      refine ⟨line, ?_⟩
      rw [double_cons, if_neg hc, List.singleton_append, List.cons_append, scan_inside hs hc, hline]
      simp [Scan.inside, Scan.put]

/-- A written field is read back before a comma, a line end or the end of the text. -/
theorem scan_cell (value rest : Str) (hs : s.inQuotes = false) (hq : s.quoted = false)
    (hf : s.field = []) (h : rest.head? ≠ some dquote) :
    ∃ quoted line, scan s (csvCell value ++ rest) =
      scan { s with field := value, quoted := quoted, line := line } rest := by
  cases hv : value.any isSpecial with
  | false =>
    refine ⟨s.quoted, s.line, ?_⟩
    rw [csvCell_plain hv, scan_text hs hq hv]
    simp [hf]
  | true =>
    obtain ⟨line, hline⟩ := scan_double value
      (s := { s with field := [], quoted := true, inQuotes := true }) rfl h
    refine ⟨true, line, ?_⟩
    rw [csvCell_quoted hv]
    simp only [List.cons_append, List.append_assoc, List.nil_append]
    rw [scan_open hs hq (by rw [hf]; rfl), hline]
    simp [hs]

/-! ### Lines -/

theorem rows_blank_line (s : Scan) :
    rows (fieldsOf s.endRecord.nextLine.endRecord.records) = rows (fieldsOf s.endRecord.records) := by
  have hblank : fieldsOf s.endRecord.nextLine.endRecord.records =
      fieldsOf s.endRecord.records ++ [[[]]] := by
    simp [Scan.nextLine, Scan.endRecord, Scan.endField]
  rw [hblank, rows_append, rows_blank, rows_nil, List.append_nil]

theorem scan_line (value : Str) (record : List Str) (hs : s.inQuotes = false)
    (hq : s.quoted = false) (hf : s.field = []) (h : rest.head? ≠ some dquote) :
    ∃ s', scan s (csvLine (value :: record) ++ rest) = scan s' rest ∧ s'.inQuotes = false ∧
      fieldsOf s'.endRecord.records =
        fieldsOf s.records ++ [s.fields ++ value :: record] := by
  induction record generalizing s value with
  | nil =>
    obtain ⟨quoted, line, hcell⟩ := scan_cell value rest hs hq hf h
    exact ⟨_, hcell, hs, by simp [Scan.endRecord, Scan.endField]⟩
  | cons next record ih =>
    obtain ⟨quoted, line, hcell⟩ := scan_cell value
      (comma :: (csvLine (next :: record) ++ rest)) hs hq hf (by simp)
    obtain ⟨s', hs', hin, hfields⟩ := ih next
      (s := Scan.endField { s with field := value, quoted := quoted, line := line }) hs rfl rfl
    have hcomma : scan { s with field := value, quoted := quoted, line := line }
        (comma :: (csvLine (next :: record) ++ rest)) =
      scan (Scan.endField { s with field := value, quoted := quoted, line := line })
        (csvLine (next :: record) ++ rest) := scan_comma hs
    refine ⟨s', ?_, hin, ?_⟩
    · rw [csvLine_cons, List.append_assoc, List.cons_append, hcell, hcomma, hs']
    · simp [hfields, Scan.endField]

/-- A line is read as its record; an empty one as a blank record. -/
theorem scan_csvLine (record : List Str) (rest : Str) (hs : s.inQuotes = false)
    (hq : s.quoted = false) (hf : s.field = []) (hfs : s.fields = []) (h : rest.head? ≠ some dquote) :
    ∃ s', scan s (csvLine record ++ rest) = scan s' rest ∧ s'.inQuotes = false ∧
      rows (fieldsOf s'.endRecord.records) = rows (fieldsOf s.records) ++ rows [record] := by
  match record with
  | [] =>
    refine ⟨s, rfl, hs, ?_⟩
    simp [Scan.endRecord, Scan.endField, hf, hfs]
  | value :: record =>
    obtain ⟨s', hs', hin, hfields⟩ := scan_line value record hs hq hf h
    exact ⟨s', hs', hin, by simp [hfields, hfs]⟩

theorem scan_render (hlast : last = [] ∨ last = [lf]) (records : List (List Str))
    (hs : s.inQuotes = false) (hq : s.quoted = false) (hf : s.field = []) (hfs : s.fields = []) :
    ∃ out, scan s (render [lf] last records) = .ok out ∧
      rows (fieldsOf out) = rows (fieldsOf s.records) ++ rows records := by
  induction records generalizing s with
  | nil =>
    rcases hlast with rfl | rfl
    · obtain ⟨out, hout, hrows⟩ := scan_end hs
      exact ⟨out, hout, by simp [hrows, Scan.endRecord, Scan.endField, hf, hfs]⟩
    · obtain ⟨out, hout, hrows⟩ := scan_end (s := s.endRecord.nextLine) hs
      refine ⟨out, by rw [render_nil, scan_lf hs, hout], ?_⟩
      simp [hrows, Scan.nextLine, Scan.endRecord, Scan.endField, hf, hfs]
  | cons record records ih =>
    match records with
    | [] =>
      obtain ⟨s', hs', hin, hline⟩ := scan_csvLine record last hs hq hf hfs
        (by rcases hlast with rfl | rfl <;> simp)
      rcases hlast with rfl | rfl
      · obtain ⟨out, hout, hrows⟩ := scan_end hin
        exact ⟨out, by rw [render_single, hs', hout], by rw [hrows, hline]⟩
      · obtain ⟨out, hout, hrows⟩ := scan_end (s := s'.endRecord.nextLine) hin
        refine ⟨out, by rw [render_single, hs', scan_lf hin, hout], ?_⟩
        rw [hrows, rows_blank_line, hline]
    | next :: records =>
      obtain ⟨s', hs', hin, hline⟩ := scan_csvLine record
        ([lf] ++ render [lf] last (next :: records)) hs hq hf hfs (by simp)
      obtain ⟨out, hout, hrows⟩ := ih (s := s'.endRecord.nextLine) hin rfl rfl rfl
      refine ⟨out, ?_, ?_⟩
      · rw [render_cons, hs', List.singleton_append, scan_lf hin, hout]
      · rw [hrows, show s'.endRecord.nextLine.records = s'.endRecord.records from rfl, hline,
          List.append_assoc, ← rows_append, List.singleton_append]

end BulkCsv.Cli
