import BlindMarket.BulkCsv.Lines

/-!
# The two readers in step

The readers step together until a quote stands after nothing but blanks in its
field. There the command line drops the blanks and opens the quote, and the page
reads the quote as text.
-/
namespace BulkCsv

open JsText

variable {rest value : Str}

/-! ### Where the readers part -/

/-- Where a reader stands in a field. -/
inductive Spot where
  | start | blanks | text | quoted | closed
  deriving DecidableEq, Repr

def Spot.next (p : Spot) (ch : UInt16) : Spot :=
  if p = .quoted then if ch = dquote then .closed else .quoted
  else if ch = comma ∨ ch = cr ∨ ch = lf then .start
  else if ch = dquote then if p = .text then .text else .quoted
  else if p = .start ∨ p = .blanks then if isSpace ch then .blanks else .text
  else p

/-- The text after the first quote that stands after nothing but blanks in its field. -/
def quoteAfterBlanks : Spot → Str → Option Str
  | _, [] => none
  | p, ch :: rest =>
    if p = .blanks ∧ ch = dquote then some rest else quoteAfterBlanks (p.next ch) rest

theorem Spot.next_delimiter {p : Spot} {ch : UInt16} (hp : p ≠ .quoted)
    (h : ch = comma ∨ ch = cr ∨ ch = lf) : p.next ch = .start := by
  rw [Spot.next, if_neg hp, if_pos h]

theorem Spot.next_inside {ch : UInt16} (h : ch ≠ dquote) : Spot.quoted.next ch = .quoted := by
  simp [Spot.next, h]

theorem quoteAfterBlanks_tail {p : Spot} {ch : UInt16} (h : ¬(p = .blanks ∧ ch = dquote)) :
    quoteAfterBlanks p (ch :: rest) = quoteAfterBlanks (p.next ch) rest := by
  rw [quoteAfterBlanks, if_neg h]

/-! ### The two readers in step -/

/-- Both readers have read the same rows, the same record so far and the same field so far. -/
structure Sync (s : Web.Scan) (t : Cli.Scan) : Prop where
  records : rows s.records = rows (Cli.fieldsOf t.records)
  record : s.record.map unixLines = t.fields
  field : unixLines s.field = t.field

/-- Where the readers stand, with what each knows about the field there. -/
inductive AtSpot (s : Web.Scan) (t : Cli.Scan) (rest : Str) : Spot → Bool → Prop
  | start : s.field = [] → t.quoted = false → AtSpot s t rest .start false
  | blanks : s.field ≠ [] → (∀ ch ∈ s.field, isSpace ch = true) → cr ∉ s.field →
      t.quoted = false → AtSpot s t rest .blanks false
  | text : (∃ ch ∈ s.field, isSpace ch = false) → cr ∉ s.field → t.quoted = false →
      AtSpot s t rest .text false
  | quoted : t.quoted = true → ¬(s.field.getLast? = some cr ∧ rest.head? = some lf) →
      AtSpot s t rest .quoted true
  | closed : t.quoted = true → Web.Delimited rest → AtSpot s t rest .closed false

variable {s : Web.Scan} {t : Cli.Scan} {p : Spot} {quoted : Bool} {ch : UInt16}

theorem rows_endRecord (s : Web.Scan) :
    rows s.endRecord.records = rows s.records ++ rows [s.record ++ [s.field]] := by
  by_cases h : s.record ++ [s.field] = [[]] ∧ s.fieldStarted = false
  · simp [Web.Scan.endRecord, h]
  · simp [Web.Scan.endRecord, h]

theorem Sync.endRecord (h : Sync s t) : Sync s.endRecord t.endRecord.nextLine where
  records := by
    have hrow : rows [s.record ++ [s.field]] = rows [t.fields ++ [t.field]] := by
      have hmap := rows_unixLines [s.record ++ [s.field]]
      simp only [List.map_cons, List.map_nil, List.map_append, h.record, h.field] at hmap
      exact hmap.symm
    rw [rows_endRecord, h.records, hrow]
    simp [Cli.Scan.nextLine, Cli.Scan.endRecord, Cli.Scan.endField]
  record := rfl
  field := rfl

theorem Sync.endField (h : Sync s t) : Sync s.endField t.endField where
  records := h.records
  record := by simp [Web.Scan.endField, Cli.Scan.endField, h.record, h.field]
  field := rfl

theorem Sync.put (h : Sync s t) (ch : UInt16) (hcut : ¬(s.field.getLast? = some cr ∧ ch = lf)) :
    Sync (s.put ch) (t.put (if ch = cr then lf else ch)) where
  records := h.records
  record := h.record
  field := by
    have happend : unixLines (s.field ++ [ch]) = unixLines s.field ++ unixLines [ch] :=
      unixLines_append (by simpa using hcut)
    simp [Web.Scan.put, Cli.Scan.put, happend, h.field, unixLines]

theorem last_ne_cr (h : cr ∉ value) : value.getLast? ≠ some cr :=
  fun hlast => h (List.mem_of_getLast? hlast)

/-- A character outside quotes that neither ends nor quotes a field is read alike. -/
theorem AtSpot.put (h : AtSpot s t (ch :: rest) p false) (hch : isSpecial ch = false) :
    t.quoted = false ∧ s.field.getLast? ≠ some cr ∧
      AtSpot (s.put ch).start (t.put ch) rest (p.next ch) false := by
  obtain ⟨hq, hc, hr, hl⟩ := not_special hch
  have hcr : cr ∉ s.field → cr ∉ s.field ++ [ch] := by
    intro hmem
    simp [hmem, Ne.symm hr]
  have hnew : t.quoted = false → (∀ x ∈ s.field, isSpace x = true) → cr ∉ s.field →
      AtSpot (s.put ch).start (t.put ch) rest (if isSpace ch then .blanks else .text) false := by
    intro ht hall hmem
    cases hsp : isSpace ch with
    | true =>
      refine .blanks (by simp [Web.Scan.put, Web.Scan.start]) (fun x hx => ?_) (hcr hmem) ht
      rcases List.mem_append.1 hx with hx | hx
      · exact hall x hx
      · rwa [List.mem_singleton.1 hx]
    | false => exact .text ⟨ch, by simp [Web.Scan.put, Web.Scan.start], hsp⟩ (hcr hmem) ht
  cases h with
  | start hf ht =>
    refine ⟨ht, by simp [hf], ?_⟩
    simpa [Spot.next, hq, hc, hr, hl] using hnew ht (by simp [hf]) (by simp [hf])
  | blanks hf hall hmem ht =>
    refine ⟨ht, last_ne_cr hmem, ?_⟩
    simpa [Spot.next, hq, hc, hr, hl] using hnew ht hall hmem
  | text hf hmem ht =>
    obtain ⟨x, hx, hsp⟩ := hf
    refine ⟨ht, last_ne_cr hmem, ?_⟩
    rw [show Spot.text.next ch = .text by simp [Spot.next, hq, hc, hr, hl]]
    exact .text ⟨x, by simp [Web.Scan.put, Web.Scan.start, hx], hsp⟩ (hcr hmem) ht
  | closed ht hd =>
    have hd : ch = comma ∨ ch = lf ∨ ch = cr := hd ch rfl
    tauto

/-- What the page accepts after a closing quote. -/
theorem delimited_of_closing {out : List (List Str)} (h : Web.scan true s (dquote :: rest) = .ok out)
    (hne : rest.head? ≠ some dquote) : Web.Delimited rest := by
  cases rest with
  | nil => exact Web.delimited_nil
  | cons next rest =>
    have hnext : next ≠ dquote := by simpa using hne
    by_cases hd : next = comma ∨ next = lf ∨ next = cr
    · simpa [Web.Delimited] using hd
    · have hd' : next ≠ comma ∧ next ≠ lf ∧ next ≠ cr := by tauto
      simp [Web.scan, hnext, hd'] at h

/-- The readers in step on the text that is left, which both will accept. -/
structure InStep (out : List (List Str)) (out' : List Cli.CsvRecord) (blank : Option Str) (rest : Str)
    (quoted : Bool) (p : Spot) (s : Web.Scan) (t : Cli.Scan) : Prop where
  sync : Sync s t
  inQuotes : t.inQuotes = quoted
  spot : AtSpot s t rest p quoted
  blank : quoteAfterBlanks p rest = blank
  page : Web.scan quoted s rest = .ok out
  cli : Cli.scan t (unixLines rest) = .ok out'

variable {out : List (List Str)} {out' : List Cli.CsvRecord} {blank : Option Str}

theorem InStep.end (h : InStep out out' blank [] quoted p s t) : rows out = rows (Cli.fieldsOf out') := by
  cases quoted with
  | true =>
    have hpage := h.page
    simp [Web.scan] at hpage
  | false =>
    have hpage := h.page
    rw [Web.scan_end, Except.ok.injEq] at hpage
    obtain ⟨records, hrecords, hrows⟩ := Cli.scan_end h.inQuotes
    obtain rfl : records = out' := Except.ok.inj (hrecords.symm.trans h.cli)
    rw [← hpage, hrows, h.sync.endRecord.records]
    rfl

/-- A comma outside quotes ends the field for both. -/
theorem InStep.comma (h : InStep out out' blank (comma :: rest) false p s t) :
    InStep out out' blank rest false .start s.endField t.endField where
  sync := h.sync.endField
  inQuotes := h.inQuotes
  spot := .start rfl rfl
  blank := by
    have hp : p ≠ .quoted := by rintro rfl; nomatch h.spot
    rw [← Spot.next_delimiter hp (.inl rfl), ← quoteAfterBlanks_tail (by simp)]
    exact h.blank
  page := by rw [← Web.scan_comma]; exact h.page
  cli := by
    rw [← Cli.scan_comma h.inQuotes, ← unixLines_cons comma_ne_cr]
    exact h.cli

/-- A line break outside quotes ends the record for both. -/
theorem InStep.lineBreak {ch : UInt16} (eol : Str) (h : InStep out out' blank (ch :: eol ++ rest) false p s t)
    (hbreak : IsBreak (ch :: eol) ∨ (ch = cr ∧ eol = [] ∧ rest.head? ≠ some lf)) :
    InStep out out' blank rest false .start s.endRecord t.endRecord.nextLine where
  sync := h.sync.endRecord
  inQuotes := h.inQuotes
  spot := .start rfl rfl
  blank := by
    have hp : p ≠ .quoted := by rintro rfl; nomatch h.spot
    have hblank := h.blank
    rcases hbreak with (heq | heq) | ⟨rfl, rfl, -⟩
    · obtain ⟨rfl, rfl⟩ : ch = lf ∧ eol = [] := by simpa using heq
      rwa [List.singleton_append, quoteAfterBlanks_tail (by simp),
        Spot.next_delimiter hp (.inr (.inr rfl))] at hblank
    · obtain ⟨rfl, rfl⟩ : ch = cr ∧ eol = [lf] := by simpa using heq
      rwa [List.cons_append, quoteAfterBlanks_tail (by simp),
        Spot.next_delimiter hp (.inr (.inl rfl)), List.singleton_append,
        quoteAfterBlanks_tail (by simp)] at hblank
    · rwa [List.singleton_append, quoteAfterBlanks_tail (by simp),
        Spot.next_delimiter hp (.inr (.inl rfl))] at hblank
  page := by
    rcases hbreak with heq | ⟨rfl, rfl, hhead⟩
    · rw [← Web.scan_break heq]; exact h.page
    · rw [← Web.scan_cr hhead]; exact h.page
  cli := by
    have hlines : unixLines (ch :: eol ++ rest) = lf :: unixLines rest := by
      rcases hbreak with heq | ⟨rfl, rfl, hhead⟩
      · exact unixLines_break heq rest
      · exact unixLines_cr hhead
    rw [← Cli.scan_lf h.inQuotes, ← hlines]
    exact h.cli

/-- A quote outside quotes opens a field for both: the page would read it as text only where the
command line refuses it or a blank stands before it. -/
theorem InStep.openQuote (h : InStep out out' blank (dquote :: rest) false p s t)
    (hp : p ≠ .blanks) :
    InStep out out' blank rest true .quoted s.start
      { t with field := [], quoted := true, inQuotes := true } := by
  have hcli := h.cli
  rw [unixLines_cons dquote_ne_cr] at hcli
  have hblank := h.blank
  rw [quoteAfterBlanks_tail fun hb => hp hb.1] at hblank
  cases h.spot with
  | start hf ht =>
    have htf : t.field = [] := by rw [← h.sync.field, hf]; rfl
    exact {
      sync := ⟨h.sync.records, h.sync.record, by simp [Web.Scan.start, hf, unixLines]⟩
      inQuotes := rfl
      spot := .quoted rfl (by simp [Web.Scan.start, hf])
      blank := by simpa [Spot.next] using hblank
      page := by rw [← Web.scan_open hf]; exact h.page
      cli := by rw [← Cli.scan_open h.inQuotes ht (by rw [htf]; rfl)]; exact hcli }
  | blanks => exact absurd rfl hp
  | text hf hcr ht =>
    obtain ⟨ch, hch, hsp⟩ := hf
    have htf : trim t.field ≠ [] := by
      rw [← h.sync.field, unixLines_id hcr]
      exact trim_ne_nil hch hsp
    rw [Cli.scan.eq_def] at hcli
    simp [h.inQuotes, ht, htf] at hcli
  | closed _ hd =>
    have hd := hd dquote rfl
    simp at hd

/-- Any other character outside quotes is added to the field by both. -/
theorem InStep.put (h : InStep out out' blank (ch :: rest) false p s t) (hch : isSpecial ch = false) :
    InStep out out' blank rest false (p.next ch) (s.put ch).start (t.put ch) := by
  obtain ⟨ht, hlast, hspot⟩ := h.spot.put hch
  have hcr : ch ≠ cr := (not_special hch).2.2.1
  have hput : Sync (s.put ch) (t.put ch) := by
    have hput := h.sync.put ch fun hcut => hlast hcut.1
    rwa [if_neg hcr] at hput
  exact {
    sync := ⟨hput.records, hput.record, hput.field⟩
    inQuotes := h.inQuotes
    spot := hspot
    blank := by
      rw [← quoteAfterBlanks_tail fun hb => (not_special hch).1 hb.2]
      exact h.blank
    page := by rw [← Web.scan_put hch]; exact h.page
    cli := by
      rw [← Cli.scan_put h.inQuotes ht hch, ← unixLines_cons hcr]
      exact h.cli }

/-- A doubled quote is one quote to both. -/
theorem InStep.doubled (h : InStep out out' blank (dquote :: dquote :: rest) true p s t) :
    InStep out out' blank rest true .quoted (s.put dquote) (t.put dquote) := by
  have hp : p = .quoted := by cases h.spot; rfl
  subst hp
  have ht : t.quoted = true := by cases h.spot with | quoted ht => exact ht
  have hcli := h.cli
  rw [unixLines_cons dquote_ne_cr, unixLines_cons dquote_ne_cr, Cli.scan_doubled h.inQuotes] at hcli
  have hput := h.sync.put dquote (by simp)
  exact {
    sync := by simpa using hput
    inQuotes := h.inQuotes
    spot := .quoted ht (by simp [Web.Scan.put])
    blank := by
      have hblank := h.blank
      rw [quoteAfterBlanks_tail (by simp), quoteAfterBlanks_tail (by simp [Spot.next])] at hblank
      simpa [Spot.next] using hblank
    page := by rw [← Web.scan_doubled]; exact h.page
    cli := hcli }

/-- A single quote closes the field for both. -/
theorem InStep.closeQuote (h : InStep out out' blank (dquote :: rest) true p s t)
    (hne : rest.head? ≠ some dquote) :
    InStep out out' blank rest false .closed s { t with inQuotes := false } := by
  have hp : p = .quoted := by cases h.spot; rfl
  subst hp
  have ht : t.quoted = true := by cases h.spot with | quoted ht => exact ht
  have hd := delimited_of_closing h.page hne
  have hhead : (unixLines rest).head? ≠ some dquote := by
    match rest with
    | [] => simp [unixLines]
    | [next] =>
      have hnext : next ≠ dquote := by simpa using hne
      by_cases hcr : next = cr <;> simp [unixLines, hcr, hnext]
    | next :: after :: rest =>
      have hnext : next ≠ dquote := by simpa using hne
      by_cases hcr : next = cr <;> by_cases hlf : after = lf <;> simp [unixLines, hcr, hlf, hnext]
  have hcli := h.cli
  rw [unixLines_cons dquote_ne_cr, Cli.scan_closing h.inQuotes hhead] at hcli
  exact {
    sync := ⟨h.sync.records, h.sync.record, h.sync.field⟩
    inQuotes := rfl
    spot := .closed ht hd
    blank := by
      have hblank := h.blank
      rw [quoteAfterBlanks_tail (by simp)] at hblank
      simpa [Spot.next] using hblank
    page := by rw [← Web.scan_closing hd]; exact h.page
    cli := hcli }

/-- A character inside quotes is added to the field by both; a lone carriage return is a line feed
to the command line. -/
theorem InStep.inside (h : InStep out out' blank (ch :: rest) true p s t) (hch : ch ≠ dquote)
    (hcut : ¬(ch = cr ∧ rest.head? = some lf)) :
    InStep out out' blank rest true .quoted (s.put ch) (t.inside (if ch = cr then lf else ch)) := by
  have hp : p = .quoted := by cases h.spot; rfl
  subst hp
  obtain ⟨ht, hspot⟩ : t.quoted = true ∧ ¬(s.field.getLast? = some cr ∧ ch = lf) := by
    cases h.spot with
    | quoted ht hspot => exact ⟨ht, by simpa using hspot⟩
  have hput := h.sync.put _ hspot
  have hlines : unixLines (ch :: rest) = (if ch = cr then lf else ch) :: unixLines rest := by
    by_cases hcr : ch = cr
    · subst hcr
      rw [unixLines_cr fun hhead => hcut ⟨rfl, hhead⟩, if_pos rfl]
    · rw [unixLines_cons hcr, if_neg hcr]
  have hne : (if ch = cr then lf else ch) ≠ dquote := by split <;> simp [hch]
  have hcli := h.cli
  rw [hlines, Cli.scan_inside h.inQuotes hne] at hcli
  refine ⟨?_, h.inQuotes, ?_, ?_, ?_, hcli⟩
  · exact ⟨hput.records, hput.record, hput.field⟩
  · exact .quoted ht (by simpa [Web.Scan.put] using hcut)
  · rw [← Spot.next_inside hch, ← quoteAfterBlanks_tail (by simp)]
    exact h.blank
  · rw [← Web.scan_inside hch]
    exact h.page

/-- A CRLF inside quotes is two characters to the page and one to the command line. -/
theorem InStep.crlf (h : InStep out out' blank (cr :: lf :: rest) true p s t) :
    InStep out out' blank rest true .quoted ((s.put cr).put lf) (t.inside lf) := by
  have hp : p = .quoted := by cases h.spot; rfl
  subst hp
  have ht : t.quoted = true := by cases h.spot with | quoted ht => exact ht
  have hcli := h.cli
  rw [unixLines_crlf, Cli.scan_inside h.inQuotes lf_ne_dquote] at hcli
  have hfield : unixLines (s.field ++ [cr, lf]) = unixLines s.field ++ unixLines [cr, lf] :=
    unixLines_append (by simp)
  refine ⟨⟨h.sync.records, h.sync.record, ?_⟩, h.inQuotes, ?_, ?_, ?_, hcli⟩
  · simp [Web.Scan.put, Cli.Scan.inside, Cli.Scan.put, hfield, h.sync.field, unixLines]
  · exact .quoted ht (by simp [Web.Scan.put])
  · have hblank := h.blank
    rw [quoteAfterBlanks_tail (by simp), quoteAfterBlanks_tail (by simp)] at hblank
    simpa [Spot.next] using hblank
  · rw [← Web.scan_inside lf_ne_dquote, ← Web.scan_inside cr_ne_dquote]
    exact h.page

/-- One step of the command line, and one or two of the page. -/
theorem InStep.step (h : InStep out out' blank (ch :: rest) quoted p s t)
    (hb : ¬(p = .blanks ∧ ch = dquote)) :
    ∃ read rest' quoted' p' s' t', rest = read ++ rest' ∧
      InStep out out' blank rest' quoted' p' s' t' := by
  cases quoted with
  | false =>
    cases hch : isSpecial ch with
    | false => exact ⟨[], rest, _, _, _, _, rfl, h.put hch⟩
    | true =>
      rcases (isSpecial_eq ch).1 hch with rfl | rfl | rfl | rfl
      · exact ⟨[], rest, _, _, _, _, rfl, h.openQuote fun hp => hb ⟨hp, rfl⟩⟩
      · exact ⟨[], rest, _, _, _, _, rfl, h.comma⟩
      · by_cases hhead : rest.head? = some lf
        · obtain ⟨rest, rfl⟩ : ∃ tail, rest = lf :: tail := by
            cases rest <;> simp_all
          exact ⟨[lf], rest, _, _, _, _, rfl, h.lineBreak [lf] (.inl (.inr rfl))⟩
        · exact ⟨[], rest, _, _, _, _, rfl, h.lineBreak [] (.inr ⟨rfl, rfl, hhead⟩)⟩
      · exact ⟨[], rest, _, _, _, _, rfl, h.lineBreak [] (.inl (.inl rfl))⟩
  | true =>
    by_cases hch : ch = dquote
    · subst hch
      by_cases hhead : rest.head? = some dquote
      · obtain ⟨rest, rfl⟩ : ∃ tail, rest = dquote :: tail := by
          cases rest <;> simp_all
        exact ⟨[dquote], rest, _, _, _, _, rfl, h.doubled⟩
      · exact ⟨[], rest, _, _, _, _, rfl, h.closeQuote hhead⟩
    · by_cases hcut : ch = cr ∧ rest.head? = some lf
      · obtain ⟨rfl, hhead⟩ := hcut
        obtain ⟨rest, rfl⟩ : ∃ tail, rest = lf :: tail := by
          cases rest <;> simp_all
        exact ⟨[lf], rest, _, _, _, _, rfl, h.crlf⟩
      · exact ⟨[], rest, _, _, _, _, rfl, h.inside hch hcut⟩

/-- Readers in step stay so to the end of the text, or to the first quote that stands after nothing
but blanks. A step may take two characters, hence the induction on a bound of the length. -/
theorem InStep.run (n : Nat) (hn : rest.length ≤ n) (h : InStep out out' blank rest quoted p s t) :
    (blank = none ∧ rows out = rows (Cli.fieldsOf out')) ∨
      ∃ rest' s' t', blank = some rest' ∧
        InStep out out' blank (dquote :: rest') false .blanks s' t' := by
  induction n generalizing rest quoted p s t with
  | zero =>
    obtain rfl : rest = [] := List.length_eq_zero_iff.1 (Nat.le_zero.1 hn)
    exact .inl ⟨h.blank.symm, h.end⟩
  | succ n ih =>
    cases rest with
    | nil => exact .inl ⟨h.blank.symm, h.end⟩
    | cons ch rest =>
      by_cases hb : p = .blanks ∧ ch = dquote
      · obtain ⟨rfl, rfl⟩ := hb
        have hq : quoted = false := by cases h.spot; rfl
        subst hq
        exact .inr ⟨rest, s, t, by rw [← h.blank]; simp [quoteAfterBlanks], h⟩
      · obtain ⟨read, rest', quoted', p', s', t', rfl, h'⟩ := h.step hb
        have hle : rest'.length ≤ n := by
          simp only [List.length_cons, List.length_append] at hn
          omega
        exact ih hle h'

theorem inStep_start {text : Str} (hpage : Web.parseCsvRecords text = .ok out)
    (hcli : Cli.parseCsv text = .ok out') :
    InStep out out' (quoteAfterBlanks .start (stripBom text)) (stripBom text) false .start {} {} where
  sync := ⟨rfl, rfl, rfl⟩
  inQuotes := rfl
  spot := .start rfl rfl
  blank := rfl
  page := hpage
  cli := hcli

end BulkCsv
