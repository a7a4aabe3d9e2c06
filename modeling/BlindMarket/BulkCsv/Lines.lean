import BlindMarket.BulkCsv.Web
import BlindMarket.BulkCsv.Cli

/-!
# Line breaks

The command line reads a text with its line breaks made line feeds, which
commutes with writing a record. So it accepts whatever either client writes.
-/
namespace BulkCsv

open JsText

variable {rest value sep last : Str}

/-! ### Line breaks -/

example : unixLines [cr, lf] = [lf] := by simp [unixLines]

theorem unixLines_cons {ch : UInt16} (h : ch ≠ cr) (rest : Str) :
    unixLines (ch :: rest) = ch :: unixLines rest := by
  cases rest <;> simp [unixLines, h]

@[simp] theorem unixLines_crlf (rest : Str) :
    unixLines (cr :: lf :: rest) = lf :: unixLines rest := by
  simp [unixLines]

theorem unixLines_cr (h : rest.head? ≠ some lf) :
    unixLines (cr :: rest) = lf :: unixLines rest := by
  cases rest with
  | nil => simp [unixLines]
  | cons next rest =>
    have hnext : next ≠ lf := by simpa using h
    simp [unixLines, hnext]

theorem unixLines_text (h : cr ∉ value) (rest : Str) :
    unixLines (value ++ rest) = value ++ unixLines rest := by
  induction value with
  | nil => rfl
  | cons ch value ih =>
    have hch : ch ≠ cr ∧ cr ∉ value := ⟨fun hc => h (by simp [hc]), fun hv => h (by simp [hv])⟩
    rw [List.cons_append, unixLines_cons hch.1, ih hch.2, List.cons_append]

theorem unixLines_id (h : cr ∉ value) : unixLines value = value := by
  simpa [unixLines] using unixLines_text h []

theorem cr_not_mem_unixLines (value : Str) : cr ∉ unixLines value := by
  fun_induction unixLines value with
  | case1 => simp
  | case2 ch => by_cases hch : ch = cr <;> simp [hch, eq_comm]
  | case3 ch next rest h ih => simp [ih]
  | case4 ch next rest h ih => by_cases hch : ch = cr <;> simp [hch, ih, eq_comm]

@[simp] theorem unixLines_unixLines (value : Str) : unixLines (unixLines value) = unixLines value :=
  unixLines_id (cr_not_mem_unixLines value)

/-- Line breaks are read alike in two parts unless a CRLF is cut between them. -/
theorem unixLines_append (h : ¬(value.getLast? = some cr ∧ rest.head? = some lf)) :
    unixLines (value ++ rest) = unixLines value ++ unixLines rest := by
  fun_induction unixLines value with
  | case1 => rfl
  | case2 ch =>
    by_cases hch : ch = cr
    · subst hch
      simpa using unixLines_cr fun hl => h ⟨rfl, hl⟩
    · simp [hch, unixLines_cons hch]
  | case3 ch next value hcrlf ih =>
    obtain ⟨rfl, rfl⟩ := hcrlf
    have hvalue : ¬(value.getLast? = some cr ∧ rest.head? = some lf) := by
      rintro ⟨hv, hr⟩
      refine h ⟨?_, hr⟩
      cases value <;> simp_all [List.getLast?_cons_cons]
    simp [ih hvalue]
  | case4 ch next value hcrlf ih =>
    have hvalue : ¬((next :: value).getLast? = some cr ∧ rest.head? = some lf) := by
      rintro ⟨hv, hr⟩
      exact h ⟨by rw [List.getLast?_cons_cons, hv], hr⟩
    have ih := ih hvalue
    by_cases hch : ch = cr
    · subst hch
      have hnext : (next :: value ++ rest).head? ≠ some lf := fun hl => hcrlf ⟨rfl, by simpa using hl⟩
      rw [List.cons_append, unixLines_cr hnext, ih]
      simp
    · rw [List.cons_append, unixLines_cons hch, ih]
      simp [hch]

theorem unixLines_double (value : Str) : unixLines (double value) = double (unixLines value) := by
  fun_induction unixLines value with
  | case1 => rfl
  | case2 ch =>
    by_cases hq : ch = dquote
    · subst hq; decide
    · by_cases hch : ch = cr <;> simp [double, hq, hch, unixLines]
  | case3 ch next value hcrlf ih =>
    obtain ⟨rfl, rfl⟩ := hcrlf
    simp [double_cons, ih]
  | case4 ch next value hcrlf ih =>
    by_cases hch : ch = cr
    · subst hch
      have hnext : next ≠ lf := fun hn => hcrlf ⟨rfl, hn⟩
      have hhead : (double (next :: value)).head? ≠ some lf := by
        rw [double_cons]
        by_cases hq : next = dquote <;> simp [hq, hnext]
      rw [double_cons, if_neg cr_ne_dquote, List.singleton_append, unixLines_cr hhead, ih,
        if_pos rfl, double_cons, if_neg lf_ne_dquote, List.singleton_append]
    · rw [if_neg hch, double_cons ch, double_cons ch, ← ih]
      by_cases hq : ch = dquote
      · subst hq
        simp [unixLines_cons]
      · simp [hq, unixLines_cons hch]

theorem any_special_unixLines (value : Str) :
    (unixLines value).any isSpecial = value.any isSpecial := by
  fun_induction unixLines value with
  | case1 => rfl
  | case2 ch => by_cases hch : ch = cr <;> simp [hch, isSpecial]
  | case3 ch next value hcrlf ih =>
    obtain ⟨rfl, rfl⟩ := hcrlf
    simp [isSpecial]
  | case4 ch next value hcrlf ih =>
    rw [List.any_cons, ih, List.any_cons (a := ch)]
    by_cases hch : ch = cr <;> simp [hch, isSpecial]

/-! ### Rendered text -/

theorem unixLines_csvCell (value rest : Str) :
    unixLines (csvCell value ++ rest) = csvCell (unixLines value) ++ unixLines rest := by
  have hspecial := any_special_unixLines value
  cases hv : value.any isSpecial with
  | false =>
    have hcr : cr ∉ value := by
      intro hmem
      have hany : value.any isSpecial = true := List.any_eq_true.2 ⟨cr, hmem, by decide⟩
      simp [hv] at hany
    rw [csvCell_plain hv, csvCell_plain (hspecial.trans hv), unixLines_text hcr, unixLines_id hcr]
  | true =>
    rw [csvCell_quoted hv, csvCell_quoted (hspecial.trans hv)]
    simp only [List.cons_append, List.append_assoc, List.nil_append]
    rw [unixLines_cons dquote_ne_cr, unixLines_append (by simp), unixLines_cons dquote_ne_cr,
      unixLines_double]

theorem unixLines_csvLine (record : List Str) (rest : Str) :
    unixLines (csvLine record ++ rest) = csvLine (record.map unixLines) ++ unixLines rest := by
  match record with
  | [] => rfl
  | [value] => exact unixLines_csvCell value rest
  | value :: next :: record =>
    rw [csvLine_cons, List.append_assoc, unixLines_csvCell, List.cons_append,
      unixLines_cons comma_ne_cr, unixLines_csvLine (next :: record) rest]
    simp [csvLine_cons]

theorem unixLines_break {eol : Str} (h : IsBreak eol) (rest : Str) :
    unixLines (eol ++ rest) = lf :: unixLines rest := by
  rcases h with rfl | rfl
  · exact unixLines_cons lf_ne_cr rest
  · exact unixLines_crlf rest

/-- Either line break renders as a line feed to the command line. -/
theorem unixLines_render (hsep : IsBreak sep) (hlast : last = [] ∨ IsBreak last)
    (records : List (List Str)) :
    ∃ last', (last' = [] ∨ last' = [lf]) ∧
      unixLines (render sep last records) = render [lf] last' (records.map (·.map unixLines)) := by
  have hend : ∃ last', (last' = [] ∨ last' = [lf]) ∧ unixLines last = last' := by
    rcases hlast with rfl | hl
    · exact ⟨[], .inl rfl, rfl⟩
    · exact ⟨[lf], .inr rfl, by simpa [unixLines] using unixLines_break hl []⟩
  obtain ⟨last', hlast', heq⟩ := hend
  refine ⟨last', hlast', ?_⟩
  induction records with
  | nil => simpa using heq
  | cons record records ih =>
    match records with
    | [] => rw [render_single, unixLines_csvLine, heq, List.map_cons, List.map_nil, render_single]
    | next :: records =>
      rw [render_cons, unixLines_csvLine, unixLines_break hsep, ih]
      simp [render_cons]

@[simp] theorem plain_unixLines (value : Str) : plain (unixLines value) = plain value := by
  simp [plain]

theorem rows_unixLines (records : List (List Str)) :
    rows (records.map (·.map unixLines)) = rows records := by
  have hplain : plain ∘ unixLines = plain := funext plain_unixLines
  simp [rows, hplain]

/-- The command line accepts what either client writes, and gives back its records. -/
theorem Cli.parse_render (hsep : IsBreak sep) (hlast : last = [] ∨ IsBreak last)
    {records : List (List Str)}
    (hbom : ∀ record ∈ records.head?, ∀ value ∈ record.head?, value.head? ≠ some bom) :
    ∃ out, Cli.parseCsv (render sep last records) = .ok out ∧
      rows (Cli.fieldsOf out) = rows records := by
  obtain ⟨last', hlast', heq⟩ := unixLines_render hsep hlast records
  obtain ⟨out, hout, hrows⟩ := Cli.scan_render hlast' (records.map (·.map unixLines))
    (s := {}) rfl rfl rfl rfl
  refine ⟨out, ?_, ?_⟩
  · rw [Cli.parseCsv, stripBom_of_head (render_head hsep hlast hbom), heq, hout]
  · rw [hrows, rows_unixLines]
    rfl

theorem rows_kept (records : List (List Str)) : rows (records.filter Web.kept) = rows records := by
  induction records with
  | nil => rfl
  | cons record records ih =>
    match record with
    | [] => simpa [Web.kept] using ih
    | [[]] => simpa [Web.kept] using ih
    | (ch :: value) :: record =>
      rw [List.filter_cons_of_pos (by simp [Web.kept]), ← List.singleton_append, rows_append, ih,
        ← rows_append, List.singleton_append]
    | [] :: value :: record =>
      rw [List.filter_cons_of_pos (by simp [Web.kept]), ← List.singleton_append, rows_append, ih,
        ← rows_append, List.singleton_append]

end BulkCsv
