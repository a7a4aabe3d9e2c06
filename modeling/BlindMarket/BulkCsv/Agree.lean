import BlindMarket.BulkCsv.Step

/-!
# One CSV format

A quote after nothing but blanks is what keeps the two readers apart: without one
they agree, and where one stands on the last line they do not.
-/
namespace BulkCsv

open JsText

variable {rest value : Str} {s : Web.Scan} {t : Cli.Scan} {out : List (List Str)}
  {out' : List Cli.CsvRecord} {quoted : Bool}

/-! ### The last line -/

def OneLine (text : Str) : Prop := cr ∉ text ∧ lf ∉ text

instance (text : Str) : Decidable (OneLine text) := inferInstanceAs (Decidable (_ ∧ _))

@[simp] theorem oneLine_cons {ch : UInt16} :
    OneLine (ch :: rest) ↔ ch ≠ cr ∧ ch ≠ lf ∧ OneLine rest := by
  simp only [OneLine, List.mem_cons, not_or, ne_eq, eq_comm (a := ch)]
  tauto

theorem Web.endRecord_of_ne (h : s.record ≠ [] ∨ s.field ≠ []) :
    s.endRecord.records = s.records ++ [s.record ++ [s.field]] := by
  have hne : s.record ++ [s.field] ≠ [[]] := by
    intro heq
    cases hr : s.record <;> simp_all
  simp [Scan.endRecord, hne]

/-- On the last line the record that is begun becomes the last one. -/
theorem Web.scan_more (hline : OneLine rest) (hs : s.record ≠ [])
    (h : Web.scan quoted s rest = .ok out) : ∃ more, out = s.records ++ [s.record ++ more] := by
  fun_induction Web.scan quoted s rest with
  | case1 s => cases h
  | case2 s hend =>
    rw [Web.endRecord_of_ne (.inl hs)] at h
    exact ⟨[s.field], (Except.ok.inj h).symm⟩
  | case3 s hend => exact absurd (.inr (.inl hs)) hend
  | case4 s ih => exact ih (oneLine_cons.1 hline).2.2 hs h
  | case5 s rest ih => exact ih (oneLine_cons.1 (oneLine_cons.1 hline).2.2).2.2 hs h
  | case6 => cases h
  | case7 s next rest hne hd ih => exact ih (oneLine_cons.1 hline).2.2 hs h
  | case8 s ch rest hne ih => exact ih (oneLine_cons.1 hline).2.2 hs h
  | case9 s ch rest hopen ih => exact ih (oneLine_cons.1 hline).2.2 hs h
  | case10 s rest hopen ih =>
    obtain ⟨more, rfl⟩ := ih (oneLine_cons.1 hline).2.2 (by simp [Scan.endField]) h
    exact ⟨s.field :: more, by simp [Scan.endField]⟩
  | case11 s ch hopen hc hbreak ih =>
    obtain ⟨hcr, hlf, -⟩ := oneLine_cons.1 hline
    exact absurd hbreak (by tauto)
  | case12 s ch hopen hc hbreak next rest hcrlf ih =>
    obtain ⟨hcr, hlf, -⟩ := oneLine_cons.1 hline
    exact absurd hbreak (by tauto)
  | case13 s ch hopen hc hbreak next rest hcrlf ih =>
    obtain ⟨hcr, hlf, -⟩ := oneLine_cons.1 hline
    exact absurd hbreak (by tauto)
  | case14 s ch rest hopen hc hbreak ih => exact ih (oneLine_cons.1 hline).2.2 hs h

/-- On the last line the page reads a field that is begun up to the next comma. -/
theorem Web.scan_field (hline : OneLine rest) (hf : s.field ≠ [])
    (h : Web.scan false s rest = .ok out) :
    ∃ more, out = s.records ++
      [s.record ++ (s.field ++ rest.takeWhile fun ch => ch ≠ comma) :: more] := by
  induction rest generalizing s with
  | nil =>
    rw [Web.scan_end, Web.endRecord_of_ne (.inr hf)] at h
    exact ⟨[], by simp [← Except.ok.inj h]⟩
  | cons ch rest ih =>
    obtain ⟨hcr, hlf, hrest⟩ := oneLine_cons.1 hline
    by_cases hc : ch = comma
    · subst hc
      rw [Web.scan_comma] at h
      obtain ⟨more, rfl⟩ := Web.scan_more (s := s.endField) hrest (by simp [Scan.endField]) h
      exact ⟨more, by simp [Scan.endField]⟩
    · have hput : Web.scan false s (ch :: rest) = Web.scan false (s.put ch).start rest := by
        rw [Web.scan.eq_def]
        simp [hf, hc, hcr, hlf]
      rw [hput] at h
      obtain ⟨more, rfl⟩ := ih hrest (by simp [Scan.put, Scan.start]) h
      exact ⟨more, by simp [Scan.put, Scan.start, hc]⟩

theorem Cli.scan_more (hline : OneLine rest) (ht : t.fields ≠ [])
    (h : Cli.scan t rest = .ok out') :
    ∃ more, Cli.fieldsOf out' = Cli.fieldsOf t.records ++ [t.fields ++ more] := by
  fun_induction Cli.scan t rest with
  | case1 => cases h
  | case2 t _ hend =>
    obtain rfl := Except.ok.inj h
    exact ⟨[t.field], by simp [Scan.endRecord, Scan.endField]⟩
  | case3 t _ hend => exact absurd (.inr (.inr ht)) hend
  | case4 t _ ih => exact ih (oneLine_cons.1 hline).2.2 ht h
  | case5 t _ rest ih => exact ih (oneLine_cons.1 (oneLine_cons.1 hline).2.2).2.2 ht h
  | case6 t _ next rest hne ih => exact ih (oneLine_cons.1 hline).2.2 ht h
  | case7 t c rest _ hne ih => exact ih (oneLine_cons.1 hline).2.2 ht h
  | case8 t rest _ ih =>
    obtain ⟨more, hmore⟩ := ih (oneLine_cons.1 hline).2.2 (by simp [Scan.endField]) h
    exact ⟨t.field :: more, by simp [hmore, Scan.endField]⟩
  | case9 => simp at hline
  | case10 t c rest _ _ _ _ _ ih => exact ih (oneLine_cons.1 hline).2.2 ht h
  | case11 => cases h
  | case12 => cases h
  | case13 t rest _ _ _ _ _ ih => exact ih (oneLine_cons.1 hline).2.2 ht h
  | case14 t c rest _ _ _ _ _ ih => exact ih (oneLine_cons.1 hline).2.2 ht h

/-- On the last line the command line reads a closed field as it is. -/
theorem Cli.scan_closed (hline : OneLine rest) (hin : t.inQuotes = false) (hq : t.quoted = true)
    (h : Cli.scan t rest = .ok out') :
    ∃ more, Cli.fieldsOf out' = Cli.fieldsOf t.records ++ [t.fields ++ t.field :: more] := by
  induction rest with
  | nil =>
    rw [Cli.scan, if_neg (by simp [hin]), if_pos (.inr (.inl hq))] at h
    exact ⟨[], by simp [← Except.ok.inj h, Scan.endRecord, Scan.endField]⟩
  | cons c rest ih =>
    obtain ⟨-, hlf, hrest⟩ := oneLine_cons.1 hline
    by_cases hc : c = comma
    · subst hc
      rw [Cli.scan_comma hin] at h
      obtain ⟨more, hmore⟩ := Cli.scan_more (t := t.endField) hrest (by simp [Scan.endField]) h
      exact ⟨more, by simp [hmore, Scan.endField]⟩
    · rw [Cli.scan.eq_def] at h
      by_cases hsp : c = space ∨ c = tab
      · simp [hin, hq, hc, hlf, hsp] at h
        exact ih hrest h
      · simp [hin, hq, hc, hlf, hsp] at h

/-- On the last line the command line reads a quoted field to its closing quote. What it adds holds
a comma, or no more quotes than stand before the next comma. -/
theorem Cli.scan_quoted (hline : OneLine rest) (hin : t.inQuotes = true) (hq : t.quoted = true)
    (h : Cli.scan t rest = .ok out') :
    ∃ added more,
      Cli.fieldsOf out' = Cli.fieldsOf t.records ++ [t.fields ++ (t.field ++ added) :: more] ∧
      (comma ∈ added ∨
        added.count dquote ≤ (rest.takeWhile fun ch => ch ≠ comma).count dquote) := by
  obtain ⟨n, hn⟩ : ∃ n, rest.length ≤ n := ⟨_, le_rfl⟩
  induction n generalizing rest t with
  | zero =>
    obtain rfl : rest = [] := List.length_eq_zero_iff.1 (Nat.le_zero.1 hn)
    simp [Cli.scan, hin] at h
  | succ n ih =>
    cases rest with
    | nil => simp [Cli.scan, hin] at h
    | cons c rest =>
      have hrest := (oneLine_cons.1 hline).2.2
      have hle : rest.length ≤ n := Nat.le_of_succ_le_succ hn
      by_cases hc : c = dquote
      · subst hc
        by_cases hhead : rest.head? = some dquote
        · obtain ⟨rest, rfl⟩ : ∃ tail, rest = dquote :: tail := by
            cases rest <;> simp_all
          rw [Cli.scan_doubled hin] at h
          obtain ⟨added, more, hfields, hadded⟩ := ih (t := t.put dquote)
            (oneLine_cons.1 hrest).2.2 hin hq h (by simp at hle; omega)
          refine ⟨dquote :: added, more, by simpa [Scan.put] using hfields, ?_⟩
          rcases hadded with hmem | hcount
          · exact .inl (by simp [hmem])
          · exact .inr (by simp at hcount ⊢; omega)
        · rw [Cli.scan_closing hin hhead] at h
          obtain ⟨more, hfields⟩ := Cli.scan_closed (t := { t with inQuotes := false }) hrest rfl hq h
          exact ⟨[], more, by simpa using hfields, .inr (by simp)⟩
      · rw [Cli.scan_inside hin hc] at h
        obtain ⟨added, more, hfields, hadded⟩ := ih (t := t.inside c) hrest hin hq h hle
        refine ⟨c :: added, more, by simpa [Scan.inside, Scan.put] using hfields, ?_⟩
        by_cases hcomma : c = comma
        · exact .inl (by simp [hcomma])
        · rcases hadded with hmem | hcount
          · exact .inl (by simp [hmem])
          · exact .inr (by simpa [hcomma, hc] using hcount)

/-! ### Plain fields -/

theorem count_plain {ch : UInt16} (hsp : isSpace ch = false) (value : Str) :
    (plain value).count ch = value.count ch := by
  have hne : ch ≠ cr ∧ ch ≠ lf := by
    constructor <;> rintro rfl <;> exact absurd hsp (by decide)
  rw [plain, count_trim hsp]
  fun_induction unixLines value with
  | case1 => rfl
  | case2 x => by_cases hx : x = cr <;> simp [hx, hne.1.symm, hne.2.symm]
  | case3 x next value hcrlf ih =>
    obtain ⟨rfl, rfl⟩ := hcrlf
    simp [ih, hne.1.symm, hne.2.symm]
  | case4 x next value hcrlf ih =>
    rw [List.count_cons, ih, List.count_cons (a := ch) (b := x)]
    by_cases hx : x = cr <;> simp [hx, hne.1.symm, hne.2.symm]

theorem rows_single {record : List Str} (h : rows [record] ≠ []) :
    rows [record] = [record.map plain] := by
  rw [rows, List.map_cons, List.map_nil, List.filter_singleton] at h ⊢
  cases hany : (record.map plain).any fun field => !field.isEmpty with
  | true => rfl
  | false =>
    rw [hany] at h
    exact absurd rfl h

/-- A field as the page reads it where the command line reads another one. -/
theorem rows_record_ne {before before' more more' : List Str} {field field' : Str}
    (hbefore : before.map unixLines = before') (hquote : 0 < field.count dquote)
    (hne : comma ∈ field' ∧ comma ∉ field ∨ field'.count dquote < field.count dquote) :
    rows [before ++ field :: more] ≠ rows [before' ++ field' :: more'] := by
  intro heq
  have hfield : plain field ≠ [] := by
    intro hnil
    rw [← count_plain (by decide : isSpace dquote = false), hnil] at hquote
    simp at hquote
  have hrows : rows [before ++ field :: more] ≠ [] := by
    simp [rows, hfield]
  have hmap := rows_single hrows
  rw [heq, rows_single (heq ▸ hrows)] at hmap
  simp only [List.map_append, List.map_cons, List.cons.injEq, and_true] at hmap
  have hlen : (before'.map plain).length = (before.map plain).length := by simp [← hbefore]
  have hplain : plain field' = plain field := by
    have htail := (List.append_inj hmap hlen).2
    simpa using (List.cons.inj htail).1
  rcases hne with ⟨hmem, hnot⟩ | hlt
  · have hcount : field'.count comma = field.count comma := by
      rw [← count_plain (by decide : isSpace comma = false), hplain, count_plain (by decide)]
    rw [List.count_eq_zero_of_not_mem hnot] at hcount
    exact List.count_eq_zero.1 hcount hmem
  · rw [← count_plain (by decide : isSpace dquote = false), hplain, count_plain (by decide)] at hlt
    exact absurd hlt (lt_irrefl _)

variable {blank : Option Str}

/-- Where a quote follows nothing but blanks on the last line, the readers' rows differ. -/
theorem InStep.rows_differ (h : InStep out out' blank (dquote :: rest) false .blanks s t)
    (hline : OneLine rest) : rows out ≠ rows (Cli.fieldsOf out') := by
  cases h.spot with
  | blanks hf hall hcr ht =>
    have htf : trim t.field = [] := by
      rw [← h.sync.field, unixLines_id hcr, trim_blank hall]
    obtain ⟨more, hout⟩ := Web.scan_field (by simp [hline]) hf h.page
    have hcli := h.cli
    rw [unixLines_cons dquote_ne_cr, unixLines_id hline.1, Cli.scan_open h.inQuotes ht htf] at hcli
    obtain ⟨added, more', hout', hadded⟩ := Cli.scan_quoted
      (t := { t with field := [], quoted := true, inQuotes := true }) hline rfl rfl hcli
    simp only [List.nil_append] at hout'
    rw [hout, hout', rows_append, rows_append, h.sync.records]
    intro heq
    refine rows_record_ne h.sync.record ?_ ?_ (List.append_cancel_left heq)
    · simp
    · rcases hadded with hmem | hcount
      · refine .inl ⟨hmem, fun hc => ?_⟩
        rcases List.mem_append.1 hc with hc | hc
        · exact absurd (hall _ hc) (by decide)
        · simpa using List.mem_takeWhile_imp hc
      · refine .inr ?_
        rw [List.count_append, List.takeWhile_cons_of_pos (by decide), List.count_cons_self]
        omega

/-! ### The format -/

/-- Over several lines the rows may be the same by chance: here the command line reads two records,
of which one is blank, and the page two others. -/
example :
    let text : Str := [space, dquote, lf, dquote, dquote, lf, dquote, lf, dquote, lf, dquote, dquote,
      lf, space, dquote]
    quoteAfterBlanks .start text ≠ none ∧
      ∃ out out', Web.parseCsvRecords text = .ok out ∧ Cli.parseCsv text = .ok out' ∧
        rows out = rows (Cli.fieldsOf out') :=
  ⟨by decide, _, _, by rfl, by rfl, by decide⟩

end BulkCsv
