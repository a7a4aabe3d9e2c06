import BlindMarket.Support.JsText

/-!
# CSV text

Both clients write a field in the same way, and both drop one byte-order mark in
front.
-/
namespace BulkCsv

open JsText

def tab : UInt16 := 9
def lf : UInt16 := 10
def cr : UInt16 := 13
def space : UInt16 := 32
def dquote : UInt16 := 34
def comma : UInt16 := 44
def bom : UInt16 := 0xFEFF

/-- `/[",\r\n]/` -/
def isSpecial (ch : UInt16) : Bool := ch = dquote ∨ ch = comma ∨ ch = cr ∨ ch = lf

/-- `text.replace(/^\uFEFF/, '')` -/
def stripBom : Str → Str
  | [] => []
  | ch :: rest => if ch = bom then rest else ch :: rest

/-- `text.replace(/\r\n?/g, '\n')` -/
def unixLines : Str → Str
  | [] => []
  | [ch] => [if ch = cr then lf else ch]
  | ch :: next :: rest =>
    if ch = cr ∧ next = lf then lf :: unixLines rest
    else (if ch = cr then lf else ch) :: unixLines (next :: rest)

/-- `value.replace(/"/g, '""')` -/
def double (value : Str) : Str := value.flatMap fun ch => if ch = dquote then [dquote, dquote] else [ch]

/-- `csvCell` of the page, and `csvField` of the CLI on a string. -/
def csvCell (value : Str) : Str :=
  if value.any isSpecial then dquote :: double value ++ [dquote] else value

/-- `parts.join(sep)` -/
def join (sep : Str) : List Str → Str
  | [] => []
  | [part] => part
  | part :: next :: parts => part ++ sep ++ join sep (next :: parts)

/-- A record as one line. -/
def csvLine (record : List Str) : Str := join [comma] (record.map csvCell)

/-- Records between `sep`, with `last` after the last one. -/
def render (sep last : Str) (records : List (List Str)) : Str :=
  join sep (records.map csvLine) ++ last

/-- A line break as either client writes or reads it. -/
def IsBreak (eol : Str) : Prop := eol = [lf] ∨ eol = [cr, lf]

/-- A field up to line breaks inside it and blanks around it. -/
def plain (field : Str) : Str := trim (unixLines field)

/-- The records with a field that is not blank, each field up to line breaks and blanks. -/
def rows (records : List (List Str)) : List (List Str) :=
  (records.map (·.map plain)).filter (·.any fun field => !field.isEmpty)

/-! ### The alphabet -/

@[simp] theorem isSpecial_eq (ch : UInt16) :
    isSpecial ch = true ↔ ch = dquote ∨ ch = comma ∨ ch = cr ∨ ch = lf := by simp [isSpecial]

theorem not_special {ch : UInt16} (h : isSpecial ch = false) :
    ch ≠ dquote ∧ ch ≠ comma ∧ ch ≠ cr ∧ ch ≠ lf := by
  have h' : ¬isSpecial ch = true := by simp [h]
  rw [isSpecial_eq] at h'
  tauto

@[simp] theorem comma_ne_dquote : comma ≠ dquote := by decide
@[simp] theorem cr_ne_dquote : cr ≠ dquote := by decide
@[simp] theorem lf_ne_dquote : lf ≠ dquote := by decide
@[simp] theorem cr_ne_comma : cr ≠ comma := by decide
@[simp] theorem lf_ne_comma : lf ≠ comma := by decide
@[simp] theorem cr_ne_lf : cr ≠ lf := by decide
@[simp] theorem lf_ne_cr : lf ≠ cr := by decide
@[simp] theorem dquote_ne_cr : dquote ≠ cr := by decide
@[simp] theorem comma_ne_cr : comma ≠ cr := by decide
@[simp] theorem dquote_ne_comma : dquote ≠ comma := by decide
@[simp] theorem dquote_ne_lf : dquote ≠ lf := by decide
@[simp] theorem comma_ne_lf : comma ≠ lf := by decide
@[simp] theorem dquote_ne_bom : dquote ≠ bom := by decide
@[simp] theorem comma_ne_bom : comma ≠ bom := by decide
@[simp] theorem cr_ne_bom : cr ≠ bom := by decide
@[simp] theorem lf_ne_bom : lf ≠ bom := by decide

/-! ### Writing a field -/

@[simp] theorem double_nil : double [] = [] := rfl

theorem double_cons (ch : UInt16) (value : Str) :
    double (ch :: value) = (if ch = dquote then [dquote, dquote] else [ch]) ++ double value := rfl

theorem csvCell_plain {value : Str} (h : value.any isSpecial = false) : csvCell value = value := by
  simp only [csvCell, h, Bool.false_eq_true, if_false]

theorem csvCell_quoted {value : Str} (h : value.any isSpecial = true) :
    csvCell value = dquote :: double value ++ [dquote] := by
  simp only [csvCell, h, if_true]

@[simp] theorem csvLine_nil : csvLine [] = [] := rfl

@[simp] theorem csvLine_single (value : Str) : csvLine [value] = csvCell value := rfl

theorem csvLine_cons (value next : Str) (record : List Str) :
    csvLine (value :: next :: record) = csvCell value ++ comma :: csvLine (next :: record) := by
  simp [csvLine, join]

@[simp] theorem render_nil (sep last : Str) : render sep last [] = last := rfl

@[simp] theorem render_single (sep last : Str) (record : List Str) :
    render sep last [record] = csvLine record ++ last := rfl

theorem render_cons (sep last : Str) (record next : List Str) (records : List (List Str)) :
    render sep last (record :: next :: records) =
      csvLine record ++ (sep ++ render sep last (next :: records)) := by
  simp [render, join]

/-! ### The byte-order mark -/

theorem stripBom_of_head {text : Str} (h : text.head? ≠ some bom) : stripBom text = text := by
  cases text with
  | nil => rfl
  | cons ch rest =>
    have hch : ch ≠ bom := by simpa using h
    simp [stripBom, hch]

theorem csvCell_head {value : Str} (h : value.head? ≠ some bom) :
    (csvCell value).head? ≠ some bom := by
  cases hv : value.any isSpecial with
  | false => rwa [csvCell_plain hv]
  | true =>
    rw [csvCell_quoted hv]
    simp

theorem head_append {a b : Str} (ha : a.head? ≠ some bom) (hb : b.head? ≠ some bom) :
    (a ++ b).head? ≠ some bom := by
  cases a with
  | nil => exact hb
  | cons ch rest => exact ha

/-- A rendering starts with a byte-order mark only where its first field does. -/
theorem render_head {sep last : Str} {records : List (List Str)}
    (hsep : IsBreak sep) (hlast : last = [] ∨ IsBreak last)
    (h : ∀ record ∈ records.head?, ∀ value ∈ record.head?, value.head? ≠ some bom) :
    (render sep last records).head? ≠ some bom := by
  have hbreak : ∀ eol : Str, IsBreak eol → eol.head? ≠ some bom := by
    rintro eol (rfl | rfl) <;> decide
  have hlast' : last.head? ≠ some bom := by
    rcases hlast with rfl | hl
    · simp
    · exact hbreak last hl
  have hline : ∀ record : List Str, (∀ value ∈ record.head?, value.head? ≠ some bom) →
      (csvLine record).head? ≠ some bom := by
    intro record hr
    match record with
    | [] => simp
    | [value] => exact csvCell_head (hr value rfl)
    | value :: next :: record =>
      rw [csvLine_cons]
      exact head_append (csvCell_head (hr value rfl)) (by simp)
  match records with
  | [] => exact hlast'
  | [record] => exact head_append (hline record (h record rfl)) hlast'
  | record :: next :: records =>
    rw [render_cons]
    refine head_append (hline record (h record rfl)) ?_
    rcases hsep with rfl | rfl <;> simp

/-! ### Rows -/

@[simp] theorem rows_nil : rows [] = [] := rfl

@[simp] theorem rows_append (a b : List (List Str)) : rows (a ++ b) = rows a ++ rows b := by
  simp [rows]

@[simp] theorem plain_nil : plain [] = [] := rfl

@[simp] theorem rows_blank (records : List (List Str)) : rows ([[]] :: records) = rows records := rfl

@[simp] theorem rows_empty (records : List (List Str)) : rows ([] :: records) = rows records := rfl

end BulkCsv
