import Mathlib

/-!
# JavaScript strings

A string is its UTF-16 code units, which is what `length`, `slice` and an index
count.
-/
namespace JsText

abbrev Str := List UInt16

instance : LawfulBEq Str := inferInstance

/-- A string of ASCII characters. -/
def ascii (s : String) : Str := s.toList.map fun ch => UInt16.ofNat ch.toNat

/-- The white space that `trim` removes. -/
def isSpace (ch : UInt16) : Bool :=
  (9 ≤ ch && ch ≤ 13) || (0x2000 ≤ ch && ch ≤ 0x200A) ||
    [32, 160, 0x1680, 0x2028, 0x2029, 0x202F, 0x205F, 0x3000, 0xFEFF].contains ch

def trim (s : Str) : Str := (s.dropWhile isSpace).rdropWhile isSpace

/-- `s.includes(part)` -/
def includes (s part : Str) : Bool := decide (part <:+: s)

variable {s : Str} {ch : UInt16}

theorem trim_blank (h : ∀ ch ∈ s, isSpace ch = true) : trim s = [] := by
  rw [trim, List.dropWhile_eq_nil_iff.2 h]
  rfl

theorem trim_ne_nil (hch : ch ∈ s) (h : isSpace ch = false) : trim s ≠ [] := by
  intro htrim
  have hall : ∀ x ∈ s.dropWhile isSpace, isSpace x := by
    simpa [trim, List.rdropWhile_eq_nil_iff] using htrim
  cases hdrop : s.dropWhile isSpace with
  | nil =>
    have hspace := List.dropWhile_eq_nil_iff.1 hdrop ch hch
    simp [h] at hspace
  | cons x xs =>
    have hx := List.head?_dropWhile_not isSpace s
    rw [hdrop] at hx
    have hx' := hall x (by simp [hdrop])
    simp [hx'] at hx

/-- Trimming keeps every character that is not white space. -/
theorem count_trim (h : isSpace ch = false) (s : Str) : (trim s).count ch = s.count ch := by
  have hdrop : ∀ s : Str, (s.dropWhile isSpace).count ch = s.count ch := by
    intro s
    induction s with
    | nil => rfl
    | cons x s ih =>
      cases hx : isSpace x with
      | false => rw [List.dropWhile_cons_of_neg (by simp [hx])]
      | true =>
        have hne : x ≠ ch := by rintro rfl; simp [hx] at h
        rw [List.dropWhile_cons_of_pos hx, ih, List.count_cons_of_ne hne]
  rw [trim, List.rdropWhile, List.count_reverse, hdrop, List.count_reverse, hdrop]

end JsText
