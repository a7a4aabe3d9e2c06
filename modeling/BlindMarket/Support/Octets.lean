import Mathlib

/-!
# Bytes

Byte strings as lists, numbers of four bytes, most significant first, and
hexadecimal text. Each encoding is undone by its decoding, and a number or a
text that decodes is the encoding of what it decodes to.
-/
namespace Octets

abbrev Bytes := List UInt8

variable {b c rest : Bytes} {n : Nat} {ch : Char}

/-! ## Numbers -/

/-- Four bytes, most significant first, of a number modulo 2³². -/
def uint32 (n : Nat) : Bytes :=
  [UInt8.ofNat (n / 2 ^ 24), UInt8.ofNat (n / 2 ^ 16), UInt8.ofNat (n / 2 ^ 8), UInt8.ofNat n]

/-- The number in the first four bytes. -/
def getUint32 : Bytes → Nat
  | x₃ :: x₂ :: x₁ :: x₀ :: _ =>
    x₃.toNat * 2 ^ 24 + x₂.toNat * 2 ^ 16 + x₁.toNat * 2 ^ 8 + x₀.toNat
  | _ => 0

@[simp] theorem length_uint32 : (uint32 n).length = 4 := rfl

theorem getUint32_uint32 (h : n < 2 ^ 32) (rest : Bytes) : getUint32 (uint32 n ++ rest) = n := by
  simp only [uint32, List.cons_append, getUint32, UInt8.toNat_ofNat']
  omega

theorem getUint32_lt (b : Bytes) : getUint32 b < 2 ^ 32 := by
  unfold getUint32
  split
  · next x₃ x₂ x₁ x₀ rest =>
    have h₃ := x₃.toNat_lt
    have h₂ := x₂.toNat_lt
    have h₁ := x₁.toNat_lt
    have h₀ := x₀.toNat_lt
    omega
  · decide

/-- Four bytes are the number they hold. -/
theorem uint32_getUint32 (h : 4 ≤ b.length) : uint32 (getUint32 b) = b.take 4 := by
  obtain ⟨x₃, x₂, x₁, x₀, rest, rfl⟩ : ∃ x₃ x₂ x₁ x₀ rest, b = x₃ :: x₂ :: x₁ :: x₀ :: rest := by
    rcases b with - | ⟨x₃, - | ⟨x₂, - | ⟨x₁, - | ⟨x₀, rest⟩⟩⟩⟩
    · simp at h
    · simp at h
    · simp at h
    · simp at h
    · exact ⟨x₃, x₂, x₁, x₀, rest, rfl⟩
  have hbyte : ∀ (x : UInt8) (m : Nat), m % 256 = x.toNat → UInt8.ofNat m = x := by
    intro x m hm
    apply UInt8.toNat_inj.1
    rw [UInt8.toNat_ofNat', hm]
  have h₃ := x₃.toNat_lt
  have h₂ := x₂.toNat_lt
  have h₁ := x₁.toNat_lt
  have h₀ := x₀.toNat_lt
  simp only [uint32, getUint32, List.take_succ_cons, List.take_zero]
  rw [hbyte x₃ _ (by omega), hbyte x₂ _ (by omega), hbyte x₁ _ (by omega), hbyte x₀ _ (by omega)]

/-! ## Hexadecimal text -/

def hexChar (n : Nat) : Char := "0123456789abcdef".toList.getD n '0'

def hexValue (ch : Char) : Option Nat :=
  if '0' ≤ ch ∧ ch ≤ '9' then some (ch.toNat - '0'.toNat)
  else if 'a' ≤ ch ∧ ch ≤ 'f' then some (ch.toNat - 'a'.toNat + 10)
  else if 'A' ≤ ch ∧ ch ≤ 'F' then some (ch.toNat - 'A'.toNat + 10)
  else none

theorem hexValue_hexChar (h : n < 16) : hexValue (hexChar n) = some n := by
  interval_cases n <;> decide

def toHex (b : Bytes) : List Char :=
  b.flatMap fun x => [hexChar (x.toNat / 16), hexChar (x.toNat % 16)]

@[simp] theorem toHex_nil : toHex [] = [] := rfl

theorem toHex_cons (x : UInt8) (b : Bytes) :
    toHex (x :: b) = hexChar (x.toNat / 16) :: hexChar (x.toNat % 16) :: toHex b := rfl

@[simp] theorem length_toHex (b : Bytes) : (toHex b).length = 2 * b.length := by
  induction b with
  | nil => rfl
  | cons x b ih =>
    simp only [toHex_cons, List.length_cons, ih]
    omega

/-- The byte of two hexadecimal digits. -/
def hexByte (hi lo : Char) : Option UInt8 :=
  match hexValue hi, hexValue lo with
  | some x, some y => some (UInt8.ofNat (16 * x + y))
  | _, _ => none

theorem hexByte_hexChar (x : UInt8) :
    hexByte (hexChar (x.toNat / 16)) (hexChar (x.toNat % 16)) = some x := by
  have hlt := x.toNat_lt
  rw [hexByte, hexValue_hexChar (by omega), hexValue_hexChar (by omega)]
  simp [Nat.div_add_mod]

/-- The bytes of text that is nothing but pairs of digits. -/
def ofHex : List Char → Option Bytes
  | [] => some []
  | [_] => none
  | hi :: lo :: rest =>
    match hexByte hi lo, ofHex rest with
    | some x, some b => some (x :: b)
    | _, _ => none

theorem ofHex_toHex (b : Bytes) : ofHex (toHex b) = some b := by
  induction b with
  | nil => rfl
  | cons x b ih => simp [toHex_cons, ofHex, hexByte_hexChar, ih]

/-- The bytes of the digits up to the first pair that is none. -/
def fromHex : List Char → Bytes
  | hi :: lo :: rest =>
    match hexByte hi lo with
    | some x => x :: fromHex rest
    | none => []
  | _ => []

theorem fromHex_toHex (b : Bytes) : fromHex (toHex b) = b := by
  induction b with
  | nil => rfl
  | cons x b ih => simp [toHex_cons, fromHex, hexByte_hexChar, ih]

/-- Digits are not the start of a prefix `0x`. -/
theorem hexChar_ne_x (h : n < 16) : hexChar n ≠ 'x' ∧ hexChar n ≠ 'X' := by
  interval_cases n <;> decide

end Octets
