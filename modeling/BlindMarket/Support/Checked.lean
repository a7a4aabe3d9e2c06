import Mathlib

/-!
# Checked computations

Guards and checked unsigned arithmetic in `Except`, with the inversion lemmas
that read the guards off a successful computation. A computation that returns
`.error` has no other effect, which is how a reverted call is modelled.
-/
namespace Checked

variable {ε α β : Type}

/-- Continue only if `p` holds. -/
def require (p : Prop) [Decidable p] (e : ε) : Except ε Unit :=
  if p then .ok () else .error e

/-- Unsigned subtraction that fails on underflow. -/
def sub (e : ε) (a b : Nat) : Except ε Nat :=
  if b ≤ a then .ok (a - b) else .error e

/-- Addition of words below `bound` that fails on overflow. -/
def add (bound : Nat) (e : ε) (a b : Nat) : Except ε Nat :=
  if a + b < bound then .ok (a + b) else .error e

/-- Multiplication of words below `bound` that fails on overflow. -/
def mul (bound : Nat) (e : ε) (a b : Nat) : Except ε Nat :=
  if a * b < bound then .ok (a * b) else .error e

/-- Division that fails on a zero divisor. -/
def div (e : ε) (a b : Nat) : Except ε Nat :=
  if b ≠ 0 then .ok (a / b) else .error e

/-- A missing value is the failure `e`. -/
def orElse (e : ε) : Option α → Except ε α
  | some a => .ok a
  | none => .error e

@[simp] theorem pure_eq (a : α) : (pure a : Except ε α) = .ok a := rfl

/-- A sequence succeeds exactly when each part does. -/
theorem seq_eq_ok {x : Except ε α} {next : α → Except ε β} {b : β} :
    (x >>= next) = .ok b ↔ ∃ a, x = .ok a ∧ next a = .ok b := by
  constructor
  · intro h
    cases x with
    | error e => cases h
    | ok a => exact ⟨a, rfl, h⟩
  · rintro ⟨a, rfl, h⟩
    exact h

@[simp] theorem ok_bind (a : α) (f : α → Except ε β) : ((.ok a : Except ε α) >>= f) = f a := rfl

@[simp] theorem error_bind (e : ε) (f : α → Except ε β) :
    ((.error e : Except ε α) >>= f) = .error e := rfl

@[simp] theorem require_eq_ok {p : Prop} [Decidable p] {e : ε} {u : Unit} :
    require p e = .ok u ↔ p := by
  unfold require
  by_cases h : p <;> simp [h]

theorem require_pos {p : Prop} [Decidable p] {e : ε} (h : p) : require p e = .ok () := if_pos h

@[simp] theorem sub_eq_ok {e : ε} {a b n : Nat} : sub e a b = .ok n ↔ b ≤ a ∧ n = a - b := by
  unfold sub
  by_cases h : b ≤ a <;> simp [h, eq_comm]

@[simp] theorem add_eq_ok {bound : Nat} {e : ε} {a b n : Nat} :
    add bound e a b = .ok n ↔ a + b < bound ∧ n = a + b := by
  unfold add
  by_cases h : a + b < bound <;> simp [h, eq_comm]

@[simp] theorem mul_eq_ok {bound : Nat} {e : ε} {a b n : Nat} :
    mul bound e a b = .ok n ↔ a * b < bound ∧ n = a * b := by
  unfold mul
  by_cases h : a * b < bound <;> simp [h, eq_comm]

@[simp] theorem div_eq_ok {e : ε} {a b n : Nat} : div e a b = .ok n ↔ b ≠ 0 ∧ n = a / b := by
  unfold div
  by_cases h : b = 0 <;> simp [h, eq_comm]

@[simp] theorem orElse_eq_ok {e : ε} {o : Option α} {a : α} : orElse e o = .ok a ↔ o = some a := by
  cases o <;> simp [orElse]

/-! ## Failures -/

theorem seq_eq_error {x : Except ε α} {next : α → Except ε β} {e : ε} :
    (x >>= next) = .error e ↔ x = .error e ∨ ∃ a, x = .ok a ∧ next a = .error e := by
  constructor
  · intro h
    cases x with
    | error e' =>
      cases h
      exact .inl rfl
    | ok a => exact .inr ⟨a, rfl, h⟩
  · rintro (rfl | ⟨a, rfl, h⟩)
    · rfl
    · exact h

@[simp] theorem require_eq_error {p : Prop} [Decidable p] {e e' : ε} :
    require p e = .error e' ↔ ¬ p ∧ e = e' := by
  unfold require
  by_cases h : p <;> simp [h]

@[simp] theorem sub_eq_error {e e' : ε} {a b : Nat} : sub e a b = .error e' ↔ a < b ∧ e = e' := by
  unfold sub
  by_cases h : b ≤ a
  · simp [h, not_lt.mpr h]
  · simp [h, not_le.mp h]

@[simp] theorem add_eq_error {bound : Nat} {e e' : ε} {a b : Nat} :
    add bound e a b = .error e' ↔ bound ≤ a + b ∧ e = e' := by
  unfold add
  by_cases h : a + b < bound
  · simp [h]
  · simp [h, not_lt.mp h]

@[simp] theorem mul_eq_error {bound : Nat} {e e' : ε} {a b : Nat} :
    mul bound e a b = .error e' ↔ bound ≤ a * b ∧ e = e' := by
  unfold mul
  by_cases h : a * b < bound
  · simp [h]
  · simp [h, not_lt.mp h]

@[simp] theorem div_eq_error {e e' : ε} {a b : Nat} : div e a b = .error e' ↔ b = 0 ∧ e = e' := by
  unfold div
  by_cases h : b = 0 <;> simp [h]

@[simp] theorem orElse_eq_error {e e' : ε} {o : Option α} :
    orElse e o = .error e' ↔ o = none ∧ e = e' := by
  cases o <;> simp [orElse]

end Checked
