import Mathlib

/-!
# Token ledgers

Balances and allowances of any number of tokens over any set of holders. The
ledger carries the fact that makes a standard token's arithmetic safe: no set
of holders owns `bound` units of one token, so crediting a receiver cannot
overflow. A transfer moves exactly the requested amount or does not happen.
-/
namespace TokenLedger

open Finset

variable {T H : Type} [DecidableEq T] [DecidableEq H] {bound : Nat}

structure Ledger (T H : Type) (bound : Nat) where
  bal : T → H → Nat
  allowance : T → H → H → Nat
  supply : ∀ token (holders : Finset H), ∑ h ∈ holders, bal token h < bound

namespace Ledger

/-- Every token belongs to one holder. -/
def single (holder : H) (amount : Nat) (h : amount < bound) : Ledger T H bound where
  bal := fun _ a => if a = holder then amount else 0
  allowance := fun _ _ _ => 0
  supply := by
    intro _ s
    rw [sum_ite_eq' s holder]
    split <;> omega

/-- The first `n` holders own `amount` of every token, and everybody may spend for everybody. -/
def shared (n amount : Nat) (h : n * amount < bound) : Ledger T Nat bound where
  bal := fun _ a => if a < n then amount else 0
  allowance := fun _ _ _ => bound - 1
  supply := by
    intro _ s
    have hrich : s.filter (· < n) ⊆ range n :=
      fun a ha => mem_range.mpr (mem_filter.mp ha).2
    have hcard := card_le_card hrich
    rw [card_range] at hcard
    rw [← sum_filter, sum_const, smul_eq_mul]
    exact (Nat.mul_le_mul_right amount hcard).trans_lt h

/-- One token's balances after `amount` moves from `a` to `b`. -/
def shifted (f : H → Nat) (a b : H) (amount : Nat) : H → Nat :=
  let g := Function.update f a (f a - amount)
  Function.update g b (g b + amount)

/-- Changing one summand changes the sum by the difference, stated without subtraction. -/
theorem sum_update_add {ι : Type} [DecidableEq ι] (f : ι → Nat) {i : ι} (s : Finset ι) (hi : i ∈ s)
    (v : Nat) : ∑ j ∈ s, Function.update f i v j + f i = ∑ j ∈ s, f j + v := by
  have hold := add_sum_erase s f hi
  have hnew := sum_update_of_mem hi f v
  rw [sdiff_singleton_eq_erase] at hnew
  omega

theorem sum_shifted (f : H → Nat) (a b : H) (amount : Nat) (h : amount ≤ f a) (s : Finset H)
    (ha : a ∈ s) (hb : b ∈ s) : ∑ i ∈ s, shifted f a b amount i = ∑ i ∈ s, f i := by
  have hdebit := sum_update_add f s ha (f a - amount)
  have hcredit := sum_update_add (Function.update f a (f a - amount)) s hb
    (Function.update f a (f a - amount) b + amount)
  simp only [shifted]
  omega

theorem shifted_supply (f : H → Nat) (a b : H) (amount : Nat) (h : amount ≤ f a)
    (hf : ∀ s : Finset H, ∑ i ∈ s, f i < bound) (s : Finset H) :
    ∑ i ∈ s, shifted f a b amount i < bound := by
  have hle : ∑ i ∈ s, shifted f a b amount i ≤
      ∑ i ∈ insert a (insert b s), shifted f a b amount i :=
    sum_le_sum_of_subset (fun i hi => mem_insert_of_mem (mem_insert_of_mem hi))
  have hsame := sum_shifted f a b amount h (insert a (insert b s)) (mem_insert_self _ _)
    (mem_insert_of_mem (mem_insert_self _ _))
  have hbound := hf (insert a (insert b s))
  omega

/-- Replace one token's balances, keeping every other token and every allowance. -/
def withToken (L : Ledger T H bound) (token : T) (f : H → Nat)
    (hf : ∀ s : Finset H, ∑ i ∈ s, f i < bound) : Ledger T H bound where
  bal := Function.update L.bal token f
  allowance := L.allowance
  supply := by
    intro t s
    by_cases ht : t = token
    · subst ht; simpa using hf s
    · simpa [Function.update_of_ne ht] using L.supply t s

/-- Transfer exactly `amount`, or fail. -/
def move (L : Ledger T H bound) (token : T) (src dst : H) (amount : Nat) :
    Option (Ledger T H bound) :=
  if h : amount ≤ L.bal token src then
    some (L.withToken token (shifted (L.bal token) src dst amount)
      (shifted_supply _ _ _ _ h (L.supply token)))
  else none

/-- Set one allowance. -/
def approve (L : Ledger T H bound) (token : T) (owner spender : H) (amount : Nat) :
    Ledger T H bound where
  bal := L.bal
  allowance := Function.update L.allowance token
    (Function.update (L.allowance token) owner
      (Function.update (L.allowance token owner) spender amount))
  supply := L.supply

/-- Spend an allowance, the largest word standing for an unlimited one, then transfer. -/
def transferFrom (L : Ledger T H bound) (token : T) (spender owner dst : H) (amount : Nat) :
    Option (Ledger T H bound) :=
  if L.allowance token owner spender + 1 < bound then
    if amount ≤ L.allowance token owner spender then
      (L.approve token owner spender (L.allowance token owner spender - amount)).move
        token owner dst amount
    else none
  else L.move token owner dst amount

omit [DecidableEq T] [DecidableEq H] in
theorem bal_lt (L : Ledger T H bound) (token : T) (holder : H) : L.bal token holder < bound := by
  simpa using L.supply token {holder}

omit [DecidableEq T] [DecidableEq H] in
@[ext] theorem ext {L M : Ledger T H bound} (hb : L.bal = M.bal)
    (ha : L.allowance = M.allowance) : L = M := by
  cases L; cases M; cases hb; cases ha; rfl

theorem move_eq_some {L M : Ledger T H bound} {token : T} {src dst : H} {amount : Nat} :
    L.move token src dst amount = some M ↔
      amount ≤ L.bal token src ∧
      M.bal = Function.update L.bal token (shifted (L.bal token) src dst amount) ∧
      M.allowance = L.allowance := by
  unfold move
  split
  · rename_i h
    simp only [Option.some.injEq, h, true_and]
    constructor
    · rintro rfl; exact ⟨rfl, rfl⟩
    · rintro ⟨hb, ha⟩; exact ext hb.symm ha.symm
  · rename_i h
    simp [h]

theorem move_isSome (L : Ledger T H bound) (token : T) {src : H} (dst : H) {amount : Nat}
    (h : amount ≤ L.bal token src) : ∃ M, L.move token src dst amount = some M := by
  simp [move, h]

theorem shifted_src (f : H → Nat) {a b : H} (amount : Nat) (hab : a ≠ b) :
    shifted f a b amount a = f a - amount := by
  simp [shifted, Function.update_of_ne hab]

theorem shifted_dst (f : H → Nat) {a b : H} (amount : Nat) (hab : a ≠ b) :
    shifted f a b amount b = f b + amount := by
  simp [shifted, Function.update_of_ne hab.symm]

theorem shifted_other (f : H → Nat) {a b c : H} (amount : Nat) (ha : c ≠ a) (hb : c ≠ b) :
    shifted f a b amount c = f c := by
  simp [shifted, Function.update_of_ne ha, Function.update_of_ne hb]

/-- The sender of a transfer keeps at least what it did not send. -/
theorem shifted_src_ge (f : H → Nat) (a b : H) (amount : Nat) :
    f a ≤ shifted f a b amount a + amount := by
  by_cases hab : a = b
  · subst hab; simp [shifted]; omega
  · rw [shifted_src f amount hab]; omega

theorem move_other_token {L M : Ledger T H bound} {token t : T} {src dst : H} {amount : Nat}
    (h : L.move token src dst amount = some M) (ht : t ≠ token) : M.bal t = L.bal t := by
  rw [(move_eq_some.mp h).2.1, Function.update_of_ne ht]

theorem move_token {L M : Ledger T H bound} {token : T} {src dst : H} {amount : Nat}
    (h : L.move token src dst amount = some M) :
    M.bal token = shifted (L.bal token) src dst amount := by
  rw [(move_eq_some.mp h).2.1, Function.update_self]

/-! ### Amounts in parts -/

theorem shifted_zero (f : H → Nat) (a b : H) : shifted f a b 0 = f := by
  simp [shifted]

theorem shifted_add (f : H → Nat) {a b : H} (hab : a ≠ b) (m n : Nat) :
    shifted (shifted f a b m) a b n = shifted f a b (m + n) := by
  funext h
  by_cases ha : h = a
  · subst ha
    rw [shifted_src _ _ hab, shifted_src _ _ hab, shifted_src _ _ hab]
    omega
  · by_cases hb : h = b
    · subst hb
      rw [shifted_dst _ _ hab, shifted_dst _ _ hab, shifted_dst _ _ hab]
      omega
    · rw [shifted_other _ _ ha hb, shifted_other _ _ ha hb, shifted_other _ _ ha hb]

theorem move_zero (L : Ledger T H bound) (token : T) (src dst : H) :
    L.move token src dst 0 = some L := by
  rw [move_eq_some, shifted_zero, Function.update_eq_self]
  exact ⟨Nat.zero_le _, rfl, rfl⟩

/-- What is left of an allowance after `amount` of it is spent. -/
def spent (bound allowance amount : Nat) : Nat :=
  if allowance + 1 < bound then allowance - amount else allowance

/-- A transfer by allowance moves the balances and spends the allowance. -/
theorem transferFrom_eq_some {L M : Ledger T H bound} {token : T} {spender owner dst : H}
    {amount : Nat} :
    L.transferFrom token spender owner dst amount = some M ↔
      amount ≤ L.bal token owner ∧
      (L.allowance token owner spender + 1 < bound → amount ≤ L.allowance token owner spender) ∧
      M.bal = Function.update L.bal token (shifted (L.bal token) owner dst amount) ∧
      M.allowance = (L.approve token owner spender
        (spent bound (L.allowance token owner spender) amount)).allowance := by
  unfold transferFrom spent
  by_cases hb : L.allowance token owner spender + 1 < bound
  · by_cases ha : amount ≤ L.allowance token owner spender
    · simp [hb, ha, move_eq_some, approve]
    · simp [hb, ha]
  · simp [hb, move_eq_some, approve]

theorem approve_allowance (L : Ledger T H bound) (token : T) (owner spender : H) (amount : Nat) :
    (L.approve token owner spender amount).allowance token owner spender = amount := by
  simp [approve]

theorem transferFrom_isSome (L : Ledger T H bound) (token : T) {spender owner : H} (dst : H)
    {amount : Nat} (h : amount ≤ L.bal token owner)
    (ha : L.allowance token owner spender + 1 < bound →
      amount ≤ L.allowance token owner spender) :
    ∃ M, L.transferFrom token spender owner dst amount = some M := by
  unfold transferFrom
  by_cases hb : L.allowance token owner spender + 1 < bound
  · rw [if_pos hb, if_pos (ha hb)]
    exact move_isSome _ _ _ h
  · rw [if_neg hb]
    exact move_isSome _ _ _ h

theorem transferFrom_zero (L : Ledger T H bound) (token : T) (spender owner dst : H) :
    L.transferFrom token spender owner dst 0 = some L := by
  rw [transferFrom_eq_some, shifted_zero, Function.update_eq_self]
  refine ⟨Nat.zero_le _, fun _ => Nat.zero_le _, rfl, ?_⟩
  simp [approve, spent]

/-- Two transfers by allowance are one of the sum. -/
theorem transferFrom_add {L N : Ledger T H bound} {token : T} {spender owner dst : H}
    (hne : owner ≠ dst) (a b : Nat) :
    L.transferFrom token spender owner dst (a + b) = some N ↔
      ∃ M, L.transferFrom token spender owner dst a = some M ∧
        M.transferFrom token spender owner dst b = some N := by
  have hspent : ∀ m n, spent bound (spent bound m a) n = spent bound m (a + n) := by
    intro m n
    unfold spent
    by_cases h : m + 1 < bound
    · have h' : m - a + 1 < bound := by omega
      rw [if_pos h, if_pos h, if_pos h']
      omega
    · rw [if_neg h, if_neg h, if_neg h]
  have hsecond : ∀ {M : Ledger T H bound}, L.transferFrom token spender owner dst a = some M →
      (M.transferFrom token spender owner dst b = some N ↔
        b ≤ L.bal token owner - a ∧
        (spent bound (L.allowance token owner spender) a + 1 < bound →
          b ≤ spent bound (L.allowance token owner spender) a) ∧
        N.bal = Function.update L.bal token (shifted (L.bal token) owner dst (a + b)) ∧
        N.allowance = (L.approve token owner spender
          (spent bound (L.allowance token owner spender) (a + b))).allowance) := by
    intro M hM
    obtain ⟨-, -, hbal, hall⟩ := transferFrom_eq_some.mp hM
    have howner : M.bal token owner = L.bal token owner - a := by
      rw [hbal, Function.update_self, shifted_src _ _ hne]
    have hallowance : M.allowance token owner spender =
        spent bound (L.allowance token owner spender) a := by
      rw [hall, approve_allowance]
    rw [transferFrom_eq_some, howner, hallowance, hspent, hbal, Function.update_self,
      shifted_add _ hne, Function.update_idem]
    simp [approve, hall]
  constructor
  · intro h
    obtain ⟨hle, hallow, hbal, hall⟩ := transferFrom_eq_some.mp h
    obtain ⟨M, hM⟩ := transferFrom_isSome L token dst (show a ≤ L.bal token owner by omega)
      (fun hb => (Nat.le_add_right a b).trans (hallow hb))
    refine ⟨M, hM, (hsecond hM).mpr ⟨by omega, ?_, hbal, hall⟩⟩
    unfold spent
    split
    · intro _
      have := hallow ‹_›
      omega
    · intro hb
      exact absurd hb ‹_›
  · rintro ⟨M, hM, hN⟩
    obtain ⟨hle, hallow, -, -⟩ := transferFrom_eq_some.mp hM
    obtain ⟨hle', hallow', hbal, hall⟩ := (hsecond hM).mp hN
    refine transferFrom_eq_some.mpr ⟨by omega, ?_, hbal, hall⟩
    intro hb
    have h := hallow hb
    simp only [spent, hb, ↓reduceIte] at hallow'
    have := hallow' (by omega)
    omega

end Ledger

end TokenLedger
