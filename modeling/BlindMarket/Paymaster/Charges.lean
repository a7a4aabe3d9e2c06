import BlindMarket.Support.Checked
import BlindMarket.Support.Ledger
import BlindMarket.Escrow.Types

/-!
# USDCPaymaster

The two calls that the EntryPoint makes for a user operation, and what may
happen between them: anything to the sender's USDC, and any change of the price.
-/
namespace Paymaster

open BlindEscrow (Address word)
open Checked TokenLedger

def MAX_GAS_LIMIT : Nat := 1000000
def PAYMASTER_VERIFICATION_GAS : Nat := 60000
def PAYMASTER_POST_OP_GAS : Nat := 40000

/-- The unpacked gas fields of a user operation. -/
structure UserOp where
  sender : Address
  verificationGasLimit : Nat
  callGasLimit : Nat
  preVerificationGas : Nat
  maxFeePerGas : Nat
  paymasterVerificationGasLimit : Nat
  paymasterPostOpGasLimit : Nat
  deriving DecidableEq, Repr

/-- What the EntryPoint may take from the paymaster's deposit, and passes as `maxCost`. -/
def UserOp.maxCost (op : UserOp) : Nat :=
  (op.verificationGasLimit + op.callGasLimit + op.paymasterVerificationGasLimit +
    op.paymasterPostOpGasLimit + op.preVerificationGas) * op.maxFeePerGas

structure Deployment where
  self : Address
  entryPoint : Address
  usdc : Address

structure World where
  ethPriceInUsdc : Nat
  ledger : Ledger Address Address word

structure Context where
  requiredUsdc : Nat
  sender : Address
  deriving DecidableEq, Repr

inductive Revert where
  | notEntryPoint | gasTooHigh | insufficientUSDC | tokenTransferFailed | overflow
  deriving DecidableEq, Repr

inductive PostOpMode where
  | opSucceeded | opReverted | postOpReverted
  deriving DecidableEq, Repr

variable (D : Deployment)

def validatePaymasterUserOp (caller : Address) (op : UserOp) (_maxCost : Nat) (w : World) :
    Except Revert (Context × Nat) := do
  require (caller = D.entryPoint) .notEntryPoint
  let gas ← add word .overflow op.verificationGasLimit op.callGasLimit
  let gas ← add word .overflow gas op.preVerificationGas
  let gas ← add word .overflow gas PAYMASTER_VERIFICATION_GAS
  let totalGas ← add word .overflow gas PAYMASTER_POST_OP_GAS
  require (totalGas ≤ MAX_GAS_LIMIT) .gasTooHigh
  let cost ← mul word .overflow totalGas op.maxFeePerGas
  let cost ← mul word .overflow cost w.ethPriceInUsdc
  let requiredUsdc := cost / 10 ^ 18
  require (requiredUsdc ≤ w.ledger.bal D.usdc op.sender) .insufficientUSDC
  return (⟨requiredUsdc, op.sender⟩, 0)

def postOp (caller : Address) (_mode : PostOpMode) (context : Context) (actualGasCost : Nat)
    (w : World) : Except Revert World := do
  require (caller = D.entryPoint) .notEntryPoint
  let cost ← mul word .overflow actualGasCost w.ethPriceInUsdc
  let actualUsdcCost := cost / 10 ^ 18
  let charge := if context.requiredUsdc < actualUsdcCost then actualUsdcCost
    else context.requiredUsdc
  let ledger ← orElse .tokenTransferFailed
    (w.ledger.transferFrom D.usdc D.self context.sender D.self charge)
  return { w with ledger }

/-! ## Being repaid -/

variable {D} {caller : Address} {op : UserOp} {maxCost validationData : Nat} {w w' : World}
  {context : Context}

/-- `postOp` goes through and transfers enough. -/
def Repaid (D : Deployment) (mode : PostOpMode) (context : Context) (actualGasCost : Nat)
    (w : World) : Prop :=
  ∃ charge w', postOp D D.entryPoint mode context actualGasCost w = .ok w' ∧
    w.ledger.transferFrom D.usdc D.self context.sender D.self charge = some w'.ledger ∧
    actualGasCost * w.ethPriceInUsdc / 10 ^ 18 ≤ charge ∧ context.requiredUsdc ≤ charge

/-- The quote covers the greatest cost, up to one unit. -/
def Covers (op : UserOp) (price requiredUsdc : Nat) : Prop :=
  op.maxCost * price ≤ (requiredUsdc + 1) * 10 ^ 18

/-- The gas that is quoted for. -/
def UserOp.totalGas (op : UserOp) : Nat :=
  op.verificationGasLimit + op.callGasLimit + op.preVerificationGas + PAYMASTER_VERIFICATION_GAS +
    PAYMASTER_POST_OP_GAS

/-- After the operation the sender still holds, and lets the paymaster take, what gas costs. -/
structure Solvent (D : Deployment) (op : UserOp) (quotePrice actualGasCost : Nat) (w : World) :
    Prop where
  price : actualGasCost * w.ethPriceInUsdc < word
  quoteHeld : op.totalGas * op.maxFeePerGas * quotePrice / 10 ^ 18 ≤ w.ledger.bal D.usdc op.sender
  costHeld : actualGasCost * w.ethPriceInUsdc / 10 ^ 18 ≤ w.ledger.bal D.usdc op.sender
  quoteAllowed : w.ledger.allowance D.usdc op.sender D.self + 1 < word →
    op.totalGas * op.maxFeePerGas * quotePrice / 10 ^ 18 ≤
      w.ledger.allowance D.usdc op.sender D.self
  costAllowed : w.ledger.allowance D.usdc op.sender D.self + 1 < word →
    actualGasCost * w.ethPriceInUsdc / 10 ^ 18 ≤ w.ledger.allowance D.usdc op.sender D.self

/-- The paymaster gas limits exceed the two constants, if at all, by gas worth no more than the
quote was rounded by. -/
def WithinConstants (op : UserOp) (price : Nat) : Prop :=
  (op.paymasterVerificationGasLimit + op.paymasterPostOpGasLimit -
      (PAYMASTER_VERIFICATION_GAS + PAYMASTER_POST_OP_GAS)) * op.maxFeePerGas * price +
    op.totalGas * op.maxFeePerGas * price % 10 ^ 18 ≤ 10 ^ 18

theorem validate_eq_ok (h : validatePaymasterUserOp D caller op maxCost w =
    .ok (context, validationData)) :
    context = ⟨op.totalGas * op.maxFeePerGas * w.ethPriceInUsdc / 10 ^ 18, op.sender⟩ := by
  simp only [validatePaymasterUserOp, seq_eq_ok, require_eq_ok, exists_const, add_eq_ok, mul_eq_ok,
    pure_eq, Except.ok.injEq, Prod.mk.injEq] at h
  obtain ⟨-, _, ⟨-, rfl⟩, _, ⟨-, rfl⟩, _, ⟨-, rfl⟩, _, ⟨-, rfl⟩, -, _, ⟨-, rfl⟩, _, ⟨-, rfl⟩, -,
    rfl, -⟩ := h
  rfl

theorem postOp_eq_ok {mode : PostOpMode} {actualGasCost : Nat} :
    postOp D D.entryPoint mode context actualGasCost w = .ok w' ↔
      actualGasCost * w.ethPriceInUsdc < word ∧ ∃ ledger,
        w.ledger.transferFrom D.usdc D.self context.sender D.self
          (max context.requiredUsdc (actualGasCost * w.ethPriceInUsdc / 10 ^ 18)) = some ledger ∧
        w' = { w with ledger } := by
  have hcharge : ∀ actual, (if context.requiredUsdc < actual then actual
      else context.requiredUsdc) = max context.requiredUsdc actual := by
    intro actual
    split <;> omega
  simp only [postOp, seq_eq_ok, require_eq_ok, exists_const, mul_eq_ok, orElse_eq_ok, pure_eq,
    Except.ok.injEq, true_and]
  constructor
  · rintro ⟨cost, ⟨hprice, rfl⟩, ledger, hmove, rfl⟩
    rw [hcharge] at hmove
    exact ⟨hprice, ledger, hmove, rfl⟩
  · rintro ⟨hprice, ledger, hmove, rfl⟩
    exact ⟨_, ⟨hprice, rfl⟩, ledger, by rwa [hcharge], rfl⟩

theorem repaid_iff_solvent {mode : PostOpMode} {actualGasCost price : Nat} :
    Repaid D mode ⟨op.totalGas * op.maxFeePerGas * price / 10 ^ 18, op.sender⟩ actualGasCost w ↔
      Solvent D op price actualGasCost w := by
  constructor
  · rintro ⟨-, w', hpost, -, -, -⟩
    obtain ⟨hprice, ledger, hmove, -⟩ := postOp_eq_ok.mp hpost
    obtain ⟨hheld, hallowed, -⟩ := Ledger.transferFrom_eq_some.mp hmove
    exact ⟨hprice, (le_max_left _ _).trans hheld, (le_max_right _ _).trans hheld,
      fun hlimited => (le_max_left _ _).trans (hallowed hlimited),
      fun hlimited => (le_max_right _ _).trans (hallowed hlimited)⟩
  · rintro ⟨hprice, hquote, hcost, hquote', hcost'⟩
    obtain ⟨ledger, hmove⟩ := w.ledger.transferFrom_isSome D.usdc D.self (max_le hquote hcost)
      fun hlimited => max_le (hquote' hlimited) (hcost' hlimited)
    exact ⟨_, _, postOp_eq_ok.mpr ⟨hprice, ledger, hmove, rfl⟩, hmove, le_max_right _ _,
      le_max_left _ _⟩

theorem covers_iff {price : Nat} :
    Covers op price (op.totalGas * op.maxFeePerGas * price / 10 ^ 18) ↔
      WithinConstants op price := by
  unfold Covers WithinConstants
  have hrounded := Nat.div_add_mod (op.totalGas * op.maxFeePerGas * price) (10 ^ 18)
  have hrest := Nat.mod_lt (op.totalGas * op.maxFeePerGas * price) (show 0 < 10 ^ 18 by decide)
  rcases Nat.le_total (op.paymasterVerificationGasLimit + op.paymasterPostOpGasLimit)
    (PAYMASTER_VERIFICATION_GAS + PAYMASTER_POST_OP_GAS) with hle | hle
  · have hgas : op.maxCost * price ≤ op.totalGas * op.maxFeePerGas * price := by
      unfold UserOp.maxCost UserOp.totalGas
      exact Nat.mul_le_mul_right _ (Nat.mul_le_mul_right _ (by omega))
    rw [Nat.sub_eq_zero_of_le hle, Nat.zero_mul, Nat.zero_mul]
    exact iff_of_true (by omega) (by omega)
  · obtain ⟨excess, hexcess⟩ := Nat.exists_eq_add_of_le hle
    have hgas : op.maxCost * price = op.totalGas * op.maxFeePerGas * price +
        excess * op.maxFeePerGas * price := by
      have hsum : op.maxCost = (op.totalGas + excess) * op.maxFeePerGas := by
        unfold UserOp.maxCost UserOp.totalGas
        congr 1
        omega
      rw [hsum, Nat.add_mul, Nat.add_mul]
    rw [hexcess, Nat.add_sub_cancel_left, hgas]
    omega

def demo : Deployment where
  self := 100
  entryPoint := 101
  usdc := 7

/-- 300 000 gas at one gwei. -/
def demoOp : UserOp where
  sender := 1
  verificationGasLimit := 100000
  callGasLimit := 90000
  preVerificationGas := 10000
  maxFeePerGas := 10 ^ 9
  paymasterVerificationGasLimit := 60000
  paymasterPostOpGasLimit := 40000

/-- One ether is 3000 USDC, and account 1 has ten. -/
def unapproved : World where
  ethPriceInUsdc := 3 * 10 ^ 9
  ledger := .single 1 (10 ^ 7) (by decide)

theorem validate_unapproved : validatePaymasterUserOp demo 101 demoOp demoOp.maxCost unapproved =
    .ok (⟨900000, 1⟩, 0) := by decide

/-- Accounts with ten USDC each that let everybody spend for them. -/
def approved : World where
  ethPriceInUsdc := 3 * 10 ^ 9
  ledger := .shared 8 (10 ^ 7) (by decide)

end Paymaster
