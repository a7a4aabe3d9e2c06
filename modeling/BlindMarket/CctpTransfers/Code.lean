import BlindMarket.CctpTransfers.Types

/-!
# The routes and the poller

`agentsCctp.ts`, `cctp.ts` and `cctpAttestationPoller.ts`, past the parsing of
their bodies. Nonces and gas are left out: a burn whose nonce another takes is
one that never lands.
-/
namespace CctpTransfers

open Async Prog

/-- What a backend is started with: the chains of its tier, and their account factories. -/
structure Config where
  enabled : Bool
  settlementLeg : CctpChainKey
  chain : CctpChainKey → Option CctpChainConfig
  aa : CctpChainKey → Option ChainAA
  safeErrorMessage : Code → String
  keyed : ∀ key c, chain key = some c → c.chainKey = key

variable (cfg : Config)

/-! ## `cctp.ts` -/

def FAST_TRANSFER_FINALITY_THRESHOLD : Nat := 1000
def STANDARD_TRANSFER_FINALITY_THRESHOLD : Nat := 2000

def finalityThresholdFor (source : CctpChainConfig) : Nat :=
  if source.supportsFastTransfer then FAST_TRANSFER_FINALITY_THRESHOLD
  else STANDARD_TRANSFER_FINALITY_THRESHOLD

/-- The arguments of the burn of a transfer. -/
def depositForBurnCall (source : CctpChainConfig) (params : DepositForBurnParams) :
    DecodedDepositForBurn where
  amount := params.amountRaw
  destinationDomain := params.destinationDomain
  mintRecipient := addressToBytes32 params.mintRecipient
  burnToken := source.usdcAddress
  maxFee := params.maxFeeRaw
  minFinalityThreshold := params.minFinalityThreshold

/-- True when the logs hold the expected burn. -/
def logsContainBurn (logs : List BurnLog) (expected : ExpectedBurn) : Bool :=
  logs.any fun log =>
    log.address = expected.messenger ∧ log.depositor = expected.depositor ∧
      log.amount = expected.amount ∧ log.mintRecipient = expected.mintRecipient ∧
      log.destinationDomain = expected.destDomain

def decodeDepositForBurnCalldata : Calldata → Option DecodedDepositForBurn
  | .depositForBurnWithHook call => some call
  | _ => none

/-- Approves, waits for it to be mined, and broadcasts the burn without waiting for that. -/
def executeApproveAndDepositForBurn (source : CctpChainConfig) (wallet : Address)
    (params : DepositForBurnParams) (transfer : Nat) : Backend (TxHash × TxHash) := do
  let approveTx ← call (Cmd.approve source.chainKey wallet source.usdcAddress
    source.tokenMessengerAddress params.amountRaw)
  let ok ← call (Cmd.wait source.chainKey approveTx)
  if ok = false then throw .approveFailed
  else do
    let txHash ← call (Cmd.depositForBurn source.chainKey wallet source.tokenMessengerAddress
      (depositForBurnCall source params) transfer)
    return (approveTx, txHash)

/-! ## Withdrawing -/

/-- The ETH a burn from an ETH-gas chain needs. -/
def CCTP_ETH_GAS_MIN : Nat := 2 * 10 ^ 14

def NATIVE_UNITS_PER_USDC_RAW : Nat := 10 ^ 12

/-- `mintRecipient` is an address, if it is one. -/
structure WithdrawBody where
  destinationChain : CctpChainKey
  amountRaw : Option Nat
  mintRecipient : Option (Option Address)
  idempotencyKey : String
  deriving DecidableEq, Repr

/-- The amount to bridge, given what the wallet holds and what it must keep for gas. -/
def withdrawAmount (reserveRaw nativeBalance usdcBalance : Nat) (amountRaw : Option Nat) :
    Except Code Nat :=
  let availableRaw := nativeBalance / NATIVE_UNITS_PER_USDC_RAW
  let maxAmountRaw := if 0 < reserveRaw then availableRaw - reserveRaw else usdcBalance
  let checked (amount : Nat) : Except Code Nat :=
    if 0 < reserveRaw ∧ nativeBalance < (amount + reserveRaw) * NATIVE_UNITS_PER_USDC_RAW then
      .error .insufficientGasHeadroom
    else if amount = 0 then .error .insufficientUsdc
    else .ok amount
  match amountRaw with
  | some amount => if usdcBalance < amount then .error .insufficientUsdc else checked amount
  | none => checked (min maxAmountRaw usdcBalance)

/-- The quote of a burn, refused when it leaves nothing of the amount. -/
def quoteFee (source dest : CctpChainConfig) (amount : Nat) : Backend Nat := do
  let quoted ← attempt (call (Cmd.estimateMaxFeeRaw source.domain dest.domain amount
    (finalityThresholdFor source)))
  match quoted with
  | .error _ => throw .feeQuoteFailed
  | .ok maxFeeRaw => if amount ≤ maxFeeRaw then throw .insufficientUsdc else return maxFeeRaw

/-- The row is written, and its burn is sent: the hash is saved before anything else. -/
def burnTransfer (source : CctpChainConfig) (wallet : Address) (opts : CreateTransferOpts) :
    Backend (Option CctpTransfer) := do
  let row ← call (Cmd.createTransfer opts)
  let sent ← attempt (executeApproveAndDepositForBurn source wallet
    ⟨opts.usdcAmountRaw, opts.destDomain, opts.mintRecipient, opts.maxFeeRaw,
      opts.minFinalityThreshold⟩ row.id)
  match sent with
  | .error e => do
    let _ ← call (Cmd.updateTransfer row.id
      { stage := .failed, errorMessage := some (cfg.safeErrorMessage e) })
    throw .burnFailed
  | .ok (approveTxHash, burnTxHash) =>
    call (Cmd.updateTransfer row.id
      { stage := .burnSubmitted, approveTxHash := some approveTxHash, burnTxHash := some burnTxHash })

def withdrawFrom (source dest : CctpChainConfig) (agent : Agent) (wallet mintRecipient : Address)
    (body : WithdrawBody) : Backend (Option CctpTransfer) := do
  let nativeBalance ← call (Cmd.getBalance source.chainKey wallet)
  if source.usdcGasReserveRaw = 0 ∧ nativeBalance < CCTP_ETH_GAS_MIN then throw .insufficientGas
  else do
    let usdcBalance ← call (Cmd.balanceOf source.chainKey source.usdcAddress wallet)
    match withdrawAmount source.usdcGasReserveRaw nativeBalance usdcBalance body.amountRaw with
    | .error e => throw e
    | .ok amount => do
      let maxFeeRaw ← quoteFee source dest amount
      burnTransfer cfg source wallet
        { idempotencyKey := body.idempotencyKey
          direction := .outbound
          agentId := some agent.id
          ownerAddress := agent.ownerAddress
          sourceChain := source.chainKey
          sourceDomain := source.domain
          destChain := dest.chainKey
          destDomain := dest.domain
          usdcAmountRaw := amount
          mintRecipient := mintRecipient
          maxFeeRaw := maxFeeRaw
          minFinalityThreshold := finalityThresholdFor source }

/-- A key that is new: the checks of a withdrawal. -/
def startWithdraw (agent : Agent) (body : WithdrawBody) : Backend (Option CctpTransfer) := do
  if agent.running then throw .agentRunning
  else match agent.wallet with
  | none => throw .noKey
  | some wallet => do
    let supported ← call (Cmd.isSupportedCctpChain body.destinationChain)
    if supported = false then throw .unsupportedChain
    else do
      let source ← call (Cmd.getCctpChain cfg.settlementLeg)
      let dest ← call (Cmd.getCctpChain body.destinationChain)
      match source, dest with
      | some source, some dest =>
        if dest.chainKey = source.chainKey then throw .sameChain
        else match body.mintRecipient.getD (some agent.ownerAddress) with
        | none => throw .validationError
        | some mintRecipient => withdrawFrom cfg source dest agent wallet mintRecipient body
      | _, _ => throw .disabled

/-- POST /agents/:id/cctp/withdraw. -/
def withdraw (agentId : AgentId) (body : WithdrawBody) : Backend (Option CctpTransfer) := do
  let configured ← call Cmd.isCctpConfigured
  if configured = false then throw .disabled
  else do
    let owned ← call (Cmd.authorizeOwner agentId)
    match owned with
    | none => throw .unauthorized
    | some agent => do
      let existing ← call (Cmd.getByIdempotencyKey body.idempotencyKey)
      match existing with
      | some row =>
        if row.direction ≠ .outbound ∨ row.agentId ≠ some agent.id then
          throw .idempotencyKeyConflict
        else return some row
      | none => startWithdraw cfg agent body

/-! ## Depositing -/

/-- A signed-in caller: the wallet of the session, and the others of the account. -/
structure User where
  address : Address
  addresses : List Address
  deriving DecidableEq, Repr

structure DepositIntentBody where
  sourceChain : CctpChainKey
  amountRaw : Nat
  mintRecipient : Option (Option Address)
  fromAddress : Option (Option Address)
  idempotencyKey : String
  deriving DecidableEq, Repr

/-- Does the wallet keep what its gas costs in USDC? -/
def keepsReserve (source : CctpChainConfig) (account : Address) (amount : Nat) : Backend Bool := do
  if source.usdcGasReserveRaw = 0 then return true
  else do
    let nativeBalance ← call (Cmd.getBalance source.chainKey account)
    return decide
      ((amount + source.usdcGasReserveRaw) * NATIVE_UNITS_PER_USDC_RAW ≤ nativeBalance)

def depositFrom (source dest : CctpChainConfig) (user : User) (mintRecipient account : Address)
    (body : DepositIntentBody) : Backend (Option CctpTransfer) := do
  if body.amountRaw = 0 then throw .validationError
  else do
    let maxFeeRaw ← quoteFee source dest body.amountRaw
    let keeps ← keepsReserve source account body.amountRaw
    if keeps = false then throw .insufficientGasHeadroom
    else do
      let _ ← call (Cmd.allowance source.chainKey source.usdcAddress account
        source.tokenMessengerAddress)
      let row ← call (Cmd.createTransfer
        { idempotencyKey := body.idempotencyKey
          direction := .inbound
          agentId := none
          ownerAddress := user.address
          sourceChain := source.chainKey
          sourceDomain := source.domain
          destChain := dest.chainKey
          destDomain := dest.domain
          usdcAmountRaw := body.amountRaw
          mintRecipient := mintRecipient
          maxFeeRaw := maxFeeRaw
          minFinalityThreshold := finalityThresholdFor source })
      return some row

def startDeposit (user : User) (body : DepositIntentBody) : Backend (Option CctpTransfer) := do
  let supported ← call (Cmd.isSupportedCctpChain body.sourceChain)
  if supported = false then throw .unsupportedChain
  else do
    let source ← call (Cmd.getCctpChain body.sourceChain)
    let dest ← call (Cmd.getCctpChain cfg.settlementLeg)
    match source, dest with
    | some source, some dest =>
      if source.chainKey = dest.chainKey then throw .sameChain
      else match body.mintRecipient.getD (some user.address),
          body.fromAddress.getD (some user.address) with
      | some mintRecipient, some account => depositFrom source dest user mintRecipient account body
      | _, _ => throw .validationError
    | _, _ => throw .disabled

/-- POST /cctp/deposit-intent; the unsigned transactions it answers are left out. -/
def depositIntent (user : User) (body : DepositIntentBody) : Backend (Option CctpTransfer) := do
  let configured ← call Cmd.isCctpConfigured
  if configured = false then throw .disabled
  else do
    let existing ← call (Cmd.getByIdempotencyKey body.idempotencyKey)
    match existing with
    | some row =>
      if row.direction ≠ .inbound ∨ row.ownerAddress ∉ user.address :: user.addresses then
        throw .idempotencyKeyConflict
      else return some row
    | none => startDeposit cfg user body

/-- Exactly one hash: the burn's own, or that of the bundle its UserOp was put in. -/
inductive ConfirmBody where
  | burnTxHash (tx : TxHash)
  | bundleTxHash (tx : TxHash)
  deriving DecidableEq, Repr

/-- A bundle calls the EntryPoint, so its logs prove the burn; the depositor is the account the
chain names for the owner. -/
def confirmBundle (source : CctpChainConfig) (row : CctpTransfer) (bundleTxHash : TxHash) :
    Backend (Option CctpTransfer) := do
  match cfg.aa row.sourceChain with
  | none => throw .noAA
  | some aa => do
    let tx ← call (Cmd.getTransaction source.chainKey bundleTxHash)
    match tx with
    | none => throw .burnNotFound
    | some tx =>
      if tx.toAddress ≠ some aa.entrypoint then throw .burnMismatch
      else do
        let receipt ← call (Cmd.getTransactionReceipt source.chainKey bundleTxHash)
        match receipt with
        | none => return some row
        | some receipt =>
          if receipt.status = false then
            call (Cmd.updateTransfer row.id
              { stage := .failed, errorMessage := some "bundled burn transaction reverted" })
          else do
            let depositor ← attempt (call (Cmd.accounts source.chainKey aa.factory row.ownerAddress))
            match depositor with
            | .error _ => throw .chainReadFailed
            | .ok depositor =>
              if logsContainBurn receipt.logs
                  ⟨source.tokenMessengerAddress, depositor, row.usdcAmountRaw,
                    addressToBytes32 row.mintRecipient, row.destDomain⟩ = false then
                throw .burnMismatch
              else
                call (Cmd.updateTransfer row.id
                  { stage := .burnConfirmed, burnTxHash := some bundleTxHash })

/-- A burn the owner's wallet sent itself: its calldata must be the intent's. -/
def confirmBurn (source : CctpChainConfig) (row : CctpTransfer) (burnTxHash : TxHash) :
    Backend (Option CctpTransfer) := do
  let tx ← call (Cmd.getTransaction source.chainKey burnTxHash)
  match tx with
  | none => throw .burnNotFound
  | some tx =>
    if tx.toAddress ≠ some source.tokenMessengerAddress then throw .burnMismatch
    else match decodeDepositForBurnCalldata tx.data with
    | none => throw .burnMismatch
    | some decoded =>
      if decoded.amount ≠ row.usdcAmountRaw ∨ decoded.destinationDomain ≠ row.destDomain ∨
          decoded.mintRecipient ≠ addressToBytes32 row.mintRecipient ∨
          decoded.burnToken ≠ source.usdcAddress then
        throw .burnMismatch
      else do
        let receipt ← call (Cmd.getTransactionReceipt source.chainKey burnTxHash)
        match receipt with
        | none => return some row
        | some receipt =>
          if receipt.status = false then
            call (Cmd.updateTransfer row.id
              { stage := .failed, errorMessage := some "burn transaction reverted" })
          else
            call (Cmd.updateTransfer row.id
              { stage := .burnConfirmed, burnTxHash := some burnTxHash })

/-- POST /cctp/deposit-intent/:transferId/confirm. -/
def confirm (user : User) (transferId : Nat) (body : ConfirmBody) :
    Backend (Option CctpTransfer) := do
  let found ← call (Cmd.getById transferId)
  match found with
  | none => throw .transferNotFound
  | some row =>
    if row.direction ≠ .inbound ∨ row.ownerAddress ≠ user.address then throw .transferNotFound
    else if row.stage ≠ .created then return some row
    else do
      let source ← call (Cmd.getCctpChain row.sourceChain)
      match source with
      | none => throw .disabled
      | some source =>
        match body with
        | .bundleTxHash tx => confirmBundle cfg source row tx
        | .burnTxHash tx => confirmBurn source row tx

/-! ## The poller -/

def update (row : CctpTransfer) (patch : StagePatch) : Backend Unit := do
  let _ ← call (Cmd.updateTransfer row.id patch)
  return ()

/-- A submitted burn is confirmed, or reverted, by its receipt. -/
def advanceBurn (source : CctpChainConfig) (row : CctpTransfer) : Backend Unit := do
  match row.burnTxHash with
  | none =>
    update row { stage := .failed, errorMessage := some "burn_submitted with no burn_tx_hash recorded" }
  | some tx => do
    let receipt ← call (Cmd.getTransactionReceipt source.chainKey tx)
    match receipt with
    | none => return ()
    | some receipt =>
      if receipt.status = false then
        update row { stage := .failed, errorMessage := some "burn transaction reverted" }
      else update row { stage := .burnConfirmed }

/-- What Iris answers about a burn moves its row on. -/
def advanceAttestation (row : CctpTransfer) : Option IrisMessage → Backend Unit
  | none =>
    if row.stage ≠ .attestationPending then update row { stage := .attestationPending }
    else return ()
  | some msg =>
    match msg.forwardTxHash with
    | some tx => update row { stage := .mintConfirmed, mintTxHash := some tx }
    | none =>
      if msg.status = .complete then
        if row.stage ≠ .attestationReady then update row { stage := .attestationReady }
        else return ()
      else if row.stage ≠ .attestationPending then update row { stage := .attestationPending }
      else return ()

/-- A submitted mint is confirmed, or reverted, by its receipt. -/
def advanceMint (row : CctpTransfer) : Backend Unit := do
  let dest ← call (Cmd.getCctpChain row.destChain)
  match dest, row.mintTxHash with
  | some dest, some tx => do
    let receipt ← call (Cmd.getTransactionReceipt dest.chainKey tx)
    match receipt with
    | none => return ()
    | some receipt =>
      if receipt.status = false then
        update row { stage := .failed, errorMessage := some "mint transaction reverted" }
      else update row { stage := .mintConfirmed }
  | _, _ => return ()

def advance (row : CctpTransfer) : Backend Unit := do
  let source ← call (Cmd.getCctpChain row.sourceChain)
  match source with
  | none =>
    update row
      { stage := .failed
        errorMessage := some ("source chain " ++ row.sourceChain.name ++ " no longer configured") }
  | some source =>
    match row.stage with
    | .burnSubmitted => advanceBurn source row
    | .burnConfirmed | .attestationPending | .attestationReady =>
      match row.burnTxHash with
      | none => return ()
      | some tx => do
        let msg ← call (Cmd.pollIrisAttestation row.sourceDomain tx)
        advanceAttestation row msg
    | .mintSubmitted => advanceMint row
    | _ => return ()

/-- One row after the other; a row that fails does not stop the rest. -/
def advanceAll : List CctpTransfer → Backend Unit
  | [] => return ()
  | row :: rows => do
    if row.stage = .created then advanceAll rows
    else do
      let _ ← attempt (advance row)
      advanceAll rows

/-- One tick at a time in a process. -/
def tick : Backend Unit := do
  let allowed ← call Cmd.backgroundWritesAllowed
  if allowed = false then return ()
  else do
    let busy ← call Cmd.takeFlight
    if busy then return ()
    else do
      let listed ← attempt (call Cmd.listNonTerminal)
      match listed with
      | .error _ => call Cmd.leaveFlight
      | .ok rows => do
        advanceAll rows
        call Cmd.leaveFlight

end CctpTransfers
