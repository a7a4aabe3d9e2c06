import BlindMarket.McpSpends.Posting

/-!
# MCP spends: refunds

`cancel_task` and `claim_timeout`: one transaction that pulls an escrow back,
sent once and then waited for, by its own wait or by the task's state.
-/
namespace McpSpends

open Async Prog

structure RefundArgs where
  task : Nat
  idempotencyKey : Key
  confirm : Bool := false
  quoteId : Option QuoteId := none
  deriving DecidableEq, Repr

def refundFields (s : Settlement) (payFrom : Address) (key : Key) (detail : TaskDetail) :
    SpendFields :=
  .refund (settlementFields s payFrom) key detail.taskId detail.taskHash detail.amount

/-- A refund goes on where it was started; only one that would still sign needs a chain id on
record. -/
def refundSettlement (record : SpendRecord) : Mcp Settlement := do
  let s ← call Cmd.settlement
  if record.settlement.getD s.mode ≠ s.mode then throw .settlementChanged
  if networkChange record s && (record.stage = .created || record.chainId.isSome) then
    throw .settlementChanged
  return s

/-- Exactly this refund, for this task. -/
def refundArgsOk (kind : SpendKind) (taskId : Nat) : EscrowCall → Bool
  | .cancelTask id => kind = .cancel ∧ id = taskId
  | .claimTimeout id => kind ≠ .cancel ∧ id = taskId
  | _ => false

def chainNamed : Settlement → Option ChainKey
  | .erc20 s => some s.mode
  | .og _ => none

/-- Send the refund of a record that has sent none. -/
def broadcastRefund (cfg : Config) (record : SpendRecord) (s : Settlement) (taskId : Nat) :
    Mcp (TxHash × Bool) := do
  let tx ← call (Cmd.buildRefund taskId record.kind (chainNamed s))
  verifyTarget cfg s tx.target
  assertEscrowCall tx (refundArgsOk record.kind taskId) 0
  match s with
  | .erc20 s =>
    let sent ← sendErc20 record.idempotencyKey s { target := tx.target, data := .escrow tx.call }
      none .sent
    waitRelayed s.chainId sent.hash sent.isUserOp
    return (sent.hash, sent.isUserOp)
  | .og s =>
    match cfg.wallet with
    | none => throw .rejected
    | some wallet =>
      let raw ← signRecordBroadcast record.idempotencyKey wallet.chainId
        { target := tx.target, data := .escrow tx.call, chainId := s.chainId }
        fun hash _ => .sentNative hash
      call (Cmd.waitTx (.signed raw))
      return (.signed raw, record.isUserOp)

/-- Wait for the transaction a record has already sent. -/
def awaitRefund (s : Settlement) (record : SpendRecord) : Mcp (TxHash × Bool) := do
  match record.txHash with
  | none => throw .rejected
  | some hash =>
    match s with
    | .erc20 s => waitRelayed s.chainId hash record.isUserOp
    | .og _ => call (Cmd.waitForTransaction hash)
    return (hash, record.isUserOp)

/-- The task's status, asked for until it is a settled one. -/
def waitLanded (s : Settlement) (taskId : Nat) (ends : List Nat) : Nat → Mcp Nat
  | 0 => throw .refundPending
  | n + 1 => do
    match ← attempt (call (Cmd.loadTask s taskId)) with
    | .ok detail =>
      if detail.status ∈ ends then return detail.status
      sleep
      waitLanded s taskId ends n
    | .error _ =>
      sleep
      waitLanded s taskId ends n

/-- Tell the backend the refund landed; its RPC can lag the receipt this side just saw. -/
def confirmRefund (taskId : Nat) (txHash : TxHash) : Nat → Mcp Bool
  | 0 => return false
  | n + 1 => do
    match ← attempt (call (Cmd.confirmTx taskId txHash)) with
    | .ok _ => return true
    | .error code =>
      if code ≠ .notConfirmed ∨ n = 0 then return false
      sleep
      confirmRefund taskId txHash n

def settledStatuses (record : SpendRecord) : List Nat :=
  if record.kind = .timeout ∧ record.fromStatus = some 2 then [5, 6] else [5]

def sendRefund (cfg : Config) (record : SpendRecord) : Mcp (Nat × Outcome) := do
  let s ← refundSettlement record
  match record.taskId with
  | none => throw .txMismatch
  | some taskId =>
    let (hash, isUserOp) ←
      if record.stage = .created then broadcastRefund cfg record s taskId
      else awaitRefund s record
    let landed ← waitLanded s taskId (settledStatuses record) 30
    let outcome := if landed = 6 then Outcome.escalate else .refund
    call (Cmd.updateSpend record.idempotencyKey (.landed outcome))
    if outcome = .refund ∧ isUserOp = false then
      let _ ← confirmRefund taskId hash 3
    return (taskId, outcome)

def finishRefund (cfg : Config) (record : SpendRecord) (resumed : Bool) : Mcp Response := do
  let (taskId, outcome) ← sendRefund cfg record
  return .refunded resumed (some taskId) (some outcome)

/-- A key that has moved before; the ledger is one namespace for every kind of spend. -/
def resumeRefund (cfg : Config) (existing : SpendRecord) (kind : SpendKind) : Mcp Response := do
  if existing.kind ≠ kind then return .refused .idempotencyKeyReused
  if existing.stage = .confirmed then
    return .refunded true existing.taskId existing.outcome
  handled (finishRefund cfg existing true)

def refundRecord (kind : SpendKind) (key : Key) (s : Settlement) (detail : TaskDetail) :
    SpendRecord where
  idempotencyKey := key
  kind
  stage := .created
  settlement := some s.mode
  chainId := s.chainId
  taskId := some detail.taskId
  fromStatus := if kind = .timeout then some detail.status else none
  taskHash := some detail.taskHash
  amountWei := some detail.amount

def refundConfirmed (cfg : Config) (record : SpendRecord) : Mcp Response := do
  call (Cmd.putSpend record)
  finishRefund cfg record false

def quoteOrRefund (cfg : Config) (args : RefundArgs) (kind : SpendKind) (s : Settlement)
    (payFrom : Address) (detail : TaskDetail) : Mcp Response := do
  let spend := refundFields s payFrom args.idempotencyKey detail
  if !args.confirm then
    let quoteId ← call (Cmd.createQuote kind spend)
    return .quoted quoteId
  else
    match quoteRefused (← call (Cmd.consumeQuote args.quoteId kind spend)) with
    | some code => return .refused code
    | none => handled (refundConfirmed cfg (refundRecord kind args.idempotencyKey s detail))

/-- Someone has submitted to this very task. -/
def hasSubmissions (s : Settlement) (detail : TaskDetail) (status : OpenStatus) : Bool :=
  status.onChainTaskId = detail.taskId ∧ status.chain = s.mode ∧ status.submissions > 0

def cancelFresh (cfg : Config) (args : RefundArgs) (s : Settlement) (payFrom : Address) :
    Mcp Response := do
  match ← attempt (call (Cmd.loadTask s args.task)) with
  | .error code => return .refused code
  | .ok detail =>
    if detail.status ≠ 0 then return .refused .wrongRefundPath
    match ← attempt (call (Cmd.openStatus detail.taskHash)) with
    | .ok status =>
      if hasSubmissions s detail status then return .refused .hasSubmissions
      quoteOrRefund cfg args .cancel s payFrom detail
    | .error _ => quoteOrRefund cfg args .cancel s payFrom detail

def timeoutFresh (cfg : Config) (args : RefundArgs) (s : Settlement) (payFrom : Address) :
    Mcp Response := do
  match ← attempt (call (Cmd.loadTask s args.task)) with
  | .error code => return .refused code
  | .ok detail =>
    if detail.status = 0 then return .refused .wrongRefundPath
    if detail.status = 4 ∨ detail.status = 5 then return .refused .nothingToRefund
    let now ← call Cmd.now
    if now < detail.deadline then return .refused .deadlineNotReached
    quoteOrRefund cfg args .timeout s payFrom detail

def refundTool (cfg : Config) (args : RefundArgs) (kind : SpendKind)
    (fresh : Settlement → Address → Mcp Response) : Mcp Response := do
  match ← requireFunding cfg with
  | .error code => return .refused code
  | .ok (s, payFrom) =>
    match ← call (Cmd.getSpend args.idempotencyKey) with
    | some existing => resumeRefund cfg existing kind
    | none => fresh s payFrom

def cancelTask (cfg : Config) (args : RefundArgs) : Mcp Response :=
  refundTool cfg args .cancel (cancelFresh cfg args)

def claimTimeout (cfg : Config) (args : RefundArgs) : Mcp Response :=
  refundTool cfg args .timeout (timeoutFresh cfg args)

end McpSpends
