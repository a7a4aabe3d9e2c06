import BlindMarket.McpSpends.Types

/-!
# MCP spends: funding an escrow

The shared tail of `rent_service`, `post_task` and `post_tasks`: the checks
before anything is signed, the approve, the createTask on each of the payment
paths, and the listing.
-/
namespace McpSpends

open Async Prog

/-! ## What a spend is checked against -/

def isPinnedSettlement (pins : List SettlementPin) (chainId : Nat) (escrow token : Address) :
    Bool :=
  pins.any fun p => p.chainId = chainId ∧ p.escrow = escrow ∧ p.token = token

/-- Why an escrow may not be funded: only a pinned deployment, or a trusted one. -/
def pinRefusal (cfg : Config) (s : Settlement) : Option Code :=
  match s.chainId, s.escrowAddress with
  | some chainId, some escrow =>
    if isPinnedSettlement cfg.pins chainId escrow s.token then none else some .escrowNotPinned
  | _, _ => some .escrowNotPinned

def settlementFields (s : Settlement) (payFrom : Address) : SettlementFields where
  chain := s.mode
  chainId := s.chainId
  escrow := s.escrowAddress
  token := s.token
  payFrom

/-- Whether the network a spend was recorded on is not the one it would settle on now. -/
def networkChange (record : SpendRecord) (s : Settlement) : Bool :=
  s.chainId.isSome && record.chainId ≠ s.chainId

/-- The escrow call the backend built is `fn`, and names no value but `value`. -/
def assertEscrowCall (tx : UnsignedTx) (argsOk : EscrowCall → Bool) (value : Nat) : Mcp Unit :=
  if argsOk tx.call && (tx.value.getD value = value) then return () else throw .txMismatch

def requireFunding (cfg : Config) : Mcp (Except Code (Settlement × Address)) := do
  match ← attempt (call Cmd.settlement) with
  | .error code => return .error code
  | .ok (.erc20 s) => return .ok (.erc20 s, s.payFrom)
  | .ok (.og s) =>
    match cfg.wallet with
    | none => return .error .noWallet
    | some wallet =>
      if s.chainId.getD wallet.chainId ≠ wallet.chainId then return .error .chainMismatch
      return .ok (.og s, wallet.address)

/-- A new escrow is funded on the posting chain alone. -/
def notPostingChain (s : Settlement) : Mcp (Option Code) := do
  let posting ←
    if s.postingChain = none ∧ s.mode = OG then orElse (call Cmd.healthPostingChain) none
    else pure s.postingChain
  if posting.getD s.mode = s.mode then return none
  return some .notPostingChain

/-- The escrow this process expects, or at least some contract. -/
def verifyTarget (cfg : Config) (s : Settlement) (target : Address) : Mcp Unit := do
  match s.escrowAddress with
  | some expected => if target = expected then return () else throw .escrowMismatch
  | none =>
    match cfg.wallet with
    | none => throw .rejected
    | some _ =>
      let code ← orElse (call (Cmd.getCode target)) false
      if code then return () else throw .escrowMismatch

/-! ## Sending -/

/-- Sign, record the hash and the nonce, then broadcast. -/
def signRecordBroadcast (spend : Key) (chainId : Nat) (request : TxRequest)
    (recorded : TxHash → Nat → Patch) : Mcp Raw := do
  let raw ← call (Cmd.sign spend chainId request)
  call (Cmd.updateSpend spend (recorded (.signed raw) raw.nonce))
  match ← attempt (call (Cmd.broadcast spend raw)) with
  | .ok _ => return raw
  | .error _ => throw .txMaybeSent

def relaySend (spend : Key) (s : Erc20Settlement) (tx : TxRequest) : Mcp (TxHash × Bool) := do
  let r ← call (Cmd.relayTx spend s.payFrom s.chainId tx)
  match r.hash with
  | none => throw .relayNoHash
  | some hash => return (hash, r.isUserOp)

structure SentErc20 where
  hash : TxHash
  isUserOp : Bool
  nonce : Option Nat

/-- Through the relay, whose answer is recorded, or signed here and recorded before it leaves. -/
def sendErc20 (spend : Key) (s : Erc20Settlement) (tx : TxRequest) (nonce : Option Nat)
    (recorded : TxHash → Bool → Patch) : Mcp SentErc20 := do
  if s.relay then
    let (hash, isUserOp) ← relaySend spend s tx
    call (Cmd.updateSpend spend (recorded hash isUserOp))
    return ⟨hash, isUserOp, none⟩
  else
    let raw ← signRecordBroadcast spend s.chainId { tx with nonce } fun hash _ =>
      recorded hash false
    return ⟨.signed raw, false, some raw.nonce⟩

/-- A receipt, asked for until it is there. -/
def pollReceipt (chainId : Nat) (hash : TxHash) : Nat → Mcp Unit
  | 0 => throw .txPending
  | n + 1 => do
    match ← orElse (call (Cmd.getTransactionReceipt chainId hash)) none with
    | some true => return ()
    | some false => throw .txReverted
    | none =>
      sleep
      pollReceipt chainId hash n

def waitRelayed (chainId : Nat) (hash : TxHash) (isUserOp : Bool) : Mcp Unit :=
  if isUserOp then return () else pollReceipt chainId hash 30

/-! ## The allowance -/

def approveTx (s : Erc20Settlement) (need : Nat) : TxRequest where
  target := s.token
  data := .approve s.escrowAddress need

/-- The settlement's token, its escrow as the spender, and exactly the amount needed. -/
def assertApprove (s : Erc20Settlement) (tx : TxRequest) (need : Nat) : Mcp Unit :=
  if tx.target = s.token ∧ tx.data = .approve s.escrowAddress need then return ()
  else throw .txMismatch

def approve (spend : Key) (s : Erc20Settlement) (need : Nat) : Mcp (Option Nat) := do
  assertApprove s (approveTx s need) need
  let sent ← sendErc20 spend s (approveTx s need) none fun hash _ => .approved hash
  return sent.nonce

def readAllowance (s : Erc20Settlement) : Mcp Nat :=
  call (Cmd.allowance s.chainId s.token s.payFrom s.escrowAddress)

/-- Whether the allowance comes to what is needed in time. -/
def settled (s : Erc20Settlement) (need : Nat) : Nat → Mcp Bool
  | 0 => return false
  | n + 1 => do
    let allowance ← readAllowance s
    if need ≤ allowance then return true
    sleep
    settled s need n

/-- The nonce after that of an approve sent, the one before else. -/
def nextNonce (sent before : Option Nat) : Option Nat :=
  match sent with
  | some nonce => some (nonce + 1)
  | none => before

/-- Past the first approve: a second one is safe, as it sets the allowance. -/
def reapprove (spend : Key) (s : Erc20Settlement) (need : Nat) (next : Option Nat) :
    Mcp (Option Nat) := do
  if ← settled s need 30 then return next
  let sent ← approve spend s need
  if ← settled s need 30 then return nextNonce sent next
  throw .approvePending

/-- The nonce the createTask should use when a local approve was sent for it. -/
def ensureAllowance (s : Erc20Settlement) (record : SpendRecord) : Mcp (Option Nat) := do
  match record.amountWei with
  | none => throw .rejected
  | some need =>
    let allowance ← readAllowance s
    if need ≤ allowance then return none
    if record.stage = .created then
      let sent ← approve record.idempotencyKey s need
      if ← settled s need 30 then return nextNonce sent none
      reapprove record.idempotencyKey s need (nextNonce sent none)
    else reapprove record.idempotencyKey s need none

/-! ## The createTask -/

/-- A record goes on where it was started. -/
def fundingSettlement (cfg : Config) (record : SpendRecord) : Mcp Settlement := do
  let s ← call Cmd.settlement
  if record.settlement.getD s.mode ≠ s.mode then throw .settlementChanged
  if networkChange record s then throw .settlementChanged
  match ← notPostingChain s with
  | some code => throw code
  | none =>
    match pinRefusal cfg s with
    | some code => throw code
    | none => return s

def taskBody (s : Settlement) (record : SpendRecord) : TaskBody where
  taskHash := record.taskHash
  token := s.token
  amount := record.amountWei
  duration := record.durationSecs.getD 3600
  verificationMode := record.verificationMode
  verificationCriteria := record.verificationCriteria
  requiredCapabilities := record.requiredCapabilities
  rootHash := record.rootHash
  verifierAddress := if record.openTerms.isSome then record.verifierAddress else none
  openTerms := record.openTerms

/-- The chain a chain-aware backend says it built for is another one. -/
def builtElsewhere (s : Settlement) (built : Built) : Bool :=
  s.postingChain.isSome &&
    (built.chain.getD s.mode ≠ s.mode ||
      (s.chainId.isSome && (built.chainId.isSome && built.chainId ≠ s.chainId)))

def modeWord : PickMode → Nat
  | .creator => 1
  | .agent => 0

/-- The createTask this spend asked for: `createTaskOpen` for a task many agents submit to. -/
def createArgsOk (s : Settlement) (record : SpendRecord) (amount : Nat) : EscrowCall → Bool
  | .createTask taskHash token amount' category locationZone duration =>
    record.openTerms.isNone &&
      (some taskHash = record.taskHash ∧ token = s.token ∧ amount' = amount ∧
        category = TASK_CATEGORY ∧ locationZone = GLOBAL_ZONE ∧
        duration = record.durationSecs.getD 3600)
  | .createTaskOpen taskHash token amount' category locationZone duration verifier mode window =>
    match record.openTerms with
    | none => false
    | some terms =>
      some taskHash = record.taskHash ∧ token = s.token ∧ amount' = amount ∧
        category = TASK_CATEGORY ∧ locationZone = GLOBAL_ZONE ∧
        duration = record.durationSecs.getD 3600 ∧ some verifier = record.verifierAddress ∧
        mode = modeWord terms.mode ∧ window = terms.creatorWindow
  | _ => false

def nativeValue (s : Settlement) (amount : Nat) : Nat :=
  match s with
  | .og _ => amount
  | .erc20 _ => 0

def buildCreateTask (cfg : Config) (s : Settlement) (record : SpendRecord) :
    Mcp UnsignedTx := do
  let built ← call (Cmd.buildTask (taskBody s record))
  if builtElsewhere s built then throw .escrowMismatch
  verifyTarget cfg s built.unsignedTx.target
  match record.amountWei with
  | none => throw .rejected
  | some amount =>
    assertEscrowCall built.unsignedTx (createArgsOk s record amount) (nativeValue s amount)
    return built.unsignedTx

/-- The transaction a record is funded by, and the nonce after it when this call signed it. -/
structure Funding where
  txHash : Option TxHash
  isUserOp : Bool
  next : Option Nat

/-- A createTask that reverted created no task: back to 'created', so that a retry funds it. -/
def unfundOn (revert : Code) (spend : Key) (reset : Patch) (wait : Mcp Unit) : Mcp Unit := do
  match ← attempt wait with
  | .ok _ => return ()
  | .error err =>
    if err = revert then call (Cmd.updateSpend spend reset)
    throw err

def fundErc20 (record : SpendRecord) (s : Erc20Settlement) (tx : UnsignedTx)
    (nonce : Option Nat) : Mcp Funding := do
  let sent ← sendErc20 record.idempotencyKey s { target := tx.target, data := .escrow tx.call }
    nonce .funded
  unfundOn .txReverted record.idempotencyKey .unfunded
    (waitRelayed s.chainId sent.hash sent.isUserOp)
  return ⟨some sent.hash, sent.isUserOp, sent.nonce.map (· + 1)⟩

def fundNative (cfg : Config) (record : SpendRecord) (s : OgSettlement) (tx : UnsignedTx)
    (next : Option Nat) : Mcp Funding := do
  match cfg.wallet, record.amountWei with
  | some wallet, some amount =>
    let raw ← signRecordBroadcast record.idempotencyKey wallet.chainId
      { target := tx.target, data := .escrow tx.call, value := amount, chainId := s.chainId }
      fun hash _ => .fundedNative hash
    unfundOn .callException record.idempotencyKey .unfundedNative
      (call (Cmd.waitTx (.signed raw)))
    return ⟨some (.signed raw), record.isUserOp, next⟩
  | _, _ => throw .rejected

/-- The funding half; `next` is the nonce the row before left. -/
def fund (cfg : Config) (record : SpendRecord) (next : Option Nat) : Mcp Funding := do
  let s ← fundingSettlement cfg record
  let tx ← buildCreateTask cfg s record
  match s with
  | .erc20 s =>
    let nonce ← ensureAllowance s record
    fundErc20 record s tx (nonce <|> next)
  | .og s => fundNative cfg record s tx next

def indexBody (record : SpendRecord) (txHash : Option TxHash) (isUserOp : Bool) : IndexBody where
  txHash
  isUserOp
  taskHash := record.taskHash
  verificationMode := record.verificationMode
  verificationCriteria := record.verificationCriteria
  requiredCapabilities := record.requiredCapabilities
  rootHash := record.rootHash
  targetExecutor := record.targetExecutor
  serviceId := record.serviceId
  verifierAddress := record.verifierAddress
  isPublic := record.isPublic
  publicBrief := if record.isPublic then record.publicBrief else none
  routingSummary := record.routingSummary

structure Done where
  taskHash : Option TaskHash
  txHash : Option TxHash
  next : Option Nat

/-- Fund and list: a record past 'approved' has nothing left to sign. -/
def fundAndIndex (cfg : Config) (record : SpendRecord) (next : Option Nat) : Mcp Done := do
  let funding ←
    if record.stage = .created ∨ record.stage = .approved then fund cfg record next
    else pure ⟨record.txHash, record.isUserOp, next⟩
  call (Cmd.indexTask (indexBody record funding.txHash funding.isUserOp))
  call (Cmd.updateSpend record.idempotencyKey .indexed)
  return ⟨record.taskHash, funding.txHash, funding.next⟩

end McpSpends
