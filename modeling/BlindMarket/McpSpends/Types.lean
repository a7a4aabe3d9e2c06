import BlindMarket.Support.Async

/-!
# MCP spends: data

The records and quotes of `state.ts`, the settlements of `settlement.ts`, and
what `rent.ts` asks of its process, of the backend and of the chain. Addresses
and texts are naturals, so their case is gone; a hash is what it is the hash
of.
-/
namespace McpSpends

open Async Prog

abbrev Address := Nat
abbrev ChainKey := Nat
abbrev Text := Nat
abbrev Capability := Nat
abbrev QuoteId := Nat
abbrev AgentId := Nat

def OG : ChainKey := 0
def ZERO_TOKEN : Address := 0

/-- What the fingerprint of a `post_tasks` row is taken of. -/
structure Canonical where
  briefHash : Text
  amountWei : Nat
  durationSecs : Nat
  isPublic : Bool
  capabilities : List Capability
  routingSummary : Option Text
  deriving DecidableEq, Repr

/-- An idempotency key: one a caller made up, that of a row of a list, or of its n-th agent. -/
inductive Key where
  | named (name : Nat)
  | row (list : Key) (canonical : Canonical) (copy : Nat)
  | agent (list : Key) (n : Nat)
  deriving DecidableEq, Repr

/-- The hash of a brief as it is stored: in the clear, or under a fresh key. -/
inductive TaskHash where
  | plain (text : Text)
  | ciphertext (text : Text) (aesKey : Nat)
  | foreign (n : Nat)
  deriving DecidableEq, Repr

inductive PickMode where
  | agent | creator
  deriving DecidableEq, Repr

structure OpenTerms where
  mode : PickMode
  creatorWindow : Nat
  deriving DecidableEq, Repr

/-! ## Transactions -/

def TASK_CATEGORY : Text := 1
def GLOBAL_ZONE : Text := 2

/-- The escrow calls a spend can ask for, decoded; anything else is `other`. -/
inductive EscrowCall where
  | createTask (taskHash : TaskHash) (token : Address) (amount : Nat)
      (category locationZone : Text) (duration : Nat)
  | createTaskOpen (taskHash : TaskHash) (token : Address) (amount : Nat)
      (category locationZone : Text) (duration : Nat) (verifierAgent : Address) (mode : Nat)
      (creatorWindow : Nat)
  | cancelTask (taskId : Nat)
  | claimTimeout (taskId : Nat)
  | other (data : Nat)
  deriving DecidableEq, Repr

/-- A transaction as the backend builds it. -/
structure UnsignedTx where
  target : Address
  call : EscrowCall
  value : Option Nat
  deriving DecidableEq, Repr

inductive TxData where
  | approve (spender : Address) (amount : Nat)
  | transfer (recipient : Address) (amount : Nat)
  | escrow (call : EscrowCall)
  deriving DecidableEq, Repr

/-- What is handed to a signer or to the relay. -/
structure TxRequest where
  target : Address
  data : TxData
  value : Nat := 0
  nonce : Option Nat := none
  chainId : Option Nat := none
  deriving DecidableEq, Repr

/-- A signed transaction. -/
structure Raw where
  chainId : Nat
  sender : Address
  nonce : Nat
  target : Address
  data : TxData
  value : Nat
  fees : Nat
  deriving DecidableEq, Repr

/-- The hash of a signed transaction, or what the relay answered. -/
inductive TxHash where
  | signed (raw : Raw)
  | relayed (n : Nat)
  deriving DecidableEq, Repr

def EscrowCall.isCreate : EscrowCall → Bool
  | .createTask .. => true
  | .createTaskOpen .. => true
  | _ => false

def TxData.isCreate : TxData → Bool
  | .escrow call => call.isCreate
  | _ => false

/-! ## The ledger -/

inductive SpendStage where
  | created | approved | funded | indexed | sent | confirmed
  deriving DecidableEq, Repr

inductive SpendKind where
  | rent | post | postBatch | cancel | timeout | deploy | deployBatch
  deriving DecidableEq, Repr

inductive Outcome where
  | refund | escalate
  deriving DecidableEq, Repr

inductive VerificationMode where
  | auto | agent
  deriving DecidableEq, Repr

structure Criteria where
  minLength : Nat
  passThreshold : Option Nat
  deriving DecidableEq, Repr

/-- The agents a `deploy_agents` key deploys. -/
structure Template where
  name : Text
  instructions : Text
  provider : Nat
  model : Nat
  skillSlugs : List Nat
  deriving DecidableEq, Repr

structure SpendRecord where
  idempotencyKey : Key
  kind : SpendKind
  stage : SpendStage
  taskHash : Option TaskHash := none
  taskId : Option Nat := none
  fromStatus : Option Nat := none
  outcome : Option Outcome := none
  txHash : Option TxHash := none
  settlement : Option ChainKey := none
  chainId : Option Nat := none
  token : Option Address := none
  approveTxHash : Option TxHash := none
  isUserOp : Bool := false
  rootHash : Option Nat := none
  serviceId : Option Nat := none
  targetExecutor : Option Address := none
  isPublic : Bool := false
  publicBrief : Option Text := none
  routingSummary : Option Text := none
  verificationMode : Option VerificationMode := none
  verificationCriteria : Option Criteria := none
  verifierAddress : Option Address := none
  openTerms : Option OpenTerms := none
  requiredCapabilities : List Capability := []
  amountWei : Option Nat := none
  durationSecs : Option Nat := none
  agentId : Option AgentId := none
  nonce : Option Nat := none
  batchDigest : Option Template := none
  deriving DecidableEq, Repr

/-- The updates `rent.ts` makes to a record. -/
inductive Patch where
  | approved (approveTxHash : TxHash)
  | funded (txHash : TxHash) (isUserOp : Bool)
  | fundedNative (txHash : TxHash)
  | unfunded
  | unfundedNative
  | indexed
  | sent (txHash : TxHash) (isUserOp : Bool)
  | sentNative (txHash : TxHash)
  | landed (outcome : Outcome)
  | feeSent (txHash : TxHash) (nonce : Nat)
  | feeUnpaid
  | deployed (agentId : AgentId)
  | onChain (chainId : Nat)
  | listDone
  deriving DecidableEq, Repr

def Patch.apply (record : SpendRecord) : Patch → SpendRecord
  | .approved hash => { record with stage := .approved, approveTxHash := some hash }
  | .funded hash isUserOp => { record with stage := .funded, txHash := some hash, isUserOp }
  | .fundedNative hash => { record with stage := .funded, txHash := some hash }
  | .unfunded => { record with stage := .created, txHash := none, isUserOp := false }
  | .unfundedNative => { record with stage := .created, txHash := none }
  | .indexed => { record with stage := .indexed }
  | .sent hash isUserOp => { record with stage := .sent, txHash := some hash, isUserOp }
  | .sentNative hash => { record with stage := .sent, txHash := some hash }
  | .landed outcome => { record with stage := .confirmed, outcome := some outcome }
  | .feeSent hash nonce =>
    { record with stage := .sent, txHash := some hash, nonce := some nonce }
  | .feeUnpaid => { record with stage := .created, txHash := none, nonce := none }
  | .deployed agentId => { record with stage := .confirmed, agentId := some agentId }
  | .onChain chainId => { record with chainId := some chainId }
  | .listDone => { record with stage := .confirmed }

/-! ## Settlements -/

/-- A native 0G settlement. -/
structure OgSettlement where
  chainId : Option Nat
  escrowAddress : Option Address
  postingChain : Option ChainKey
  deriving DecidableEq, Repr

/-- An ERC-20 settlement, paid through the relay or signed by the local wallet. -/
structure Erc20Settlement where
  relay : Bool
  mode : ChainKey
  chainId : Nat
  escrowAddress : Address
  token : Address
  decimals : Nat
  payFrom : Address
  postingChain : Option ChainKey
  deriving DecidableEq, Repr

inductive Settlement where
  | og (s : OgSettlement)
  | erc20 (s : Erc20Settlement)
  deriving DecidableEq, Repr

namespace Settlement

def mode : Settlement → ChainKey
  | .og _ => OG
  | .erc20 s => s.mode

def chainId : Settlement → Option Nat
  | .og s => s.chainId
  | .erc20 s => some s.chainId

def escrowAddress : Settlement → Option Address
  | .og s => s.escrowAddress
  | .erc20 s => some s.escrowAddress

def token : Settlement → Address
  | .og _ => ZERO_TOKEN
  | .erc20 s => s.token

def decimals : Settlement → Nat
  | .og _ => 18
  | .erc20 s => s.decimals

def postingChain : Settlement → Option ChainKey
  | .og s => s.postingChain
  | .erc20 s => s.postingChain

end Settlement

structure SettlementPin where
  chainId : Nat
  escrow : Address
  token : Address
  deriving DecidableEq, Repr

/-- The local wallet and the chain of its own RPC. -/
structure Wallet where
  address : Address
  chainId : Nat
  deriving DecidableEq, Repr

/-- What a process is started with; `pins` also holds the escrows its environment trusts. -/
structure Config where
  wallet : Option Wallet
  pins : List SettlementPin
  providerKeys : List Nat := []
  deriving DecidableEq, Repr

/-! ## Quotes -/

/-- The chain, escrow, token and wallet a spend moves money on. -/
structure SettlementFields where
  chain : ChainKey
  chainId : Option Nat
  escrow : Option Address
  token : Address
  payFrom : Address
  deriving DecidableEq, Repr

structure FeeFields where
  chain : ChainKey
  chainId : Option Nat
  token : Address
  recipient : Address
  amountRaw : Nat
  decimals : Nat
  deriving DecidableEq, Repr

/-- The normalized spend of each tool. -/
inductive SpendFields where
  | rent (settlement : SettlementFields) (idempotencyKey : Key) (serviceId listingId : Nat)
      (agent : Address) (priceRaw : Nat) (isPublic : Bool) (prompt : Text)
  | post (settlement : SettlementFields) (idempotencyKey : Key) (amountRaw durationSecs : Nat)
      (capabilities : List Capability) (isPublic : Bool) (instructions : Text)
      (openTerms : Option OpenTerms) (verifier : Option Address)
  | postBatch (settlement : SettlementFields) (idempotencyKey : Key) (tasks toPost toFundRaw : Nat)
      (rows pending : List Key)
  | refund (settlement : SettlementFields) (idempotencyKey : Key) (taskId : Nat)
      (taskHash : TaskHash) (amountRaw : Nat)
  | deploy (idempotencyKey : Key) (payFrom : Address) (name : Text) (provider model : Nat)
      (instructions : Text) (skills : List Nat) (fee : Option FeeFields)
  | deployBatch (idempotencyKey : Key) (payFrom : Address) (provider model : Nat)
      (instructions : Text) (skills : List Nat) (count : Nat) (names : List Text)
      (pending toPay : List Nat) (fee : Option FeeFields)
  deriving DecidableEq, Repr

structure Quote where
  kind : SpendKind
  spend : SpendFields
  expiresAt : Nat
  deriving DecidableEq, Repr

inductive QuoteCheck where
  | ok
  | quoteRequired
  | quoteMismatch
  deriving DecidableEq, Repr

/-! ## Answers of the backend and of the chain -/

structure Service where
  id : Nat
  agentAddress : Address
  hasPublicKey : Bool
  priceRaw : Nat
  deriving DecidableEq, Repr

structure OpenConfig where
  enabled : Bool
  posting : Bool
  defaultJudge : Option Address
  deriving DecidableEq, Repr

/-- What `POST /tasks` answers. -/
structure Built where
  unsignedTx : UnsignedTx
  chain : Option ChainKey
  chainId : Option Nat
  deriving DecidableEq, Repr

structure Relayed where
  hash : Option TxHash
  isUserOp : Bool
  deriving DecidableEq, Repr

structure TaskDetail where
  taskId : Nat
  taskHash : TaskHash
  status : Nat
  amount : Nat
  deadline : Nat
  deriving DecidableEq, Repr

structure OpenStatus where
  submissions : Nat
  onChainTaskId : Nat
  chain : ChainKey
  deriving DecidableEq, Repr

structure TransferTerms where
  chain : ChainKey
  chainId : Option Nat
  token : Address
  recipient : Address
  amountRaw : Nat
  decimals : Nat
  deriving DecidableEq, Repr

inductive FeeTerms where
  | notRequired
  | transfer (terms : TransferTerms)
  | factory
  deriving DecidableEq, Repr

structure DeployedAgent where
  id : AgentId
  started : Bool
  deriving DecidableEq, Repr

/-- The codes errors and refusals carry. -/
inductive Code where
  | rejected
  | settlementUnknown | noWallet | chainMismatch | notPostingChain | escrowNotPinned
  | settlementChanged | escrowMismatch | txMismatch | relayNoHash | txReverted | txPending
  | approvePending | txMaybeSent | callException
  | quoteRequired | quoteMismatch | noAgentPubkey | priceUnitsSuspect | idempotencyKeyInUse
  | idempotencyKeyReused | publicTaskIsOpen | openRequired | openTaskMustBePublic
  | invalidVerifier | invalidPickWindow | openSubmissionDisabled | openSubmissionUnsupported
  | platformJudgePosterPicks | openTaskNeedsVerifier | amountRequired | amountInvalid
  | invalidRows | noExecutors | wrongRefundPath | hasSubmissions | nothingToRefund
  | deadlineNotReached | refundPending | notConfirmed
  | rateLimit | deployFeeNotFound | deployFeeAlreadyUsed (agentId : Option AgentId)
  | unsupportedFeeMethod | providerKeyMissing | invalidName | ownerMismatch | agentCapacity
  | feeReverted | feeNeverLanded | agentNotStarted | deployInvalid
  deriving DecidableEq, Repr

/-! ## Commands -/

/-- What `POST /a2a/tasks/index` is sent. -/
structure IndexBody where
  txHash : Option TxHash
  isUserOp : Bool
  taskHash : Option TaskHash
  verificationMode : Option VerificationMode
  verificationCriteria : Option Criteria
  requiredCapabilities : List Capability
  rootHash : Option Nat
  targetExecutor : Option Address
  serviceId : Option Nat
  verifierAddress : Option Address
  isPublic : Bool
  publicBrief : Option Text
  routingSummary : Option Text
  deriving DecidableEq, Repr

/-- What `POST /tasks` is sent. -/
structure TaskBody where
  taskHash : Option TaskHash
  token : Address
  amount : Option Nat
  duration : Nat
  verificationMode : Option VerificationMode
  verificationCriteria : Option Criteria
  requiredCapabilities : List Capability
  rootHash : Option Nat
  verifierAddress : Option Address
  openTerms : Option OpenTerms
  deriving DecidableEq, Repr

/-- What `POST /agents/deploy` is sent for one agent. -/
structure DeployBody where
  name : Text
  instructions : Text
  provider : Nat
  model : Nat
  skillSlugs : List Nat
  deriving DecidableEq, Repr

/-- What a call asks of its process, of the backend and of the chain. What is signed, relayed or
broadcast, and every deploy, names the spend it is for. -/
inductive Cmd where
  | getSpend (key : Key)
  | getSpends (keys : List Key)
  | putSpend (record : SpendRecord)
  | updateSpend (key : Key) (patch : Patch)
  | createQuote (kind : SpendKind) (spend : SpendFields)
  | consumeQuote (quoteId : Option QuoteId) (kind : SpendKind) (spend : SpendFields)
  | generateAesKey
  | now
  | pause
  | settlement
  | healthPostingChain
  | getService (serviceId : Nat)
  | openSubmission
  | executors (capabilities : List Capability)
  | upload (taskHash : TaskHash)
  | buildTask (body : TaskBody)
  | buildRefund (taskId : Nat) (kind : SpendKind) (chain : Option ChainKey)
  | openStatus (taskHash : TaskHash)
  | loadTask (s : Settlement) (task : Nat)
  | relayTx (spend : Key) (payFrom : Address) (chainId : Nat) (tx : TxRequest)
  | indexTask (body : IndexBody)
  | confirmTx (taskId : Nat) (txHash : TxHash)
  | pollPosted (taskHash : Option TaskHash)
  | getCode (target : Address)
  | balanceOf (token owner : Address)
  | allowance (chainId : Nat) (token owner spender : Address)
  | sign (spend : Key) (chainId : Nat) (request : TxRequest)
  | broadcast (spend : Key) (raw : Raw)
  | getTransactionReceipt (chainId : Nat) (hash : TxHash)
  | waitTx (hash : TxHash)
  | waitForTransaction (hash : TxHash)
  | getTransactionCount (chainId : Nat) (address : Address)
  | getTransaction (chainId : Nat) (hash : TxHash)
  | deployFee
  | validateDeploy (body : DeployBody)
  | capacity
  | whoami
  | walletOn (chain : ChainKey) (chainId : Option Nat)
  | deploy (spend : Key) (body : DeployBody) (feeTxHash : Option TxHash)
  | ownAgent (agentId : AgentId)
  deriving DecidableEq, Repr

@[reducible] def Ans : Cmd → Type
  | .getSpend _ => Option SpendRecord
  | .getSpends _ => List (Option SpendRecord)
  | .createQuote _ _ => QuoteId
  | .consumeQuote _ _ _ => QuoteCheck
  | .generateAesKey => Nat
  | .now => Nat
  | .settlement => Settlement
  | .healthPostingChain => Option ChainKey
  | .getService _ => Service
  | .openSubmission => OpenConfig
  | .executors _ => List Address
  | .upload _ => Nat
  | .buildTask _ => Built
  | .buildRefund _ _ _ => UnsignedTx
  | .openStatus _ => OpenStatus
  | .loadTask _ _ => TaskDetail
  | .relayTx _ _ _ _ => Relayed
  | .getCode _ => Bool
  | .balanceOf _ _ => Nat
  | .allowance _ _ _ _ => Nat
  | .sign _ _ _ => Raw
  | .getTransactionReceipt _ _ => Option Bool
  | .getTransactionCount _ _ => Nat
  | .getTransaction _ _ => Bool
  | .deployFee => FeeTerms
  | .capacity => Option Nat
  | .whoami => Address
  | .walletOn _ _ => Nat
  | .deploy _ _ _ => DeployedAgent
  | .ownAgent _ => Option DeployedAgent
  | _ => Unit

abbrev Mcp := Prog Ans Code

/-- `p`, or `default` if it fails. -/
def orElse {α : Type} (p : Mcp α) (default : α) : Mcp α := do
  match ← attempt p with
  | .ok a => return a
  | .error _ => return default

/-- A timer, which never rejects. -/
def sleep : Mcp Unit := orElse (call Cmd.pause) ()

end McpSpends
