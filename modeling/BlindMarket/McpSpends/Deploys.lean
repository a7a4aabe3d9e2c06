import BlindMarket.McpSpends.Posting

/-!
# MCP spends: deploys

`deploy_agent` and `deploy_agents`: one fee transfer for each agent, recorded
before it leaves, and the deploy that counts it.
-/
namespace McpSpends

open Async Prog

structure DeployArgs where
  body : DeployBody
  idempotencyKey : Key
  confirm : Bool := false
  quoteId : Option QuoteId := none
  deriving DecidableEq, Repr

def COMPUTE : Nat := 0

/-- `0g-compute` needs no key; any other provider's is read from the environment. -/
def providerKey (cfg : Config) (provider : Nat) : Bool :=
  provider = COMPUTE || cfg.providerKeys.contains provider

def FeeTerms.fee? : FeeTerms → Option TransferTerms
  | .transfer terms => some terms
  | _ => none

def feeFields (fee : TransferTerms) : FeeFields where
  chain := fee.chain
  chainId := fee.chainId
  token := fee.token
  recipient := fee.recipient
  amountRaw := fee.amountRaw
  decimals := fee.decimals

/-- `POST /agents/deploy`, asked again while the backend has not seen the fee confirm. -/
def postDeploy (spend : Key) (body : DeployBody) (feeTxHash : Option TxHash) :
    Nat → Mcp DeployedAgent
  | 0 => throw .rejected
  | n + 1 => do
    match ← attempt (call (Cmd.deploy spend body feeTxHash)) with
    | .ok agent => return agent
    | .error code =>
      if code ≠ .deployFeeNotFound ∨ n = 0 then throw code
      sleep
      postDeploy spend body feeTxHash n

/-- The fee of a record at 'sent'. -/
structure PaidFee where
  hash : TxHash
  nonce : Option Nat
  chainId : Option Nat
  settlement : Option ChainKey

def SpendRecord.paidFee (record : SpendRecord) : Option PaidFee :=
  if record.stage = .sent then
    record.txHash.map fun hash => ⟨hash, record.nonce, record.chainId, record.settlement⟩
  else none

/-- Whether the fee can never land: the wallet's confirmed nonce is past it, and no node has it. -/
def neverLanded (wallet : Wallet) (chain : ChainKey) (chainId nonce : Nat) (hash : TxHash) :
    Mcp Bool := do
  let _ ← call (Cmd.walletOn chain (some chainId))
  let count ← call (Cmd.getTransactionCount chainId wallet.address)
  if count ≤ nonce then return false
  let receipt ← call (Cmd.getTransactionReceipt chainId hash)
  if receipt.isSome then return false
  let transaction ← call (Cmd.getTransaction chainId hash)
  if transaction then return false
  sleep
  let again ← call (Cmd.getTransactionReceipt chainId hash)
  return again.isNone

def feeNeverLanded (wallet : Wallet) (fee : PaidFee) : Mcp Bool :=
  match fee.nonce, fee.chainId, fee.settlement with
  | some nonce, some chainId, some chain =>
    orElse (neverLanded wallet chain chainId nonce fee.hash) false
  | _, _, _ => return false

/-- Whether the receipt of a fee is on the fee chain; nothing when that cannot be told. -/
def feeOnChain (terms : TransferTerms) (hash : TxHash) : Mcp (Option Bool) :=
  orElse (do
    let chainId ← call (Cmd.walletOn terms.chain terms.chainId)
    let receipt ← call (Cmd.getTransactionReceipt chainId hash)
    return some (decide (receipt = some true))) none

/-- A fee recorded without its chain that the backend cannot find. -/
def unchainedFeeNotFound (key : Key) (hash : TxHash) (fee : Option TransferTerms) :
    Mcp Code := do
  match fee with
  | none => return .deployFeeNotFound
  | some terms =>
    match ← feeOnChain terms hash with
    | some true =>
      match terms.chainId with
      | some chainId =>
        call (Cmd.updateSpend key (.onChain chainId))
        return .deployFeeNotFound
      | none => return .deployFeeNotFound
    | some false => return .settlementChanged
    | none => return .deployFeeNotFound

/-- The chain the fee was paid on is not the one it is taken on now. -/
def paidElsewhere (fee : PaidFee) (current : Option TransferTerms) : Bool :=
  match fee.chainId, current.bind (·.chainId) with
  | some paid, some now => paid ≠ now
  | _, _ => false

/-- What a deploy with a paid fee makes of the backend's refusal. -/
def deployRefused (wallet : Wallet) (key : Key) (fee : PaidFee) (current : Option TransferTerms)
    (code : Code) : Mcp (Except Code DeployedAgent) := do
  match code with
  | .deployFeeNotFound =>
    if fee.chainId = none then return .error (← unchainedFeeNotFound key fee.hash current)
    if ← feeNeverLanded wallet fee then
      call (Cmd.updateSpend key .feeUnpaid)
      return .error .feeNeverLanded
    return .error code
  | .deployFeeAlreadyUsed (some agentId) =>
    match ← orElse (call (Cmd.ownAgent agentId)) none with
    | some agent =>
      call (Cmd.updateSpend key (.deployed agent.id))
      return .ok agent
    | none => return .error code
  | _ => return .error code

/-- Finish a deploy whose fee was paid before: with that payment, never a new one. -/
def deployWithPaidFee (wallet : Wallet) (key : Key) (fee : PaidFee) (body : DeployBody) :
    Mcp (Except Code DeployedAgent) := do
  let terms ← orElse (call Cmd.deployFee) .notRequired
  if paidElsewhere fee terms.fee? then return .error .settlementChanged
  let deployed ← attempt do
    let agent ← postDeploy key body (some fee.hash) 3
    call (Cmd.updateSpend key (.deployed agent.id))
    return agent
  match deployed with
  | .ok agent => return .ok agent
  | .error code => deployRefused wallet key fee terms.fee? code

def ownerRefusal (wallet : Wallet) : Mcp (Option Code) := do
  let owner ← call Cmd.whoami
  if owner = wallet.address then return none
  return some .ownerMismatch

def validateDeploy (body : DeployBody) : Mcp (Option Code) := do
  match ← attempt (call (Cmd.validateDeploy body)) with
  | .ok _ => return none
  | .error code => return some code

/-- The checks `deploy_agent` makes right before paying. -/
def payChecks (wallet : Wallet) (body : DeployBody) (checks : Bool) : Mcp (Option Code) := do
  if !checks then return none
  match ← ownerRefusal wallet with
  | some code => return some code
  | none => validateDeploy body

def feeRecord (key : Key) (fee : TransferTerms) : SpendRecord where
  idempotencyKey := key
  kind := .deploy
  stage := .created
  settlement := some fee.chain
  chainId := fee.chainId
  token := some fee.token
  amountWei := some fee.amountRaw

def unpaidRecord (key : Key) : SpendRecord where
  idempotencyKey := key
  kind := .deploy
  stage := .created

def feeTransfer (fee : TransferTerms) : TxRequest where
  target := fee.token
  data := .transfer fee.recipient fee.amountRaw

/-- The fee transfer itself: signed, recorded, broadcast, and waited for. A wait that ends
otherwise than in a revert leaves the deploy to find the receipt. -/
def payFee (key : Key) (fee : TransferTerms) : Mcp (Except Code TxHash) := do
  let chainId ← call (Cmd.walletOn fee.chain fee.chainId)
  call (Cmd.putSpend (feeRecord key fee))
  let raw ← signRecordBroadcast key chainId (feeTransfer fee) .feeSent
  match ← attempt (call (Cmd.waitTx (.signed raw))) with
  | .ok _ => return .ok (.signed raw)
  | .error err =>
    if err = .callException then
      call (Cmd.updateSpend key .feeUnpaid)
      return .error .feeReverted
    return .ok (.signed raw)

def deployWith (key : Key) (body : DeployBody) (feeTxHash : Option TxHash) :
    Mcp (Except Code (DeployedAgent × Option TxHash)) := do
  let agent ← postDeploy key body feeTxHash 3
  call (Cmd.updateSpend key (.deployed agent.id))
  return .ok (agent, feeTxHash)

def payAndDeployBody (wallet : Wallet) (key : Key) (body : DeployBody)
    (fee : Option TransferTerms) (checks : Bool) :
    Mcp (Except Code (DeployedAgent × Option TxHash)) := do
  match fee with
  | none =>
    call (Cmd.putSpend (unpaidRecord key))
    deployWith key body none
  | some terms =>
    match ← payChecks wallet body checks with
    | some code => return .error code
    | none =>
      match ← payFee key terms with
      | .error code => return .error code
      | .ok hash => deployWith key body (some hash)

/-- Pay the fee, when there is one, and deploy; each stage is recorded under the key. -/
def payAndDeploy (wallet : Wallet) (key : Key) (body : DeployBody) (fee : Option TransferTerms)
    (checks : Bool) : Mcp (Except Code (DeployedAgent × Option TxHash)) := do
  match ← attempt (payAndDeployBody wallet key body fee checks) with
  | .ok result => return result
  | .error code => return .error code

/-! ## One agent -/

def deployFields (args : DeployArgs) (wallet : Wallet) (fee : Option TransferTerms) :
    SpendFields :=
  .deploy args.idempotencyKey wallet.address args.body.name args.body.provider args.body.model
    args.body.instructions args.body.skillSlugs (fee.map feeFields)

/-- The paying wallet's balance beside a quote; only an RPC that cannot be used refuses it. -/
def quoteBalance (wallet : Wallet) (fee : Option TransferTerms) : Mcp (Option Code) := do
  match fee with
  | none => return none
  | some terms =>
    let read ← attempt do
      let _ ← call (Cmd.walletOn terms.chain terms.chainId)
      let _ ← call (Cmd.balanceOf terms.token wallet.address)
      return ()
    match read with
    | .error .settlementUnknown => return some .settlementUnknown
    | _ => return none

def resumeDeploy (wallet : Wallet) (args : DeployArgs) (fee : PaidFee) : Mcp Response := do
  match ← deployWithPaidFee wallet args.idempotencyKey fee args.body with
  | .error code => return .refused code
  | .ok agent => return .deployed true (some agent.id) (some fee.hash)

def quoteDeploy (wallet : Wallet) (args : DeployArgs) (fee : Option TransferTerms) :
    Mcp Response := do
  match ← validateDeploy args.body with
  | some code => return .refused code
  | none =>
    match ← quoteBalance wallet fee with
    | some code => return .refused code
    | none =>
      let quoteId ← call (Cmd.createQuote .deploy (deployFields args wallet fee))
      return .quoted quoteId

def deployConfirmed (wallet : Wallet) (args : DeployArgs) (fee : Option TransferTerms) :
    Mcp Response := do
  match ← payAndDeploy wallet args.idempotencyKey args.body fee true with
  | .error code => return .refused code
  | .ok (agent, hash) => return .deployed false (some agent.id) hash

def deployFresh (wallet : Wallet) (args : DeployArgs) : Mcp Response := do
  match ← attempt (call Cmd.deployFee) with
  | .error code => return .refused code
  | .ok .factory => return .refused .unsupportedFeeMethod
  | .ok terms =>
    if !args.confirm then quoteDeploy wallet args terms.fee?
    else
      match quoteRefused (← call (Cmd.consumeQuote args.quoteId .deploy
          (deployFields args wallet terms.fee?))) with
      | some code => return .refused code
      | none => deployConfirmed wallet args terms.fee?

def deployAgent (cfg : Config) (args : DeployArgs) : Mcp Response := do
  match cfg.wallet with
  | none => return .refused .noWallet
  | some wallet =>
    if !providerKey cfg args.body.provider then return .refused .providerKeyMissing
    match ← call (Cmd.getSpend args.idempotencyKey) with
    | none => deployFresh wallet args
    | some existing =>
      if existing.kind ≠ .deploy then return .refused .idempotencyKeyInUse
      if existing.stage = .confirmed then
        return .deployed true existing.agentId existing.txHash
      match existing.paidFee with
      | some fee => resumeDeploy wallet args fee
      | none => deployFresh wallet args

/-! ## Several agents -/

structure DeployListArgs where
  template : Template
  names : List Text
  idempotencyKey : Key
  confirm : Bool := false
  quoteId : Option QuoteId := none
  deriving DecidableEq, Repr

def DEPLOY_ATTEMPTS : Nat := 6

/-- The n-th agent of a list, counted from 1. -/
structure Agent where
  index : Nat
  name : Text
  deriving DecidableEq, Repr

def Agent.key (list : Key) (a : Agent) : Key := .agent list a.index

def Agent.body (t : Template) (a : Agent) : DeployBody where
  name := a.name
  instructions := t.instructions
  provider := t.provider
  model := t.model
  skillSlugs := t.skillSlugs

def agentsOf (names : List Text) : List Agent :=
  names.zipIdx.map fun n => ⟨n.2 + 1, n.1⟩

/-- The agents of a list that are not deployed, and those whose fee is still to pay. -/
structure DeployProgress where
  done : List Agent
  todo : List Agent
  toPay : List Agent

def deployProgress (agents : List Agent) (spends : List (Option SpendRecord)) : DeployProgress :=
  let staged := agents.zip spends
  let todo := staged.filter fun a => (a.2.map (·.stage)) ≠ some .confirmed
  { done := (staged.filter fun a => (a.2.map (·.stage)) = some .confirmed).map (·.1)
    todo := todo.map (·.1)
    toPay := (todo.filter fun a => (a.2.bind SpendRecord.paidFee).isNone).map (·.1) }

def deployListFields (args : DeployListArgs) (wallet : Wallet) (progress : DeployProgress)
    (fee : Option TransferTerms) : SpendFields :=
  .deployBatch args.idempotencyKey wallet.address args.template.provider args.template.model
    args.template.instructions args.template.skillSlugs args.names.length args.names
    (progress.todo.map (·.index)) (progress.toPay.map (·.index)) (fee.map feeFields)

/-- The agents still to deploy cannot all start now. -/
def capacityRefusal (todo : Nat) : Mcp (Option Code) := do
  match ← attempt (call Cmd.capacity) with
  | .error code => return some code
  | .ok none => return none
  | .ok (some free) => return if todo ≤ free then none else some .agentCapacity

/-- One agent: with the fee its record holds, else paying one; a 429 is asked again. -/
def deployOne (wallet : Wallet) (key : Key) (body : DeployBody) (fee : Option TransferTerms) :
    Nat → Mcp (Except Code DeployedAgent)
  | 0 => return .error .rateLimit
  | n + 1 => do
    let record ← call (Cmd.getSpend key)
    let r ←
      match record.bind SpendRecord.paidFee with
      | some paid => deployWithPaidFee wallet key paid body
      | none => do
        let paid ← payAndDeploy wallet key body fee false
        pure (paid.map (·.1))
    match r with
    | .error .rateLimit =>
      if n = 0 then return r
      sleep
      deployOne wallet key body fee n
    | _ => return r

/-- The agents in turn; a problem, or one that did not start, stops the run. -/
def deployRows (wallet : Wallet) (args : DeployListArgs) (fee : Option TransferTerms) :
    List Agent → Mcp (List (Nat × Bool) × Option Code)
  | [] => return ([], none)
  | a :: rest => do
    match ← deployOne wallet (a.key args.idempotencyKey) (a.body args.template) fee
        DEPLOY_ATTEMPTS with
    | .error code =>
      let _ ← call (Cmd.getSpend (a.key args.idempotencyKey))
      return ([(a.index, false)], some code)
    | .ok agent =>
      if agent.started then
        let (results, stopped) ← deployRows wallet args fee rest
        return ((a.index, true) :: results, stopped)
      else return ([(a.index, true)], some .agentNotStarted)

def batchDeployRecord (args : DeployListArgs) (fee : Option TransferTerms) : SpendRecord where
  idempotencyKey := args.idempotencyKey
  kind := .deployBatch
  stage := .created
  batchDigest := some args.template
  settlement := fee.map (·.chain)
  chainId := fee.bind (·.chainId)

/-- Right before the first payment: the owner, and the deploy with the longest name. -/
def listPayChecks (wallet : Wallet) (args : DeployListArgs) (fee : Option TransferTerms)
    (toPay : List Agent) : Mcp (Option Code) := do
  match fee, toPay with
  | some _, a :: _ => payChecks wallet (a.body args.template) true
  | _, _ => return none

def deployList (wallet : Wallet) (args : DeployListArgs) (progress : DeployProgress)
    (fee : Option TransferTerms) : Mcp Response := do
  match ← capacityRefusal progress.todo.length with
  | some code => return .refused code
  | none =>
    match ← attempt (listPayChecks wallet args fee progress.toPay) with
    | .error code => return .refused code
    | .ok (some code) => return .refused code
    | .ok none =>
      call (Cmd.putSpend (batchDeployRecord args fee))
      let (results, stopped) ← deployRows wallet args fee progress.todo
      if stopped.isNone then call (Cmd.updateSpend args.idempotencyKey .listDone)
      return .deployedAll results stopped

def quoteDeployList (wallet : Wallet) (args : DeployListArgs) (progress : DeployProgress)
    (fee : Option TransferTerms) : Mcp Response := do
  match progress.todo with
  | [] => return .deployedAll [] none
  | a :: _ =>
    match ← validateDeploy (a.body args.template) with
    | some code => return .refused code
    | none =>
      match ← capacityRefusal progress.todo.length with
      | some code => return .refused code
      | none =>
        match ← (if progress.toPay.isEmpty then pure none else quoteBalance wallet fee) with
        | some code => return .refused code
        | none =>
          let quoteId ← call (Cmd.createQuote .deployBatch
            (deployListFields args wallet progress fee))
          return .quoted quoteId

def deployListTerms (wallet : Wallet) (args : DeployListArgs) (progress : DeployProgress) :
    Mcp Response := do
  match ← attempt (call Cmd.deployFee) with
  | .error code => return .refused code
  | .ok .factory => return .refused .unsupportedFeeMethod
  | .ok terms =>
    if !args.confirm then quoteDeployList wallet args progress terms.fee?
    else
      match quoteRefused (← call (Cmd.consumeQuote args.quoteId .deployBatch
          (deployListFields args wallet progress terms.fee?))) with
      | some code => return .refused code
      | none => deployList wallet args progress terms.fee?

/-- The list's key, or one of its agents', belongs to another spend. -/
def listKeyInUse (args : DeployListArgs) (existing : Option SpendRecord)
    (spends : List (Option SpendRecord)) : Bool :=
  existing.any (fun r => r.kind ≠ .deployBatch ||
    (r.batchDigest.isSome && r.batchDigest ≠ some args.template)) ||
  spends.any fun r => r.any fun r => r.kind ≠ .deploy

def deployAgents (cfg : Config) (args : DeployListArgs) : Mcp Response := do
  match cfg.wallet with
  | none => return .refused .noWallet
  | some wallet =>
    if !providerKey cfg args.template.provider then return .refused .providerKeyMissing
    let agents := agentsOf args.names
    let read ← call (Cmd.getSpends
      (args.idempotencyKey :: agents.map (·.key args.idempotencyKey)))
    if listKeyInUse args read.head?.join read.tail then return .refused .idempotencyKeyInUse
    let progress := deployProgress agents read.tail
    if progress.todo.isEmpty then
      return .deployedAll (progress.done.map fun a => (a.index, true)) none
    deployListTerms wallet args progress

end McpSpends
