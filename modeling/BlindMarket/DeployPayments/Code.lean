import BlindMarket.Support.Async
import Mathlib.Data.List.Sort

/-!
# Deploy payments: data and functions

`spentDeployPayments.ts`, the credits of `agentFactoryListener.ts`, the claims of
`deployFee.ts` and `POST /deploy` of `routes/agents.ts`. Addresses, hashes and
ids are naturals, so their case is gone; there is one factory on one chain.
-/
namespace DeployPayments

open Async Prog

abbrev Address := Nat
abbrev TxHash := Nat
abbrev Nonce := Nat
abbrev AgentId := Nat

inductive PaymentKey where
  | factory (factory : Address) (nonce : Nonce)
  | transfer (txHash : TxHash)
  deriving DecidableEq, Repr

def factoryPaymentKey (factory : Address) (nonce : Nonce) : PaymentKey := .factory factory nonce
def transferPaymentKey (txHash : TxHash) : PaymentKey := .transfer txHash

/-- A row of `spent_deploy_payments`; pending until it has its agent. -/
structure PaymentRow where
  owner : Address
  agentId : Option AgentId
  claimedAt : Int
  deriving DecidableEq, Repr

structure AgentDeployCredit where
  user : Address
  nonce : Nonce
  usdcAmount : Nat
  block : Nat
  txHash : TxHash
  ts : Nat
  deriving DecidableEq, Repr

inductive PaymentClaim where
  | claimed
  | notClaimed (pending : Bool) (agentId : Option AgentId)
  deriving DecidableEq, Repr

/-- What Redis kept of a fee transaction before the table did. -/
inductive LegacyMark where
  | used (agentId : AgentId)
  | other
  deriving DecidableEq, Repr

structure EventArgs where
  user : Option Address
  usdcAmount : Option Nat
  nonce : Option Nonce
  timestamp : Option Nat
  deriving DecidableEq, Repr

structure EventLog where
  args : Option EventArgs
  blockNumber : Nat
  transactionHash : TxHash
  deriving DecidableEq, Repr

/-- The block this network's record gives a factory. -/
structure DeploymentRecord where
  agentFactory : Option Address
  block : Option Nat
  deriving DecidableEq, Repr

structure Config where
  arcAgentFactoryAddress : Address
  arcAgentFactoryDeploymentBlock : Nat
  record : Option DeploymentRecord
  agentFactoryPaywall : Bool
  usePg : Bool

def PENDING_CLAIM_TTL_S : Int := 600
def MAX_BLOCKS_PER_TICK : Nat := 5000

def creditPaymentKey (cfg : Config) (nonce : Nonce) : PaymentKey :=
  factoryPaymentKey cfg.arcAgentFactoryAddress nonce

/-- 0 when the block is not known. -/
def factoryDeploymentBlock (cfg : Config) (factory : Address) : Nat :=
  if cfg.arcAgentFactoryDeploymentBlock > 0 then cfg.arcAgentFactoryDeploymentBlock
  else
    match cfg.record with
    | some record => if record.agentFactory = some factory then record.block.getD 0 else 0
    | none => 0

structure DeployRequest where
  ownerAddress : Address
  callerWallets : List Address
  feeTxHash : Option TxHash
  deriving DecidableEq, Repr

/-- What `POST /deploy` answers. -/
inductive Response where
  | invalid
  | agentCapacity
  | deployFeeInUse
  | deployFeeAlreadyUsed (agentId : Option AgentId)
  | noDeployCredit
  | created (agentId : AgentId) (started : Bool)
  deriving DecidableEq, Repr

/-- What a call asks of its process, of the chain, of Redis and of the database. A deploy names
the payment its route holds. -/
inductive Cmd where
  | nowS
  | prepareDeploy
  | startRefusal (ownerAddress : Address)
  | verifyArcDeployFee (feeTxHash : TxHash) (payers : List Address)
  | deployAgent (ownerAddress : Address) (payment : Option PaymentKey)
  | startAgent (id : AgentId)
  | insertClaim (key : PaymentKey) (owner : Address) (now : Int)
  | takeOver (key : PaymentKey) (owner : Address) (now staleBefore : Int)
  | selectAgentId (key : PaymentKey)
  | claimTransaction (key : PaymentKey) (owner : Address) (now staleBefore : Int)
  | markPaymentUsed (key : PaymentKey) (agentId : AgentId)
  | recordUsedPayment (key : PaymentKey) (owner : Address) (agentId : AgentId) (now : Int)
  | releasePayment (key : PaymentKey)
  | isPaymentRecorded (key : PaymentKey)
  | getLegacyMark (txHash : TxHash)
  | smembers (user : Address)
  | getCredit (user : Address) (nonce : Nonce)
  | existsCredit (user : Address) (nonce : Nonce)
  | setCredit (user : Address) (nonce : Nonce) (credit : AgentDeployCredit)
  | delCredit (user : Address) (nonce : Nonce)
  | sadd (user : Address) (nonce : Nonce)
  | srem (user : Address) (nonce : Nonce)
  | backgroundWritesAllowed
  | enterTick
  | leaveTick
  | contract
  | getBlockNumber
  | getCheckpoint
  | setCheckpoint (block : Nat)
  | queryFilter (fromBlock toBlock : Nat)
  deriving DecidableEq, Repr

@[reducible] def Ans : Cmd → Type
  | .nowS => Int
  | .prepareDeploy => Bool
  | .startRefusal _ => Bool
  | .verifyArcDeployFee _ _ => Address
  | .deployAgent _ _ => AgentId
  | .insertClaim _ _ _ => Bool
  | .takeOver _ _ _ _ => Bool
  | .selectAgentId _ => Option AgentId
  | .claimTransaction _ _ _ _ => PaymentClaim
  | .isPaymentRecorded _ => Bool
  | .getLegacyMark _ => Option LegacyMark
  | .smembers _ => List Nonce
  | .getCredit _ _ => Option AgentDeployCredit
  | .existsCredit _ _ => Bool
  | .srem _ _ => Bool
  | .backgroundWritesAllowed => Bool
  | .enterTick => Bool
  | .contract => Option Address
  | .getBlockNumber => Nat
  | .getCheckpoint => Option Nat
  | .queryFilter _ _ => List EventLog
  | _ => Unit

inductive Failure where
  | rejected
  deriving DecidableEq, Repr

abbrev Deploys := Prog Ans Failure

/-! ## Claims -/

def claimPayment (cfg : Config) (key : PaymentKey) (owner : Address) : Deploys PaymentClaim := do
  let now ← call Cmd.nowS
  let staleBefore := now - PENDING_CLAIM_TTL_S
  if cfg.usePg then
    let inserted ← call (Cmd.insertClaim key owner now)
    if inserted then return .claimed
    let tookOver ← call (Cmd.takeOver key owner now staleBefore)
    if tookOver then return .claimed
    let agentId ← call (Cmd.selectAgentId key)
    return .notClaimed agentId.isNone agentId
  else call (Cmd.claimTransaction key owner now staleBefore)

def markPaymentUsed (key : PaymentKey) (agentId : AgentId) : Deploys Unit :=
  call (Cmd.markPaymentUsed key agentId)

def recordUsedPayment (key : PaymentKey) (owner : Address) (agentId : AgentId) :
    Deploys Unit := do
  let now ← call Cmd.nowS
  call (Cmd.recordUsedPayment key owner agentId now)

def releasePayment (key : PaymentKey) : Deploys Unit := call (Cmd.releasePayment key)

/-- `p`, or `default` if it fails. -/
def orElse {α : Type} (p : Deploys α) (default : α) : Deploys α := do
  match ← attempt p with
  | .ok a => return a
  | .error _ => return default

/-- A failure here is logged and forgotten. -/
def ignore (p : Deploys Unit) : Deploys Unit := orElse p ()

def claimArcDeployFee (cfg : Config) (txHash : TxHash) (owner : Address) :
    Deploys PaymentClaim := do
  let legacy ← orElse (call (Cmd.getLegacyMark txHash)) none
  match legacy with
  | some (.used agentId) => recordUsedPayment (transferPaymentKey txHash) owner agentId
  | _ => pure ()
  claimPayment cfg (transferPaymentKey txHash) owner

def markArcDeployFeeUsed (txHash : TxHash) (agentId : AgentId) : Deploys Unit :=
  markPaymentUsed (transferPaymentKey txHash) agentId

def releaseArcDeployFee (txHash : TxHash) : Deploys Unit :=
  releasePayment (transferPaymentKey txHash)

/-! ## Credits -/

/-- The credits behind some nonces; a nonce without one is dropped. -/
def getCredits (user : Address) : List Nonce → Deploys (List AgentDeployCredit)
  | [] => return []
  | nonce :: nonces => do
    let raw ← call (Cmd.getCredit user nonce)
    let rest ← getCredits user nonces
    return raw.toList ++ rest

def byNonce (a b : AgentDeployCredit) : Prop := a.nonce ≤ b.nonce

instance : DecidableRel byNonce := fun a b => inferInstanceAs (Decidable (a.nonce ≤ b.nonce))

def listDeployCredits (user : Address) : Deploys (List AgentDeployCredit) := do
  let nonces ← call (Cmd.smembers user)
  let credits ← getCredits user nonces
  return credits.insertionSort byNonce

def restoreDeployCredit (cfg : Config) (credit : AgentDeployCredit) : Deploys Unit := do
  releasePayment (creditPaymentKey cfg credit.nonce)
  call (Cmd.setCredit credit.user credit.nonce credit)
  call (Cmd.sadd credit.user credit.nonce)

/-- The first of some credits that is still in the set and not spent. -/
def claimFirst (cfg : Config) (user : Address) :
    List AgentDeployCredit → Deploys (Option AgentDeployCredit)
  | [] => return none
  | credit :: credits => do
    let removed ← call (Cmd.srem user credit.nonce)
    if removed then
      call (Cmd.delCredit user credit.nonce)
      let claim ← claimPayment cfg (creditPaymentKey cfg credit.nonce) user
      match claim with
      | .claimed => return some credit
      | .notClaimed _ _ => claimFirst cfg user credits
    else claimFirst cfg user credits

def claimDeployCredit (cfg : Config) (user : Address) : Deploys (Option AgentDeployCredit) := do
  let credits ← listDeployCredits user
  claimFirst cfg user credits

def markDeployCreditUsed (cfg : Config) (credit : AgentDeployCredit) (agentId : AgentId) :
    Deploys Unit := markPaymentUsed (creditPaymentKey cfg credit.nonce) agentId

/-! ## The route -/

/-- The payment a deploy was let through with. -/
inductive Payment where
  | free
  | fee (txHash : TxHash)
  | credit (credit : AgentDeployCredit)
  deriving DecidableEq, Repr

def Payment.key (cfg : Config) : Payment → Option PaymentKey
  | .free => none
  | .fee txHash => some (transferPaymentKey txHash)
  | .credit spent => some (creditPaymentKey cfg spent.nonce)

/-- A credit of the first of the caller's wallets that has one. -/
def claimFromWallets (cfg : Config) : List Address → Deploys (Option AgentDeployCredit)
  | [] => return none
  | wallet :: wallets => do
    match ← claimDeployCredit cfg wallet with
    | some credit => return some credit
    | none => claimFromWallets cfg wallets

def payWithFee (cfg : Config) (req : DeployRequest) (feeTxHash : TxHash) :
    Deploys (Except Response Payment) := do
  let _ ← call (Cmd.verifyArcDeployFee feeTxHash req.callerWallets)
  match ← claimArcDeployFee cfg feeTxHash req.ownerAddress with
  | .claimed => return .ok (.fee feeTxHash)
  | .notClaimed true _ => return .error .deployFeeInUse
  | .notClaimed false agentId => return .error (.deployFeeAlreadyUsed agentId)

def payWithCredit (cfg : Config) (req : DeployRequest) : Deploys (Except Response Payment) := do
  match ← claimFromWallets cfg req.callerWallets with
  | some credit => return .ok (.credit credit)
  | none => return .error .noDeployCredit

def takePayment (cfg : Config) (req : DeployRequest) : Deploys (Except Response Payment) :=
  if cfg.agentFactoryPaywall then
    match req.feeTxHash with
    | some feeTxHash => payWithFee cfg req feeTxHash
    | none => payWithCredit cfg req
  else return .ok .free

/-- What a deploy that failed gives back. -/
def giveBack (cfg : Config) : Payment → Deploys Unit
  | .free => return ()
  | .fee txHash => ignore (releaseArcDeployFee txHash)
  | .credit credit => ignore (restoreDeployCredit cfg credit)

def markUsed (cfg : Config) (agentId : AgentId) : Payment → Deploys Unit
  | .free => return ()
  | .fee txHash => ignore (markArcDeployFeeUsed txHash agentId)
  | .credit credit => ignore (markDeployCreditUsed cfg credit agentId)

def deployPaid (cfg : Config) (req : DeployRequest) (payment : Payment) : Deploys Response := do
  match ← attempt (call (Cmd.deployAgent req.ownerAddress (payment.key cfg))) with
  | .error deployErr =>
    giveBack cfg payment
    throw deployErr
  | .ok agentId =>
    markUsed cfg agentId payment
    match ← attempt (call (Cmd.startAgent agentId)) with
    | .ok _ => return .created agentId true
    | .error _ => return .created agentId false

def postDeploy (cfg : Config) (req : DeployRequest) : Deploys Response := do
  let prepared ← call Cmd.prepareDeploy
  if !prepared then return .invalid
  let refused ← call (Cmd.startRefusal req.ownerAddress)
  if refused then return .agentCapacity
  match ← takePayment cfg req with
  | .error response => return response
  | .ok payment => deployPaid cfg req payment

/-! ## The listener -/

def creditOf (event : EventLog) (args : EventArgs) (user : Address) (nonce : Nonce) :
    AgentDeployCredit where
  user
  nonce
  usdcAmount := args.usdcAmount.getD 0
  block := event.blockNumber
  txHash := event.transactionHash
  ts := args.timestamp.getD 0

/-- The credit an event stands for, if its arguments are all there. -/
def EventLog.credit? (event : EventLog) : Option AgentDeployCredit := do
  let args ← event.args
  let user ← args.user
  let nonce ← args.nonce
  return creditOf event args user nonce

def recordCredit (cfg : Config) (event : EventLog) : Deploys Unit :=
  match event.credit? with
  | none => return ()
  | some credit => do
    let recorded ← call (Cmd.isPaymentRecorded (creditPaymentKey cfg credit.nonce))
    if recorded then return ()
    let _ ← call (Cmd.existsCredit credit.user credit.nonce)
    call (Cmd.setCredit credit.user credit.nonce credit)
    call (Cmd.sadd credit.user credit.nonce)

def recordCredits (cfg : Config) : List EventLog → Deploys Unit
  | [] => return ()
  | event :: events => do
    recordCredit cfg event
    recordCredits cfg events

/-- Where a tick starts to read. With no checkpoint it stores one first. -/
def firstBlock (cfg : Config) (addr : Address) (latest : Nat) : Deploys Nat := do
  match ← call Cmd.getCheckpoint with
  | some checkpoint => return max (checkpoint + 1) (factoryDeploymentBlock cfg addr)
  | none =>
    let floor := factoryDeploymentBlock cfg addr
    let fromBlock := if floor > 0 then floor else latest
    call (Cmd.setCheckpoint fromBlock)
    return fromBlock

def poll (cfg : Config) : Deploys Unit := do
  match ← call Cmd.contract with
  | none => return ()
  | some addr =>
    let latest ← call Cmd.getBlockNumber
    let fromBlock ← firstBlock cfg addr latest
    if fromBlock > latest then return ()
    let toBlock := min latest (fromBlock + MAX_BLOCKS_PER_TICK - 1)
    let events ← call (Cmd.queryFilter fromBlock toBlock)
    recordCredits cfg events
    call (Cmd.setCheckpoint toBlock)

def tick (cfg : Config) : Deploys Unit := do
  let allowed ← call Cmd.backgroundWritesAllowed
  if !allowed then return ()
  let entered ← call Cmd.enterTick
  if !entered then return ()
  ignore (poll cfg)
  call Cmd.leaveTick

end DeployPayments
