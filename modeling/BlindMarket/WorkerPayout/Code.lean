import BlindMarket.Support.Async

/-!
# Worker payouts: data and functions

`recordWorkerPayout` of `workerPayout.ts`, with the credit transaction of
`agentStore.ts` and the rows of `creditLedger.ts`. Task hashes and addresses
are naturals, so their case is gone; an earnings total is the number its text
stands for.
-/
namespace WorkerPayout

open Async Prog

abbrev Address := Nat
abbrev Hash := Nat

inductive TaskChain where
  | base | arc
  deriving DecidableEq, Repr

inductive Symbol where
  | USDC | zeroG
  deriving DecidableEq, Repr

structure SettlementUnit where
  symbol : Symbol
  decimals : Nat
  deriving DecidableEq, Repr

/-- The two earnings totals of an agent. -/
inductive Column where
  | totalEarnedRaw | totalEarnedUsdcRaw
  deriving DecidableEq, Repr

def EARNINGS_COLUMN : Symbol → Column × Nat
  | .zeroG => (.totalEarnedRaw, 18)
  | .USDC => (.totalEarnedUsdcRaw, 6)

def hasEarningsTotal (unit : SettlementUnit) : Bool :=
  (EARNINGS_COLUMN unit.symbol).2 = unit.decimals

structure AgentRow where
  tasksCompleted : Int := 0
  reputation : Int := 50
  totalEarnedRaw : Int := 0
  totalEarnedUsdcRaw : Int := 0
  deriving DecidableEq, Repr

structure CreditRow where
  chain : TaskChain
  executor : Address
  deriving DecidableEq, Repr

structure Database where
  agentExecutors : Address → Option AgentRow
  creditedPayouts : Hash → Option CreditRow

/-- The token each chain settles in, if one is configured, and the database in use. -/
structure Config where
  token : TaskChain → Option Address × SettlementUnit
  usePg : Bool

def payoutCurrency (F : Config) (chain : TaskChain) (token : Address) : Option SettlementUnit :=
  match (F.token chain).1 with
  | some address => if token = address then some (F.token chain).2 else none
  | none => none

/-! ## The credit transaction -/

inductive CreditOutcome where
  | credited | duplicate | unregistered
  deriving DecidableEq, Repr

def AgentRow.add (a : AgentRow) (amountRaw : Int) : Column → AgentRow
  | .totalEarnedRaw => { a with totalEarnedRaw := a.totalEarnedRaw + amountRaw }
  | .totalEarnedUsdcRaw => { a with totalEarnedUsdcRaw := a.totalEarnedUsdcRaw + amountRaw }

/-- The counter update of a credit; `none` when there is no such executor. -/
def creditSql (col : Column) (addr : Address) (amountRaw : Int) (db : Database) :
    Option Database :=
  match db.agentExecutors addr with
  | some a =>
    some { db with
      agentExecutors := Function.update db.agentExecutors addr (some (AgentRow.add
        { a with
          tasksCompleted := a.tasksCompleted + 1
          reputation := min 100 (a.reputation + 1) } amountRaw col)) }
  | none => none

/-- Claims the row of a task, unless it is taken. -/
def claimSql (taskHash : Hash) (row : CreditRow) (db : Database) : Option Database :=
  match db.creditedPayouts taskHash with
  | some _ => none
  | none =>
    some { db with creditedPayouts := Function.update db.creditedPayouts taskHash (some row) }

structure Claim where
  taskHash : Hash
  chain : TaskChain
  deriving DecidableEq, Repr

def pgCreditOnce (claim : Claim) (addr : Address) (col : Column) (amountRaw : Int)
    (db : Database) : CreditOutcome × Database :=
  match claimSql claim.taskHash ⟨claim.chain, addr⟩ db with
  | none => (.duplicate, db)
  | some claimed =>
    match creditSql col addr amountRaw claimed with
    | none => (.unregistered, db)
    | some credited => (.credited, credited)

def sqliteCreditOnce (claim : Claim) (addr : Address) (col : Column) (amountRaw : Int)
    (db : Database) : CreditOutcome × Database :=
  if (db.agentExecutors addr).isNone then (.unregistered, db)
  else
    match claimSql claim.taskHash ⟨claim.chain, addr⟩ db with
    | none => (.duplicate, db)
    | some claimed => (.credited, (creditSql col addr amountRaw claimed).getD claimed)

def creditPayoutOnce (F : Config) (claim : Claim) (address : Address) (unit : SettlementUnit)
    (amountRaw : Int) (db : Database) : CreditOutcome × Database :=
  let col := (EARNINGS_COLUMN unit.symbol).1
  if F.usePg then pgCreditOnce claim address col amountRaw db
  else sqliteCreditOnce claim address col amountRaw db

/-! ## The call -/

inductive RedisKey where
  | credited (taskHash : Hash)
  | uncredited (taskHash : Hash)
  deriving DecidableEq, Repr

/-- What a payout asks of the stores and of the chain. -/
inductive Cmd where
  | setNX (key : RedisKey) (value : Address)
  | set (key : RedisKey) (value : Address)
  | sadd (taskHash : Hash)
  | del (key : RedisKey)
  | cachedFeeBps (chain : TaskChain)
  | feeBpsOn (chain : TaskChain)
  | creditPayoutOnce (claim : Claim) (address : Address) (unit : SettlementUnit) (amountRaw : Int)
  | isCredited (taskHash : Hash)
  | incrementSoldCount (serviceId : Nat)
  | recordTransaction (address : Address) (gross : Nat) (fee net : Int)
  | recordTaskCompletion (address : Address) (taskHash : Hash)
  deriving DecidableEq, Repr

@[reducible] def Ans : Cmd → Type
  | .setNX _ _ => Bool
  | .cachedFeeBps _ => Option Nat
  | .feeBpsOn _ => Nat
  | .creditPayoutOnce _ _ _ _ => CreditOutcome
  | .isCredited _ => Bool
  | _ => Unit

/-- Any rejected command; nothing depends on its message. -/
inductive Failure where
  | rejected
  deriving DecidableEq, Repr

abbrev Payout := Prog Ans Failure

def redisSetNX (key : RedisKey) (value : Address) : Payout Bool := call (Cmd.setNX key value)
def redisSet (key : RedisKey) (value : Address) : Payout Unit := call (Cmd.set key value)
def redisSadd (taskHash : Hash) : Payout Unit := call (Cmd.sadd taskHash)
def redisDel (key : RedisKey) : Payout Unit := call (Cmd.del key)
def cachedFeeBps (chain : TaskChain) : Payout (Option Nat) := call (Cmd.cachedFeeBps chain)
def feeBpsOn (chain : TaskChain) : Payout Nat := call (Cmd.feeBpsOn chain)
def isCredited (taskHash : Hash) : Payout Bool := call (Cmd.isCredited taskHash)
def incrementSoldCount (serviceId : Nat) : Payout Unit := call (Cmd.incrementSoldCount serviceId)
def recordTransaction (address : Address) (gross : Nat) (fee net : Int) : Payout Unit :=
  call (Cmd.recordTransaction address gross fee net)
def recordTaskCompletion (address : Address) (taskHash : Hash) : Payout Unit :=
  call (Cmd.recordTaskCompletion address taskHash)
def creditOnce (claim : Claim) (address : Address) (unit : SettlementUnit) (amountRaw : Int) :
    Payout CreditOutcome := call (Cmd.creditPayoutOnce claim address unit amountRaw)

structure Settlement where
  chain : TaskChain
  token : Address
  deriving DecidableEq, Repr

structure Input where
  taskHash : Hash
  executorAddr : Address
  grossAmount : Nat
  settlement : Settlement
  rethrow : Bool := false
  serviceId : Option Nat := none
  computeCostMicroUnits : Nat := 0
  deriving DecidableEq, Repr

def getFeeBps (chain : TaskChain) : Payout Nat := do
  match ← cachedFeeBps chain with
  | some bps => return bps
  | none =>
    match ← attempt (feeBpsOn chain) with
    | .ok bps => return bps
    | .error _ => return 1000

def afterComputeCost (i : Input) (unit : SettlementUnit) : Nat :=
  let computeCostChain :=
    if unit.decimals = 6 then i.computeCostMicroUnits else i.computeCostMicroUnits * 10 ^ 12
  if computeCostChain < i.grossAmount then i.grossAmount - computeCostChain else 0

def platformFee (i : Input) (unit : SettlementUnit) (feeBps : Nat) : Nat :=
  afterComputeCost i unit * feeBps / 10000

def workerShare (i : Input) (unit : SettlementUnit) (feeBps : Nat) : Int :=
  (afterComputeCost i unit : Int) - platformFee i unit feeBps

/-- `p`, or `default` if it fails. -/
def orElse {α : Type} (p : Payout α) (default : α) : Payout α := do
  match ← attempt p with
  | .ok a => return a
  | .error _ => return default

/-- A failure here is logged and forgotten. -/
def ignore (p : Payout Unit) : Payout Unit := orElse p ()

/-- Parks a task escrowed in a token nothing is credited in. -/
def park (i : Input) : Payout Unit :=
  ignore do
    redisSet (.uncredited i.taskHash) i.executorAddr
    redisSadd i.taskHash

def bumpSoldCount (i : Input) : Payout Unit :=
  match i.serviceId with
  | some serviceId => ignore (incrementSoldCount serviceId)
  | none => return ()

def dropMarker (i : Input) (drop : Bool) : Payout Unit :=
  if drop then ignore (redisDel (.credited i.taskHash)) else return ()

/-- What follows the credit transaction; `markerSet` is what this call knows about the marker. -/
def onOutcome (i : Input) (unit : SettlementUnit) (markerSet : Option Bool) (feeBps : Nat) :
    CreditOutcome → Payout Unit
  | .duplicate => return ()
  | .unregistered => dropMarker i (markerSet ≠ some false)
  | .credited => do
    bumpSoldCount i
    ignore (recordTransaction i.executorAddr i.grossAmount (platformFee i unit feeBps)
      (workerShare i unit feeBps))
    ignore (recordTaskCompletion i.executorAddr i.taskHash)

/-- The body of the `try` once the marker is not in the way. -/
def credit (i : Input) (unit : SettlementUnit) (markerSet : Option Bool) : Payout Unit := do
  let feeBps ← getFeeBps i.settlement.chain
  let outcome ← creditOnce ⟨i.taskHash, i.settlement.chain⟩ i.executorAddr unit
    (workerShare i unit feeBps)
  onOutcome i unit markerSet feeBps outcome

/-- Whether a failed call may drop the marker: if it set it, or if it does not know and no credit
row stands behind it. -/
def mayDrop (i : Input) : Option Bool → Payout Bool
  | some set => return set
  | none => do
    let credited ← orElse (isCredited i.taskHash) true
    return !credited

/-- Undoes only what this call did, and rethrows if asked to. -/
def recover (i : Input) (markerSet : Option Bool) (e : Failure) : Payout Unit := do
  let drop ← mayDrop i markerSet
  dropMarker i drop
  if i.rethrow then throw e else return ()

/-- Takes the marker; `none` when the `SET` failed and its state is unknown. -/
def claimMarker (i : Input) : Payout (Option Bool) := do
  match ← attempt (redisSetNX (.credited i.taskHash) i.executorAddr) with
  | .ok first => return some first
  | .error _ => return none

def guardedCredit (i : Input) (unit : SettlementUnit) (markerSet : Option Bool) : Payout Unit := do
  match ← attempt (credit i unit markerSet) with
  | .ok _ => return ()
  | .error e => recover i markerSet e

/-- The unit a payout is credited in, if there is a total for it. -/
def creditable (F : Config) (i : Input) : Option SettlementUnit :=
  match payoutCurrency F i.settlement.chain i.settlement.token with
  | some unit => if hasEarningsTotal unit then some unit else none
  | none => none

def recordWorkerPayout (F : Config) (i : Input) : Payout Unit :=
  match creditable F i with
  | none => park i
  | some unit => do
    let markerSet ← claimMarker i
    if markerSet = some false then return () else guardedCredit i unit markerSet

end WorkerPayout
