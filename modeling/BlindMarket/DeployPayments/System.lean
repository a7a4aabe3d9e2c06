import BlindMarket.DeployPayments.Code

/-!
# Deploys and ticks at once

Requests and ticks run over one table and one Redis. A command that leaves the
process takes effect and answers, fails before it takes effect, or takes effect
and fails anyway; a transaction is one command. An agent stands in the state
with the payment its deploy was let through with.
-/
namespace DeployPayments

open Async Prog Runs

structure Redis where
  credits : Address → Nonce → Option AgentDeployCredit := fun _ _ => none
  creditsByUser : Address → List Nonce := fun _ => []
  checkpoint : Option Nat := none
  legacy : TxHash → Option LegacyMark := fun _ => none

/-- A call of a process, numbered as it starts. -/
inductive Op where
  | deploy (req : DeployRequest)
  | tick
  deriving DecidableEq, Repr

structure Call where
  id : Nat
  process : Nat
  op : Op
  deriving DecidableEq, Repr

structure State where
  rows : PaymentKey → Option PaymentRow := fun _ => none
  redis : Redis := {}
  agents : List (AgentId × Option PaymentKey) := []
  clock : Int := 0
  inFlight : Nat → Option Call := fun _ => none
  calls : Nat := 0

/-- What the deploys of one payment key have created. -/
def State.agentsOf (s : State) (key : PaymentKey) : List AgentId :=
  (s.agents.filter fun a => a.2 = some key).map (·.1)

def State.setRow (s : State) (key : PaymentKey) (row : Option PaymentRow) : State :=
  { s with rows := Function.update s.rows key row }

def State.setRedis (s : State) (redis : Redis) : State := { s with redis }

inductive Fate where
  | answered | failed | unanswered
  deriving DecidableEq, Repr

/-- How one command goes, and what the process, the chain and the other services answer. -/
structure Turn where
  fate : Fate := .answered
  flag : Bool := true
  agentId : AgentId := 0
  block : Nat := 0
  deriving DecidableEq, Repr

/-- The events of the factory, oldest first. -/
abbrev Chain := List EventLog

def Chain.queryFilter (chain : Chain) (fromBlock toBlock : Nat) : List EventLog :=
  chain.filter fun e => fromBlock ≤ e.blockNumber ∧ e.blockNumber ≤ toBlock

/-! ## The statements -/

def insertClaim (key : PaymentKey) (owner : Address) (now : Int) (s : State) : Bool × State :=
  match s.rows key with
  | some _ => (false, s)
  | none => (true, s.setRow key (some ⟨owner, none, now⟩))

/-- A pending row that can be taken over. -/
def PaymentRow.Stale (row : PaymentRow) (staleBefore : Int) : Prop :=
  row.agentId = none ∧ row.claimedAt < staleBefore

instance (row : PaymentRow) (staleBefore : Int) : Decidable (row.Stale staleBefore) :=
  inferInstanceAs (Decidable (_ ∧ _))

def takeOver (key : PaymentKey) (owner : Address) (now staleBefore : Int) (s : State) :
    Bool × State :=
  match s.rows key with
  | some row =>
    if row.Stale staleBefore then
      (true, s.setRow key (some { row with owner, claimedAt := now }))
    else (false, s)
  | none => (false, s)

def selectAgentId (key : PaymentKey) (s : State) : Option AgentId :=
  (s.rows key).bind (·.agentId)

def claimTransaction (key : PaymentKey) (owner : Address) (now staleBefore : Int) (s : State) :
    PaymentClaim × State :=
  match insertClaim key owner now s with
  | (true, s') => (.claimed, s')
  | (false, s₁) =>
    match takeOver key owner now staleBefore s₁ with
    | (true, s') => (.claimed, s')
    | (false, s₂) => (.notClaimed (selectAgentId key s₂).isNone (selectAgentId key s₂), s₂)

def markRow (key : PaymentKey) (agentId : AgentId) (s : State) : State :=
  match s.rows key with
  | some row => s.setRow key (some { row with agentId := some agentId })
  | none => s

def recordUsed (key : PaymentKey) (owner : Address) (agentId : AgentId) (now : Int) (s : State) :
    State :=
  match s.rows key with
  | some _ => s
  | none => s.setRow key (some ⟨owner, some agentId, now⟩)

def deletePending (key : PaymentKey) (s : State) : State :=
  match s.rows key with
  | some row => if row.agentId = none then s.setRow key none else s
  | none => s

/-! ## The keys -/

def Redis.setCredit (r : Redis) (user : Address) (nonce : Nonce)
    (credit : Option AgentDeployCredit) : Redis :=
  { r with
    credits := Function.update r.credits user (Function.update (r.credits user) nonce credit) }

def Redis.setNonces (r : Redis) (user : Address) (nonces : List Nonce) : Redis :=
  { r with creditsByUser := Function.update r.creditsByUser user nonces }

/-- The commands that do not leave the process. -/
def Cmd.Local : Cmd → Bool
  | .nowS => true
  | .startRefusal _ => true
  | .backgroundWritesAllowed => true
  | .enterTick => true
  | .leaveTick => true
  | _ => false

variable (cfg : Config) (chain : Chain)

def effect (t : Call) (x : Turn) (s : State) : (c : Cmd) → Ans c × State
  | .nowS => (s.clock, s)
  | .prepareDeploy => (x.flag, s)
  | .startRefusal _ => (!x.flag, s)
  | .verifyArcDeployFee _ payers => (payers.headD 0, s)
  | .deployAgent _ payment => (x.agentId, { s with agents := (x.agentId, payment) :: s.agents })
  | .startAgent _ => ((), s)
  | .insertClaim key owner now => insertClaim key owner now s
  | .takeOver key owner now staleBefore => takeOver key owner now staleBefore s
  | .selectAgentId key => (selectAgentId key s, s)
  | .claimTransaction key owner now staleBefore => claimTransaction key owner now staleBefore s
  | .markPaymentUsed key agentId => ((), markRow key agentId s)
  | .recordUsedPayment key owner agentId now => ((), recordUsed key owner agentId now s)
  | .releasePayment key => ((), deletePending key s)
  | .isPaymentRecorded key => ((s.rows key).isSome, s)
  | .getLegacyMark txHash => (s.redis.legacy txHash, s)
  | .smembers user => (s.redis.creditsByUser user, s)
  | .getCredit user nonce => (s.redis.credits user nonce, s)
  | .existsCredit user nonce => ((s.redis.credits user nonce).isSome, s)
  | .setCredit user nonce credit => ((), s.setRedis (s.redis.setCredit user nonce (some credit)))
  | .delCredit user nonce => ((), s.setRedis (s.redis.setCredit user nonce none))
  | .sadd user nonce =>
    ((), s.setRedis (s.redis.setNonces user ((s.redis.creditsByUser user).insert nonce)))
  | .srem user nonce =>
    (decide (nonce ∈ s.redis.creditsByUser user),
      s.setRedis (s.redis.setNonces user ((s.redis.creditsByUser user).filter (· ≠ nonce))))
  | .backgroundWritesAllowed => (x.flag, s)
  | .enterTick =>
    match s.inFlight t.process with
    | some _ => (false, s)
    | none => (true, { s with inFlight := Function.update s.inFlight t.process (some t) })
  | .leaveTick => ((), { s with inFlight := Function.update s.inFlight t.process none })
  | .contract => (if x.flag then some cfg.arcAgentFactoryAddress else none, s)
  | .getBlockNumber => (x.block, s)
  | .getCheckpoint => (s.redis.checkpoint, s)
  | .setCheckpoint block => ((), s.setRedis { s.redis with checkpoint := some block })
  | .queryFilter fromBlock toBlock => (chain.queryFilter fromBlock toBlock, s)

/-- What never leaves the process does not fail. -/
def respond (t : Call) (x : Turn) (s : State) (c : Cmd) : Except Failure (Ans c) × State :=
  let (a, s') := effect cfg chain t x s c
  if c.Local then (.ok a, s')
  else
    match x.fate with
    | .answered => (.ok a, s')
    | .failed => (.error .rejected, s)
    | .unanswered => (.error .rejected, s')

def Op.prog : Op → Deploys (Option Response)
  | .deploy req => do
    let response ← postDeploy cfg req
    return some response
  | .tick => do
    DeployPayments.tick cfg
    return none

/-- Calls beside others, which move the state as `env` says. A process that dies lets go of its
poll. -/
def deploys (env : State → State → Prop) : System Ans Failure (Option Response) Call State where
  exec t s c r s' := ∃ x, respond cfg chain t x s c = (r, s')
  start _ s t p s' := t.id = s.calls ∧ p = t.op.prog cfg ∧ s' = { s with calls := s.calls + 1 }
  env := env
  die t s s' :=
    s' = if s.inFlight t.process = some t then
      { s with inFlight := Function.update s.inFlight t.process none } else s

abbrev Ev := Event Ans Failure (Option Response) Call State

variable {cfg chain} {env : State → State → Prop} {s s' : State} {t : Call} {x : Turn} {c : Cmd}
  {r : Except Failure (Ans c)} {key : PaymentKey}

theorem respond_cases (h : respond cfg chain t x s c = (r, s')) :
    (r = .ok (effect cfg chain t x s c).1 ∧ s' = (effect cfg chain t x s c).2) ∨
      c.Local = false ∧ r = .error .rejected ∧
        (s' = s ∨ s' = (effect cfg chain t x s c).2) := by
  unfold respond at h
  cases hlocal : c.Local with
  | true =>
    simp only [hlocal, if_true, Prod.mk.injEq] at h
    exact .inl ⟨h.1.symm, h.2.symm⟩
  | false =>
    simp only [hlocal, Bool.false_eq_true, if_false] at h
    cases hfate : x.fate with
    | answered =>
      simp only [hfate, Prod.mk.injEq] at h
      exact .inl ⟨h.1.symm, h.2.symm⟩
    | failed =>
      simp only [hfate, Prod.mk.injEq] at h
      exact .inr ⟨rfl, h.1.symm, .inl h.2.symm⟩
    | unanswered =>
      simp only [hfate, Prod.mk.injEq] at h
      exact .inr ⟨rfl, h.1.symm, .inr h.2.symm⟩

/-! ## Scripts -/

/-- What is left when the call `t` dies. -/
def release (t : Call) (s : State) : State :=
  if s.inFlight t.process = some t then
    { s with inFlight := Function.update s.inFlight t.process none } else s

/-- Calls played from a script; `move` is what the script may have others do. -/
def stage (cfg : Config) (chain : Chain) (env : State → State → Prop)
    (move : Int → State → Option State) (h : ∀ m s s', move m s = some s' → env s s') :
    Stage (deploys cfg chain env) Turn Int where
  respond := respond cfg chain
  enter s t :=
    if t.id = s.calls then some (t.op.prog cfg, { s with calls := s.calls + 1 }) else none
  move := move
  kill := release
  exec _ x s c := ⟨x, rfl⟩
  start := by
    intro tags s t p s' hs
    split at hs
    · cases hs
      exact ⟨by assumption, rfl, rfl⟩
    · cases hs
  env := h
  die _ _ := rfl

/-- Time passes. -/
def wait (seconds : Int) (s : State) : Option State := some { s with clock := s.clock + seconds }

/-- Postgres, the paywall on, and a factory known from block 10. -/
def demoConfig : Config where
  arcAgentFactoryAddress := 1
  arcAgentFactoryDeploymentBlock := 10
  record := none
  agentFactoryPaywall := true
  usePg := true

/-- A request of wallet 5. -/
def demoRequest (feeTxHash : Option TxHash) : DeployRequest := ⟨5, [5], feeTxHash⟩

def demoDeploy (id : Nat) (feeTxHash : Option TxHash) : Call :=
  ⟨id, 0, .deploy (demoRequest feeTxHash)⟩

end DeployPayments
