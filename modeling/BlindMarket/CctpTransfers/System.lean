import BlindMarket.CctpTransfers.Code

/-!
# Transfers under way

Requests and ticks run over one table and the chains. A command takes effect and
answers, fails before it takes effect, or takes effect and fails anyway; what
stays inside the process does none of these. The RPC may lag behind its chain.
What Iris answers, what wallets hold and who owns an agent is left open.
-/
namespace CctpTransfers

open Async Prog Runs

inductive Op where
  | withdraw (agent : AgentId) (body : WithdrawBody)
  | depositIntent (user : User) (body : DepositIntentBody)
  | confirm (user : User) (transferId : Nat) (body : ConfirmBody)
  | tick
  deriving DecidableEq, Repr

/-- A program, numbered as it starts, in some process. -/
structure Call where
  id : Nat
  process : Nat
  op : Op
  deriving DecidableEq, Repr

variable (cfg : Config)

def Call.prog (t : Call) : Backend (Option CctpTransfer) :=
  match t.op with
  | .withdraw agent body => CctpTransfers.withdraw cfg agent body
  | .depositIntent user body => CctpTransfers.depositIntent cfg user body
  | .confirm user transferId body => CctpTransfers.confirm cfg user transferId body
  | .tick => do
    CctpTransfers.tick
    return none

/-! ## States -/

/-- What has become of a transaction: one whose nonce another took is replaced. -/
inductive Fate where
  | pending
  | mined (receipt : Receipt)
  | replaced
  deriving DecidableEq, Repr

def Fate.receipt? : Fate → Option Receipt
  | .mined receipt => some receipt
  | _ => none

/-- A transaction, or a UserOp, which no RPC shows, and the transfer whose burn it was made to be. -/
structure Tx where
  chain : CctpChainKey
  sender : Address
  toAddress : Option Address
  data : Calldata
  userOp : Bool := false
  madeFor : Option Nat := none
  fate : Fate := .pending
  deriving DecidableEq, Repr

/-- The table, the chains, and what the processes hold in memory. -/
structure State where
  rows : List CctpTransfer := []
  txs : List Tx := []
  offLegs : Nat → List CctpChainKey := fun _ => []
  inFlight : Nat → Bool := fun _ => false
  calls : Nat := 0

namespace State

variable (s : State)

def update (id : Nat) (patch : StagePatch) : State := { s with rows := s.rows.modify id patch.apply }

def send (tx : Tx) : State := { s with txs := s.txs ++ [tx] }

def setFate (h : TxHash) (fate : Fate) : State :=
  { s with txs := s.txs.modify h fun tx => { tx with fate } }

/-- The legs of transfers the process has not turned off. Without the settlement leg it has none. -/
def isCctpConfigured (process : Nat) : Bool :=
  cfg.enabled && decide (cfg.settlementLeg ∉ s.offLegs process)

def getCctpChain (process : Nat) (chain : CctpChainKey) : Option CctpChainConfig :=
  if s.isCctpConfigured cfg process then cfg.chain chain else none

def isSupportedCctpChain (process : Nat) (chain : CctpChainKey) : Bool :=
  (s.getCctpChain cfg process chain).isSome && decide (chain ∉ s.offLegs process)

/-- What the chain's RPC can show of a hash. -/
def tx? (chain : CctpChainKey) (h : TxHash) : Option Tx :=
  s.txs[h]?.filter fun tx => tx.chain = chain ∧ tx.userOp = false

def receipt? (chain : CctpChainKey) (h : TxHash) : Option Receipt :=
  (s.tx? chain h).bind (·.fate.receipt?)

end State

/-! ## Commands -/

/-- How a command goes: it may fail before it takes effect, or its answer may be lost. -/
inductive Reply where
  | answered | failed | unanswered
  deriving DecidableEq, Repr

/-- What is left open of an answer. -/
structure Turn where
  reply : Reply := .answered
  lag : Bool := false
  flag : Bool := true
  number : Nat := 0
  agent : Option Agent := none
  message : Option IrisMessage := none

/-- Commands that stay inside the process. -/
def Cmd.Local : Cmd → Bool
  | .isCctpConfigured | .isSupportedCctpChain _ | .getCctpChain _ | .backgroundWritesAllowed
  | .takeFlight | .leaveFlight => true
  | _ => false

/-- What a new row is. -/
def State.newRow (s : State) (opts : CreateTransferOpts) : CctpTransfer :=
  { opts with id := s.rows.length }

def effect (t : Call) (x : Turn) (s : State) : (c : Cmd) → Except Code (Ans c) × State
  | .isCctpConfigured => (.ok (s.isCctpConfigured cfg t.process), s)
  | .isSupportedCctpChain chain => (.ok (s.isSupportedCctpChain cfg t.process chain), s)
  | .getCctpChain chain => (.ok (s.getCctpChain cfg t.process chain), s)
  | .authorizeOwner agent => (.ok (x.agent.filter fun a => a.id = agent), s)
  | .getByIdempotencyKey key => (.ok (s.rows.find? fun row => row.idempotencyKey = key), s)
  | .getById id => (.ok s.rows[id]?, s)
  | .createTransfer opts =>
    if ∃ row ∈ s.rows, row.idempotencyKey = opts.idempotencyKey then (.error .rejected, s)
    else (.ok (s.newRow opts), { s with rows := s.rows ++ [s.newRow opts] })
  | .updateTransfer id patch => (.ok (s.update id patch).rows[id]?, s.update id patch)
  | .listNonTerminal => (.ok (s.rows.filter fun row => row.stage ∉ TERMINAL_STAGES), s)
  | .getBalance _ _ => (.ok x.number, s)
  | .balanceOf _ _ _ => (.ok x.number, s)
  | .allowance _ _ _ _ => (.ok x.number, s)
  | .estimateMaxFeeRaw _ _ _ _ => (.ok x.number, s)
  | .approve chain wallet token spender amount =>
    (.ok s.txs.length,
      s.send { chain, sender := wallet, toAddress := some token, data := .approve spender amount })
  | .wait chain h =>
    match s.receipt? chain h with
    | some receipt => (.ok receipt.status, s)
    | none => (.error .rejected, s)
  | .depositForBurn chain wallet messenger call transfer =>
    (.ok s.txs.length,
      s.send
        { chain
          sender := wallet
          toAddress := some messenger
          data := .depositForBurnWithHook call
          madeFor := some transfer })
  | .getTransaction chain h =>
    (.ok (if x.lag then none else (s.tx? chain h).map fun tx => ⟨tx.toAddress, tx.data⟩), s)
  | .getTransactionReceipt chain h => (.ok (if x.lag then none else s.receipt? chain h), s)
  | .accounts _ _ _ => (.ok x.number, s)
  | .pollIrisAttestation _ _ => (.ok x.message, s)
  | .backgroundWritesAllowed => (.ok x.flag, s)
  | .takeFlight =>
    (.ok (s.inFlight t.process),
      { s with inFlight := Function.update s.inFlight t.process true })
  | .leaveFlight => (.ok (), { s with inFlight := Function.update s.inFlight t.process false })

def respond (t : Call) (x : Turn) (s : State) (c : Cmd) : Except Code (Ans c) × State :=
  let (a, s') := effect cfg t x s c
  if c.Local then (a, s')
  else
    match x.reply with
    | .answered => (a, s')
    | .failed => (.error .rejected, s)
    | .unanswered => (.error .rejected, s')

/-! ## What moves by itself -/

/-- The log of a direct burn. -/
def burnLog (messenger depositor : Address) (call : DecodedDepositForBurn) : BurnLog :=
  ⟨messenger, depositor, call.amount, call.mintRecipient, call.destinationDomain⟩

/-- What TokenMessengerV2 makes of a call: one that succeeds has burned, and logs it. A transaction
that reverts logs nothing. -/
structure Receipt.Of (receipt : Receipt) (tx : Tx) : Prop where
  reverted : receipt.status = false → receipt.logs = []
  burned : receipt.status = true → ∀ source call, cfg.chain tx.chain = some source →
    tx.toAddress = some source.tokenMessengerAddress → tx.data = .depositForBurnWithHook call →
    burnLog source.tokenMessengerAddress tx.sender call ∈ receipt.logs

/-- Anyone sends anything, and a burn for a deposit as often as its owner likes; what was sent is
mined, or replaced; a leg of a process is turned off. -/
inductive Moves (s : State) : State → Prop where
  | send (tx : Tx) (hnew : tx.fate = .pending)
      (hfor : ∀ id, tx.madeFor = some id → ∃ row, s.rows[id]? = some row ∧ row.direction = .inbound) :
    Moves s (s.send tx)
  | mine (h : TxHash) (tx : Tx) (receipt : Receipt) (htx : s.txs[h]? = some tx)
      (hnew : tx.fate = .pending) (hof : receipt.Of cfg tx) : Moves s (s.setFate h (.mined receipt))
  | replace (h : TxHash) (tx : Tx) (htx : s.txs[h]? = some tx) (hnew : tx.fate = .pending) :
    Moves s (s.setFate h .replaced)
  | disableCctpLeg (process : Nat) (chain : CctpChainKey) :
    Moves s { s with
      offLegs := Function.update s.offLegs process (chain :: s.offLegs process) }

/-- A process that dies is not polling. -/
def State.crash (s : State) (t : Call) : State :=
  match t.op with
  | .tick => { s with inFlight := Function.update s.inFlight t.process false }
  | _ => s

def backend : System Ans Code (Option CctpTransfer) Call State where
  exec t s c r s' := ∃ x, respond cfg t x s c = (r, s')
  start _ s t p s' := t.id = s.calls ∧ p = t.prog cfg ∧ s' = { s with calls := s.calls + 1 }
  env s s' := Moves cfg s s'
  die t s s' := s' = s.crash t

/-! ## Scripts -/

inductive Env where
  | send (tx : Tx)
  | mine (h : TxHash) (status : Bool)
  | disableCctpLeg (process : Nat) (chain : CctpChainKey)

/-- The receipt of a transaction that burns if it is a burn, and logs nothing else. -/
def plainReceipt (tx : Tx) (status : Bool) : Receipt where
  status := status
  logs :=
    match status, tx.toAddress, tx.data with
    | true, some messenger, .depositForBurnWithHook call => [burnLog messenger tx.sender call]
    | _, _, _ => []

theorem plainReceipt_of (tx : Tx) (status : Bool) : (plainReceipt tx status).Of cfg tx where
  reverted h := by
    obtain rfl : status = false := h
    rfl
  burned h source call _ hto hdata := by
    obtain rfl : status = true := h
    simp [plainReceipt, hto, hdata]

instance (s : State) (tx : Tx) : Decidable
    (∀ id, tx.madeFor = some id → ∃ row, s.rows[id]? = some row ∧ row.direction = .inbound) :=
  decidable_of_iff
    ((tx.madeFor.all fun id => s.rows[id]?.any fun row => row.direction = .inbound) = true) (by
      simp [Option.all_eq_true, Option.any_eq_true])

def move : Env → State → Option State
  | .send tx, s =>
    if tx.fate = .pending ∧
        ∀ id, tx.madeFor = some id → ∃ row, s.rows[id]? = some row ∧ row.direction = .inbound then
      some (s.send tx)
    else none
  | .mine h status, s =>
    match s.txs[h]? with
    | some tx =>
      if tx.fate = .pending then some (s.setFate h (.mined (plainReceipt tx status))) else none
    | none => none
  | .disableCctpLeg process chain, s =>
    some { s with offLegs := Function.update s.offLegs process (chain :: s.offLegs process) }

theorem move_moves {m : Env} {s s' : State} (h : move m s = some s') : Moves cfg s s' := by
  cases m with
  | send tx =>
    simp only [move] at h
    split at h <;> cases h
    next hnew => exact .send tx hnew.1 hnew.2
  | mine hash status =>
    simp only [move] at h
    split at h
    · next tx htx =>
      split at h <;> cases h
      next hnew => exact .mine hash tx _ htx hnew (plainReceipt_of cfg tx status)
    · cases h
  | disableCctpLeg process chain =>
    cases h
    exact .disableCctpLeg process chain

def stage : Async.Stage (backend cfg) Turn Env where
  respond := respond cfg
  enter s t :=
    if t.id = s.calls then some (t.prog cfg, { s with calls := s.calls + 1 }) else none
  move := move
  kill t s := s.crash t
  exec _ x _ _ := ⟨x, rfl⟩
  start := by
    intro tags s t p s' hs
    split at hs
    · next h =>
      cases hs
      exact ⟨h, rfl, rfl⟩
    · cases hs
  env _ _ _ h := move_moves cfg h
  die _ _ := rfl

/-! ## A small backend -/

/-- Arc and Ethereum of the test tier. -/
def demoConfig : Config where
  enabled := true
  settlementLeg := .arcTestnet
  chain
    | .arcTestnet => some ⟨.arcTestnet, 26, 100, 101, false, 100000⟩
    | .ethereumSepolia => some ⟨.ethereumSepolia, 0, 100, 102, true, 0⟩
    | _ => none
  aa _ := none
  safeErrorMessage _ := "rejected"
  keyed key c h := by
    cases key <;> cases h <;> rfl

end CctpTransfers
