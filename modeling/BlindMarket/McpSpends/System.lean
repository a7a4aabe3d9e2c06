import BlindMarket.McpSpends.PostingLists
import BlindMarket.McpSpends.Refunds
import BlindMarket.McpSpends.Deploys

/-!
# Spends at once

Tool calls run over one ledger and one set of quotes, which never fail and
never wait. A command that leaves the process takes effect and answers, fails
before it takes effect, or takes effect and fails anyway. What the backend
answers is up to it. Each nonce of a wallet is used once, in order, by a
transaction a node was given or by one of someone else's; an RPC is read as of
some block.
-/
namespace McpSpends

open Async Prog Runs

inductive Op where
  | rentService (args : RentArgs)
  | postTask (args : PostArgs)
  | postTasks (args : PostListArgs)
  | cancelTask (args : RefundArgs)
  | claimTimeout (args : RefundArgs)
  | deployAgent (args : DeployArgs)
  | deployAgents (args : DeployListArgs)
  deriving DecidableEq, Repr

/-- A tool call, numbered as it starts, in a process started with a configuration. -/
structure Call where
  id : Nat
  config : Config
  op : Op
  deriving DecidableEq, Repr

def Op.prog (cfg : Config) : Op → Mcp Response
  | .rentService args => McpSpends.rentService cfg args
  | .postTask args => McpSpends.postTask cfg args
  | .postTasks args => McpSpends.postTasks cfg args
  | .cancelTask args => McpSpends.cancelTask cfg args
  | .claimTimeout args => McpSpends.claimTimeout cfg args
  | .deployAgent args => McpSpends.deployAgent cfg args
  | .deployAgents args => McpSpends.deployAgents cfg args

/-! ## The chain -/

/-- What is mined, at which block and with which status, and the block each nonce was used at. -/
structure Chain where
  block : Nat := 0
  mined : TxHash → Option (Nat × Bool) := fun _ => none
  uses : Nat → Address → List Nat := fun _ _ => []

namespace Chain

/-- The status in the receipt. -/
def status (c : Chain) (hash : TxHash) : Option Bool := (c.mined hash).map (·.2)

/-- The receipt an RPC at some block has. -/
def receiptAt (c : Chain) (view : Nat) (hash : TxHash) : Option Bool :=
  match c.mined hash with
  | some (block, ok) => if block ≤ view then some ok else none
  | none => none

/-- The transaction count an RPC at some block has. -/
def countAt (c : Chain) (view chainId : Nat) (sender : Address) : Nat :=
  ((c.uses chainId sender).filter (· ≤ view)).length

def mine (c : Chain) (hash : TxHash) (ok : Bool) : Chain :=
  { c with
    block := c.block + 1
    mined := Function.update c.mined hash (some (c.block + 1, ok)) }

def useNonce (c : Chain) (chainId : Nat) (sender : Address) : Chain :=
  { c with
    uses := Function.update c.uses chainId
      (Function.update (c.uses chainId) sender (c.uses chainId sender ++ [c.block])) }

end Chain

/-! ## States -/

/-- A transaction that reached a node or the relay, and the spend it was sent for. -/
structure Sent where
  spend : Key
  hash : TxHash
  data : TxData
  deriving DecidableEq, Repr

structure State where
  spends : Key → Option SpendRecord := fun _ => none
  quotes : QuoteId → Option Quote := fun _ => none
  quotesMade : Nat := 0
  clock : Nat := 0
  sends : List Sent := []
  relayed : Nat := 0
  chain : Chain := {}
  heads : Nat → Nat := fun _ => 0
  agents : List (AgentId × Option TxHash) := []
  calls : Nat := 0

namespace State

def setSpend (s : State) (key : Key) (record : Option SpendRecord) : State :=
  { s with spends := Function.update s.spends key record }

def send (s : State) (spend : Key) (hash : TxHash) (data : TxData) : State :=
  { s with sends := ⟨spend, hash, data⟩ :: s.sends }

/-- The createTasks sent for a spend. -/
def creates (s : State) (spend : Key) : List TxHash :=
  (s.sends.filter fun x => x.spend = spend ∧ x.data.isCreate).map (·.hash)

def readAt (s : State) (chainId view : Nat) : State :=
  { s with heads := Function.update s.heads chainId (min view s.chain.block) }

def agentOf (s : State) (fee : TxHash) : Option AgentId :=
  (s.agents.find? fun a => a.2 = some fee).map (·.1)

end State

inductive Fate where
  | answered | failed | unanswered
  deriving DecidableEq, Repr

/-- How one command goes, and what is answered. -/
structure Turn where
  fate : Fate := .answered
  code : Code := .rejected
  flag : Bool := true
  number : Nat := 0
  fees : Nat := 0
  address : Address := 0
  chain : Option ChainKey := none
  settlement : Settlement := .og ⟨none, none, none⟩
  service : Service := ⟨0, 0, true, 0⟩
  openConfig : OpenConfig := ⟨false, false, none⟩
  executors : List Address := []
  built : Built := ⟨⟨0, .other 0, none⟩, none, none⟩
  openStatus : OpenStatus := ⟨0, 0, 0⟩
  detail : TaskDetail := ⟨0, .foreign 0, 0, 0, 0⟩
  terms : FeeTerms := .notRequired
  capacity : Option Nat := none

/-! ## What a command does -/

/-- The commands that do not leave the process. -/
def Cmd.Local : Cmd → Bool
  | .getSpend _ | .getSpends _ | .putSpend _ | .updateSpend _ _ | .createQuote _ _
  | .consumeQuote _ _ _ | .generateAesKey | .now | .pause => true
  | _ => false

def QUOTE_TTL_MS : Nat := 600000

def createQuote (kind : SpendKind) (spend : SpendFields) (s : State) : QuoteId × State :=
  (s.quotesMade,
    { s with
      quotes := Function.update s.quotes s.quotesMade
        (some ⟨kind, spend, s.clock + QUOTE_TTL_MS⟩)
      quotesMade := s.quotesMade + 1 })

/-- A quote is used up whether or not the confirm matches it. -/
def consumeQuote (quoteId : Option QuoteId) (kind : SpendKind) (spend : SpendFields)
    (s : State) : QuoteCheck × State :=
  match quoteId with
  | none => (.quoteRequired, s)
  | some id =>
    match s.quotes id with
    | none => (.quoteRequired, s)
    | some quote =>
      if quote.kind ≠ kind ∨ quote.expiresAt < s.clock then (.quoteRequired, s)
      else
        (if quote.spend = spend then .ok else .quoteMismatch,
          { s with quotes := Function.update s.quotes id none })

/-- A record that is not there cannot be updated. -/
def updateSpend (key : Key) (patch : Patch) (s : State) : Except Code Unit × State :=
  match s.spends key with
  | some record => (.ok (), s.setSpend key (some (patch.apply record)))
  | none => (.error .rejected, s)

/-- A local ERC-20 settlement is one this process's wallet can sign. -/
def discovered (cfg : Config) : Settlement → Except Code Settlement
  | .og s => .ok (.og s)
  | .erc20 s =>
    if s.relay then .ok (.erc20 s)
    else
      match cfg.wallet with
      | some wallet => .ok (.erc20 { s with payFrom := wallet.address })
      | none => .error .settlementUnknown

/-- The transaction a wallet signs; ethers refuses one meant for another chain. -/
def signed (cfg : Config) (x : Turn) (chainId : Nat) (request : TxRequest) : Except Code Raw :=
  match cfg.wallet with
  | none => .error .rejected
  | some wallet =>
    if request.chainId.getD chainId ≠ chainId then .error .rejected
    else .ok
      { chainId
        sender := wallet.address
        nonce := request.nonce.getD x.number
        target := request.target
        data := request.data
        value := request.value
        fees := x.fees }

/-- The chain whose RPC a hash is looked up on, when that is known. -/
def TxHash.chainId? : TxHash → Option Nat
  | .signed raw => some raw.chainId
  | .relayed _ => none

def readHash (x : Turn) (hash : TxHash) (s : State) : State :=
  match hash.chainId? with
  | some chainId => s.readAt chainId x.number
  | none => s

def receipt (x : Turn) (hash : TxHash) (s : State) : Option Bool :=
  s.chain.receiptAt (min x.number s.chain.block) hash

/-- An RPC has the receipts of its own chain alone. -/
def receiptOn (x : Turn) (chainId : Nat) (hash : TxHash) (s : State) : Option Bool :=
  if hash.chainId?.all (· = chainId) then receipt x hash s else none

/-- A wait ends with the receipt, or otherwise. -/
def waited (x : Turn) (hash : TxHash) (s : State) : Except Code Unit :=
  match receipt x hash s with
  | some true => .ok ()
  | some false => .error .callException
  | none => .error .rejected

/-- The backend makes one agent for a fee. -/
def deployed (x : Turn) (fee : Option TxHash) (s : State) : Except Code DeployedAgent × State :=
  match fee.bind s.agentOf with
  | some agentId => (.error (.deployFeeAlreadyUsed (some agentId)), s)
  | none => (.ok ⟨x.number, x.flag⟩, { s with agents := (x.number, fee) :: s.agents })

/-- A code a command can fail with at any time; the others are read off the chain, or off what
the backend has made. -/
def Code.plain : Code → Code
  | .deployFeeAlreadyUsed _ => .deployFeeAlreadyUsed none
  | .callException => .rejected
  | code => code

def effect (t : Call) (x : Turn) (s : State) : (c : Cmd) → Except Code (Ans c) × State
  | .getSpend key => (.ok (s.spends key), s)
  | .getSpends keys => (.ok (keys.map s.spends), s)
  | .putSpend record => (.ok (), s.setSpend record.idempotencyKey (some record))
  | .updateSpend key patch => updateSpend key patch s
  | .createQuote kind spend =>
    let (id, s') := createQuote kind spend s
    (.ok id, s')
  | .consumeQuote quoteId kind spend =>
    let (check, s') := consumeQuote quoteId kind spend s
    (.ok check, s')
  | .generateAesKey => (.ok x.number, s)
  | .now => (.ok s.clock, s)
  | .pause => (.ok (), s)
  | .settlement => (discovered t.config x.settlement, s)
  | .healthPostingChain => (.ok x.chain, s)
  | .getService _ => (.ok x.service, s)
  | .openSubmission => (.ok x.openConfig, s)
  | .executors _ => (.ok x.executors, s)
  | .upload _ => (.ok x.number, s)
  | .buildTask _ => (.ok x.built, s)
  | .buildRefund _ _ _ => (.ok x.built.unsignedTx, s)
  | .openStatus _ => (.ok x.openStatus, s)
  | .loadTask _ _ => (.ok x.detail, s)
  | .relayTx spend _ _ tx =>
    (.ok ⟨if x.flag then some (.relayed s.relayed) else none, x.number = 1⟩,
      { s.send spend (.relayed s.relayed) tx.data with relayed := s.relayed + 1 })
  | .indexTask _ => (.ok (), s)
  | .confirmTx _ _ => (.ok (), s)
  | .pollPosted _ => (.ok (), s)
  | .getCode _ => (.ok x.flag, s)
  | .balanceOf _ _ => (.ok x.number, s)
  | .allowance _ _ _ _ => (.ok x.number, s)
  | .sign _ chainId request => (signed t.config x chainId request, s)
  | .broadcast spend raw => (.ok (), s.send spend (.signed raw) raw.data)
  | .getTransactionReceipt chainId hash =>
    (.ok (receiptOn x chainId hash s), s.readAt chainId x.number)
  | .waitTx hash => (waited x hash s, readHash x hash s)
  | .waitForTransaction hash => (.ok (), readHash x hash s)
  | .getTransactionCount chainId address =>
    (.ok (s.chain.countAt (min x.number s.chain.block) chainId address),
      s.readAt chainId x.number)
  | .getTransaction chainId hash =>
    (.ok (x.flag || (receiptOn x chainId hash s).isSome), s.readAt chainId x.number)
  | .deployFee => (.ok x.terms, s)
  | .validateDeploy _ => (.ok (), s)
  | .capacity => (.ok x.capacity, s)
  | .whoami => (.ok x.address, s)
  | .walletOn _ chainId => (.ok (chainId.getD x.number), s)
  | .deploy _ _ fee => deployed x fee s
  | .ownAgent agentId => (.ok (if x.flag then some ⟨agentId, true⟩ else none), s)

/-- What never leaves the process does not fail. -/
def respond (t : Call) (x : Turn) (s : State) (c : Cmd) : Except Code (Ans c) × State :=
  let (a, s') := effect t x s c
  if c.Local then (a, s')
  else
    match x.fate with
    | .answered => (a, s')
    | .failed => (.error x.code.plain, s)
    | .unanswered => (.error x.code.plain, s')

/-! ## What moves by itself -/

inductive Env where
  | time (clock : Nat)
  | mineSigned (raw : Raw) (ok : Bool)
  | mineRelayed (n : Nat) (ok : Bool)
  | otherTx (chainId : Nat) (sender : Address)
  | restart
  deriving DecidableEq, Repr

/-- A transaction is mined once it was sent, when it is its wallet's next. -/
def move : Env → State → Option State
  | .time clock, s => if s.clock ≤ clock then some { s with clock } else none
  | .mineSigned raw ok, s =>
    if s.sends.any (·.hash = .signed raw) ∧ s.chain.mined (.signed raw) = none ∧
        raw.nonce = (s.chain.uses raw.chainId raw.sender).length then
      some { s with chain := (s.chain.mine (.signed raw) ok).useNonce raw.chainId raw.sender }
    else none
  | .mineRelayed n ok, s =>
    if n < s.relayed ∧ s.chain.mined (.relayed n) = none then
      some { s with chain := s.chain.mine (.relayed n) ok }
    else none
  | .otherTx chainId sender, s =>
    some { s with
      chain := { s.chain with block := s.chain.block + 1 }.useNonce chainId sender }
  | .restart, s => some { s with quotes := fun _ => none }

/-- The calls `admits` lets in, in any number. A process that dies leaves its ledger. -/
def mcp (admits : Call → Prop) : System Ans Code Response Call State where
  exec t s c r s' := ∃ x, respond t x s c = (r, s')
  start _ s t p s' :=
    admits t ∧ t.id = s.calls ∧ p = t.op.prog t.config ∧ s' = { s with calls := s.calls + 1 }
  env s s' := ∃ m, move m s = some s'
  die _ s s' := s' = s

def stage (admits : Call → Bool) : Stage (mcp fun t => admits t = true) Turn Env where
  respond := respond
  enter s t :=
    if admits t = true ∧ t.id = s.calls then
      some (t.op.prog t.config, { s with calls := s.calls + 1 })
    else none
  move := move
  kill _ s := s
  exec _ x s c := ⟨x, rfl⟩
  start := by
    intro tags s t p s' hs
    split at hs
    · next h =>
      cases hs
      exact ⟨h.1, h.2, rfl, rfl⟩
    · cases hs
  env m _ _ h := ⟨m, h⟩
  die _ _ := rfl

/-- Wallet 1 on chain 5, whose escrow 9 is pinned. -/
def demoConfig : Config where
  wallet := some ⟨1, 5⟩
  pins := [⟨5, 9, ZERO_TOKEN⟩]

/-- Native settlement on that escrow. -/
def demoNative : Turn where
  settlement := .og ⟨some 5, some 9, some OG⟩

def demoCall (id : Nat) (op : Op) : Call := ⟨id, demoConfig, op⟩

abbrev Cues := List (Cue Call Turn Env)

end McpSpends
