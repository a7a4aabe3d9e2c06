import BlindMarket.Support.Runs
import BlindMarket.Escrow.Code
import BlindMarket.Escrow.Registry
import BlindMarket.Escrow.Reputation

/-!
# The escrow among its callers

The world the escrow runs in, and the steps it takes there. A call runs until
it returns or until a native payout hands control to the payee; the rest of it
then waits on the stack, and the payee may make any calls of its own before it
returns. A reverted call leaves nothing behind, so runs hold only the calls
that went through. The tokens move exactly what is asked or revert, and they
and the connected registry and reputation contracts do not call back.
-/
namespace BlindEscrow

open Checked Runs TokenLedger

abbrev Funds := Ledger Address Address word

/-- Where the contracts live, and the signature recovery of the platform. -/
structure Deployment where
  self : Address
  reputationAt : Address
  registryAt : Address
  recover : Bytes → Bytes → Option Address

structure World where
  escrow : Escrow
  locked : Bool
  ledger : Funds
  reputation : BlindReputation.State
  registry : TaskRegistry.State
  timestamp : Nat
  logs : List Log

structure Payment where
  task : Nat
  party : Party
  token : Address
  payee : Address
  amount : Nat
  deriving DecidableEq, Repr

structure Msg where
  sender : Address
  value : Nat
  op : Op
  deriving DecidableEq, Repr

variable (D : Deployment)

def World.ctx (w : World) (m : Msg) : Ctx := ⟨m.sender, m.value, w.timestamp, w.locked⟩

def Party.address (s : Escrow) (taskId : Nat) : Party → Address
  | .agent => (s.tasks taskId).agent
  | .worker => (s.tasks taskId).worker
  | .treasury => s.treasury

/-- A `try` call: its revert is swallowed. -/
def attempt {ε σ : Type} (f : σ → Except ε σ) (s : σ) : σ :=
  match f s with
  | .ok s => s
  | .error _ => s

/-- `_transferPayout`. A native transfer to the escrow itself finds no receive function. -/
def transferPayout (taskId : Nat) (party : Party) (amount : Nat) (w : World) :
    Except Revert (World × List Payment × Bool) :=
  if amount = 0 then return (w, [], false)
  else do
    let token := (w.escrow.tasks taskId).token
    let payee := party.address w.escrow taskId
    require (token = 0 → payee ≠ D.self) (.reason "native transfer failed")
    let ledger ← orElse .tokenTransferFailed (w.ledger.move token D.self payee amount)
    return ({ w with ledger }, [⟨taskId, party, token, payee, amount⟩], token = 0)

/-- The escrow points at the reputation contract; another contract there has no effect here. -/
def reputationConnected (w : World) : Prop :=
  w.escrow.reputationContract ≠ 0 ∧ w.escrow.reputationContract = D.reputationAt
deriving Decidable

/-- The escrow points at the registry. -/
def registryConnected (w : World) : Prop :=
  w.escrow.taskRegistry ≠ 0 ∧ w.escrow.taskRegistry = D.registryAt
deriving Decidable

/-- One interaction: the world after it, what it paid, and whether a native payee now has control. -/
def act : Action → World → Except Revert (World × List Payment × Bool)
  | .lock, w => return ({ w with locked := true }, [], false)
  | .unlock, w => return ({ w with locked := false }, [], false)
  | .emit log, w => return ({ w with logs := w.logs ++ [log] }, [], false)
  | .pull token payer amount, w => do
    let ledger ← orElse .tokenTransferFailed
      (w.ledger.transferFrom token D.self payer D.self amount)
    return ({ w with ledger }, [], false)
  | .transferPayout taskId party amount, w => transferPayout D taskId party amount w
  | .rate taskId score, w =>
    if score ≠ 0 ∧ reputationConnected D w then
      let worker := (w.escrow.tasks taskId).worker
      let reputation := attempt (BlindReputation.rate D.self worker score taskId) w.reputation
      return ({ w with reputation }, [], false)
    else return (w, [], false)
  | .recordDispute taskId, w =>
    if reputationConnected D w then
      let worker := (w.escrow.tasks taskId).worker
      let reputation := attempt (BlindReputation.recordDispute D.self worker taskId) w.reputation
      return ({ w with reputation }, [], false)
    else return (w, [], false)
  | .publish taskId agent category locationZone amount, w =>
    if registryConnected D w then
      let registry := attempt (TaskRegistry.publishTask D.self w.timestamp taskId agent category
        locationZone amount) w.registry
      return ({ w with registry }, [], false)
    else return (w, [], false)
  | .closeListing taskId, w =>
    if registryConnected D w then
      let registry := attempt (TaskRegistry.closeTask D.self taskId) w.registry
      return ({ w with registry }, [], false)
    else return (w, [], false)

/-- Where a call stopped: `rest` is what it still has to do once the payee returns. -/
structure Stop where
  world : World
  paid : List Payment
  rest : Option (List Action)

def drive : List Action → World → Except Revert Stop
  | [], w => return ⟨w, [], none⟩
  | a :: rest, w => do
    let (w, paid, yields) ← act D a w
    if yields then return ⟨w, paid, some rest⟩
    else do
      let stop ← drive rest w
      return ⟨stop.world, paid ++ stop.paid, stop.rest⟩

/-- The beginning of a call: the value moves in, the function runs, the interactions start. -/
def begin (m : Msg) (w : World) : Except Revert Stop := do
  require (m.op.payable = true ∨ m.value = 0) .nonPayable
  let ledger ← orElse .tokenTransferFailed (w.ledger.move 0 m.sender D.self m.value)
  let (escrow, todo) ← enter D.recover (w.ctx m) m.op w.escrow
  drive D todo { w with ledger, escrow }

structure Frame where
  cid : Nat
  rest : List Action

structure Config where
  world : World
  stack : List Frame
  calls : Nat

def suspend (cid : Nat) (rest : Option (List Action)) (stack : List Frame) : List Frame :=
  match rest with
  | none => stack
  | some rest => ⟨cid, rest⟩ :: stack

inductive Kind where
  | called (cid : Nat) (msg : Msg)
  | returned (cid : Nat)
  | tick (dt : Nat)
  | outside
  deriving DecidableEq, Repr

/-- One step of a run, with the worlds around it and the payments it made. -/
structure Event where
  kind : Kind
  pre : World
  post : World
  paid : List Payment

/-- Nobody signs for the zero address, and the escrow never calls itself. -/
def Sender (a : Address) : Prop := a ≠ 0 ∧ a ≠ D.self

inductive Step : Config → Event → Config → Prop where
  | call {c : Config} (m : Msg) (stop : Stop) (hs : Sender D m.sender)
      (h : begin D m c.world = .ok stop) :
      Step c ⟨.called c.calls m, c.world, stop.world, stop.paid⟩
        ⟨stop.world, suspend c.calls stop.rest c.stack, c.calls + 1⟩
  | ret {w : World} {calls : Nat} (f : Frame) (stack : List Frame) (stop : Stop)
      (h : drive D f.rest w = .ok stop) :
      Step ⟨w, f :: stack, calls⟩ ⟨.returned f.cid, w, stop.world, stop.paid⟩
        ⟨stop.world, suspend f.cid stop.rest stack, calls⟩
  | tick {w : World} {calls : Nat} (dt : Nat) :
      Step ⟨w, [], calls⟩ ⟨.tick dt, w, { w with timestamp := w.timestamp + dt }, []⟩
        ⟨{ w with timestamp := w.timestamp + dt }, [], calls⟩
  -- Tokens move between others, and more may arrive.
  | funds {c : Config} (ledger : Funds)
      (h : ∀ token, c.world.ledger.bal token D.self ≤ ledger.bal token D.self) :
      Step c ⟨.outside, c.world, { c.world with ledger }, []⟩
        { c with world := { c.world with ledger } }
  | reputation {c : Config} (sender : Address) (op : BlindReputation.Op)
      (reputation : BlindReputation.State) (hs : Sender D sender)
      (h : BlindReputation.enter sender op c.world.reputation = .ok reputation) :
      Step c ⟨.outside, c.world, { c.world with reputation }, []⟩
        { c with world := { c.world with reputation } }
  | registry {c : Config} (sender : Address) (op : TaskRegistry.Op)
      (registry : TaskRegistry.State) (hs : Sender D sender)
      (h : TaskRegistry.enter sender c.world.timestamp op c.world.registry = .ok registry) :
      Step c ⟨.outside, c.world, { c.world with registry }, []⟩
        { c with world := { c.world with registry } }

/-- Traces are newest first. -/
abbrev Trace := List Event

abbrev EscrowRun : Config → Trace → Config → Prop := Run (Step D)

/-- Right after `initialize`, in any surroundings. -/
structure Initial (c : Config) : Prop where
  sender : ∃ sender treasury verifier, Sender D sender ∧
    initializeEscrow sender treasury verifier = .ok c.world.escrow
  locked : c.world.locked = false
  timestamp : 0 < c.world.timestamp
  stack : c.stack = []
  calls : c.calls = 0

/-- A whole call whose payees accept what they are paid and do nothing else. -/
def settle : List Action → World → Except Revert (World × List Payment)
  | [], w => return (w, [])
  | a :: rest, w => do
    let (w, paid, _) ← act D a w
    let (w, later) ← settle rest w
    return (w, paid ++ later)

def transact (m : Msg) (w : World) : Except Revert (World × List Payment) := do
  require (m.op.payable = true ∨ m.value = 0) .nonPayable
  let ledger ← orElse .tokenTransferFailed (w.ledger.move 0 m.sender D.self m.value)
  let (escrow, todo) ← enter D.recover (w.ctx m) m.op w.escrow
  settle D todo { w with ledger, escrow }

end BlindEscrow
