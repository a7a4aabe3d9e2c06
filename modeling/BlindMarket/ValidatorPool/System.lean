import BlindMarket.Support.Runs
import BlindMarket.ValidatorPool.Code

/-!
# The pool among its callers

Anybody may call any function at any time. A finalisation that decided its
dispute calls the escrow back before it returns, and waits under the reentrancy
flag while the escrow makes calls of its own. A callback that reverts leaves no
calls behind, so it is one during which nothing happens.
-/
namespace ValidatorPool

open BlindEscrow (Address)
open Checked Runs TokenLedger

variable (D : Deployment)

inductive Op where
  | register (amount : Nat)
  | unstake
  | setAuthorizedEscrow (escrow : Address) (allowed : Bool)
  | openDispute (taskId : Nat) (token : Address) (amount : Nat)
  | vote (disputeId : Nat) (voteFor : Vote)
  | finalizeDispute (disputeId : Nat)
  deriving DecidableEq, Repr

structure Msg where
  sender : Address
  op : Op
  deriving DecidableEq, Repr

/-- A call up to its end or up to its callback; the flag is up exactly while the callback runs. -/
def begin (m : Msg) (w : World) : Except Revert (World × Bool) :=
  match m.op with
  | .register amount => return (← register D m.sender amount w, false)
  | .unstake => return (← unstake D m.sender w, false)
  | .setAuthorizedEscrow escrow allowed =>
    return (← setAuthorizedEscrow m.sender escrow allowed w, false)
  | .openDispute taskId token amount => return (← openDispute m.sender taskId token amount w, false)
  | .vote disputeId voteFor => return (← vote m.sender disputeId voteFor w, false)
  | .finalizeDispute disputeId => do
    let (w, calls) ← finalizeDispute disputeId w
    return ({ w with locked := calls }, calls)

/-- The world, and the finalisations whose callback has not returned. -/
structure Config where
  world : World
  waiting : List Nat

inductive Kind where
  | called (m : Msg)
  | returned (disputeId : Nat)
  | tick (dt : Nat)
  | outside
  deriving DecidableEq, Repr

structure Event where
  kind : Kind
  pre : World
  post : World

/-- Nobody signs for the zero address, and the pool never calls itself. -/
def Sender (a : Address) : Prop := a ≠ 0 ∧ a ≠ D.self

def Op.disputeId : Op → Nat
  | .finalizeDispute disputeId => disputeId
  | .vote disputeId _ => disputeId
  | _ => 0

inductive Step : Config → Event → Config → Prop where
  | call {c : Config} (m : Msg) (w : World) (calls : Bool) (hs : Sender D m.sender)
      (h : begin D m c.world = .ok (w, calls)) :
      Step c ⟨.called m, c.world, w⟩
        ⟨w, if calls then m.op.disputeId :: c.waiting else c.waiting⟩
  | ret {w : World} (disputeId : Nat) (waiting : List Nat) :
      Step ⟨w, disputeId :: waiting⟩ ⟨.returned disputeId, w, { w with locked := false }⟩
        ⟨{ w with locked := false }, waiting⟩
  | tick {w : World} (dt : Nat) :
      Step ⟨w, []⟩ ⟨.tick dt, w, { w with timestamp := w.timestamp + dt }⟩
        ⟨{ w with timestamp := w.timestamp + dt }, []⟩
  -- Tokens move between others, more may arrive, and contracts may be deployed.
  | outside {c : Config} (ledger : Funds) (hasCode : Address → Bool)
      (h : c.world.ledger.bal D.stakeToken D.self ≤ ledger.bal D.stakeToken D.self) :
      Step c ⟨.outside, c.world, { c.world with ledger, hasCode }⟩
        { c with world := { c.world with ledger, hasCode } }

/-- Traces are newest first. -/
abbrev Trace := List Event

abbrev PoolRun : Config → Trace → Config → Prop := Run (Step D)

/-- Right after construction, in any surroundings, before any stake token was sent. -/
structure Initial (c : Config) : Prop where
  pool : ∃ admin, c.world.pool = { admin }
  balance : c.world.ledger.bal D.stakeToken D.self = 0
  timestamp : 0 < c.world.timestamp
  locked : c.world.locked = false
  waiting : c.waiting = []

end ValidatorPool
