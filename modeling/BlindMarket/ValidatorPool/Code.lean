import BlindMarket.Escrow.Types

/-!
# ValidatorPool: data and functions

Storage and functions of `ValidatorPool.sol`. Amounts are words, and every
computation on them is checked; counters that grow by one with each call are
naturals. The three arithmetic panics are kept apart, since which of them can
happen is a question of its own.
-/
namespace ValidatorPool

open BlindEscrow (Address word)
open Checked TokenLedger

def MIN_STAKE : Nat := 100 * 10 ^ 6
def VOTE_WINDOW : Nat := 48 * 3600
def SLASH_BPS : Nat := 1000
def MIN_VOTES : Nat := 3
def MAX_VOTERS : Nat := 64

inductive Vote where
  | none | worker | agent
  deriving DecidableEq, Repr

structure Validator where
  stake : Nat := 0
  active : Bool := false
  totalVotes : Nat := 0
  correctVotes : Nat := 0
  deriving DecidableEq, Repr

structure Dispute where
  taskId : Nat := 0
  escrow : Address := 0
  token : Address := 0
  amount : Nat := 0
  openedAt : Nat := 0
  finalized : Bool := false
  workerFavored : Bool := false
  workerVotes : Nat := 0
  agentVotes : Nat := 0
  votes : Address → Vote := fun _ => .none
  voters : List Address := []

/-- Contract storage; the stake token is fixed at construction. -/
structure Pool where
  admin : Address := 0
  validators : Address → Validator := fun _ => {}
  validatorList : List Address := []
  nextDisputeId : Nat := 1
  disputes : Nat → Dispute := fun _ => {}
  taskDispute : Nat → Nat := fun _ => 0
  authorizedEscrows : Address → Bool := fun _ => false
  lockedInDisputes : Address → Nat := fun _ => 0

inductive Revert where
  | notAdmin | alreadyValidator | notValidator | insufficientStake | disputeNotFound
  | voteWindowClosed | voteWindowOpen | alreadyVoted | alreadyFinalized | onlyEscrow | stakeLocked
  | tooManyVoters | invalidVote | reentrantCall | tokenTransferFailed | noCode
  | overflow | underflow | divisionByZero
  deriving DecidableEq, Repr

/-- Where the pool lives and which token it takes. -/
structure Deployment where
  self : Address
  stakeToken : Address

abbrev Funds := Ledger Address Address word

structure World where
  pool : Pool
  ledger : Funds
  hasCode : Address → Bool
  timestamp : Nat
  locked : Bool

variable (D : Deployment)

def nonReentrant (w : World) : Except Revert Unit := require (w.locked = false) .reentrantCall

def register (sender : Address) (amount : Nat) (w : World) : Except Revert World := do
  nonReentrant w
  require ((w.pool.validators sender).active = false) .alreadyValidator
  require (MIN_STAKE ≤ amount) .insufficientStake
  let ledger ← orElse .tokenTransferFailed
    (w.ledger.transferFrom D.stakeToken D.self sender D.self amount)
  let validator : Validator := { stake := amount, active := true, totalVotes := 0, correctVotes := 0 }
  return { w with
    ledger
    pool := { w.pool with
      validators := Function.update w.pool.validators sender validator
      validatorList := w.pool.validatorList ++ [sender] } }

def unstake (sender : Address) (w : World) : Except Revert World := do
  nonReentrant w
  let v := w.pool.validators sender
  require (v.active = true) .notValidator
  require (w.pool.lockedInDisputes sender = 0) .stakeLocked
  let ledger ← orElse .tokenTransferFailed (w.ledger.move D.stakeToken D.self sender v.stake)
  return { w with
    ledger
    pool := { w.pool with
      validators := Function.update w.pool.validators sender
        { v with stake := 0, active := false } } }

def setAuthorizedEscrow (sender escrow : Address) (allowed : Bool) (w : World) :
    Except Revert World := do
  require (sender = w.pool.admin) .notAdmin
  return { w with pool := { w.pool with
    authorizedEscrows := Function.update w.pool.authorizedEscrows escrow allowed } }

def openDispute (sender : Address) (taskId : Nat) (token : Address) (amount : Nat) (w : World) :
    Except Revert World := do
  require (w.pool.authorizedEscrows sender = true) .onlyEscrow
  let disputeId := w.pool.nextDisputeId
  let d := { w.pool.disputes disputeId with
    taskId, escrow := sender, token, amount, openedAt := w.timestamp }
  return { w with pool := { w.pool with
    nextDisputeId := w.pool.nextDisputeId + 1
    disputes := Function.update w.pool.disputes disputeId d
    taskDispute := Function.update w.pool.taskDispute taskId disputeId } }

def vote (sender : Address) (disputeId : Nat) (voteFor : Vote) (w : World) :
    Except Revert World := do
  require (voteFor = .worker ∨ voteFor = .agent) .invalidVote
  let d := w.pool.disputes disputeId
  require (d.openedAt ≠ 0) .disputeNotFound
  require (d.finalized = false) .alreadyFinalized
  require (w.timestamp ≤ d.openedAt + VOTE_WINDOW) .voteWindowClosed
  require ((w.pool.validators sender).active = true) .notValidator
  require (d.votes sender = .none) .alreadyVoted
  require (d.voters.length < MAX_VOTERS) .tooManyVoters
  let d := { d with
    votes := Function.update d.votes sender voteFor
    voters := d.voters ++ [sender]
    workerVotes := if voteFor = .worker then d.workerVotes + 1 else d.workerVotes
    agentVotes := if voteFor = .worker then d.agentVotes else d.agentVotes + 1 }
  return { w with pool := { w.pool with
    disputes := Function.update w.pool.disputes disputeId d
    lockedInDisputes := Function.update w.pool.lockedInDisputes sender
      (w.pool.lockedInDisputes sender + 1) } }

/-! ## Finalisation -/

/-- Too few votes: every lock is released and nothing else happens. -/
def releaseLoop : List Address → (Address → Nat) → Except Revert (Address → Nat)
  | [], locks => return locks
  | v :: voters, locks => do
    let lock ← sub .underflow (locks v) 1
    releaseLoop voters (Function.update locks v lock)

/-- Slashes the losing voters and collects what they lose. -/
def slashLoop (d : Dispute) (winningVote : Vote) :
    List Address → Nat → (Address → Validator) → Except Revert (Nat × (Address → Validator))
  | [], slashPool, validators => return (slashPool, validators)
  | v :: voters, slashPool, validators =>
    if d.votes v ≠ winningVote then do
      let product ← mul word .overflow (validators v).stake SLASH_BPS
      let slash := product / 10000
      let stake ← sub .underflow (validators v).stake slash
      let slashPool ← add word .overflow slashPool slash
      slashLoop d winningVote voters slashPool
        (Function.update validators v { validators v with stake })
    else slashLoop d winningVote voters slashPool validators

/-- Rewards the winning voters, counts the participation and releases every lock. -/
def rewardLoop (d : Dispute) (winningVote : Vote) (rewardEach : Nat) :
    List Address → (Address → Validator) → (Address → Nat) →
      Except Revert ((Address → Validator) × (Address → Nat))
  | [], validators, locks => return (validators, locks)
  | v :: voters, validators, locks => do
    let validator ←
      if d.votes v = winningVote then do
        let stake ← if 0 < rewardEach then add word .overflow (validators v).stake rewardEach
          else .ok (validators v).stake
        pure { validators v with stake, correctVotes := (validators v).correctVotes + 1 }
      else pure (validators v)
    let lock ← sub .underflow (locks v) 1
    rewardLoop d winningVote rewardEach voters
      (Function.update validators v { validator with totalVotes := validator.totalVotes + 1 })
      (Function.update locks v lock)

/-- The world after the pool's own effects, and whether the escrow is called back. The callback is a
`try` call whose outcome changes nothing here, but calling an account without code reverts. -/
def finalizeDispute (disputeId : Nat) (w : World) : Except Revert (World × Bool) := do
  nonReentrant w
  let d := w.pool.disputes disputeId
  require (d.openedAt ≠ 0) .disputeNotFound
  require (d.finalized = false) .alreadyFinalized
  require (d.openedAt + VOTE_WINDOW < w.timestamp) .voteWindowOpen
  let totalVotes := d.workerVotes + d.agentVotes
  if totalVotes < MIN_VOTES then do
    let locks ← releaseLoop d.voters w.pool.lockedInDisputes
    return ({ w with pool := { w.pool with
      disputes := Function.update w.pool.disputes disputeId { d with finalized := true }
      lockedInDisputes := locks } }, false)
  else do
    let workerFavored := decide (d.agentVotes ≤ d.workerVotes)
    let winningVote := if workerFavored then Vote.worker else Vote.agent
    let (slashPool, validators) ← slashLoop d winningVote d.voters 0 w.pool.validators
    let correctCount := if workerFavored then d.workerVotes else d.agentVotes
    let rewardEach ← if 0 < correctCount ∧ 0 < slashPool then
        div .divisionByZero slashPool correctCount
      else .ok 0
    let (validators, locks) ←
      rewardLoop d winningVote rewardEach d.voters validators w.pool.lockedInDisputes
    require (w.hasCode d.escrow = true) .noCode
    return ({ w with pool := { w.pool with
      validators
      disputes := Function.update w.pool.disputes disputeId
        { d with finalized := true, workerFavored }
      lockedInDisputes := locks } }, true)

end ValidatorPool
