import BlindMarket.Escrow.Types

/-!
# BlindReputation

The reputation contract the escrow reports to. The deduplication key is the
hash of the packed pair of worker and task id; both are of fixed width, so the
pair itself is the key here and the hash is taken to have no collisions.
-/
namespace BlindReputation

open BlindEscrow (Address)
open Checked

structure Reputation where
  tasksCompleted : Nat := 0
  totalScore : Nat := 0
  disputes : Nat := 0
  deriving DecidableEq, Repr

inductive Revert where
  | notAdmin | notPendingAdmin | notAuthorizedRater | invalidScore | zeroAddress | alreadyRated
  | enforcedPause | expectedPause
  deriving DecidableEq, Repr

structure State where
  reputations : Address → Reputation := fun _ => {}
  authorizedRaters : Address → Bool := fun _ => false
  ratedTasks : Address → Nat → Bool := fun _ _ => false
  admin : Address := 0
  pendingAdmin : Address := 0
  paused : Bool := false

abbrev Outcome := Except Revert State

def onlyAdmin (sender : Address) (s : State) : Except Revert Unit :=
  require (sender = s.admin) .notAdmin

def onlyAuthorized (sender : Address) (s : State) : Except Revert Unit :=
  require (s.authorizedRaters sender = true) .notAuthorizedRater

def whenNotPaused (s : State) : Except Revert Unit := require (s.paused = false) .enforcedPause

def initializeReputation (sender : Address) : State := { admin := sender }

def rate (sender worker : Address) (score : Nat) (taskId : Nat) (s : State) : Outcome := do
  onlyAuthorized sender s
  whenNotPaused s
  require (1 ≤ score ∧ score ≤ 5) .invalidScore
  require (worker ≠ 0) .zeroAddress
  require (s.ratedTasks worker taskId = false) .alreadyRated
  let r := s.reputations worker
  return { s with
    ratedTasks := Function.update s.ratedTasks worker
      (Function.update (s.ratedTasks worker) taskId true)
    reputations := Function.update s.reputations worker
      { r with tasksCompleted := r.tasksCompleted + 1, totalScore := r.totalScore + score } }

def recordDispute (sender worker : Address) (_taskId : Nat) (s : State) : Outcome := do
  onlyAuthorized sender s
  whenNotPaused s
  require (worker ≠ 0) .zeroAddress
  let r := s.reputations worker
  return { s with
    reputations := Function.update s.reputations worker { r with disputes := r.disputes + 1 } }

/-- Tasks completed, average rating scaled by 100, and disputes. -/
def getReputation (worker : Address) (s : State) : Nat × Nat × Nat :=
  let r := s.reputations worker
  (r.tasksCompleted,
    if 0 < r.tasksCompleted then r.totalScore * 100 / r.tasksCompleted else 0, r.disputes)

inductive Op where
  | rate (worker : Address) (score : Nat) (taskId : Nat)
  | recordDispute (worker : Address) (taskId : Nat)
  | proposeAdmin (newAdmin : Address)
  | acceptAdmin
  | authorizeRater (rater : Address)
  | revokeRater (rater : Address)
  | pause
  | unpause
  deriving DecidableEq, Repr

def enter (sender : Address) : Op → State → Outcome
  | .rate worker score taskId, s => rate sender worker score taskId s
  | .recordDispute worker taskId, s => recordDispute sender worker taskId s
  | .proposeAdmin newAdmin, s => do
    onlyAdmin sender s
    require (newAdmin ≠ 0) .zeroAddress
    return { s with pendingAdmin := newAdmin }
  | .acceptAdmin, s => do
    require (sender = s.pendingAdmin) .notPendingAdmin
    return { s with admin := s.pendingAdmin, pendingAdmin := 0 }
  | .authorizeRater rater, s => do
    onlyAdmin sender s
    require (rater ≠ 0) .zeroAddress
    return { s with authorizedRaters := Function.update s.authorizedRaters rater true }
  | .revokeRater rater, s => do
    onlyAdmin sender s
    return { s with authorizedRaters := Function.update s.authorizedRaters rater false }
  | .pause, s => do
    onlyAdmin sender s
    whenNotPaused s
    return { s with paused := true }
  | .unpause, s => do
    onlyAdmin sender s
    require (s.paused = true) .expectedPause
    return { s with paused := false }

end BlindReputation
