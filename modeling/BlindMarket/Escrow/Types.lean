import BlindMarket.Support.Checked
import BlindMarket.Support.Ledger

/-!
# BlindEscrow: data

The storage of the escrow, its calls, errors and events, under the names of
`BlindEscrow.sol`. Addresses and 32-byte words are naturals with zero as the
null value, and amounts are naturals: where a computation on amounts can leave
the 256-bit range the code model checks it. Times are unbounded naturals, since
a block timestamp has 64 bits and no sum of them can leave 256.
-/
namespace BlindEscrow

abbrev Address := Nat
abbrev Bytes32 := Nat
abbrev Bytes := List UInt8

/-- Words are below `2 ^ 256`. -/
def word : Nat := 2 ^ 256

inductive TaskStatus where
  | funded | assigned | submitted | verified | completed | cancelled | disputed
  deriving DecidableEq, Repr

structure Task where
  agent : Address := 0
  worker : Address := 0
  token : Address := 0
  amount : Nat := 0
  taskHash : Bytes32 := 0
  evidenceHash : Bytes32 := 0
  status : TaskStatus := .funded
  category : String := ""
  locationZone : String := ""
  createdAt : Nat := 0
  deadline : Nat := 0
  submissionAttempts : Nat := 0
  disputedAt : Nat := 0
  deriving DecidableEq, Repr

/-- One task of a batch: everything but the token, which the batch shares. -/
structure TaskInput where
  taskHash : Bytes32
  amount : Nat
  category : String
  locationZone : String
  duration : Nat
  verifierAgent : Address
  deriving DecidableEq, Repr

inductive PickMode where
  | agentManaged | creatorReview
  deriving DecidableEq, Repr

inductive OpenPhase where
  | submissions | creatorPick | verifierPick | backupPick | adminResolve | closed
  deriving DecidableEq, Repr

inductive Judge where
  | none | creator | taskVerifier | backup | admin
  deriving DecidableEq, Repr

structure OpenTask where
  isOpen : Bool := false
  mode : PickMode := .agentManaged
  creatorWindow : Nat := 0
  closedBy : Judge := .none
  deriving DecidableEq, Repr

def MAX_FEE_BPS : Nat := 3000
def MAX_SUBMISSION_ATTEMPTS : Nat := 3
def MIN_DEADLINE : Nat := 3600
def MAX_DEADLINE : Nat := 90 * 86400
def DISPUTE_WINDOW : Nat := 14 * 86400
def APPEAL_WINDOW : Nat := 3 * 86400
def MAX_BATCH : Nat := 50
def MIN_CREATOR_WINDOW : Nat := 3600
def MAX_CREATOR_WINDOW : Nat := 7 * 86400
def VERIFIER_PICK_WINDOW : Nat := 48 * 3600
def BACKUP_PICK_WINDOW : Nat := 48 * 3600

/-- Custom errors, `require` texts, and the reverts of the inherited guards. -/
inductive Revert where
  | notAdmin | notAgent | notWorker | notVerifier | notPendingAdmin
  | zeroAddress | zeroAmount | emptyHash | tokenNotAllowed | invalidDeadline
  | invalidStatus (current required : TaskStatus)
  | selfAssignment | deadlineNotReached | deadlineReached | disputeWindowActive
  | maxSubmissionAttemptsReached | feeExceedsMax | invalidTEESignature | teeSignerNotSet
  | appealWindowActive | escalatedForAdjudication | notEscalated | invalidPauseStart
  | emptyBatch | batchTooLarge | invalidPickWindow | notOpenTask | openTaskUnsupported
  | alreadySubmitted | hasSubmissions | noSubmission
  | wrongPhase (current : OpenPhase)
  | reason (text : String)
  | panic | enforcedPause | expectedPause | reentrantCall | nonPayable | tokenTransferFailed
  deriving DecidableEq, Repr

/-- The events of the escrow, in the order of the source. -/
inductive Log where
  | taskCreated (taskId : Nat) (agent token : Address) (amount : Nat) (taskHash : Bytes32)
      (category locationZone : String) (deadline : Nat)
  | taskVerifierSet (taskId : Nat) (verifier : Address)
  | workerAssigned (taskId : Nat) (worker : Address)
  | evidenceSubmitted (taskId : Nat) (worker : Address) (evidenceHash : Bytes32) (attempt : Nat)
  | verificationCompleted (taskId : Nat) (passed : Bool)
  | taskCompleted (taskId : Nat) (workerPayout platformFee : Nat)
  | taskCancelled (taskId : Nat) (refundAmount : Nat)
  | taskDisputed (taskId : Nat) (initiator : Address)
  | disputeResolved (taskId : Nat) (workerFavored : Bool)
  | deadlineExpired (taskId : Nat) (refundAmount : Nat)
  | treasuryUpdated (oldTreasury newTreasury : Address)
  | verifierUpdated (oldVerifier newVerifier : Address)
  | feeBpsUpdated (oldFeeBps newFeeBps : Nat)
  | tokenAllowed (token : Address)
  | tokenDisallowed (token : Address)
  | adminTransferProposed (currentAdmin pendingAdmin : Address)
  | adminTransferCompleted (oldAdmin newAdmin : Address)
  | reputationContractUpdated (oldContract newContract : Address)
  | taskRegistryUpdated (oldRegistry newRegistry : Address)
  | teeSignerUpdated (oldSigner newSigner : Address)
  | teeSettled (taskId : Nat) (passed : Bool) (teeSigner : Address)
  | unjudgedWorkEscalated (taskId : Nat)
  | unjudgedWorkReleased (taskId : Nat) (workerPayout platformFee : Nat)
  | pauseStartRecorded (pausedAt : Nat)
  | minRatedAmountUpdated (token : Address) (oldAmount newAmount : Nat)
  | openTaskCreated (taskId : Nat) (mode : PickMode) (creatorWindow : Nat)
  | openSubmission (taskId : Nat) (submitter : Address) (evidenceHash : Bytes32) (count : Nat)
  | winnerSelected (taskId : Nat) (winner : Address) (judge : Judge) (scorecardHash : Bytes32)
  | openTaskVoided (taskId : Nat) (judge : Judge) (scorecardHash : Bytes32)
  | paused (account : Address)
  | unpaused (account : Address)
  deriving DecidableEq, Repr

/-- Contract storage, the inherited pause flag included. -/
structure Escrow where
  nextTaskId : Nat := 0
  tasks : Nat → Task := fun _ => {}
  admin : Address := 0
  pendingAdmin : Address := 0
  treasury : Address := 0
  verifier : Address := 0
  feeBps : Nat := 0
  allowedTokens : Address → Bool := fun _ => false
  reputationContract : Address := 0
  taskRegistry : Address := 0
  taskVerifier : Nat → Address := fun _ => 0
  teeSigner : Address := 0
  failedVerdictAt : Nat → Nat := fun _ => 0
  unjudgedEscalation : Nat → Bool := fun _ => false
  pausedTotal : Nat := 0
  pausedSince : Nat := 0
  pausedTotalAtCreate : Nat → Nat := fun _ => 0
  minRatedAmount : Address → Nat := fun _ => 0
  openTasks : Nat → OpenTask := fun _ => {}
  submissionCount : Nat → Nat := fun _ => 0
  submissionOf : Nat → Address → Bytes32 := fun _ _ => 0
  scorecardOf : Nat → Bytes32 := fun _ => 0
  paused : Bool := false

/-- What a function sees besides storage: the message, the clock, and the
transient reentrancy flag. -/
structure Ctx where
  sender : Address
  value : Nat
  timestamp : Nat
  locked : Bool

/-- The party of a task that a payout goes to; its address is read from storage
when the transfer is made. -/
inductive Party where
  | agent | worker | treasury
  deriving DecidableEq, Repr

/-- What a function does after its storage writes, in order: events, token
movements and calls to the connected contracts. -/
inductive Action where
  | lock
  | unlock
  | emit (log : Log)
  | pull (token payer : Address) (amount : Nat)
  | transferPayout (taskId : Nat) (party : Party) (amount : Nat)
  | rate (taskId : Nat) (score : Nat)
  | recordDispute (taskId : Nat)
  | publish (taskId : Nat) (agent : Address) (category locationZone : String) (amount : Nat)
  | closeListing (taskId : Nat)
  deriving DecidableEq, Repr

/-- Every function with a storage effect that is open to calls. The upgrade
entry replaces the code itself and is not one of them. -/
inductive Op where
  | createTask (taskHash : Bytes32) (token : Address) (amount : Nat)
      (category locationZone : String) (duration : Nat)
  | createTaskWithVerifier (taskHash : Bytes32) (token : Address) (amount : Nat)
      (category locationZone : String) (duration : Nat) (verifierAgent : Address)
  | createTasks (token : Address) (tasks : List TaskInput)
  | createTaskOpen (taskHash : Bytes32) (token : Address) (amount : Nat)
      (category locationZone : String) (duration : Nat) (verifierAgent : Address)
      (mode : PickMode) (creatorWindow : Nat)
  | assignWorker (taskId : Nat) (worker : Address)
  | marketplaceAssign (taskId : Nat) (worker : Address)
  | submitEvidence (taskId : Nat) (evidenceHash : Bytes32)
  | completeVerification (taskId : Nat) (passed : Bool)
  | completeVerificationWithTEE (taskId : Nat) (passed : Bool) (signature signedText : Bytes)
  | cancelTask (taskId : Nat)
  | claimTimeout (taskId : Nat)
  | raiseDispute (taskId : Nat)
  | resolveDispute (taskId : Nat) (workerFavored : Bool)
  | releaseUnjudgedWork (taskId : Nat)
  | submitOpen (taskId : Nat) (evidenceHash : Bytes32)
  | selectWinner (taskId : Nat) (winner : Address) (scorecardHash : Bytes32)
  | selectWinnerByVerifier (taskId : Nat) (winner : Address) (scorecardHash : Bytes32)
  | selectWinnerByBackup (taskId : Nat) (winner : Address) (scorecardHash : Bytes32)
  | voidOpenTask (taskId : Nat) (scorecardHash : Bytes32)
  | resolveOpenTask (taskId : Nat) (winner : Address) (scorecardHash : Bytes32)
  | proposeAdmin (newAdmin : Address)
  | acceptAdmin
  | setTreasury (treasury : Address)
  | setVerifier (verifier : Address)
  | setMinRatedAmount (token : Address) (amount : Nat)
  | setTeeSigner (teeSigner : Address)
  | setFeeBps (feeBps : Nat)
  | allowToken (token : Address)
  | disallowToken (token : Address)
  | setReputationContract (reputation : Address)
  | setTaskRegistry (registry : Address)
  | pause
  | unpause
  | recordPauseStart (pausedAt : Nat)
  deriving DecidableEq, Repr

/-- The task a call is about, when it is about one. -/
def Op.taskId : Op → Option Nat
  | .assignWorker id _ | .marketplaceAssign id _ | .submitEvidence id _
  | .completeVerification id _ | .completeVerificationWithTEE id _ _ _
  | .cancelTask id | .claimTimeout id | .raiseDispute id | .resolveDispute id _
  | .releaseUnjudgedWork id | .submitOpen id _ | .selectWinner id _ _
  | .selectWinnerByVerifier id _ _ | .selectWinnerByBackup id _ _
  | .voidOpenTask id _ | .resolveOpenTask id _ _ => some id
  | _ => none

/-- The tasks a call creates, in order. -/
def Op.inputs : Op → List TaskInput
  | .createTask taskHash _ amount category locationZone duration =>
    [⟨taskHash, amount, category, locationZone, duration, 0⟩]
  | .createTaskWithVerifier taskHash _ amount category locationZone duration verifierAgent =>
    [⟨taskHash, amount, category, locationZone, duration, verifierAgent⟩]
  | .createTasks _ tasks => tasks
  | .createTaskOpen taskHash _ amount category locationZone duration verifierAgent _ _ =>
    [⟨taskHash, amount, category, locationZone, duration, verifierAgent⟩]
  | _ => []

/-- A call that creates tasks is about none. -/
theorem Op.taskId_of_inputs {op : Op} (h : op.inputs ≠ []) : op.taskId = none := by
  cases op <;> first | rfl | exact absurd rfl h

/-- The payable functions. -/
def Op.payable : Op → Bool
  | .createTask .. | .createTaskWithVerifier .. | .createTasks .. | .createTaskOpen .. => true
  | _ => false

end BlindEscrow
