import BlindMarket.Support.Async
import BlindMarket.Escrow.OpenRecords

/-!
# Open submissions: data

The records of `openSubmissionStore.ts`, and what its callers ask of Redis, of
the escrows and of the rest of the backend. Addresses are naturals, so their
case is gone; the data of a result and the criteria of a task stand for their
JSON, and an absent check for the empty one.
-/
namespace OpenSubmissions

open Async Prog
open BlindEscrow (Address Bytes32 OpenPhase)

abbrev Text := String
abbrev ResultData := Nat
abbrev RootHash := Nat
abbrev Attestation := Nat
abbrev VerificationCriteria := Nat

def NO_CRITERIA : VerificationCriteria := 0

inductive TaskChain where
  | base | arc
  deriving DecidableEq, Repr

/-- A chain on one of its networks, as `chainScope` names it. -/
structure Scope where
  chain : TaskChain
  chainId : Nat
  deriving DecidableEq, Repr

/-- An on-chain task. -/
structure TaskRef where
  scope : Scope
  taskId : Nat
  deriving DecidableEq, Repr

inductive PickMode where
  | agent | creator
  deriving DecidableEq, Repr

structure OpenTaskRecord where
  chain : TaskChain
  taskId : Nat
  taskHash : Bytes32
  poster : Address
  deadline : Nat
  mode : PickMode
  creatorWindow : Nat
  scope : Option Scope := none
  deriving DecidableEq, Repr

structure SubmissionRecord where
  evidenceHash : Bytes32
  ordinal : Nat
  recordedAt : Nat
  deriving DecidableEq, Repr

inductive OpenJudge where
  | creator | taskVerifier | backup | admin
  deriving DecidableEq, Repr

inductive OutcomeKind where
  | winner (winner : Address)
  | void
  deriving DecidableEq, Repr

structure OpenTaskOutcome where
  kind : OutcomeKind
  judge : OpenJudge
  scorecardHash : Bytes32
  deriving DecidableEq, Repr

/-- What the evidence hash of a result is taken of. -/
structure Content where
  resultData : ResultData
  rootHash : Option RootHash
  deriving DecidableEq, Repr

structure OpenResult where
  content : Content
  evidenceHash : Bytes32
  teeAttestation : Option Attestation
  savedAt : Nat
  deriving DecidableEq, Repr

inductive ScorecardRole where
  | creator | taskVerifier | backup
  deriving DecidableEq, Repr

/-- The listing of a task. -/
structure A2ATaskMeta where
  posterAddress : Option Address
  verifierAddress : Option Address
  deadline : Option Nat
  verificationCriteria : Option VerificationCriteria
  deriving DecidableEq, Repr

/-! ## Judging -/

structure JudgedEntry where
  submitter : Address
  ordinal : Nat
  attempt : Bool
  payable : Bool
  pastFloor : Bool
  passed : Bool
  score : Nat
  reason : Option Text
  deriving DecidableEq, Repr

/-- A recorded submission with the result kept for it. -/
structure Submission where
  submitter : Address
  ordinal : Nat
  result : OpenResult
  deriving DecidableEq, Repr

structure AutoVerifyResult where
  passed : Bool
  score : Nat
  reasons : List Text
  deriving DecidableEq, Repr

inductive Decision where
  | winner (winner : Address) (score : Nat)
  | void
  deriving DecidableEq, Repr

structure Counts where
  submissions : Nat
  recorded : Nat
  withResult : Nat
  deriving DecidableEq, Repr

/-- The platform's scorecard, or one a judge sent. -/
structure Scorecard where
  role : ScorecardRole
  decision : Decision
  counts : Counts
  judged : Nat
  attempts : Nat
  payable : Nat
  pastFloor : Nat
  passed : Nat
  entries : List JudgedEntry
  deriving DecidableEq, Repr

structure PendingScorecard where
  scorecardHash : Bytes32
  scorecard : Scorecard
  deriving DecidableEq, Repr

/-- What a transaction of the platform judge was decided on. -/
structure Basis where
  asBackup : Bool
  criteria : VerificationCriteria
  toJudge : List Submission
  deriving DecidableEq, Repr

/-! ## A backend -/

/-- What a backend is started with, and the functions it takes from elsewhere: the checks of
`autoVerify.ts`, which may throw, and the hashes of JSON texts. -/
structure Config where
  deployment : TaskChain → BlindEscrow.Deployment
  chainId : TaskChain → Nat
  signer : TaskChain → Option Address
  openSubmissionEnabled : Bool
  attemptFailure : ResultData → Except Text (Option Text)
  deliverableFloor : ResultData → VerificationCriteria → Except Text (Option Text)
  autoVerify : ResultData → VerificationCriteria → Except Text AutoVerifyResult
  keccak256 : Content → Bytes32
  keccak256OfScorecard : Scorecard → Bytes32
  jsonBytes : Content → Option Attestation → Nat

variable (cfg : Config)

def Config.chainScope (chain : TaskChain) : Scope := ⟨chain, cfg.chainId chain⟩

def Config.taskRef (chain : TaskChain) (taskId : Nat) : TaskRef := ⟨cfg.chainScope chain, taskId⟩

/-- False for a record saved on another network than the one its chain runs on now. -/
def Config.onThisNetwork (record : OpenTaskRecord) : Bool :=
  record.scope.all (· = cfg.chainScope record.chain)

/-- An open submission's evidence hash. -/
def Config.openEvidenceHash (resultData : ResultData) (rootHash : Option RootHash) : Bytes32 :=
  cfg.keccak256 ⟨resultData, rootHash⟩

/-! ## Errors -/

/-- The refusals of the routes, a failed command, a call the escrow reverted, and a judge
transaction mined as failed. -/
inductive Code where
  | rejected | reverted | judgeTxReverted
  | notFound | notIndexed | notEnabled
  | submissionsClosed | isVerifier | notRegistered | selfSubmit
  | escrowPaused | sameOwner | ownAgent | verifierSameOwner | deadlineReached
  | resultTooLarge | alreadySubmitted | tooManyHeld | submissionsHidden
  deriving DecidableEq, Repr

/-! ## Commands -/

/-- What a program asks of Redis, key by key. -/
inductive RedisCmd where
  | getRecord (ref : TaskRef)
  | setRecordNX (ref : TaskRef) (record : OpenTaskRecord)
  | getOutcome (ref : TaskRef)
  | setOutcomeNX (ref : TaskRef) (outcome : OpenTaskOutcome)
  | isClosedNotified (ref : TaskRef)
  | takeCountNoticeSlot (ref : TaskRef)
  | zaddDue (ref : TaskRef) (atSec : Nat)
  | zremDue (ref : TaskRef)
  | zaddJudge (ref : TaskRef) (atSec : Nat) (nx : Bool)
  | zremJudge (ref : TaskRef)
  | zrangeJudge (scope : Scope) (nowSec limit : Nat)
  | isJudgeBackfilled (scope : Scope)
  | markJudgeBackfilled (scope : Scope)
  | scanRecords (cursor : Nat)
  | hsetnxSub (ref : TaskRef) (submitter : Address) (record : SubmissionRecord)
  | hlenSubs (ref : TaskRef)
  | hscanSubs (ref : TaskRef) (cursor count : Nat)
  | setPending (ref : TaskRef) (submitter : Address) (result : OpenResult)
  | getPending (ref : TaskRef) (submitter : Address)
  | delPending (ref : TaskRef) (submitter : Address)
  | zremrangeHeld (submitter : Address) (nowSec : Nat)
  | zscoreHeld (submitter : Address) (ref : TaskRef)
  | zcardHeld (submitter : Address)
  | zaddHeld (submitter : Address) (ref : TaskRef) (atSec : Nat)
  | expireHeld (submitter : Address)
  | zremHeld (submitter : Address) (ref : TaskRef)
  | hsetnxResult (ref : TaskRef) (submitter : Address) (result : OpenResult)
  | expireResults (ref : TaskRef)
  | hmgetResults (ref : TaskRef) (submitters : List Address)
  | setPendingScorecard (ref : TaskRef) (role : ScorecardRole) (pending : PendingScorecard)
  | getPendingScorecard (ref : TaskRef) (role : ScorecardRole)
  | delPendingScorecard (ref : TaskRef) (role : ScorecardRole)
  | setScorecardNX (ref : TaskRef) (kept : PendingScorecard)
  deriving DecidableEq, Repr

/-- What it reads of an escrow. -/
inductive EscrowRead where
  | openPhase (taskId : Nat)
  | getTask (taskId : Nat)
  | getOpenTask (taskId : Nat)
  | effectiveDeadline (taskId : Nat)
  | taskVerifier (taskId : Nat)
  | verifier
  | submissionCount (taskId : Nat)
  | submissionOf (taskId : Nat) (submitter : Address)
  | paused
  deriving DecidableEq, Repr

/-- A judge's call, as it is signed. -/
inductive JudgeCall where
  | selectWinnerByBackup (taskId : Nat) (winner : Address) (scorecardHash : Bytes32)
  | selectWinnerByVerifier (taskId : Nat) (winner : Address) (scorecardHash : Bytes32)
  | voidOpenTask (taskId : Nat) (scorecardHash : Bytes32)
  deriving DecidableEq, Repr

def JudgeCall.op : JudgeCall → BlindEscrow.Op
  | .selectWinnerByBackup taskId winner scorecardHash =>
    .selectWinnerByBackup taskId winner scorecardHash
  | .selectWinnerByVerifier taskId winner scorecardHash =>
    .selectWinnerByVerifier taskId winner scorecardHash
  | .voidOpenTask taskId scorecardHash => .voidOpenTask taskId scorecardHash

/-- The place of a judge transaction among those sent. -/
abbrev TxId := Nat

/-- The commands of a program. What is sent names what it was decided on; `leftForAdmin` is the
judge saying that it gives a task up. -/
inductive Cmd where
  | redis (c : RedisCmd)
  | escrow (chain : TaskChain) (c : EscrowRead)
  | send (chain : TaskChain) (call : JudgeCall) (basis : Basis)
  | wait (tx : TxId)
  | now
  | breath
  | backgroundWritesAllowed
  | takeFlight
  | leaveFlight
  | leftForAdmin (ref : TaskRef)
  | listingOf (record : OpenTaskRecord)
  | closeOpenSubmissionTask (taskHash : Bytes32) (outcome : OutcomeKind)
  | loadAgentBySmartAccount (account : Address)
  | recordWorkerPayout (taskHash : Bytes32) (worker : Address) (taskId amount : Nat)
      (chain : TaskChain) (token : Address)
  | notify (recipients : List Address)
  | openTask (taskHash : Bytes32)
  | isCollecting (taskHash : Bytes32)
  | isRegistered (address : Address)
  | anySameOwner (poster : Address) (wallets : List Address)
  | ownAgentOf (address : Address) (posters : List Address)
  | judgesOwnAgent (agents judges : List Address)
  | buildSubmitOpen (chain : TaskChain) (address : Address) (taskId : Nat) (evidenceHash : Bytes32)
  deriving DecidableEq, Repr

/-- A task resolved from its hash, with its listing. -/
structure OpenTaskInfo where
  taskHash : Bytes32
  listing : A2ATaskMeta
  chain : TaskChain
  taskId : Nat
  deriving DecidableEq, Repr

/-- A page of a scan; a cursor of 0 ends it. -/
structure Page (α : Type) where
  cursor : Nat
  items : List α
  deriving DecidableEq, Repr

@[reducible] def RedisCmd.Ans : RedisCmd → Type
  | .getRecord _ => Option OpenTaskRecord
  | .setRecordNX _ _ => Bool
  | .getOutcome _ => Option OpenTaskOutcome
  | .setOutcomeNX _ _ => Bool
  | .isClosedNotified _ => Bool
  | .takeCountNoticeSlot _ => Bool
  | .zrangeJudge _ _ _ => List TaskRef
  | .isJudgeBackfilled _ => Bool
  | .scanRecords _ => Page TaskRef
  | .hsetnxSub _ _ _ => Bool
  | .hlenSubs _ => Nat
  | .hscanSubs _ _ _ => Page (Address × SubmissionRecord)
  | .getPending _ _ => Option OpenResult
  | .zscoreHeld _ _ => Option Nat
  | .zcardHeld _ => Nat
  | .hsetnxResult _ _ _ => Bool
  | .hmgetResults _ _ => List (Option OpenResult)
  | .getPendingScorecard _ _ => Option PendingScorecard
  | .setScorecardNX _ _ => Bool
  | _ => Unit

@[reducible] def EscrowRead.Ans : EscrowRead → Type
  | .openPhase _ => OpenPhase
  | .getTask _ => BlindEscrow.Task
  | .getOpenTask _ => BlindEscrow.OpenTask
  | .effectiveDeadline _ => Nat
  | .taskVerifier _ => Address
  | .verifier => Address
  | .submissionCount _ => Nat
  | .submissionOf _ _ => Bytes32
  | .paused => Bool

@[reducible] def Ans : Cmd → Type
  | .redis c => c.Ans
  | .escrow _ c => c.Ans
  | .send _ _ _ => TxId
  | .wait _ => Bool
  | .now => Nat
  | .backgroundWritesAllowed => Bool
  | .takeFlight => Bool
  | .listingOf _ => Option A2ATaskMeta
  | .loadAgentBySmartAccount _ => Option Address
  | .openTask _ => OpenTaskInfo
  | .isCollecting _ => Bool
  | .isRegistered _ => Bool
  | .anySameOwner _ _ => Bool
  | .ownAgentOf _ _ => Bool
  | .judgesOwnAgent _ _ => Bool
  | _ => Unit

abbrev Backend := Prog Ans Code

def redis (c : RedisCmd) : Backend c.Ans := call (Cmd.redis c)

def escrowFor (chain : TaskChain) (c : EscrowRead) : Backend c.Ans := call (Cmd.escrow chain c)

end OpenSubmissions
