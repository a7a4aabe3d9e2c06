import BlindMarket.Escrow.Types

/-!
# BlindEscrow: functions

Each function of `BlindEscrow.sol`, guard by guard and write by write. A
function returns its storage writes and, because every one of them makes its
external calls after its writes, the list of interactions still to do. A revert
is an error and leaves nothing behind.
-/
namespace BlindEscrow

open Checked

variable (recover : Bytes → Bytes → Option Address)

abbrev Outcome := Except Revert (Escrow × List Action)

/-! ## Modifiers -/

def onlyAdmin (x : Ctx) (s : Escrow) : Except Revert Unit :=
  require (x.sender = s.admin) .notAdmin

def onlyAgent (x : Ctx) (taskId : Nat) (s : Escrow) : Except Revert Unit :=
  require (x.sender = (s.tasks taskId).agent) .notAgent

def onlyWorker (x : Ctx) (taskId : Nat) (s : Escrow) : Except Revert Unit :=
  require (x.sender = (s.tasks taskId).worker) .notWorker

def onlyVerifier (x : Ctx) (s : Escrow) : Except Revert Unit :=
  require (x.sender = s.verifier) .notVerifier

def nonReentrant (x : Ctx) : Except Revert Unit :=
  require (x.locked = false) .reentrantCall

def whenNotPaused (s : Escrow) : Except Revert Unit :=
  require (s.paused = false) .enforcedPause

def whenPaused (s : Escrow) : Except Revert Unit :=
  require (s.paused = true) .expectedPause

/-- The interactions of a `nonReentrant` function run under the lock. -/
def guarded (todo : List Action) : List Action := .lock :: todo ++ [.unlock]

/-- `sender` deploys the proxy and becomes the admin. -/
def initializeEscrow (sender treasury verifier : Address) : Except Revert Escrow := do
  require (treasury ≠ 0) .zeroAddress
  require (verifier ≠ 0) .zeroAddress
  return { admin := sender, treasury, verifier, nextTaskId := 1, feeBps := 1000 }

/-! ## Clocks -/

def pausedSeconds (s : Escrow) (now : Nat) : Except Revert Nat :=
  if s.pausedSince ≠ 0 then do
    let running ← sub .panic now s.pausedSince
    return s.pausedTotal + running
  else return s.pausedTotal

def pauseExtension (s : Escrow) (now : Nat) (taskId : Nat) : Except Revert Nat := do
  let total ← pausedSeconds s now
  sub .panic total (s.pausedTotalAtCreate taskId)

def effectiveDeadline (s : Escrow) (now : Nat) (taskId : Nat) : Except Revert Nat := do
  let ext ← pauseExtension s now taskId
  return (s.tasks taskId).deadline + ext

/-! ## Creation -/

/-- Validates one task and records it under the next id. Returns the storage,
the id, the deadline and the events emitted so far. -/
def recordTask (x : Ctx) (token : Address) (i : TaskInput) (s : Escrow) :
    Except Revert (Escrow × Nat × Nat × List Action) := do
  require (i.amount ≠ 0) .zeroAmount
  require (i.taskHash ≠ 0) .emptyHash
  require (s.allowedTokens token = true) .tokenNotAllowed
  require (MIN_DEADLINE ≤ i.duration ∧ i.duration ≤ MAX_DEADLINE) .invalidDeadline
  let taskId := s.nextTaskId
  let deadline := x.timestamp + i.duration
  let task : Task :=
    { agent := x.sender, worker := 0, token, amount := i.amount, taskHash := i.taskHash,
      evidenceHash := 0, status := .funded, category := i.category,
      locationZone := i.locationZone, createdAt := x.timestamp, deadline,
      submissionAttempts := 0, disputedAt := 0 }
  let s := { s with
    nextTaskId := s.nextTaskId + 1
    tasks := Function.update s.tasks taskId task
    pausedTotalAtCreate := Function.update s.pausedTotalAtCreate taskId s.pausedTotal }
  if i.verifierAgent ≠ 0 then do
    require (i.verifierAgent ≠ x.sender) .selfAssignment
    return ({ s with taskVerifier := Function.update s.taskVerifier taskId i.verifierAgent },
      taskId, deadline, [.emit (.taskVerifierSet taskId i.verifierAgent)])
  else return (s, taskId, deadline, [])

/-- Native value must be the amount exactly; a token amount is pulled with no value sent. -/
def pullPayment (x : Ctx) (token : Address) (amount : Nat) : Except Revert (List Action) :=
  if token = 0 then do
    require (x.value = amount) .zeroAmount
    return []
  else do
    require (x.value = 0) .zeroAmount
    return [.pull token x.sender amount]

def announceTask (x : Ctx) (token : Address) (i : TaskInput) (taskId : Nat) (deadline : Nat) :
    List Action :=
  [.publish taskId x.sender i.category i.locationZone i.amount,
    .emit (.taskCreated taskId x.sender token i.amount i.taskHash i.category i.locationZone deadline)]

/-- The body shared by `createTask` and `createTaskWithVerifier`. -/
def createTaskCore (x : Ctx) (token : Address) (i : TaskInput) (s : Escrow) : Outcome := do
  nonReentrant x
  whenNotPaused s
  let (s, taskId, deadline, emitted) ← recordTask x token i s
  let payment ← pullPayment x token i.amount
  return (s, guarded (emitted ++ payment ++ announceTask x token i taskId deadline))

def createTask (x : Ctx) (taskHash : Bytes32) (token : Address) (amount : Nat)
    (category locationZone : String) (duration : Nat) (s : Escrow) : Outcome :=
  createTaskCore x token ⟨taskHash, amount, category, locationZone, duration, 0⟩ s

def createTaskWithVerifier (x : Ctx) (taskHash : Bytes32) (token : Address) (amount : Nat)
    (category locationZone : String) (duration : Nat) (verifierAgent : Address) (s : Escrow) :
    Outcome :=
  createTaskCore x token ⟨taskHash, amount, category, locationZone, duration, verifierAgent⟩ s

/-- The loop of `createTasks`: records and announces each task, adding up the total. -/
def createTasksLoop (x : Ctx) (token : Address) :
    List TaskInput → Nat → Escrow → Except Revert (Escrow × Nat × List Action)
  | [], total, s => return (s, total, [])
  | t :: ts, total, s => do
    let (s, taskId, deadline, emitted) ← recordTask x token t s
    let total ← add word .panic total t.amount
    let (s, total, rest) ← createTasksLoop x token ts total s
    return (s, total, emitted ++ announceTask x token t taskId deadline ++ rest)

/-- Returns the first task id besides the outcome. -/
def createTasks (x : Ctx) (token : Address) (tasks : List TaskInput) (s : Escrow) :
    Except Revert (Nat × Escrow × List Action) := do
  nonReentrant x
  whenNotPaused s
  require (tasks.length ≠ 0) .emptyBatch
  require (tasks.length ≤ MAX_BATCH) .batchTooLarge
  require (token ≠ 0) .tokenNotAllowed
  require (x.value = 0) .zeroAmount
  let firstTaskId := s.nextTaskId
  let (s, total, todo) ← createTasksLoop x token tasks 0 s
  return (firstTaskId, s, guarded (todo ++ [.pull token x.sender total]))

def createTaskOpen (x : Ctx) (taskHash : Bytes32) (token : Address) (amount : Nat)
    (category locationZone : String) (duration : Nat) (verifierAgent : Address)
    (mode : PickMode) (creatorWindow : Nat) (s : Escrow) : Outcome := do
  let i : TaskInput := ⟨taskHash, amount, category, locationZone, duration, verifierAgent⟩
  nonReentrant x
  whenNotPaused s
  require (verifierAgent ≠ 0) .zeroAddress
  require (if mode = .creatorReview then
      MIN_CREATOR_WINDOW ≤ creatorWindow ∧ creatorWindow ≤ MAX_CREATOR_WINDOW
    else creatorWindow = 0) .invalidPickWindow
  let (s, taskId, deadline, emitted) ← recordTask x token i s
  let openTask : OpenTask :=
    { isOpen := true, mode, creatorWindow := creatorWindow % 2 ^ 32, closedBy := .none }
  let s := { s with openTasks := Function.update s.openTasks taskId openTask }
  let payment ← pullPayment x token amount
  return (s, guarded (emitted ++ [.emit (.openTaskCreated taskId mode creatorWindow)] ++ payment ++
    announceTask x token i taskId deadline))

/-! ## Payout -/

def platformFee (s : Escrow) (amount : Nat) : Except Revert Nat := do
  let product ← mul word .panic amount s.feeBps
  return product / 10000

def earnsRating (s : Escrow) (t : Task) (fee : Nat) (judgeChosenByPoster : Bool) : Bool :=
  decide (0 < fee) && decide (s.minRatedAmount t.token ≤ t.amount) && !judgeChosenByPoster

/-- Completes the task; the worker, then the treasury, are paid afterwards, then the rating. -/
def payWorker (taskId : Nat) (score : Nat) (s : Escrow) :
    Except Revert (Escrow × Nat × Nat × List Action) := do
  let t := s.tasks taskId
  let fee ← platformFee s t.amount
  let payout ← sub .panic t.amount fee
  let s := { s with tasks := Function.update s.tasks taskId { t with status := .completed } }
  return (s, payout, fee, [.transferPayout taskId .worker payout,
    .transferPayout taskId .treasury fee, .rate taskId score])

def passScore (taskId : Nat) (s : Escrow) : Except Revert Nat := do
  let t := s.tasks taskId
  let fee ← platformFee s t.amount
  return if earnsRating s t fee (decide (s.taskVerifier taskId ≠ 0)) then 5 else 0

def verifyTeeSignature (signature signedText : Bytes) (s : Escrow) : Except Revert Unit := do
  require (s.teeSigner ≠ 0) .teeSignerNotSet
  require (recover signature signedText = some s.teeSigner) .invalidTEESignature

/-! ## Assignment and evidence -/

/-- The part of `assignWorker` and `marketplaceAssign` after the caller is accepted. The
self-assignment guard of the one compares with the caller, of the other with the agent. -/
def assign (x : Ctx) (taskId : Nat) (worker barred : Address) (s : Escrow) : Outcome := do
  require ((s.openTasks taskId).isOpen = false) .openTaskUnsupported
  let t := s.tasks taskId
  require (t.status = .funded) (.invalidStatus t.status .funded)
  require (worker ≠ 0) .zeroAddress
  require (worker ≠ barred) .selfAssignment
  let deadline ← effectiveDeadline s x.timestamp taskId
  require (x.timestamp < deadline) .deadlineReached
  return ({ s with tasks := Function.update s.tasks taskId { t with worker, status := .assigned } },
    [.closeListing taskId, .emit (.workerAssigned taskId worker)])

def assignWorker (x : Ctx) (taskId : Nat) (worker : Address) (s : Escrow) : Outcome := do
  onlyAgent x taskId s
  whenNotPaused s
  assign x taskId worker x.sender s

def marketplaceAssign (x : Ctx) (taskId : Nat) (worker : Address) (s : Escrow) : Outcome := do
  onlyVerifier x s
  whenNotPaused s
  assign x taskId worker (s.tasks taskId).agent s

def submitEvidence (x : Ctx) (taskId : Nat) (evidenceHash : Bytes32) (s : Escrow) :
    Outcome := do
  onlyWorker x taskId s
  whenNotPaused s
  let t := s.tasks taskId
  require (t.status = .assigned ∨ t.status = .verified) (.invalidStatus t.status .assigned)
  require (evidenceHash ≠ 0) .emptyHash
  let deadline ← effectiveDeadline s x.timestamp taskId
  require (x.timestamp < deadline) .deadlineReached
  require (t.status = .verified → t.submissionAttempts < MAX_SUBMISSION_ATTEMPTS)
    .maxSubmissionAttemptsReached
  let attempts := t.submissionAttempts + 1
  let t := { t with evidenceHash, status := .submitted, submissionAttempts := attempts }
  return ({ s with tasks := Function.update s.tasks taskId t },
    [.emit (.evidenceSubmitted taskId x.sender evidenceHash attempts)])

/-! ## Verdicts -/

/-- A per-task verifier settles its own task, the global verifier every other one, and the
worker none. -/
def verdictGate (x : Ctx) (taskId : Nat) (s : Escrow) : Except Revert Unit := do
  require (x.sender = if s.taskVerifier taskId ≠ 0 then s.taskVerifier taskId else s.verifier)
    .notVerifier
  require (x.sender ≠ (s.tasks taskId).worker) .notVerifier
  require ((s.tasks taskId).status = .submitted)
    (.invalidStatus (s.tasks taskId).status .submitted)

/-- The effects of a verdict, after the events `emitted`. -/
def verdict (x : Ctx) (taskId : Nat) (passed : Bool) (emitted : List Action) (s : Escrow) :
    Outcome :=
  let t := s.tasks taskId
  if passed then do
    let score ← passScore taskId s
    let (s, payout, fee, pays) ← payWorker taskId score s
    return (s, guarded (emitted ++ pays ++ [.emit (.taskCompleted taskId payout fee)]))
  else
    let disputed := if MAX_SUBMISSION_ATTEMPTS ≤ t.submissionAttempts
      then [.recordDispute taskId] else []
    return ({ s with
        tasks := Function.update s.tasks taskId { t with status := .verified }
        failedVerdictAt := Function.update s.failedVerdictAt taskId x.timestamp },
      guarded (emitted ++ disputed))

def completeVerification (x : Ctx) (taskId : Nat) (passed : Bool) (s : Escrow) : Outcome := do
  nonReentrant x
  whenNotPaused s
  verdictGate x taskId s
  verdict x taskId passed [.emit (.verificationCompleted taskId passed)] s

def completeVerificationWithTEE (x : Ctx) (taskId : Nat) (passed : Bool)
    (signature signedText : Bytes) (s : Escrow) : Outcome := do
  nonReentrant x
  whenNotPaused s
  verdictGate x taskId s
  verifyTeeSignature recover signature signedText s
  verdict x taskId passed [.emit (.verificationCompleted taskId passed),
    .emit (.teeSettled taskId passed s.teeSigner)] s

/-! ## Cancels, timeouts and disputes -/

def cancelTask (x : Ctx) (taskId : Nat) (s : Escrow) : Outcome := do
  onlyAgent x taskId s
  nonReentrant x
  whenNotPaused s
  let t := s.tasks taskId
  require (t.status = .funded) (.invalidStatus t.status .funded)
  require (s.submissionCount taskId = 0) .hasSubmissions
  return ({ s with tasks := Function.update s.tasks taskId { t with status := .cancelled } },
    guarded [.transferPayout taskId .agent t.amount, .closeListing taskId,
      .emit (.taskCancelled taskId t.amount)])

/-- The refund at the end of `claimTimeout`. -/
def timeoutRefund (taskId : Nat) (s : Escrow) : Outcome :=
  let t := s.tasks taskId
  return ({ s with tasks := Function.update s.tasks taskId { t with status := .cancelled } },
    guarded [.transferPayout taskId .agent t.amount, .emit (.deadlineExpired taskId t.amount)])

def claimTimeout (x : Ctx) (taskId : Nat) (s : Escrow) : Outcome := do
  onlyAgent x taskId s
  nonReentrant x
  whenNotPaused s
  let t := s.tasks taskId
  let deadline ← effectiveDeadline s x.timestamp taskId
  require (deadline ≤ x.timestamp) .deadlineNotReached
  match t.status with
  | .submitted =>
    -- delivered and never judged: adjudicated, no funds move
    return ({ s with
        tasks := Function.update s.tasks taskId
          { t with status := .disputed, disputedAt := x.timestamp }
        unjudgedEscalation := Function.update s.unjudgedEscalation taskId true },
      guarded [.emit (.unjudgedWorkEscalated taskId), .emit (.taskDisputed taskId x.sender)])
  | .disputed => do
    require (s.unjudgedEscalation taskId = false) .escalatedForAdjudication
    let ext ← pauseExtension s x.timestamp taskId
    require (t.disputedAt ≠ 0 ∧ t.disputedAt + DISPUTE_WINDOW + ext ≤ x.timestamp)
      .disputeWindowActive
    timeoutRefund taskId s
  | .verified => do
    let ext ← pauseExtension s x.timestamp taskId
    require (s.failedVerdictAt taskId + APPEAL_WINDOW + ext ≤ x.timestamp) .appealWindowActive
    timeoutRefund taskId s
  | .assigned => timeoutRefund taskId s
  | status => .error (.invalidStatus status .assigned)

def raiseDispute (x : Ctx) (taskId : Nat) (s : Escrow) : Outcome := do
  whenNotPaused s
  let t := s.tasks taskId
  require (x.sender = t.agent ∨ x.sender = t.worker) (.reason "not party to task")
  require (t.status = .submitted ∨ t.status = .verified) (.invalidStatus t.status .submitted)
  let ext ← pauseExtension s x.timestamp taskId
  let workerAppeal := x.sender = t.worker ∧ t.status = .verified ∧
    x.timestamp < s.failedVerdictAt taskId + APPEAL_WINDOW + ext
  require (x.timestamp < t.deadline + ext ∨ workerAppeal) .deadlineReached
  let t := { t with status := .disputed, disputedAt := x.timestamp }
  return ({ s with tasks := Function.update s.tasks taskId t },
    [.emit (.taskDisputed taskId x.sender)])

def resolveDispute (x : Ctx) (taskId : Nat) (workerFavored : Bool) (s : Escrow) : Outcome := do
  onlyAdmin x s
  nonReentrant x
  let t := s.tasks taskId
  require (t.status = .disputed) (.invalidStatus t.status .disputed)
  if workerFavored then do
    let (s, payout, fee, pays) ← payWorker taskId 3 s
    return (s, guarded (pays ++ [.emit (.disputeResolved taskId true),
      .emit (.taskCompleted taskId payout fee)]))
  else
    return ({ s with tasks := Function.update s.tasks taskId { t with status := .cancelled } },
      guarded [.transferPayout taskId .agent t.amount, .recordDispute taskId,
        .emit (.disputeResolved taskId false), .emit (.taskCancelled taskId t.amount)])

def releaseUnjudgedWork (x : Ctx) (taskId : Nat) (s : Escrow) : Outcome := do
  onlyWorker x taskId s
  nonReentrant x
  whenNotPaused s
  let t := s.tasks taskId
  require (t.status = .disputed) (.invalidStatus t.status .disputed)
  require (s.unjudgedEscalation taskId = true) .notEscalated
  let ext ← pauseExtension s x.timestamp taskId
  require (t.disputedAt + DISPUTE_WINDOW + ext ≤ x.timestamp) .disputeWindowActive
  let (s, payout, fee, pays) ← payWorker taskId 0 s
  return (s, guarded (pays ++ [.emit (.unjudgedWorkReleased taskId payout fee),
    .emit (.taskCompleted taskId payout fee)]))

/-! ## Open submission -/

def submitOpen (x : Ctx) (taskId : Nat) (evidenceHash : Bytes32) (s : Escrow) : Outcome := do
  whenNotPaused s
  require ((s.openTasks taskId).isOpen = true) .notOpenTask
  let t := s.tasks taskId
  require (t.status = .funded) (.invalidStatus t.status .funded)
  require (x.sender ≠ t.agent ∧ x.sender ≠ s.taskVerifier taskId ∧ x.sender ≠ s.verifier)
    .selfAssignment
  require (evidenceHash ≠ 0) .emptyHash
  let deadline ← effectiveDeadline s x.timestamp taskId
  require (x.timestamp < deadline) .deadlineReached
  require (s.submissionOf taskId x.sender = 0) .alreadySubmitted
  let count := s.submissionCount taskId + 1
  return ({ s with
      submissionOf := Function.update s.submissionOf taskId
        (Function.update (s.submissionOf taskId) x.sender evidenceHash)
      submissionCount := Function.update s.submissionCount taskId count },
    [.emit (.openSubmission taskId x.sender evidenceHash count)])

def openPhase (s : Escrow) (now : Nat) (taskId : Nat) : Except Revert OpenPhase := do
  let o := s.openTasks taskId
  require (o.isOpen = true) .notOpenTask
  if (s.tasks taskId).status ≠ .funded then return .closed
  else do
    let deadline ← effectiveDeadline s now taskId
    if now < deadline then return .submissions
    else if now < deadline + o.creatorWindow then return .creatorPick
    else if now < deadline + o.creatorWindow + VERIFIER_PICK_WINDOW then return .verifierPick
    else if now < deadline + o.creatorWindow + VERIFIER_PICK_WINDOW + BACKUP_PICK_WINDOW then
      return .backupPick
    else return .adminResolve

def requirePhase (x : Ctx) (taskId : Nat) (phase : OpenPhase) (s : Escrow) :
    Except Revert Unit := do
  let current ← openPhase s x.timestamp taskId
  require (current = phase) (.wrongPhase current)

/-- Pays `winner`; its submission becomes the task's worker and evidence. -/
def pickWinner (x : Ctx) (taskId : Nat) (winner : Address) (scorecardHash : Bytes32)
    (judge : Judge) (s : Escrow) : Outcome := do
  let evidence := s.submissionOf taskId winner
  require (evidence ≠ 0) .noSubmission
  require (winner ≠ x.sender) .selfAssignment
  let t := { s.tasks taskId with worker := winner, evidenceHash := evidence }
  let s := { s with
    tasks := Function.update s.tasks taskId t
    openTasks := Function.update s.openTasks taskId { s.openTasks taskId with closedBy := judge }
    scorecardOf := Function.update s.scorecardOf taskId scorecardHash }
  let chosenByPoster := decide (judge = .creator ∨ judge = .taskVerifier)
  let rated ← platformFee s t.amount
  let score := if earnsRating s t rated chosenByPoster then 5 else 0
  let (s, payout, fee, pays) ← payWorker taskId score s
  return (s, guarded ([.emit (.winnerSelected taskId winner judge scorecardHash)] ++ pays ++
    [.closeListing taskId, .emit (.taskCompleted taskId payout fee)]))

/-- Refunds the poster in full. -/
def refundOpenTask (taskId : Nat) (judge : Judge) (scorecardHash : Bytes32) (s : Escrow) :
    Outcome :=
  let t := s.tasks taskId
  return ({ s with
      tasks := Function.update s.tasks taskId { t with status := .cancelled }
      openTasks := Function.update s.openTasks taskId { s.openTasks taskId with closedBy := judge }
      scorecardOf := Function.update s.scorecardOf taskId scorecardHash },
    guarded [.emit (.openTaskVoided taskId judge scorecardHash),
      .transferPayout taskId .agent t.amount, .closeListing taskId,
      .emit (.taskCancelled taskId t.amount)])

def selectWinner (x : Ctx) (taskId : Nat) (winner : Address) (scorecardHash : Bytes32)
    (s : Escrow) : Outcome := do
  nonReentrant x
  whenNotPaused s
  require (x.sender = (s.tasks taskId).agent) .notAgent
  requirePhase x taskId .creatorPick s
  pickWinner x taskId winner scorecardHash .creator s

def selectWinnerByVerifier (x : Ctx) (taskId : Nat) (winner : Address)
    (scorecardHash : Bytes32) (s : Escrow) : Outcome := do
  nonReentrant x
  whenNotPaused s
  require (x.sender = s.taskVerifier taskId) .notVerifier
  requirePhase x taskId .verifierPick s
  pickWinner x taskId winner scorecardHash .taskVerifier s

def selectWinnerByBackup (x : Ctx) (taskId : Nat) (winner : Address) (scorecardHash : Bytes32)
    (s : Escrow) : Outcome := do
  onlyVerifier x s
  nonReentrant x
  whenNotPaused s
  requirePhase x taskId .backupPick s
  pickWinner x taskId winner scorecardHash .backup s

def voidOpenTask (x : Ctx) (taskId : Nat) (scorecardHash : Bytes32) (s : Escrow) :
    Outcome := do
  nonReentrant x
  whenNotPaused s
  let phase ← openPhase s x.timestamp taskId
  if s.submissionCount taskId = 0 then do
    require (x.sender = (s.tasks taskId).agent) .notAgent
    require (phase ≠ .submissions ∧ phase ≠ .closed) (.wrongPhase phase)
    refundOpenTask taskId .creator scorecardHash s
  else do
    require (x.sender = s.verifier) .notVerifier
    require (phase = .backupPick) (.wrongPhase phase)
    refundOpenTask taskId .backup scorecardHash s

def resolveOpenTask (x : Ctx) (taskId : Nat) (winner : Address) (scorecardHash : Bytes32)
    (s : Escrow) : Outcome := do
  onlyAdmin x s
  nonReentrant x
  requirePhase x taskId .adminResolve s
  if winner = 0 then refundOpenTask taskId .admin scorecardHash s
  else pickWinner x taskId winner scorecardHash .admin s

/-! ## Administration -/

def proposeAdmin (x : Ctx) (newAdmin : Address) (s : Escrow) : Outcome := do
  onlyAdmin x s
  require (newAdmin ≠ 0) .zeroAddress
  return ({ s with pendingAdmin := newAdmin }, [.emit (.adminTransferProposed s.admin newAdmin)])

def acceptAdmin (x : Ctx) (s : Escrow) : Outcome := do
  require (x.sender = s.pendingAdmin) .notPendingAdmin
  return ({ s with admin := s.pendingAdmin, pendingAdmin := 0 },
    [.emit (.adminTransferCompleted s.admin s.pendingAdmin)])

def setTreasury (x : Ctx) (treasury : Address) (s : Escrow) : Outcome := do
  onlyAdmin x s
  require (treasury ≠ 0) .zeroAddress
  return ({ s with treasury }, [.emit (.treasuryUpdated s.treasury treasury)])

def setVerifier (x : Ctx) (verifier : Address) (s : Escrow) : Outcome := do
  onlyAdmin x s
  require (verifier ≠ 0) .zeroAddress
  return ({ s with verifier }, [.emit (.verifierUpdated s.verifier verifier)])

def setMinRatedAmount (x : Ctx) (token : Address) (amount : Nat) (s : Escrow) : Outcome := do
  onlyAdmin x s
  return ({ s with minRatedAmount := Function.update s.minRatedAmount token amount },
    [.emit (.minRatedAmountUpdated token (s.minRatedAmount token) amount)])

def setTeeSigner (x : Ctx) (teeSigner : Address) (s : Escrow) : Outcome := do
  onlyAdmin x s
  return ({ s with teeSigner }, [.emit (.teeSignerUpdated s.teeSigner teeSigner)])

def setFeeBps (x : Ctx) (feeBps : Nat) (s : Escrow) : Outcome := do
  onlyAdmin x s
  require (feeBps ≤ MAX_FEE_BPS) .feeExceedsMax
  return ({ s with feeBps }, [.emit (.feeBpsUpdated s.feeBps feeBps)])

def allowToken (x : Ctx) (token : Address) (s : Escrow) : Outcome := do
  onlyAdmin x s
  return ({ s with allowedTokens := Function.update s.allowedTokens token true },
    [.emit (.tokenAllowed token)])

def disallowToken (x : Ctx) (token : Address) (s : Escrow) : Outcome := do
  onlyAdmin x s
  return ({ s with allowedTokens := Function.update s.allowedTokens token false },
    [.emit (.tokenDisallowed token)])

def setReputationContract (x : Ctx) (reputation : Address) (s : Escrow) : Outcome := do
  onlyAdmin x s
  return ({ s with reputationContract := reputation },
    [.emit (.reputationContractUpdated s.reputationContract reputation)])

def setTaskRegistry (x : Ctx) (registry : Address) (s : Escrow) : Outcome := do
  onlyAdmin x s
  return ({ s with taskRegistry := registry },
    [.emit (.taskRegistryUpdated s.taskRegistry registry)])

def pause (x : Ctx) (s : Escrow) : Outcome := do
  onlyAdmin x s
  whenNotPaused s
  return ({ s with paused := true, pausedSince := x.timestamp }, [.emit (.paused x.sender)])

def unpause (x : Ctx) (s : Escrow) : Outcome := do
  onlyAdmin x s
  whenPaused s
  -- an unknown start is not counted
  let ran ← if s.pausedSince ≠ 0 then sub .panic x.timestamp s.pausedSince else .ok 0
  return ({ s with paused := false, pausedTotal := s.pausedTotal + ran, pausedSince := 0 },
    [.emit (.unpaused x.sender)])

def recordPauseStart (x : Ctx) (pausedAt : Nat) (s : Escrow) : Outcome := do
  onlyAdmin x s
  whenPaused s
  require (s.pausedSince = 0 ∧ pausedAt ≠ 0 ∧ pausedAt ≤ x.timestamp) .invalidPauseStart
  return ({ s with pausedSince := pausedAt }, [.emit (.pauseStartRecorded pausedAt)])

/-! ## Dispatch -/

/-- The function a call selects. -/
def enter (x : Ctx) : Op → Escrow → Outcome
  | .createTask taskHash token amount category locationZone duration =>
    createTask x taskHash token amount category locationZone duration
  | .createTaskWithVerifier taskHash token amount category locationZone duration verifierAgent =>
    createTaskWithVerifier x taskHash token amount category locationZone duration verifierAgent
  | .createTasks token tasks => fun s => do
    let (_, s, todo) ← createTasks x token tasks s
    return (s, todo)
  | .createTaskOpen taskHash token amount category locationZone duration verifierAgent mode
      creatorWindow =>
    createTaskOpen x taskHash token amount category locationZone duration verifierAgent mode
      creatorWindow
  | .assignWorker taskId worker => assignWorker x taskId worker
  | .marketplaceAssign taskId worker => marketplaceAssign x taskId worker
  | .submitEvidence taskId evidenceHash => submitEvidence x taskId evidenceHash
  | .completeVerification taskId passed => completeVerification x taskId passed
  | .completeVerificationWithTEE taskId passed signature signedText =>
    completeVerificationWithTEE recover x taskId passed signature signedText
  | .cancelTask taskId => cancelTask x taskId
  | .claimTimeout taskId => claimTimeout x taskId
  | .raiseDispute taskId => raiseDispute x taskId
  | .resolveDispute taskId workerFavored => resolveDispute x taskId workerFavored
  | .releaseUnjudgedWork taskId => releaseUnjudgedWork x taskId
  | .submitOpen taskId evidenceHash => submitOpen x taskId evidenceHash
  | .selectWinner taskId winner scorecardHash => selectWinner x taskId winner scorecardHash
  | .selectWinnerByVerifier taskId winner scorecardHash =>
    selectWinnerByVerifier x taskId winner scorecardHash
  | .selectWinnerByBackup taskId winner scorecardHash =>
    selectWinnerByBackup x taskId winner scorecardHash
  | .voidOpenTask taskId scorecardHash => voidOpenTask x taskId scorecardHash
  | .resolveOpenTask taskId winner scorecardHash => resolveOpenTask x taskId winner scorecardHash
  | .proposeAdmin newAdmin => proposeAdmin x newAdmin
  | .acceptAdmin => acceptAdmin x
  | .setTreasury treasury => setTreasury x treasury
  | .setVerifier verifier => setVerifier x verifier
  | .setMinRatedAmount token amount => setMinRatedAmount x token amount
  | .setTeeSigner teeSigner => setTeeSigner x teeSigner
  | .setFeeBps feeBps => setFeeBps x feeBps
  | .allowToken token => allowToken x token
  | .disallowToken token => disallowToken x token
  | .setReputationContract reputation => setReputationContract x reputation
  | .setTaskRegistry registry => setTaskRegistry x registry
  | .pause => pause x
  | .unpause => unpause x
  | .recordPauseStart pausedAt => recordPauseStart x pausedAt

end BlindEscrow
