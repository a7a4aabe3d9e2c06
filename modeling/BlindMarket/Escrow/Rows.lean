import BlindMarket.Escrow.Code

/-!
# What a call can do

All the storage of one task is its row. A call either moves one row along the
task lifecycle, or appends rows, or changes settings and pauses. `Effect` says
so with every guard the code checked, and `enter_effect` reads it off the code;
no later proof opens the functions for what they do to storage.
-/
namespace BlindEscrow

open Checked

/-- The storage slots of one task. -/
structure Row where
  task : Task := {}
  openTask : OpenTask := {}
  verifier : Address := 0
  submissionCount : Nat := 0
  submissionOf : Address → Bytes32 := fun _ => 0
  scorecard : Bytes32 := 0
  failedVerdictAt : Nat := 0
  unjudged : Bool := false
  pausedAtCreate : Nat := 0

namespace Escrow

def row (s : Escrow) (id : Nat) : Row where
  task := s.tasks id
  openTask := s.openTasks id
  verifier := s.taskVerifier id
  submissionCount := s.submissionCount id
  submissionOf := s.submissionOf id
  scorecard := s.scorecardOf id
  failedVerdictAt := s.failedVerdictAt id
  unjudged := s.unjudgedEscalation id
  pausedAtCreate := s.pausedTotalAtCreate id

def put (s : Escrow) (id : Nat) (r : Row) : Escrow :=
  { s with
    tasks := Function.update s.tasks id r.task
    openTasks := Function.update s.openTasks id r.openTask
    taskVerifier := Function.update s.taskVerifier id r.verifier
    submissionCount := Function.update s.submissionCount id r.submissionCount
    submissionOf := Function.update s.submissionOf id r.submissionOf
    scorecardOf := Function.update s.scorecardOf id r.scorecard
    failedVerdictAt := Function.update s.failedVerdictAt id r.failedVerdictAt
    unjudgedEscalation := Function.update s.unjudgedEscalation id r.unjudged
    pausedTotalAtCreate := Function.update s.pausedTotalAtCreate id r.pausedAtCreate }

@[simp] theorem row_put_self (s : Escrow) (id : Nat) (r : Row) : (s.put id r).row id = r := by
  simp [row, put]

theorem row_put_other (s : Escrow) (id : Nat) (r : Row) {j : Nat} (h : j ≠ id) :
    (s.put id r).row j = s.row j := by
  simp [row, put, Function.update_of_ne h]

/-- Writing back what was read changes nothing, so a write of a few slots is a `put`. -/
theorem put_row (s : Escrow) (id : Nat) : s.put id (s.row id) = s := by
  simp [row, put]

@[simp] theorem row_task (s : Escrow) (id : Nat) : (s.row id).task = s.tasks id := rfl
@[simp] theorem row_openTask (s : Escrow) (id : Nat) : (s.row id).openTask = s.openTasks id := rfl
@[simp] theorem row_verifier (s : Escrow) (id : Nat) :
    (s.row id).verifier = s.taskVerifier id := rfl
@[simp] theorem row_submissionCount (s : Escrow) (id : Nat) :
    (s.row id).submissionCount = s.submissionCount id := rfl
@[simp] theorem row_submissionOf (s : Escrow) (id : Nat) :
    (s.row id).submissionOf = s.submissionOf id := rfl
@[simp] theorem row_scorecard (s : Escrow) (id : Nat) :
    (s.row id).scorecard = s.scorecardOf id := rfl
@[simp] theorem row_failedVerdictAt (s : Escrow) (id : Nat) :
    (s.row id).failedVerdictAt = s.failedVerdictAt id := rfl
@[simp] theorem row_unjudged (s : Escrow) (id : Nat) :
    (s.row id).unjudged = s.unjudgedEscalation id := rfl
@[simp] theorem row_pausedAtCreate (s : Escrow) (id : Nat) :
    (s.row id).pausedAtCreate = s.pausedTotalAtCreate id := rfl

end Escrow

/-! ## Moves of one row -/

/-- Why a single-worker task is paid out, and the rating that goes with it. -/
inductive Completes (x : Ctx) (s : Escrow) (id : Nat) : Op → Nat → List Action → List Action → Prop
    where
  | passed (op : Op) (fee : Nat) (emitted : List Action) (hp : s.paused = false)
      (hop : op = .completeVerification id true ∨
        ∃ signature text, op = .completeVerificationWithTEE id true signature text)
      (hs : x.sender = if s.taskVerifier id ≠ 0 then s.taskVerifier id else s.verifier)
      (hw : x.sender ≠ (s.tasks id).worker) (hst : (s.tasks id).status = .submitted)
      (hfee : platformFee s (s.tasks id).amount = .ok fee)
      (hem : ∀ a ∈ emitted, ∃ log, a = .emit log) :
      Completes x s id op
        (if earnsRating s (s.tasks id) fee (decide (s.taskVerifier id ≠ 0)) then 5 else 0) emitted
        [.emit (.taskCompleted id ((s.tasks id).amount - fee) fee)]
  | ruled (fee : Nat) (hs : x.sender = s.admin) (hst : (s.tasks id).status = .disputed)
      (hfee : platformFee s (s.tasks id).amount = .ok fee) :
      Completes x s id (.resolveDispute id true) 3 [] [.emit (.disputeResolved id true),
        .emit (.taskCompleted id ((s.tasks id).amount - fee) fee)]
  | released (fee ext : Nat) (hp : s.paused = false) (hs : x.sender = (s.tasks id).worker)
      (hst : (s.tasks id).status = .disputed) (hu : s.unjudgedEscalation id = true)
      (hext : pauseExtension s x.timestamp id = .ok ext)
      (ht : (s.tasks id).disputedAt + DISPUTE_WINDOW + ext ≤ x.timestamp)
      (hfee : platformFee s (s.tasks id).amount = .ok fee) :
      Completes x s id (.releaseUnjudgedWork id) 0 []
        [.emit (.unjudgedWorkReleased id ((s.tasks id).amount - fee) fee),
          .emit (.taskCompleted id ((s.tasks id).amount - fee) fee)]

/-- Why a task is refunded by the single-worker functions, and what follows the refund. -/
inductive Refunds (x : Ctx) (s : Escrow) (id : Nat) : Op → List Action → Prop where
  | withdrawn (hp : s.paused = false) (hs : x.sender = (s.tasks id).agent)
      (hst : (s.tasks id).status = .funded) (hc : s.submissionCount id = 0) :
      Refunds x s id (.cancelTask id)
        [.closeListing id, .emit (.taskCancelled id (s.tasks id).amount)]
  | ghosted (ext : Nat) (hp : s.paused = false) (hs : x.sender = (s.tasks id).agent)
      (hext : pauseExtension s x.timestamp id = .ok ext)
      (hd : (s.tasks id).deadline + ext ≤ x.timestamp) (hst : (s.tasks id).status = .assigned) :
      Refunds x s id (.claimTimeout id) [.emit (.deadlineExpired id (s.tasks id).amount)]
  | failed (ext : Nat) (hp : s.paused = false) (hs : x.sender = (s.tasks id).agent)
      (hext : pauseExtension s x.timestamp id = .ok ext)
      (hd : (s.tasks id).deadline + ext ≤ x.timestamp) (hst : (s.tasks id).status = .verified)
      (ht : s.failedVerdictAt id + APPEAL_WINDOW + ext ≤ x.timestamp) :
      Refunds x s id (.claimTimeout id) [.emit (.deadlineExpired id (s.tasks id).amount)]
  | stale (ext : Nat) (hp : s.paused = false) (hs : x.sender = (s.tasks id).agent)
      (hext : pauseExtension s x.timestamp id = .ok ext)
      (hd : (s.tasks id).deadline + ext ≤ x.timestamp) (hst : (s.tasks id).status = .disputed)
      (hu : s.unjudgedEscalation id = false) (h0 : (s.tasks id).disputedAt ≠ 0)
      (ht : (s.tasks id).disputedAt + DISPUTE_WINDOW + ext ≤ x.timestamp) :
      Refunds x s id (.claimTimeout id) [.emit (.deadlineExpired id (s.tasks id).amount)]
  | ruled (hs : x.sender = s.admin) (hst : (s.tasks id).status = .disputed) :
      Refunds x s id (.resolveDispute id false) [.recordDispute id,
        .emit (.disputeResolved id false), .emit (.taskCancelled id (s.tasks id).amount)]

/-- Which judge may pick the winner of an open task now, and by which call. -/
inductive Picks (x : Ctx) (s : Escrow) (id : Nat) (winner : Address) (scorecard : Bytes32) :
    Op → Judge → Prop where
  | creator (hp : s.paused = false) (hs : x.sender = (s.tasks id).agent)
      (hph : openPhase s x.timestamp id = .ok .creatorPick) :
      Picks x s id winner scorecard (.selectWinner id winner scorecard) .creator
  | taskVerifier (hp : s.paused = false) (hs : x.sender = s.taskVerifier id)
      (hph : openPhase s x.timestamp id = .ok .verifierPick) :
      Picks x s id winner scorecard (.selectWinnerByVerifier id winner scorecard) .taskVerifier
  | backup (hp : s.paused = false) (hs : x.sender = s.verifier)
      (hph : openPhase s x.timestamp id = .ok .backupPick) :
      Picks x s id winner scorecard (.selectWinnerByBackup id winner scorecard) .backup
  | admin (hs : x.sender = s.admin) (hw : winner ≠ 0)
      (hph : openPhase s x.timestamp id = .ok .adminResolve) :
      Picks x s id winner scorecard (.resolveOpenTask id winner scorecard) .admin

/-- Who may refund an open task now, and by which call. -/
inductive Voids (x : Ctx) (s : Escrow) (id : Nat) (scorecard : Bytes32) : Op → Judge → Prop where
  | creator (phase : OpenPhase) (hp : s.paused = false) (hs : x.sender = (s.tasks id).agent)
      (hc : s.submissionCount id = 0) (hph : openPhase s x.timestamp id = .ok phase)
      (h0 : phase ≠ .submissions) (h5 : phase ≠ .closed) :
      Voids x s id scorecard (.voidOpenTask id scorecard) .creator
  | backup (hp : s.paused = false) (hs : x.sender = s.verifier) (hc : s.submissionCount id ≠ 0)
      (hph : openPhase s x.timestamp id = .ok .backupPick) :
      Voids x s id scorecard (.voidOpenTask id scorecard) .backup
  | admin (hs : x.sender = s.admin) (hph : openPhase s x.timestamp id = .ok .adminResolve) :
      Voids x s id scorecard (.resolveOpenTask id 0 scorecard) .admin

/-- One move of a task's row, with the interactions that follow it. -/
inductive Move (x : Ctx) (s : Escrow) (id : Nat) : Op → Row → List Action → Prop where
  | assign (op : Op) (worker : Address) (ext : Nat) (hp : s.paused = false)
      (hop : op = .assignWorker id worker ∧ x.sender = (s.tasks id).agent ∨
        op = .marketplaceAssign id worker ∧ x.sender = s.verifier)
      (ho : (s.openTasks id).isOpen = false) (hst : (s.tasks id).status = .funded)
      (h0 : worker ≠ 0) (hne : worker ≠ (s.tasks id).agent)
      (hext : pauseExtension s x.timestamp id = .ok ext)
      (hd : x.timestamp < (s.tasks id).deadline + ext) :
      Move x s id op
        { s.row id with task := { s.tasks id with worker, status := .assigned } }
        [.closeListing id, .emit (.workerAssigned id worker)]
  | evidence (hash : Bytes32) (ext : Nat) (hp : s.paused = false)
      (hs : x.sender = (s.tasks id).worker)
      (hst : (s.tasks id).status = .assigned ∨
        (s.tasks id).status = .verified ∧ (s.tasks id).submissionAttempts < MAX_SUBMISSION_ATTEMPTS)
      (h0 : hash ≠ 0) (hext : pauseExtension s x.timestamp id = .ok ext)
      (hd : x.timestamp < (s.tasks id).deadline + ext) :
      Move x s id (.submitEvidence id hash)
        { s.row id with task := { s.tasks id with
            evidenceHash := hash, status := .submitted,
            submissionAttempts := (s.tasks id).submissionAttempts + 1 } }
        [.emit (.evidenceSubmitted id x.sender hash ((s.tasks id).submissionAttempts + 1))]
  | fail (op : Op) (emitted disputed : List Action) (hl : x.locked = false) (hp : s.paused = false)
      (hop : op = .completeVerification id false ∨
        ∃ signature text, op = .completeVerificationWithTEE id false signature text)
      (hs : x.sender = if s.taskVerifier id ≠ 0 then s.taskVerifier id else s.verifier)
      (hw : x.sender ≠ (s.tasks id).worker) (hst : (s.tasks id).status = .submitted)
      (hem : ∀ a ∈ emitted, ∃ log, a = .emit log)
      (hdi : disputed = [] ∨ disputed = [.recordDispute id]) :
      Move x s id op
        { s.row id with
          task := { s.tasks id with status := .verified }, failedVerdictAt := x.timestamp }
        (guarded (emitted ++ disputed))
  | complete (op : Op) (fee score : Nat) (before after : List Action) (hl : x.locked = false)
      (hfee : platformFee s (s.tasks id).amount = .ok fee) (hle : fee ≤ (s.tasks id).amount)
      (h : Completes x s id op score before after) :
      Move x s id op { s.row id with task := { s.tasks id with status := .completed } }
        (guarded (before ++ [.transferPayout id .worker ((s.tasks id).amount - fee),
          .transferPayout id .treasury fee, .rate id score] ++ after))
  | refund (op : Op) (after : List Action) (hl : x.locked = false) (h : Refunds x s id op after) :
      Move x s id op { s.row id with task := { s.tasks id with status := .cancelled } }
        (guarded (.transferPayout id .agent (s.tasks id).amount :: after))
  | escalate (ext : Nat) (hl : x.locked = false) (hp : s.paused = false)
      (hs : x.sender = (s.tasks id).agent)
      (hext : pauseExtension s x.timestamp id = .ok ext)
      (hd : (s.tasks id).deadline + ext ≤ x.timestamp) (hst : (s.tasks id).status = .submitted) :
      Move x s id (.claimTimeout id)
        { s.row id with
          task := { s.tasks id with status := .disputed, disputedAt := x.timestamp }
          unjudged := true }
        (guarded [.emit (.unjudgedWorkEscalated id), .emit (.taskDisputed id x.sender)])
  | dispute (ext : Nat) (hp : s.paused = false)
      (hs : x.sender = (s.tasks id).agent ∨ x.sender = (s.tasks id).worker)
      (hst : (s.tasks id).status = .submitted ∨ (s.tasks id).status = .verified)
      (hext : pauseExtension s x.timestamp id = .ok ext)
      (hd : x.timestamp < (s.tasks id).deadline + ext ∨
        x.sender = (s.tasks id).worker ∧ (s.tasks id).status = .verified ∧
          x.timestamp < s.failedVerdictAt id + APPEAL_WINDOW + ext) :
      Move x s id (.raiseDispute id)
        { s.row id with
          task := { s.tasks id with status := .disputed, disputedAt := x.timestamp } }
        [.emit (.taskDisputed id x.sender)]
  | submit (hash : Bytes32) (ext : Nat) (hp : s.paused = false)
      (ho : (s.openTasks id).isOpen = true) (hst : (s.tasks id).status = .funded)
      (ha : x.sender ≠ (s.tasks id).agent) (hv : x.sender ≠ s.taskVerifier id)
      (hg : x.sender ≠ s.verifier) (h0 : hash ≠ 0)
      (hext : pauseExtension s x.timestamp id = .ok ext)
      (hd : x.timestamp < (s.tasks id).deadline + ext)
      (hnew : s.submissionOf id x.sender = 0) :
      Move x s id (.submitOpen id hash)
        { s.row id with
          submissionOf := Function.update (s.submissionOf id) x.sender hash
          submissionCount := s.submissionCount id + 1 }
        [.emit (.openSubmission id x.sender hash (s.submissionCount id + 1))]
  | pick (op : Op) (winner : Address) (scorecard : Bytes32) (judge : Judge) (fee : Nat)
      (hl : x.locked = false) (h : Picks x s id winner scorecard op judge)
      (hsub : s.submissionOf id winner ≠ 0) (hne : winner ≠ x.sender)
      (hfee : platformFee s (s.tasks id).amount = .ok fee) (hle : fee ≤ (s.tasks id).amount) :
      Move x s id op
        { s.row id with
          task := { s.tasks id with
            worker := winner, evidenceHash := s.submissionOf id winner, status := .completed }
          openTask := { s.openTasks id with closedBy := judge }
          scorecard := scorecard }
        (guarded ([.emit (.winnerSelected id winner judge scorecard)] ++
          [.transferPayout id .worker ((s.tasks id).amount - fee),
            .transferPayout id .treasury fee,
            .rate id (if earnsRating s (s.tasks id) fee
              (decide (judge = .creator ∨ judge = .taskVerifier)) then 5 else 0)] ++
          [.closeListing id, .emit (.taskCompleted id ((s.tasks id).amount - fee) fee)]))
  | void (op : Op) (scorecard : Bytes32) (judge : Judge) (hl : x.locked = false)
      (h : Voids x s id scorecard op judge) :
      Move x s id op
        { s.row id with
          task := { s.tasks id with status := .cancelled }
          openTask := { s.openTasks id with closedBy := judge }
          scorecard := scorecard }
        (guarded [.emit (.openTaskVoided id judge scorecard),
          .transferPayout id .agent (s.tasks id).amount, .closeListing id,
          .emit (.taskCancelled id (s.tasks id).amount)])

/-! ## Appended rows -/

/-- The checks of one task's creation. -/
structure Recordable (x : Ctx) (s : Escrow) (token : Address) (i : TaskInput) : Prop where
  amount : i.amount ≠ 0
  hash : i.taskHash ≠ 0
  allowed : s.allowedTokens token = true
  duration : MIN_DEADLINE ≤ i.duration ∧ i.duration ≤ MAX_DEADLINE
  verifier : i.verifierAgent ≠ 0 → i.verifierAgent ≠ x.sender

def newTask (x : Ctx) (token : Address) (i : TaskInput) : Task :=
  { agent := x.sender, token, amount := i.amount, taskHash := i.taskHash, category := i.category,
    locationZone := i.locationZone, createdAt := x.timestamp, deadline := x.timestamp + i.duration }

/-- The row of a new task. Only the slots that creation writes differ from the old ones. -/
def newRow (x : Ctx) (token : Address) (i : TaskInput) (pausedTotal : Nat) (old : Row) : Row :=
  { old with
    task := newTask x token i
    verifier := if i.verifierAgent ≠ 0 then i.verifierAgent else old.verifier
    pausedAtCreate := pausedTotal }

namespace Escrow

/-- The storage after one task is recorded. -/
def recorded (s : Escrow) (x : Ctx) (token : Address) (i : TaskInput) : Escrow :=
  { s.put s.nextTaskId (newRow x token i s.pausedTotal (s.row s.nextTaskId)) with
    nextTaskId := s.nextTaskId + 1 }

def recordedAll (s : Escrow) (x : Ctx) (token : Address) (tasks : List TaskInput) : Escrow :=
  tasks.foldl (fun s i => s.recorded x token i) s

end Escrow

def verifierEvents (i : TaskInput) (id : Nat) : List Action :=
  if i.verifierAgent ≠ 0 then [.emit (.taskVerifierSet id i.verifierAgent)] else []

def paymentOf (x : Ctx) (token : Address) (amount : Nat) : List Action :=
  if token = 0 then [] else [.pull token x.sender amount]

/-- What `createTasks` announces for its tasks, from the first id on. -/
def announceAll (x : Ctx) (token : Address) : List TaskInput → Nat → List Action
  | [], _ => []
  | i :: is, id => verifierEvents i id ++
      announceTask x token i id (x.timestamp + i.duration) ++ announceAll x token is (id + 1)

/-- The value sent with a creation is the amount of a native task and nothing otherwise. -/
def ValueOk (x : Ctx) (token : Address) (amount : Nat) : Prop :=
  if token = 0 then x.value = amount else x.value = 0

/-! ## All effects -/

/-- What a successful call did to storage and what it goes on to do. -/
inductive Effect (x : Ctx) (s : Escrow) : Op → Escrow → List Action → Prop where
  | move (id : Nat) (op : Op) (r : Row) (todo : List Action) (hid : op.taskId = some id)
      (h : Move x s id op r todo) : Effect x s op (s.put id r) todo
  | create (op : Op) (token : Address) (i : TaskInput) (hl : x.locked = false)
      (hp : s.paused = false)
      (hop : op = .createTask i.taskHash token i.amount i.category i.locationZone i.duration ∧
          i.verifierAgent = 0 ∨
        op = .createTaskWithVerifier i.taskHash token i.amount i.category i.locationZone i.duration
          i.verifierAgent)
      (hrec : Recordable x s token i) (hval : ValueOk x token i.amount) :
      Effect x s op (s.recorded x token i)
        (guarded (verifierEvents i s.nextTaskId ++ paymentOf x token i.amount ++
          announceTask x token i s.nextTaskId (x.timestamp + i.duration)))
  | batch (token : Address) (tasks : List TaskInput) (hl : x.locked = false)
      (hp : s.paused = false) (h0 : tasks ≠ []) (hmax : tasks.length ≤ MAX_BATCH)
      (htok : token ≠ 0) (hval : x.value = 0) (hrec : ∀ i ∈ tasks, Recordable x s token i)
      (hsum : (tasks.map TaskInput.amount).sum < word) :
      Effect x s (.createTasks token tasks) (s.recordedAll x token tasks)
        (guarded (announceAll x token tasks s.nextTaskId ++
          [.pull token x.sender (tasks.map TaskInput.amount).sum]))
  | createOpen (token : Address) (i : TaskInput) (mode : PickMode) (creatorWindow : Nat)
      (hl : x.locked = false) (hp : s.paused = false) (hv : i.verifierAgent ≠ 0)
      (hw : if mode = .creatorReview then
          MIN_CREATOR_WINDOW ≤ creatorWindow ∧ creatorWindow ≤ MAX_CREATOR_WINDOW
        else creatorWindow = 0)
      (hrec : Recordable x s token i) (hval : ValueOk x token i.amount) :
      Effect x s (.createTaskOpen i.taskHash token i.amount i.category i.locationZone i.duration
          i.verifierAgent mode creatorWindow)
        { s.put s.nextTaskId { newRow x token i s.pausedTotal (s.row s.nextTaskId) with
            openTask := ⟨true, mode, creatorWindow, .none⟩ } with
          nextTaskId := s.nextTaskId + 1 }
        (guarded (verifierEvents i s.nextTaskId ++
          [.emit (.openTaskCreated s.nextTaskId mode creatorWindow)] ++
          paymentOf x token i.amount ++
          announceTask x token i s.nextTaskId (x.timestamp + i.duration)))
  | configure (op : Op) (admin pendingAdmin treasury verifier reputation registry teeSigner : Address)
      (feeBps : Nat) (allowed : Address → Bool) (minRated : Address → Nat) (log : Log)
      (hop : op.taskId = none) (hin : op.inputs = [])
      (hs : x.sender = s.admin ∨ op = .acceptAdmin ∧ x.sender = s.pendingAdmin)
      (hadmin : admin = s.admin ∨ admin = x.sender)
      (htreasury : treasury = s.treasury ∨ treasury ≠ 0)
      (hverifier : verifier = s.verifier ∨ verifier ≠ 0)
      (hfee : feeBps = s.feeBps ∨ feeBps ≤ MAX_FEE_BPS) :
      Effect x s op { s with
          admin, pendingAdmin, treasury, verifier, feeBps, teeSigner
          reputationContract := reputation, taskRegistry := registry
          allowedTokens := allowed, minRatedAmount := minRated }
        [.emit log]
  | pause (hs : x.sender = s.admin) (hp : s.paused = false) :
      Effect x s .pause { s with paused := true, pausedSince := x.timestamp }
        [.emit (.paused x.sender)]
  | unpause (ran : Nat) (hs : x.sender = s.admin) (hp : s.paused = true)
      (hran : if s.pausedSince ≠ 0 then s.pausedSince ≤ x.timestamp ∧
        ran = x.timestamp - s.pausedSince else ran = 0) :
      Effect x s .unpause
        { s with paused := false, pausedTotal := s.pausedTotal + ran, pausedSince := 0 }
        [.emit (.unpaused x.sender)]
  | recordPauseStart (pausedAt : Nat) (hs : x.sender = s.admin) (hp : s.paused = true)
      (h0 : s.pausedSince = 0) (hat : pausedAt ≠ 0) (hle : pausedAt ≤ x.timestamp) :
      Effect x s (.recordPauseStart pausedAt) { s with pausedSince := pausedAt }
        [.emit (.pauseStartRecorded pausedAt)]

end BlindEscrow
