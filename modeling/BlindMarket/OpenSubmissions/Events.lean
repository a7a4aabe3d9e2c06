import BlindMarket.OpenSubmissions.Store

/-!
# The escrow's events

`openSubmissionEvents.ts`: what the indexer does with each open-submission
event, which it delivers at least once. The texts of the alerts are left out.
-/
namespace OpenSubmissions

open Async Prog
open BlindEscrow (Address Bytes32)

variable (cfg : Config)

/-- The escrow's Judge enum. -/
def JUDGES : BlindEscrow.Judge → OpenJudge
  | .creator => .creator
  | .taskVerifier => .taskVerifier
  | .backup => .backup
  | .none | .admin => .admin

def pickMode : BlindEscrow.PickMode → PickMode
  | .creatorReview => .creator
  | .agentManaged => .agent

/-- A task met for the first time is scheduled, for the sweep and for the judge. -/
def scheduleMet (ref : TaskRef) (deadline : Nat) : Backend Unit := do
  match ← redis (.getOutcome ref) with
  | some _ => return ()
  | none =>
    let closed ← redis (.isClosedNotified ref)
    if closed then scheduleJudgeIfAbsent ref deadline
    else do
      redis (.zaddDue ref deadline)
      scheduleJudgeIfAbsent ref deadline

/-- The task's record, read from the chain and saved the first time this backend meets the task.
None for a task that does not take open submissions. -/
def ensureRecord (chain : TaskChain) (taskId : Nat) :
    Backend (Option (TaskRef × OpenTaskRecord)) := do
  let ref := cfg.taskRef chain taskId
  match ← redis (.getRecord ref) with
  | some known => return some (ref, known)
  | none =>
    let task ← escrowFor chain (.getTask taskId)
    let openTask ← escrowFor chain (.getOpenTask taskId)
    if openTask.isOpen = false then return none
    else do
      scheduleMet ref task.deadline
      let record ← saveRecord cfg
        { chain
          taskId
          taskHash := task.taskHash
          poster := task.agent
          deadline := task.deadline
          mode := pickMode openTask.mode
          creatorWindow := openTask.creatorWindow }
      return some (ref, record)

/-- An on-chain address's executor. -/
def executorFor (onChain : Address) : Backend Address := do
  return (← call (Cmd.loadAgentBySmartAccount onChain)).getD onChain

def handleOpenTaskCreated (chain : TaskChain) (taskId : Nat) : Backend Unit := do
  let _ ← ensureRecord cfg chain taskId
  return ()

/-- The running alerts to the poster, until the deadline summary. -/
def alertPoster (ref : TaskRef) (record : OpenTaskRecord) (n nowSec : Nat) : Backend Unit := do
  if record.deadline ≤ nowSec then return ()
  else do
    let closed ← redis (.isClosedNotified ref)
    if closed then return ()
    else do
      let slot ← redis (.takeCountNoticeSlot ref)
      if n = 1 ∨ slot then call (Cmd.notify [record.poster]) else return ()

def handleOpenSubmission (chain : TaskChain) (taskId : Nat) (submitter : Address)
    (evidenceHash : Bytes32) (count : Nat) : Backend Unit := do
  let nowSec ← call Cmd.now
  match ← ensureRecord cfg chain taskId with
  | none => return ()
  | some (ref, record) =>
    let isNew ← redis (.hsetnxSub ref submitter ⟨evidenceHash, count, nowSec⟩)
    -- Before the alert: an alert failing must not lose the result.
    let _ ← keepResult ref submitter evidenceHash
    if isNew then alertPoster ref record count nowSec else return ()

/-- How many submitted: the chain's count, or this backend's if the chain cannot be read. -/
def submissionTotal (ref : TaskRef) (record : OpenTaskRecord) : Backend Nat := do
  match ← attempt (escrowFor record.chain (.submissionCount record.taskId)) with
  | .ok count => return count
  | .error _ => redis (.hlenSubs ref)

/-- One alert to every recorded submitter but one, a page at a time. -/
def tellSubmitters (pages : Nat) (ref : TaskRef) (but : Option Address) : Backend Unit :=
  forEachSubmitter ref (fun addresses =>
    call (Cmd.notify (addresses.filter fun a => some a ≠ but))) pages 0

def OpenJudge.role : OpenJudge → Option ScorecardRole
  | .creator => some .creator
  | .taskVerifier => some .taskVerifier
  | .backup => some .backup
  | .admin => none

/-- The judge's scorecard, kept when the escrow anchored its hash. -/
def keepJudgeScorecard (ref : TaskRef) (judge : OpenJudge) (scorecardHash : Bytes32) :
    Backend Unit :=
  if scorecardHash = 0 then return ()
  else
    match judge.role with
    | none => return ()
    | some role => do
      let _ ← keepScorecard cfg ref role scorecardHash
      return ()

/-- What a settlement leaves: its outcome, its scorecard, and no more looks at the task. -/
def settleRecord (ref : TaskRef) (kind : OutcomeKind) (judge : OpenJudge) (scorecardHash : Bytes32) :
    Backend Unit := do
  let _ ← redis (.setOutcomeNX ref ⟨kind, judge, scorecardHash⟩)
  keepJudgeScorecard cfg ref judge scorecardHash
  redis (.zremDue ref)
  unscheduleJudge ref

/-- The winner's earnings, when the record and the escrow name the same task. -/
def creditWinner (chain : TaskChain) (taskId : Nat) (record : OpenTaskRecord) (winner : Address) :
    Backend Unit := do
  let task ← escrowFor chain (.getTask taskId)
  if task.taskHash = record.taskHash then do
    let worker ← executorFor winner
    call (Cmd.recordWorkerPayout record.taskHash worker record.taskId task.amount chain task.token)
  else return ()

/-- The listing of a settled task is closed, and its winner credited. -/
def closeListing (record : OpenTaskRecord) (kind : OutcomeKind) (credit : Backend Unit) :
    Backend Unit := do
  match ← call (Cmd.listingOf record) with
  | none => return ()
  | some _ =>
    call (Cmd.closeOpenSubmissionTask record.taskHash kind)
    credit

def handleWinnerSelected (pages : Nat) (chain : TaskChain) (taskId : Nat) (winner : Address)
    (judgeIndex : BlindEscrow.Judge) (scorecardHash : Bytes32) : Backend Unit := do
  match ← ensureRecord cfg chain taskId with
  | none => return ()
  | some (ref, record) =>
    settleRecord cfg ref (.winner winner) (JUDGES judgeIndex) scorecardHash
    closeListing record (.winner winner) (creditWinner chain taskId record winner)
    let _ ← submissionTotal ref record
    call (Cmd.notify [record.poster])
    call (Cmd.notify [winner])
    tellSubmitters pages ref (some winner)

def handleOpenTaskVoided (pages : Nat) (chain : TaskChain) (taskId : Nat)
    (judgeIndex : BlindEscrow.Judge) (scorecardHash : Bytes32) : Backend Unit := do
  match ← ensureRecord cfg chain taskId with
  | none => return ()
  | some (ref, record) =>
    settleRecord cfg ref .void (JUDGES judgeIndex) scorecardHash
    closeListing record .void (return ())
    if JUDGES judgeIndex = .creator then return ()
    else do
      call (Cmd.notify [record.poster])
      tellSubmitters pages ref none

/-- Route one decoded escrow log to its handler. Other events are ignored. -/
def handleOpenEvent (pages : Nat) (chain : TaskChain) : BlindEscrow.Log → Backend Unit
  | .openTaskCreated taskId _ _ => handleOpenTaskCreated cfg chain taskId
  | .openSubmission taskId submitter evidenceHash count =>
    handleOpenSubmission cfg chain taskId submitter evidenceHash count
  | .winnerSelected taskId winner judge scorecardHash =>
    handleWinnerSelected cfg pages chain taskId winner judge scorecardHash
  | .openTaskVoided taskId judge scorecardHash =>
    handleOpenTaskVoided cfg pages chain taskId judge scorecardHash
  | _ => return ()

end OpenSubmissions
