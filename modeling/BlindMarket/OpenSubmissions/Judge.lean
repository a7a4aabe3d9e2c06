import BlindMarket.OpenSubmissions.Store

/-!
# The platform judge

`openSubmissionJudge.ts`: how submissions are judged, what one look at a due
task does, the tick over all that are due, and the one-time pass over the tasks
saved before it ran. A look at a task is told in the stretches between its
early ends.
-/
namespace OpenSubmissions

open Async Prog
open BlindEscrow (Address Bytes32 OpenPhase)

/-- Tasks looked at per network per tick. -/
def JUDGE_LIMIT : Nat := 20
def RECHECK_SEC : Nat := 300
def MISSING_RECHECK_SEC : Nat := 3600
def SLACK_SEC : Nat := 30
def LAG_GRACE_SEC : Nat := 3600
/-- Submissions with a result judged per task, earliest first. -/
def MAX_JUDGED : Nat := 2000
/-- Submissions judged between two yields to the event loop. -/
def JUDGE_BATCH : Nat := 25
def MAX_SCORECARD_ENTRIES : Nat := 100

/-- `OPEN_PICK_WINDOWS`. -/
def verifierSec : Nat := 48 * 3600
def backupSec : Nat := 48 * 3600

variable (cfg : Config)

/-! ## Judging -/

/-- One submission judged: is it an attempt, is it past the floor, does it pass the task's checks.
A check that throws ranks it last. -/
def judgeSubmission (criteria : VerificationCriteria) (sub : Submission) : JudgedEntry :=
  let resultData := sub.result.content.resultData
  let unchecked (attempt realWork : Bool) (message : Text) : JudgedEntry :=
    { submitter := sub.submitter
      ordinal := sub.ordinal
      attempt
      payable := realWork
      pastFloor := false
      passed := false
      score := 0
      reason := some ("Could not be checked: " ++ message) }
  match cfg.attemptFailure resultData with
  | .error message => unchecked false false message
  | .ok (some notAttempt) =>
    { submitter := sub.submitter
      ordinal := sub.ordinal
      attempt := false
      payable := false
      pastFloor := false
      passed := false
      score := 0
      reason := some notAttempt }
  | .ok none =>
    -- The floor with no task checks: what the poster's criteria cannot lower or raise.
    match cfg.deliverableFloor resultData NO_CRITERIA with
    | .error message => unchecked true false message
    | .ok workFloor =>
      let realWork := workFloor.isNone
      match cfg.deliverableFloor resultData criteria, cfg.autoVerify resultData criteria with
      | .error message, _ => unchecked true realWork message
      | .ok _, .error message => unchecked true realWork message
      | .ok floor, .ok v =>
        let payable := realWork || v.passed
        { submitter := sub.submitter
          ordinal := sub.ordinal
          attempt := true
          payable
          pastFloor := floor.isNone
          passed := v.passed
          score := v.score
          reason :=
            if payable then
              floor <|>
                if v.passed then none else some (v.reasons.head?.getD "Failed the task's checks")
            else workFloor }

def judgeSubmissions (subs : List Submission) (criteria : VerificationCriteria) :
    List JudgedEntry := subs.map (judgeSubmission cfg criteria)

/-- `x || y` of numbers. -/
def orElse (x y : Int) : Int := if x = 0 then y else x

/-- Best first: passed the checks, then past the floor, then score, then the earliest. -/
def better (a b : JudgedEntry) : Int :=
  orElse (b.passed.toNat - a.passed.toNat) <|
    orElse (b.pastFloor.toNat - a.pastFloor.toNat) <|
      orElse (b.score - a.score) (a.ordinal - b.ordinal)

/-- One round of the loop: the best so far, or an entry that is payable and better. -/
def pickRound (best : Option JudgedEntry) (e : JudgedEntry) : Option JudgedEntry :=
  if e.payable && best.all fun b => better e b < 0 then some e else best

/-- The submission to pay, or none when none is payable. -/
def pickWinner (judged : List JudgedEntry) : Option JudgedEntry := judged.foldl pickRound none

/-- The order of a scorecard's entries. -/
def listed (a b : JudgedEntry) : Int :=
  orElse (b.payable.toNat - a.payable.toNat) <|
    orElse (b.attempt.toNat - a.attempt.toNat) (better a b)

def scorecardOf (judged : List JudgedEntry) (winner : Option JudgedEntry) (role : ScorecardRole)
    (counts : Counts) : Scorecard where
  role
  decision :=
    match winner with
    | some winner => .winner winner.submitter winner.score
    | none => .void
  counts
  judged := judged.length
  attempts := (judged.filter (·.attempt)).length
  payable := (judged.filter (·.payable)).length
  pastFloor := (judged.filter (·.pastFloor)).length
  passed := (judged.filter (·.passed)).length
  entries := (judged.insertionSort fun a b => listed a b ≤ 0).take MAX_SCORECARD_ENTRIES

/-- Judging runs on the API process: requests are let through between batches. -/
def judgeBatches (criteria : VerificationCriteria) :
    (batches : Nat) → List Submission → Backend (List JudgedEntry)
  | 0, _ => return []
  | batches + 1, subs => do
    let judged := judgeSubmissions cfg (subs.take JUDGE_BATCH) criteria
    let rest := subs.drop JUDGE_BATCH
    if rest = [] then return judged
    else do
      call Cmd.breath
      return judged ++ (← judgeBatches criteria batches rest)

/-! ## One task -/

/-- The task's recorded submissions as the pages bring them. -/
def scanSubmissions (ref : TaskRef) : (pages cursor : Nat) → Backend (List (Address × Nat))
  | 0, _ => throw .rejected
  | pages + 1, cursor => do
    let page ← pageSubmissions ref cursor SCAN_COUNT
    let subs := page.items.map fun s => (s.1, s.2.ordinal)
    if page.cursor = 0 then return subs
    else return subs ++ (← scanSubmissions ref pages page.cursor)

/-- The task's recorded submissions, earliest first. -/
def submissionsOf (pages : Nat) (ref : TaskRef) : Backend (List (Address × Nat)) := do
  return (← scanSubmissions ref pages 0).insertionSort fun a b => a.2 ≤ b.2

/-- The submissions that have a result; ones without do not crowd them out. -/
def withResult (subs : List (Address × Nat)) (results : List (Option OpenResult)) :
    List Submission :=
  (subs.zip results).filterMap fun (sub, result) =>
    result.map fun result => ⟨sub.1, sub.2, result⟩

inductive JudgeAction where
  | picked | voided
  deriving DecidableEq, Repr

/-- What a look at a task works with, once it is the platform's turn. -/
structure Look where
  ref : TaskRef
  record : OpenTaskRecord
  nowSec : Nat
  asBackup : Bool
  backupStart : Nat
  deriving DecidableEq, Repr

def Look.windowEnd (look : Look) : Nat :=
  if look.asBackup then look.backupStart + backupSec else look.backupStart

def Look.role (look : Look) : ScorecardRole := if look.asBackup then .backup else .taskVerifier

def judgeCall (asBackup : Bool) (taskId : Nat) (winner : Option JudgedEntry)
    (scorecardHash : Bytes32) : JudgeCall :=
  match winner with
  | some winner =>
    if asBackup then .selectWinnerByBackup taskId winner.submitter scorecardHash
    else .selectWinnerByVerifier taskId winner.submitter scorecardHash
  | none => .voidOpenTask taskId scorecardHash

/-- The pick or the refund, with its scorecard held before. -/
def settle (look : Look) (count recorded found : Nat) (basis : Basis) (judged : List JudgedEntry)
    (winner : Option JudgedEntry) : Backend (Option JudgeAction) := do
  let scorecardHash ← savePendingScorecard cfg look.ref look.role
    (scorecardOf judged winner look.role ⟨count, recorded, found⟩)
  let tx ← call (Cmd.send look.record.chain
    (judgeCall look.asBackup look.record.taskId winner scorecardHash) basis)
  let ok ← call (Cmd.wait tx)
  if ok then do
    unscheduleJudge look.ref
    return some (if winner.isSome then .picked else .voided)
  else throw .judgeTxReverted

/-- Judge what is recorded, and pay, refund, or look again. -/
def judgeRecorded (pages : Nat) (look : Look) (listing : A2ATaskMeta) (count recorded : Nat) :
    Backend (Option JudgeAction) := do
  let criteria := listing.verificationCriteria.getD NO_CRITERIA
  let subs ← submissionsOf pages look.ref
  let results ← getResults look.ref (subs.map (·.1))
  let found := withResult subs results
  let toJudge := found.take MAX_JUDGED
  let judged ← judgeBatches cfg criteria toJudge.length toJudge
  let winner := pickWinner judged
  if winner.isSome then
    settle cfg look count recorded found.length ⟨look.asBackup, criteria, toJudge⟩ judged winner
  else if look.asBackup = false then do
    -- Nothing to pay as the task verifier: the turn passes to the backup judge.
    scheduleJudge look.ref (look.backupStart + SLACK_SEC)
    return none
  else if toJudge.length < count then do
    -- A refund needs every submission seen, with its result, and judged.
    if look.nowSec + MISSING_RECHECK_SEC < look.windowEnd then do
      scheduleJudge look.ref (look.nowSec + MISSING_RECHECK_SEC)
      return none
    else do
      call (Cmd.leftForAdmin look.ref)
      unscheduleJudge look.ref
      return none
  else settle cfg look count recorded found.length ⟨look.asBackup, criteria, toJudge⟩ judged winner

/-- It is the platform's turn: is there anything here to judge, and has the indexer seen it all? -/
def judgeListed (pages : Nat) (look : Look) : Backend (Option JudgeAction) := do
  let count ← escrowFor look.record.chain (.submissionCount look.record.taskId)
  if count = 0 then do
    -- Only the poster can close a task nobody submitted to.
    unscheduleJudge look.ref
    return none
  else do
    match ← call (Cmd.listingOf look.record) with
    | none => do
      unscheduleJudge look.ref
      return none
    | some listing => do
      let recorded ← redis (.hlenSubs look.ref)
      if recorded < count ∧ look.nowSec + LAG_GRACE_SEC < look.windowEnd then do
        scheduleJudge look.ref (look.nowSec + RECHECK_SEC)
        return none
      else judgeRecorded cfg pages look listing count recorded

/-- Wait for the platform's turn, or take it. -/
def judgeTurn (pages : Nat) (ref : TaskRef) (record : OpenTaskRecord) (signer : Address)
    (phase : OpenPhase) (nowSec : Nat) : Backend (Option JudgeAction) := do
  let deadline ← escrowFor record.chain (.effectiveDeadline record.taskId)
  let verifierStart := deadline + record.creatorWindow
  let backupStart := verifierStart + verifierSec
  let taskVerifier ← escrowFor record.chain (.taskVerifier record.taskId)
  if phase = .backupPick then do
    let verifier ← escrowFor record.chain .verifier
    if verifier = signer then judgeListed cfg pages ⟨ref, record, nowSec, true, backupStart⟩
    else do
      scheduleJudge ref (nowSec + MISSING_RECHECK_SEC)
      return none
  else if phase = .verifierPick ∧ taskVerifier = signer then
    judgeListed cfg pages ⟨ref, record, nowSec, false, backupStart⟩
  else do
    let start := if taskVerifier = signer then verifierStart else backupStart
    scheduleJudge ref (max start nowSec + SLACK_SEC)
    return none

/-- The task is one of this network's: does the escrow still wait for a judge, and is it this
task? -/
def judgeRecord (pages : Nat) (ref : TaskRef) (record : OpenTaskRecord) (nowSec : Nat) :
    Backend (Option JudgeAction) := do
  match cfg.signer record.chain with
  | none => do
    scheduleJudge ref (nowSec + RECHECK_SEC)
    return none
  | some signer => do
    let phase ← escrowFor record.chain (.openPhase record.taskId)
    if phase = .closed ∨ phase = .adminResolve then do
      unscheduleJudge ref
      return none
    else do
      let task ← escrowFor record.chain (.getTask record.taskId)
      if task.taskHash ≠ record.taskHash then do
        unscheduleJudge ref
        return none
      else judgeTurn cfg pages ref record signer phase nowSec

/-- Look at one due task. -/
def judgeOne (pages : Nat) (ref : TaskRef) (nowSec : Nat) : Backend (Option JudgeAction) := do
  match ← redis (.getRecord ref) with
  | none => do
    -- The indexer schedules a task just before saving its record.
    scheduleJudge ref (nowSec + RECHECK_SEC)
    return none
  | some record => do
    let outcome ← redis (.getOutcome ref)
    if outcome.isSome ∨ cfg.onThisNetwork record = false then do
      unscheduleJudge ref
      return none
    else judgeRecord cfg pages ref record nowSec

/-! ## The tick -/

/-- The due tasks of one network, one after the other; one that fails is looked at again. -/
def judgeDueTasks (pages nowSec : Nat) : List TaskRef → (settled : Nat) → Backend Nat
  | [], settled => return settled
  | ref :: refs, settled => do
    match ← attempt (judgeOne cfg pages ref nowSec) with
    | .ok action => judgeDueTasks pages nowSec refs (settled + action.toList.length)
    | .error _ => do
      let _ ← attempt (scheduleJudge ref (nowSec + RECHECK_SEC))
      judgeDueTasks pages nowSec refs settled

def judgeScopes (pages nowSec : Nat) : List Scope → (settled : Nat) → Backend Nat
  | [], settled => return settled
  | scope :: scopes, settled => do
    match ← attempt (redis (.zrangeJudge scope nowSec JUDGE_LIMIT)) with
    | .ok due => do
      let settled ← judgeDueTasks cfg pages nowSec due settled
      judgeScopes pages nowSec scopes settled
    | .error _ => return settled

/-- This backend's networks. -/
def ownScopes : List Scope := [.base, .arc].map cfg.chainScope

/-- One pass over the due tasks. Returns how many tasks the platform settled. -/
def judgeOpenSubmissions (pages : Nat) : Backend Nat := do
  let nowSec ← call Cmd.now
  if cfg.openSubmissionEnabled = false then return 0
  else do
    let allowed ← call Cmd.backgroundWritesAllowed
    if allowed = false then return 0
    else do
      let inFlight ← call Cmd.takeFlight
      if inFlight then return 0
      else do
        let settled ← judgeScopes cfg pages nowSec (ownScopes cfg) 0
        call Cmd.leaveFlight
        return settled

/-! ## The tasks from before -/

def pendingScopes : List Scope → Backend (List Scope)
  | [] => return []
  | scope :: scopes => do
    let done ← redis (.isJudgeBackfilled scope)
    let pending ← pendingScopes scopes
    return if done then pending else scope :: pending

/-- Schedule one saved task, unless it is not one of these networks' or has an outcome. -/
def scheduleExisting (pending : List Scope) (ref : TaskRef) : Backend Nat := do
  if ref.scope ∉ pending then return 0
  else
    match ← redis (.getRecord ref) with
    | none => return 0
    | some record =>
      if cfg.onThisNetwork record = false then return 0
      else do
        let outcome ← redis (.getOutcome ref)
        if outcome.isSome then return 0
        else do
          scheduleJudgeIfAbsent ref record.deadline
          return 1

def scheduleAll (pending : List Scope) : List TaskRef → (scheduled : Nat) → Backend Nat
  | [], scheduled => return scheduled
  | ref :: refs, scheduled => do
    let n ← scheduleExisting cfg pending ref
    scheduleAll pending refs (scheduled + n)

def markAll : List Scope → Backend Unit
  | [] => return ()
  | scope :: scopes => do
    redis (.markJudgeBackfilled scope)
    markAll scopes

/-- Schedule each network's saved open tasks that have no outcome, once per network. Returns how
many it scheduled. -/
def scheduleExistingOpenTasks (pages : Nat) : Backend Nat := do
  let pending ← pendingScopes (ownScopes cfg)
  if pending = [] then return 0
  else do
    let scheduled ← forEachRecordRef (scheduleAll cfg pending) pages 0 0
    -- Marked once the scan is through: a scan cut short runs again on the next start.
    markAll pending
    return scheduled

end OpenSubmissions
