import BlindMarket.OpenSubmissions.Types

/-!
# The store

`openSubmissionStore.ts`: each function as the Redis commands it makes, in its
order. A scan goes on until Redis answers with cursor 0, for as many pages as
its program lives to see.
-/
namespace OpenSubmissions

open Async Prog
open BlindEscrow (Address Bytes32)

/-- How long a sent result waits for its on-chain submission. -/
def PENDING_RESULT_TTL_SEC : Nat := 3600

/-- Results one wallet may have held at once, across tasks. -/
def MAX_HELD : Nat := 10

/-- How long kept results last, from the latest one kept. -/
def RESULTS_TTL_SEC : Nat := 120 * 86400

/-- The COUNT of a scan. -/
def SCAN_COUNT : Nat := 500

variable (cfg : Config)

/-! ## The task -/

/-- Save a task's record unless one exists. Returns the record now stored. -/
def saveRecord (record : OpenTaskRecord) : Backend OpenTaskRecord := do
  let stored := { record with scope := some (cfg.chainScope record.chain) }
  let ref := cfg.taskRef record.chain record.taskId
  if ← redis (.setRecordNX ref stored) then return stored
  else return (← redis (.getRecord ref)).getD stored

def scheduleJudge (ref : TaskRef) (atSec : Nat) : Backend Unit :=
  redis (.zaddJudge ref atSec false)

/-- Schedule the judge only if the task is not scheduled yet. -/
def scheduleJudgeIfAbsent (ref : TaskRef) (atSec : Nat) : Backend Unit :=
  redis (.zaddJudge ref atSec true)

def unscheduleJudge (ref : TaskRef) : Backend Unit := redis (.zremJudge ref)

/-- Every saved task record's ref, a page at a time. -/
def forEachRecordRef {α : Type} (visit : List TaskRef → α → Backend α) :
    (pages cursor : Nat) → α → Backend α
  | 0, _, _ => throw .rejected
  | pages + 1, cursor, acc => do
    let page ← redis (.scanRecords cursor)
    let acc ← visit page.items acc
    if page.cursor = 0 then return acc
    else forEachRecordRef visit pages page.cursor acc

/-! ## Submissions -/

/-- An empty page is not visited. -/
def visitPage (visit : List Address → Backend Unit) (addresses : List Address) : Backend Unit :=
  if addresses = [] then return () else visit addresses

/-- Every recorded submitter, a page at a time. -/
def forEachSubmitter (ref : TaskRef) (visit : List Address → Backend Unit) :
    (pages cursor : Nat) → Backend Unit
  | 0, _ => throw .rejected
  | pages + 1, cursor => do
    let page ← redis (.hscanSubs ref cursor SCAN_COUNT)
    visitPage visit (page.items.map (·.1))
    if page.cursor = 0 then return ()
    else forEachSubmitter ref visit pages page.cursor

/-- One page of the task's recorded submissions. -/
def pageSubmissions (ref : TaskRef) (cursor count : Nat) :
    Backend (Page (Address × SubmissionRecord)) := redis (.hscanSubs ref cursor count)

/-! ## Results -/

/-- Hold a result until its on-chain submission shows up, in place of an earlier one. -/
def savePendingResult (ref : TaskRef) (submitter : Address) (result : OpenResult) : Backend Unit :=
  redis (.setPending ref submitter result)

/-- Does a submitter who does not hold a result on this task hold as many as they may? -/
def holdsEnough (submitter : Address) (holding : Bool) : Backend Bool :=
  if holding then return false
  else do
    let held ← redis (.zcardHeld submitter)
    return decide (MAX_HELD ≤ held)

/-- Take one of the submitter's slots for a held result. False when they already hold as many as
they may elsewhere. -/
def takeHeldSlot (submitter : Address) (ref : TaskRef) (nowSec : Nat) : Backend Bool := do
  redis (.zremrangeHeld submitter nowSec)
  let held ← redis (.zscoreHeld submitter ref)
  let full ← holdsEnough submitter held.isSome
  if full then return false
  else do
    redis (.zaddHeld submitter ref (nowSec + PENDING_RESULT_TTL_SEC))
    redis (.expireHeld submitter)
    return true

/-- Keep a result for good. Never replaces one. True when kept now. -/
def keep (ref : TaskRef) (submitter : Address) (result : OpenResult) : Backend Bool := do
  let kept ← redis (.hsetnxResult ref submitter result)
  redis (.expireResults ref)
  redis (.zremHeld submitter ref)
  return kept

/-- Keep a submitter's held result if its evidence hash is the one on-chain. -/
def keepResult (ref : TaskRef) (submitter : Address) (evidenceHash : Bytes32) : Backend Bool := do
  match ← redis (.getPending ref submitter) with
  | none => return false
  | some pending =>
    if pending.evidenceHash ≠ evidenceHash then return false
    let kept ← keep ref submitter pending
    redis (.delPending ref submitter)
    return kept

/-- Keep a result whose evidence hash the caller has just read from the escrow. -/
def keepCommittedResult (ref : TaskRef) (submitter : Address) (result : OpenResult) :
    Backend Bool := keep ref submitter result

/-- Kept results for these submitters, in order. -/
def getResults (ref : TaskRef) (submitters : List Address) : Backend (List (Option OpenResult)) :=
  if submitters = [] then return [] else redis (.hmgetResults ref submitters)

/-! ## Scorecards -/

/-- Hold the scorecard a judge sent with a pick until the pick lands. -/
def savePendingScorecard (ref : TaskRef) (role : ScorecardRole) (scorecard : Scorecard) :
    Backend Bytes32 := do
  let scorecardHash := cfg.keccak256OfScorecard scorecard
  redis (.setPendingScorecard ref role ⟨scorecardHash, scorecard⟩)
  return scorecardHash

/-- Keep the judge's held scorecard if it is the one the escrow anchored. -/
def keepScorecard (ref : TaskRef) (role : ScorecardRole) (scorecardHash : Bytes32) :
    Backend Bool := do
  match ← redis (.getPendingScorecard ref role) with
  | none => return false
  | some pending =>
    if cfg.keccak256OfScorecard pending.scorecard ≠ scorecardHash then return false
    let kept ← redis (.setScorecardNX ref ⟨scorecardHash, pending.scorecard⟩)
    redis (.delPendingScorecard ref role)
    return kept

end OpenSubmissions
