import BlindMarket.OpenSubmissions.Store

/-!
# The routes

POST submit-open and GET submissions of `openSubmission.ts`, past their rate
limits and the parsing of their bodies. What an account owns, and whether it is
registered, is up to the rest of the backend.
-/
namespace OpenSubmissions

open Async Prog
open BlindEscrow (Address Bytes32)

/-- Largest result kept per submission. -/
def MAX_RESULT_BYTES : Nat := 64 * 1024

/-- A signed-in caller: the wallet of the session, and the others of the account. -/
structure User where
  address : Address
  addresses : List Address
  deriving DecidableEq, Repr

/-- The caller's wallets. -/
def User.wallets (user : User) : List Address := user.address :: user.addresses

variable (cfg : Config)

def OpenTaskInfo.ref (task : OpenTaskInfo) : TaskRef := cfg.taskRef task.chain task.taskId

/-! ## Submitting -/

/-- Who is submitting, as submit-open's checks found them. -/
structure Submitter where
  address : Address
  mine : List Address
  posters : List Address
  alreadySubmitted : Bytes32
  paused : Bool
  deriving DecidableEq, Repr

/-- What submit-open asks of the submitter, before any result. -/
def submitterOf (user : User) (task : OpenTaskInfo) : Backend Submitter := do
  let address := user.address
  let mine := user.wallets
  let collecting ← call (Cmd.isCollecting task.taskHash)
  if collecting = false then throw .submissionsClosed
  else if task.listing.verifierAddress.any (· ∈ mine) then throw .isVerifier
  else do
    let registered ← call (Cmd.isRegistered address)
    if registered = false then throw .notRegistered
    else do
      let onChain ← escrowFor task.chain (.getTask task.taskId)
      let alreadySubmitted ← escrowFor task.chain (.submissionOf task.taskId address)
      let paused ← escrowFor task.chain .paused
      let posters := onChain.agent :: task.listing.posterAddress.toList
      if posters.any (· ∈ mine) then throw .selfSubmit
      else return ⟨address, mine, posters, alreadySubmitted, paused⟩

/-- Is a wallet of the poster's owner among these? A listing without a poster has none. -/
def postedBySameOwner (task : OpenTaskInfo) (mine : List Address) : Backend Bool :=
  match task.listing.posterAddress with
  | none => return false
  | some poster => call (Cmd.anySameOwner poster mine)

/-- Is the account one its verifier must not judge? -/
def judgedBySameOwner (task : OpenTaskInfo) (mine : List Address) : Backend Bool :=
  match task.listing.verifierAddress with
  | none => return false
  | some verifier => call (Cmd.judgesOwnAgent mine [verifier])

/-- Have submissions closed? The escrow's deadline decides: a pause moves it past the stored
one. -/
def deadlineReached (task : OpenTaskInfo) : Backend Bool :=
  match task.listing.deadline with
  | none => return false
  | some deadline => do
    let nowSec ← call Cmd.now
    if nowSec < deadline then return false
    else do
      let phase ← escrowFor task.chain (.openPhase task.taskId)
      return decide (phase ≠ .submissions)

/-- What submit-open asks of a new submission. -/
def refuseNewSubmission (task : OpenTaskInfo) (who : Submitter) : Backend Unit := do
  if who.paused then throw .escrowPaused
  else do
    let sameOwner ← postedBySameOwner task who.mine
    if sameOwner then throw .sameOwner
    else do
      let ownAgent ← call (Cmd.ownAgentOf who.address who.posters)
      if ownAgent then throw .ownAgent
      else do
        let judged ← judgedBySameOwner task who.mine
        if judged then throw .verifierSameOwner
        else do
          let reached ← deadlineReached task
          if reached then throw .deadlineReached else return ()

structure SubmitOpenBody where
  content : Content
  teeAttestation : Option Attestation
  deriving DecidableEq, Repr

structure SubmitOpenResponse where
  onChainTaskId : Nat
  evidenceHash : Bytes32
  /-- Set when the submission was on-chain already: whether its result was kept now. -/
  kept : Option Bool
  deriving DecidableEq, Repr

/-- A new submission: its result is held until it lands. -/
def holdResult (task : OpenTaskInfo) (who : Submitter) (result : OpenResult) :
    Backend SubmitOpenResponse := do
  refuseNewSubmission task who
  let nowSec ← call Cmd.now
  let slot ← takeHeldSlot who.address (task.ref cfg) nowSec
  if slot = false then throw .tooManyHeld
  else do
    savePendingResult (task.ref cfg) who.address result
    call (Cmd.buildSubmitOpen task.chain who.address task.taskId result.evidenceHash)
    return ⟨task.taskId, result.evidenceHash, none⟩

/-- One already on-chain: the same result again is the way back for one whose hold expired before
the indexer saw the submission. The attestation is not in the commitment: not kept this way. -/
def resendResult (task : OpenTaskInfo) (who : Submitter) (result : OpenResult) :
    Backend SubmitOpenResponse :=
  if who.alreadySubmitted = result.evidenceHash then do
    let kept ← keepCommittedResult (task.ref cfg) who.address { result with teeAttestation := none }
    return ⟨task.taskId, result.evidenceHash, some kept⟩
  else throw .alreadySubmitted

def submitOpen (user : User) (taskHash : Bytes32) (body : SubmitOpenBody) :
    Backend SubmitOpenResponse := do
  let task ← call (Cmd.openTask taskHash)
  let who ← submitterOf user task
  if MAX_RESULT_BYTES < cfg.jsonBytes body.content body.teeAttestation then throw .resultTooLarge
  else do
    let savedAt ← call Cmd.now
    let result : OpenResult :=
      { content := body.content
        evidenceHash := cfg.openEvidenceHash body.content.resultData body.content.rootHash
        teeAttestation := body.teeAttestation
        savedAt }
    if who.alreadySubmitted ≠ 0 then resendResult cfg task who result
    else holdResult cfg task who result

/-! ## Reading -/

/-- A submission as it is shown, with its result when the kept one matches. -/
structure SubmissionView where
  submitter : Address
  ordinal : Nat
  evidenceHash : Bytes32
  recordedAt : Nat
  result : Option Content
  deriving DecidableEq, Repr

structure SubmissionsPage where
  submissions : List SubmissionView
  cursor : Nat
  total : Nat
  deriving DecidableEq, Repr

/-- The poster and the task's verifier may read the submissions at any time. -/
def isJudge (user : User) (listing : A2ATaskMeta) : Bool :=
  listing.posterAddress.any (· ∈ user.wallets) || listing.verifierAddress.any (· ∈ user.wallets)

/-- For anyone else: are submissions still open? -/
def stillOpen (task : OpenTaskInfo) : Backend Bool := do
  let nowSec ← call Cmd.now
  match task.listing.deadline with
  | none => return true
  | some deadline =>
    if nowSec < deadline then return true
    else do
      let phase ← escrowFor task.chain (.openPhase task.taskId)
      return decide (phase = .submissions)

def viewOf (sub : Address × SubmissionRecord) (result : Option OpenResult) : SubmissionView where
  submitter := sub.1
  ordinal := sub.2.ordinal
  evidenceHash := sub.2.evidenceHash
  recordedAt := sub.2.recordedAt
  result := (result.filter fun r => r.evidenceHash = sub.2.evidenceHash).map (·.content)

/-- One page of the submissions, whoever asks. -/
def showSubmissions (ref : TaskRef) (cursor limit : Nat) : Backend SubmissionsPage := do
  let page ← pageSubmissions ref cursor (min (max limit 1) 50)
  let results ← getResults ref (page.items.map (·.1))
  let total ← redis (.hlenSubs ref)
  return ⟨(page.items.zip results).map fun s => viewOf s.1 s.2, page.cursor, total⟩

def getSubmissions (user : User) (taskHash : Bytes32) (cursor limit : Nat) :
    Backend SubmissionsPage := do
  let task ← call (Cmd.openTask taskHash)
  if isJudge user task.listing then showSubmissions (task.ref cfg) cursor limit
  else do
    let hidden ← stillOpen task
    if hidden then throw .submissionsHidden
    else showSubmissions (task.ref cfg) cursor limit

end OpenSubmissions
