import BlindMarket.OpenSubmissions.Events
import BlindMarket.OpenSubmissions.Judge
import BlindMarket.OpenSubmissions.Routes

/-!
# Open tasks off-chain

Requests, events, ticks and the one-time pass run over one Redis and the
escrows. A command takes effect and answers, fails before it takes effect, or
takes effect and fails anyway; what stays inside the process does none of these.
A scan brings every key that was there when it began before it ends, and may
bring one twice. What the rest of the backend knows of accounts is up to it.
-/
namespace OpenSubmissions

open Async Prog Runs
open BlindEscrow (Address Bytes32 OpenPhase Deployed Msg)

inductive Op where
  | submitOpen (user : User) (taskHash : Bytes32) (body : SubmitOpenBody)
  | getSubmissions (user : User) (taskHash : Bytes32) (cursor limit : Nat)
  | handle (chain : TaskChain) (log : BlindEscrow.Log)
  | judge
  | backfill
  deriving DecidableEq, Repr

/-- A program, numbered as it starts, in some process, and the pages its scans live to see. -/
structure Call where
  id : Nat
  process : Nat
  pages : Nat
  op : Op
  deriving DecidableEq, Repr

inductive Response where
  | submitted (r : SubmitOpenResponse)
  | shown (page : SubmissionsPage)
  | handled
  | settled (n : Nat)
  | scheduled (n : Nat)
  deriving DecidableEq, Repr

variable (cfg : Config)

def Call.prog (t : Call) : Backend Response :=
  match t.op with
  | .submitOpen user taskHash body => do
    return .submitted (← OpenSubmissions.submitOpen cfg user taskHash body)
  | .getSubmissions user taskHash cursor limit => do
    return .shown (← OpenSubmissions.getSubmissions cfg user taskHash cursor limit)
  | .handle chain log => do
    handleOpenEvent cfg t.pages chain log
    return .handled
  | .judge => do return .settled (← judgeOpenSubmissions cfg t.pages)
  | .backfill => do return .scheduled (← scheduleExistingOpenTasks cfg t.pages)

/-! ## States -/

/-- A transaction the platform judge sent, and the status it was mined with. -/
structure JudgeTx where
  chain : TaskChain
  sender : Address
  call : JudgeCall
  mined : Option Bool := none
  deriving DecidableEq, Repr

def JudgeTx.msg (tx : JudgeTx) : Msg := ⟨tx.sender, 0, tx.call.op⟩

/-- Redis, the escrows, the listings of the tasks, and what the processes hold in memory. -/
structure State where
  escrows : (chain : TaskChain) → Deployed (cfg.deployment chain)
  listings : TaskRef → Option A2ATaskMeta := fun _ => none
  clock : Nat := 0
  records : List (TaskRef × OpenTaskRecord) := []
  subs : TaskRef → List (Address × SubmissionRecord) := fun _ => []
  outcomes : TaskRef → Option OpenTaskOutcome := fun _ => none
  /-- With the time it lapses. -/
  pending : TaskRef → Address → Option (OpenResult × Nat) := fun _ _ => none
  heldBy : Address → List (TaskRef × Nat) := fun _ => []
  results : TaskRef → Address → Option OpenResult := fun _ _ => none
  resultsExpiry : TaskRef → Option Nat := fun _ => none
  pendingScorecards : TaskRef → ScorecardRole → Option PendingScorecard := fun _ _ => none
  scorecards : TaskRef → Option PendingScorecard := fun _ => none
  judgeDue : TaskRef → Option Nat := fun _ => none
  backfilled : Scope → Bool := fun _ => false
  txs : List JudgeTx := []
  left : List TaskRef := []
  inFlight : Nat → Bool := fun _ => false
  /-- What the scan of a program has still to bring. -/
  scans : Nat → List TaskRef := fun _ => []
  subScans : Nat → List Address := fun _ => []
  calls : Nat := 0

variable {cfg}

namespace State

variable (s : State cfg)

def record (ref : TaskRef) : Option OpenTaskRecord :=
  (s.records.find? fun r => r.1 = ref).map (·.2)

def sub (ref : TaskRef) (submitter : Address) : Option SubmissionRecord :=
  ((s.subs ref).find? fun sub => sub.1 = submitter).map (·.2)

/-- The task is in its network's set. -/
def due (ref : TaskRef) : Prop := (s.judgeDue ref).isSome = true

def setJudgeDue (ref : TaskRef) (atSec : Option Nat) : State cfg :=
  { s with judgeDue := Function.update s.judgeDue ref atSec }

def setPending (ref : TaskRef) (submitter : Address) (p : Option (OpenResult × Nat)) : State cfg :=
  { s with pending := Function.update s.pending ref (Function.update (s.pending ref) submitter p) }

def keep (ref : TaskRef) (submitter : Address) (result : OpenResult) : State cfg :=
  { s with
    results := Function.update s.results ref
      (Function.update (s.results ref) submitter (some result)) }

def setHeld (submitter : Address) (held : List (TaskRef × Nat)) : State cfg :=
  { s with heldBy := Function.update s.heldBy submitter held }

def setPendingScorecard (ref : TaskRef) (role : ScorecardRole) (p : Option PendingScorecard) :
    State cfg :=
  { s with
    pendingScorecards := Function.update s.pendingScorecards ref
      (Function.update (s.pendingScorecards ref) role p) }

def setEscrow (chain : TaskChain) (d : Deployed (cfg.deployment chain)) : State cfg :=
  { s with escrows := Function.update s.escrows chain d }

/-- A mined transaction. -/
def setMined (tx : TxId) (ok : Bool) : State cfg :=
  { s with txs := s.txs.modify tx fun t => { t with mined := some ok } }

end State

inductive Fate where
  | answered | failed | unanswered
  deriving DecidableEq, Repr

/-- How one command goes, and what is answered where that is open: `flag` for what an account is,
`picks` for the keys of a page, `refs` for the due tasks, `ref` for the task a hash names. -/
structure Turn where
  fate : Fate := .answered
  flag : Bool := false
  number : Nat := 0
  picks : List Nat := []
  refs : List TaskRef := []
  ref : TaskRef := ⟨⟨.base, 0⟩, 0⟩
  account : Option Address := none
  deriving Repr

/-! ## What a command does -/

/-- The commands that do not leave the process. -/
def Cmd.Local : Cmd → Bool
  | .now | .breath | .backgroundWritesAllowed | .takeFlight | .leaveFlight | .leftForAdmin _ => true
  | _ => false

/-- The chosen elements of a list. -/
def pickFrom {α : Type} (l : List α) (picks : List Nat) : List α := picks.filterMap (l[·]?)

/-- A page of a scan, and what the scan has still to bring after it. -/
def scanPage {α : Type} [DecidableEq α] (x : Turn) (cursor : Nat) (keys left : List α) :
    Page α × List α :=
  let items := pickFrom keys x.picks
  let left := (if cursor = 0 then keys else left).filter (· ∉ items)
  (⟨if left = [] then x.number else x.number + 1, items⟩, left)

def redisEffect (t : Call) (x : Turn) (s : State cfg) : (c : RedisCmd) → c.Ans × State cfg
  | .getRecord ref => (s.record ref, s)
  | .setRecordNX ref record =>
    if (s.record ref).isSome then (false, s)
    else (true, { s with records := (ref, record) :: s.records })
  | .getOutcome ref => (s.outcomes ref, s)
  | .setOutcomeNX ref outcome =>
    if (s.outcomes ref).isSome then (false, s)
    else (true, { s with outcomes := Function.update s.outcomes ref (some outcome) })
  | .isClosedNotified _ => (x.flag, s)
  | .takeCountNoticeSlot _ => (x.flag, s)
  | .zaddDue _ _ => ((), s)
  | .zremDue _ => ((), s)
  | .zaddJudge ref atSec nx =>
    if nx ∧ (s.judgeDue ref).isSome then ((), s) else ((), s.setJudgeDue ref (some atSec))
  | .zremJudge ref => ((), s.setJudgeDue ref none)
  | .zrangeJudge scope nowSec limit =>
    ((x.refs.filter fun ref => ref.scope = scope ∧ (s.judgeDue ref).any (· ≤ nowSec)).take limit, s)
  | .isJudgeBackfilled scope => (s.backfilled scope, s)
  | .markJudgeBackfilled scope =>
    ((), { s with backfilled := Function.update s.backfilled scope true })
  | .scanRecords cursor =>
    let (page, left) := scanPage x cursor (s.records.map (·.1)) (s.scans t.id)
    (page, { s with scans := Function.update s.scans t.id left })
  | .hsetnxSub ref submitter record =>
    if (s.sub ref submitter).isSome then (false, s)
    else (true,
      { s with subs := Function.update s.subs ref ((submitter, record) :: s.subs ref) })
  | .hlenSubs ref => ((s.subs ref).length, s)
  | .hscanSubs ref cursor _ =>
    let (page, left) := scanPage x cursor ((s.subs ref).map (·.1)) (s.subScans t.id)
    (⟨page.cursor, page.items.filterMap fun a => (s.sub ref a).map fun record => (a, record)⟩,
      { s with subScans := Function.update s.subScans t.id left })
  | .setPending ref submitter result =>
    ((), s.setPending ref submitter (some (result, s.clock + PENDING_RESULT_TTL_SEC)))
  | .getPending ref submitter => ((s.pending ref submitter).map (·.1), s)
  | .delPending ref submitter => ((), s.setPending ref submitter none)
  | .zremrangeHeld submitter nowSec =>
    ((), s.setHeld submitter ((s.heldBy submitter).filter fun held => nowSec < held.2))
  | .zscoreHeld submitter ref =>
    (((s.heldBy submitter).find? fun held => held.1 = ref).map (·.2), s)
  | .zcardHeld submitter => ((s.heldBy submitter).length, s)
  | .zaddHeld submitter ref atSec =>
    ((), s.setHeld submitter
      ((ref, atSec) :: (s.heldBy submitter).filter fun held => held.1 ≠ ref))
  | .expireHeld _ => ((), s)
  | .zremHeld submitter ref =>
    ((), s.setHeld submitter ((s.heldBy submitter).filter fun held => held.1 ≠ ref))
  | .hsetnxResult ref submitter result =>
    if (s.results ref submitter).isSome then (false, s) else (true, s.keep ref submitter result)
  | .expireResults ref =>
    ((), { s with
      resultsExpiry := Function.update s.resultsExpiry ref (some (s.clock + RESULTS_TTL_SEC)) })
  | .hmgetResults ref submitters => (submitters.map (s.results ref), s)
  | .setPendingScorecard ref role p => ((), s.setPendingScorecard ref role (some p))
  | .getPendingScorecard ref role => (s.pendingScorecards ref role, s)
  | .delPendingScorecard ref role => ((), s.setPendingScorecard ref role none)
  | .setScorecardNX ref kept =>
    if (s.scorecards ref).isSome then (false, s)
    else (true, { s with scorecards := Function.update s.scorecards ref (some kept) })

/-- What a view answers; one that reverts fails. -/
def viewed {ε α : Type} : Except ε α → Except Code α
  | .ok a => .ok a
  | .error _ => .error .reverted

def escrowRead {D : BlindEscrow.Deployment} (d : Deployed D) : (c : EscrowRead) → Except Code c.Ans
  | .openPhase taskId => viewed (d.phase taskId)
  | .getTask taskId => .ok (d.escrow.tasks taskId)
  | .getOpenTask taskId => .ok (d.escrow.openTasks taskId)
  | .effectiveDeadline taskId =>
    viewed (BlindEscrow.effectiveDeadline d.escrow d.config.world.timestamp taskId)
  | .taskVerifier taskId => .ok (d.escrow.taskVerifier taskId)
  | .verifier => .ok d.escrow.verifier
  | .submissionCount taskId => .ok (d.escrow.submissionCount taskId)
  | .submissionOf taskId submitter => .ok (d.escrow.submissionOf taskId submitter)
  | .paused => .ok d.escrow.paused

/-- A chain without a signer sends nothing. -/
def sendEffect (chain : TaskChain) (call : JudgeCall) (s : State cfg) :
    Except Code TxId × State cfg :=
  match cfg.signer chain with
  | none => (.error .rejected, s)
  | some sender => (.ok s.txs.length, { s with txs := s.txs ++ [⟨chain, sender, call, none⟩] })

/-- A wait ends with the receipt, or in time. -/
def waited (tx : TxId) (s : State cfg) : Except Code Bool :=
  match s.txs[tx]?.bind (·.mined) with
  | some ok => .ok ok
  | none => .error .rejected

def resolved (x : Turn) (taskHash : Bytes32) (s : State cfg) : Except Code OpenTaskInfo :=
  let ref := cfg.taskRef x.ref.scope.chain x.ref.taskId
  match s.listings ref with
  | some listing => .ok ⟨taskHash, listing, x.ref.scope.chain, x.ref.taskId⟩
  | none => .error .notFound

def effect (t : Call) (x : Turn) (s : State cfg) : (c : Cmd) → Except Code (Ans c) × State cfg
  | .redis c =>
    let (a, s') := redisEffect t x s c
    (.ok a, s')
  | .escrow chain c => (escrowRead (s.escrows chain) c, s)
  | .send chain call _ => sendEffect chain call s
  | .wait tx => (waited tx s, s)
  | .now => (.ok x.number, s)
  | .breath => (.ok (), s)
  | .backgroundWritesAllowed => (.ok x.flag, s)
  | .takeFlight =>
    (.ok (s.inFlight t.process),
      { s with inFlight := Function.update s.inFlight t.process true })
  | .leaveFlight => (.ok (), { s with inFlight := Function.update s.inFlight t.process false })
  | .leftForAdmin ref => (.ok (), { s with left := ref :: s.left })
  | .listingOf record => (.ok (s.listings (cfg.taskRef record.chain record.taskId)), s)
  | .closeOpenSubmissionTask _ _ => (.ok (), s)
  | .loadAgentBySmartAccount _ => (.ok x.account, s)
  | .recordWorkerPayout _ _ _ _ _ _ => (.ok (), s)
  | .notify _ => (.ok (), s)
  | .openTask taskHash => (resolved x taskHash s, s)
  | .isCollecting _ => (.ok x.flag, s)
  | .isRegistered _ => (.ok x.flag, s)
  | .anySameOwner _ _ => (.ok x.flag, s)
  | .ownAgentOf _ _ => (.ok x.flag, s)
  | .judgesOwnAgent _ _ => (.ok x.flag, s)
  | .buildSubmitOpen _ _ _ _ => (.ok (), s)

def respond (t : Call) (x : Turn) (s : State cfg) (c : Cmd) : Except Code (Ans c) × State cfg :=
  let (a, s') := effect t x s c
  if c.Local then (a, s')
  else
    match x.fate with
    | .answered => (a, s')
    | .failed => (.error .rejected, s)
    | .unanswered => (.error .rejected, s')

/-! ## What moves by itself -/

/-- The escrows' other callers, the mining of what was sent, listings, time, and what lapses. -/
inductive Moves (s : State cfg) : State cfg → Prop where
  | escrow (chain : TaskChain) (e : BlindEscrow.Event) (c : BlindEscrow.Config)
      (h : BlindEscrow.Step (cfg.deployment chain) (s.escrows chain).config e c) :
    Moves s (s.setEscrow chain ((s.escrows chain).next e c h))
  | mine (tx : TxId) (t : JudgeTx) (e : BlindEscrow.Event) (c : BlindEscrow.Config)
      (htx : s.txs[tx]? = some t) (hnew : t.mined = none)
      (h : BlindEscrow.Step (cfg.deployment t.chain) (s.escrows t.chain).config e c)
      (hmsg : ∃ cid, e.kind = .called cid t.msg) :
    Moves s ((s.setEscrow t.chain ((s.escrows t.chain).next e c h)).setMined tx true)
  | revert (tx : TxId) (t : JudgeTx) (htx : s.txs[tx]? = some t) (hnew : t.mined = none) :
    Moves s (s.setMined tx false)
  | listing (ref : TaskRef) (listing : Option A2ATaskMeta) :
    Moves s { s with listings := Function.update s.listings ref listing }
  | time (clock : Nat) (h : s.clock ≤ clock) : Moves s { s with clock }
  | lapsePending (ref : TaskRef) (submitter : Address) (p : OpenResult × Nat)
      (hp : s.pending ref submitter = some p) (h : p.2 ≤ s.clock) :
    Moves s (s.setPending ref submitter none)
  | lapseResults (ref : TaskRef) (atSec : Nat) (hp : s.resultsExpiry ref = some atSec)
      (h : atSec ≤ s.clock) :
    Moves s { s with
      results := Function.update s.results ref fun _ => none
      resultsExpiry := Function.update s.resultsExpiry ref none }
  | lapseHeld (submitter : Address) : Moves s (s.setHeld submitter [])
  | lapseScorecard (ref : TaskRef) (role : ScorecardRole) :
    Moves s (s.setPendingScorecard ref role none)

/-- An event is handled once its escrow has emitted it. -/
def Ready (s : State cfg) (t : Call) : Prop :=
  match t.op with
  | .handle chain log => ∃ e ∈ (s.escrows chain).trace, log ∈ e.announces
  | _ => True

instance (s : State cfg) (t : Call) : Decidable (Ready s t) := by
  unfold Ready
  split <;> infer_instance

/-- A process that dies is looking at nothing. -/
def State.crash (s : State cfg) (t : Call) : State cfg :=
  match t.op with
  | .judge => { s with inFlight := Function.update s.inFlight t.process false }
  | _ => s

variable (cfg)

def backend : System Ans Code Response Call (State cfg) where
  exec t s c r s' := ∃ x, respond t x s c = (r, s')
  start _ s t p s' :=
    t.id = s.calls ∧ Ready s t ∧ p = t.prog cfg ∧ s' = { s with calls := s.calls + 1 }
  env s s' := Moves s s'
  die t s s' := s' = s.crash t

/-! ## The start -/

variable {cfg}

/-- The record of a task of the network its chain is on: it is that task's. -/
structure Genuine (s : State cfg) (ref : TaskRef) (record : OpenTaskRecord) : Prop where
  ref : ref = cfg.taskRef record.chain record.taskId
  scope : cfg.onThisNetwork record = true
  isOpen : ((s.escrows record.chain).escrow.openTasks record.taskId).isOpen = true
  taskHash : record.taskHash = ((s.escrows record.chain).escrow.tasks record.taskId).taskHash

/-- Tasks may have been met and listed before; nothing is held, kept or scheduled. -/
structure Initial (s : State cfg) : Prop where
  fresh : s = { escrows := s.escrows, listings := s.listings, clock := s.clock, records := s.records }
  genuine : ∀ ref record, s.record ref = some record → ref.scope = cfg.chainScope ref.scope.chain →
    Genuine s ref record

/-! ## Scripts -/

inductive Env where
  | escrow (chain : TaskChain) (cue : BlindEscrow.Cue)
  | mine (tx : TxId)
  | revert (tx : TxId)
  | listing (ref : TaskRef) (listing : Option A2ATaskMeta)
  | time (clock : Nat)
  | lapsePending (ref : TaskRef) (submitter : Address)
  | lapseResults (ref : TaskRef)

/-- The step of a mined transaction, if it goes through. -/
def mineStep (s : State cfg) (tx : TxId) (t : JudgeTx) : Option (State cfg) :=
  match h : BlindEscrow.cueStep (cfg.deployment t.chain) (s.escrows t.chain).config (.send t.msg) with
  | some (e, c) =>
    some ((s.setEscrow t.chain ((s.escrows t.chain).next e c (BlindEscrow.cueStep_step h))).setMined
      tx true)
  | none => none

def move : Env → State cfg → Option (State cfg)
  | .escrow chain cue, s =>
    match h : BlindEscrow.cueStep (cfg.deployment chain) (s.escrows chain).config cue with
    | some (e, c) =>
      some (s.setEscrow chain ((s.escrows chain).next e c (BlindEscrow.cueStep_step h)))
    | none => none
  | .mine tx, s =>
    match s.txs[tx]? with
    | some t => if t.mined = none then mineStep s tx t else none
    | none => none
  | .revert tx, s =>
    match s.txs[tx]? with
    | some t => if t.mined = none then some (s.setMined tx false) else none
    | none => none
  | .listing ref listing, s =>
    some { s with listings := Function.update s.listings ref listing }
  | .time clock, s => if s.clock ≤ clock then some { s with clock } else none
  | .lapsePending ref submitter, s =>
    match s.pending ref submitter with
    | some p => if p.2 ≤ s.clock then some (s.setPending ref submitter none) else none
    | none => none
  | .lapseResults ref, s =>
    match s.resultsExpiry ref with
    | some atSec =>
      if atSec ≤ s.clock then
        some
          { s with
            results := Function.update s.results ref fun _ => none
            resultsExpiry := Function.update s.resultsExpiry ref none }
      else none
    | none => none

theorem cueStep_called {D : BlindEscrow.Deployment} {c c' : BlindEscrow.Config} {m : Msg}
    {e : BlindEscrow.Event} (h : BlindEscrow.cueStep D c (.send m) = some (e, c')) :
    ∃ cid, e.kind = .called cid m := by
  simp only [BlindEscrow.cueStep] at h
  split at h
  · split at h
    · cases h
      exact ⟨_, rfl⟩
    · cases h
  · cases h

theorem move_moves {m : Env} {s s' : State cfg} (h : move m s = some s') : Moves s s' := by
  cases m with
  | escrow chain cue =>
    simp only [move] at h
    split at h <;> cases h
    exact .escrow chain _ _ _
  | mine tx =>
    simp only [move] at h
    split at h
    · next t htx =>
      split at h
      · next hnew =>
        simp only [mineStep] at h
        split at h <;> cases h
        next e c hcue => exact .mine tx t e c htx hnew _ (cueStep_called hcue)
      · cases h
    · cases h
  | revert tx =>
    simp only [move] at h
    split at h
    · next t htx =>
      split at h <;> cases h
      next hnew => exact .revert tx t htx hnew
    · cases h
  | listing ref listing =>
    cases h
    exact .listing ref listing
  | time clock =>
    simp only [move] at h
    split at h <;> cases h
    next hle => exact .time clock hle
  | lapsePending ref submitter =>
    simp only [move] at h
    split at h
    · next p hp =>
      split at h <;> cases h
      next hle => exact .lapsePending ref submitter p hp hle
    · cases h
  | lapseResults ref =>
    simp only [move] at h
    split at h
    · next atSec hp =>
      split at h <;> cases h
      next hle => exact .lapseResults ref atSec hp hle
    · cases h

variable (cfg)

def stage : Stage (backend cfg) Turn Env where
  respond := respond
  enter s t :=
    if t.id = s.calls ∧ Ready s t then some (t.prog cfg, { s with calls := s.calls + 1 }) else none
  move := move
  kill t s := s.crash t
  exec _ x _ _ := ⟨x, rfl⟩
  start := by
    intro tags s t p s' hs
    split at hs
    · next h =>
      cases hs
      exact ⟨h.1, h.2, rfl, rfl⟩
    · cases hs
  env _ _ _ h := move_moves h
  die _ _ := rfl

/-! ## A small backend -/

/-- `{ output: 'Paris capital' }`. -/
def PARIS : ResultData := 1

/-- `{ output: 'Opening hours: nine until five every weekday.' }`. -/
def HOURS : ResultData := 2

/-- `{ expected_answer: 'Paris is the capital of France today' }`. -/
def CAPITAL : VerificationCriteria := 1

def tooShort : Text := "Output too short: 13 characters, minimum 20"

/-- Two small deployments whose verifier signs for the platform, and what the checks and the hash
make of these results. -/
def demoConfig : Config where
  deployment _ := BlindEscrow.demo
  chainId
    | .base => 8453
    | .arc => 5042002
  signer _ := some 3
  openSubmissionEnabled := true
  attemptFailure _ := .ok none
  deliverableFloor resultData criteria :=
    .ok (if resultData = PARIS ∧ criteria = NO_CRITERIA then some tooShort else none)
  autoVerify resultData criteria :=
    .ok
      (if criteria = CAPITAL then
        if resultData = PARIS then ⟨false, 46, ["expected_answer: 29%"]⟩
        else ⟨false, 25, ["expected_answer: 0%"]⟩
      else if resultData = PARIS then ⟨false, 0, [tooShort]⟩
      else ⟨true, 100, ["All verification criteria met"]⟩)
  keccak256 content :=
    if content.resultData = PARIS then
      0xd40bcab5cbca40a24794b3d6f6af0230946d20031e4eab5a98571c36d1e0762e
    else 0x54c4bb476b9f3af7ea664bd7c8e527630c7f4327d50976e2ec35717fe06a0a1d
  keccak256OfScorecard _ := 5
  jsonBytes _ _ := 57

def demoDeployed (cues : List BlindEscrow.Cue) : Deployed BlindEscrow.demo where
  start := BlindEscrow.demoStart (10 ^ 24) BlindEscrow.demoSupply_lt
  trace := (BlindEscrow.demoPlay cues).2
  config := (BlindEscrow.demoPlay cues).1
  initial := BlindEscrow.demoStart_initial BlindEscrow.demoSupply_lt
  run := BlindEscrow.demoPlay_run cues

/-- The backend before its first program, and the escrow of Base after a script. -/
def demoStart (cues : List BlindEscrow.Cue) : State demoConfig where
  escrows
    | .base => demoDeployed cues
    | .arc => demoDeployed []

theorem demoStart_initial (cues : List BlindEscrow.Cue) : Initial (demoStart cues) where
  fresh := rfl
  genuine _ _ h := by cases h

/-- The task of the scripts. -/
def demoRef : TaskRef := ⟨⟨.base, 8453⟩, 1⟩

/-- The token is allowed, and 10 opens task 1 with verifier 11 for 500 wei and 7200 seconds. -/
def demoOpen : List BlindEscrow.Cue :=
  [.send ⟨1, 0, .allowToken 0⟩,
    .send ⟨10, 500, .createTaskOpen 7 0 500 "survey" "north" 7200 11 .creatorReview 3600⟩]

abbrev Cues := List (Cue Call Turn Env)

/-- That many commands answered as they take effect, with nothing open. -/
def plain (n m : Nat) : List (Cue Call Turn Env) := List.replicate m (.turn n {})

end OpenSubmissions
