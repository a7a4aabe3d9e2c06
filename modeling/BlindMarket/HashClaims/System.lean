import BlindMarket.HashClaims.Code

/-!
# Requests under way

Posting and listing requests run over one Redis. Each command of Redis takes
effect as a whole and answers, fails before it takes effect, or takes effect and
fails anyway. Time passes between commands, and a claim is gone when its 24
hours are over. What the agents, the chain and the poller of the escrow answer
is left open.
-/
namespace HashClaims

open Async Prog Runs

inductive Op where
  | createTask (poster : Address) (body : Option CreateTaskBody)
  | createTasks (poster : Address) (body : Option CreateTasksBody)
  | indexTask (user : AuthUser) (data : IndexTaskTerms) (chain : TaskChain)
      (event : TaskCreatedEvent)
  deriving DecidableEq, Repr

/-- A request, numbered as it starts. Its number is also the token it draws. -/
structure Call where
  id : Nat
  op : Op
  deriving DecidableEq, Repr

variable (cfg : Config)

def Call.prog (t : Call) : Backend Answer :=
  match t.op with
  | .createTask poster body => HashClaims.createTask cfg poster t.id body
  | .createTasks poster body => HashClaims.createTasks cfg poster t.id body
  | .indexTask user data chain event => indexTaskFromEvent cfg user data chain event

/-! ## States -/

/-- Redis, and the time in seconds. -/
structure State where
  claims : Hash → Option Claim := fun _ => none
  metas : Hash → Option A2ATaskMeta := fun _ => none
  tasks : Hash → Option ResolvedTask := fun _ => none
  now : Nat := 0
  calls : Nat := 0

namespace State

variable (s : State)

/-- The claim Redis shows: one that has not expired. -/
def claim? (h : Hash) : Option Claim := (s.claims h).filter fun cl => s.now < cl.expires

def putClaim (h : Hash) (poster : Address) (token : Nat) : State :=
  { s with
    claims := Function.update s.claims h
      (some ⟨poster, some token, s.now + HASH_CLAIM_TTL_SECONDS⟩) }

def dropClaim (h : Hash) : State := { s with claims := Function.update s.claims h none }

/-- `CLAIM_HASH_SCRIPT`. -/
def claimTaskHash (h : Hash) (poster : Address) (token : Nat) : ClaimOutcome × State :=
  match s.claim? h with
  | some cl =>
    if cl.poster ≠ poster then (⟨cl.poster, false, false⟩, s)
    else (⟨cl.poster, true, false⟩, s.putClaim h poster token)
  | none => (⟨poster, true, true⟩, s.putClaim h poster token)

/-- Compare and delete. -/
def releaseTaskHashClaim (h : Hash) (poster : Address) (token : Nat) : Bool × State :=
  if (s.claim? h).any fun cl => cl.poster = poster ∧ cl.token = some token then
    (true, s.dropClaim h)
  else (false, s)

end State

/-! ## Commands -/

/-- How a command goes: it may fail before it takes effect, or its answer may be lost. -/
inductive Reply where
  | answered | failed | unanswered
  deriving DecidableEq, Repr

/-- What is left open of an answer. -/
structure Turn where
  reply : Reply := .answered
  flag : Bool := true
  refused : Bool := false
  support : BatchSupport := ⟨true, 50⟩
  number : Nat := 6
  address : Option Address := none
  service : Option Service := none
  agent : Option Agent := none

def effect (x : Turn) (s : State) : (c : Cmd) → Except Code (Ans c) × State
  | .branch => (.ok x.flag, s)
  | .getTaskHashClaim h => (.ok ((s.claim? h).map (·.poster)), s)
  | .claimTaskHash h poster token =>
    (.ok (s.claimTaskHash h poster token).1, (s.claimTaskHash h poster token).2)
  | .releaseTaskHashClaim h poster token =>
    (.ok (s.releaseTaskHashClaim h poster token).1, (s.releaseTaskHashClaim h poster token).2)
  | .getMeta h => (.ok (s.metas h), s)
  | .setMeta listing =>
    (.ok (), { s with metas := Function.update s.metas listing.taskId (some listing) })
  | .resolveCachedTaskByHash h => (.ok (s.tasks h), s)
  | .seedTaskId chain h taskId =>
    (.ok (), { s with tasks := Function.update s.tasks h (some ⟨chain, taskId⟩) })
  | .delegationApproved _ => (.ok x.flag, s)
  | .batchCreateSupport _ => (.ok x.support, s)
  | .openCreateSupport _ => (.ok x.flag, s)
  | .verifierSignerFor _ => (.ok x.address, s)
  | .verifierChainUnsupported _ _ => (.ok x.refused, s)
  | .hostedVerifierNotOptedIn _ => (.ok x.refused, s)
  | .buildUnsignedTx _ => (.ok (), s)
  | .getTokenDecimals _ _ => (.ok x.number, s)
  | .getTaskVerifierOn _ _ => (.ok x.address, s)
  | .getActiveService _ => (.ok x.service, s)
  | .getAgent _ => (.ok x.agent, s)

def respond (x : Turn) (s : State) (c : Cmd) : Except Code (Ans c) × State :=
  match x.reply with
  | .answered => effect x s c
  | .failed => (.error .rejected, s)
  | .unanswered => (.error .rejected, (effect x s c).2)

/-! ## What moves by itself -/

/-- Time passes, the poller indexes escrow tasks, and an operator lists one. -/
inductive Moves (s : State) : State → Prop where
  | wait (seconds : Nat) : Moves s { s with now := s.now + seconds }
  | poll (h : Hash) (task : Option ResolvedTask) :
    Moves s { s with tasks := Function.update s.tasks h task }
  | list (listing : A2ATaskMeta) :
    Moves s { s with metas := Function.update s.metas listing.taskId (some listing) }

def backend : System Ans Code Answer Call State where
  exec _ s c r s' := ∃ x, respond x s c = (r, s')
  start _ s t p s' := t.id = s.calls ∧ p = t.prog cfg ∧ s' = { s with calls := s.calls + 1 }
  env s s' := Moves s s'
  die _ s s' := s' = s

/-! ## Scripts -/

inductive Env where
  | wait (seconds : Nat)
  | poll (h : Hash) (task : Option ResolvedTask)
  | list (listing : A2ATaskMeta)

def move : Env → State → Option State
  | .wait seconds, s => some { s with now := s.now + seconds }
  | .poll h task, s => some { s with tasks := Function.update s.tasks h task }
  | .list listing, s =>
    some { s with metas := Function.update s.metas listing.taskId (some listing) }

theorem move_moves {m : Env} {s s' : State} (h : move m s = some s') : Moves s s' := by
  cases m with
  | wait seconds =>
    cases h
    exact .wait seconds
  | poll hash task =>
    cases h
    exact .poll hash task
  | list listing =>
    cases h
    exact .list listing

def stage : Async.Stage (backend cfg) Turn Env where
  respond _ := respond
  enter s t :=
    if t.id = s.calls then some (t.prog cfg, { s with calls := s.calls + 1 }) else none
  move := move
  kill _ s := s
  exec _ x _ _ := ⟨x, rfl⟩
  start := by
    intro tags s t p s' hs
    split at hs
    · next h =>
      cases hs
      exact ⟨h, rfl, rfl⟩
    · cases hs
  env _ _ _ h := move_moves h
  die _ _ := rfl

/-! ## A small backend -/

/-- Arc, where tasks are posted in token 7. -/
def demoConfig : Config where
  posting := some ⟨.arc, some 7, false⟩
  openSubmissionEnabled := false
  hasAutoCheck _ := false
  autoRegex _ := none
  hasPayoutCurrency _ token := decide (token = 7)
  samePricingUnit _ _ := true
  onCurrentNetwork _ := true
  changedTaskTerm listing data := decide (listing.terms ≠ data)
  chainId _ := 26

end HashClaims
