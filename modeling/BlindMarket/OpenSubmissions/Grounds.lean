import BlindMarket.OpenSubmissions.Effects

/-!
# What a program has been told before it acts

Nothing is kept, saved, dropped, marked or sent but on the answers that allow
it, and what a program ends with shows what it was told.
-/
namespace OpenSubmissions

open Async Prog Runs
open BlindEscrow (Address Bytes32 OpenPhase)

variable {cfg : Config} {t : Call} {a a' : Answers Ans Code} {ref : TaskRef}
  {record : OpenTaskRecord} {α : Type}

/-- Its evidence hash is the one of its own content. -/
def Hashed (cfg : Config) (result : OpenResult) : Prop :=
  result.evidenceHash = cfg.openEvidenceHash result.content.resultData result.content.rootHash

/-- One answer came after another. -/
def After (a : Answers Ans Code) (c : Cmd) (r : Except Code (Ans c)) (c' : Cmd)
    (r' : Except Code (Ans c')) : Prop :=
  ∃ a', (⟨c, r⟩ :: a') <:+ a ∧ ⟨c', r'⟩ ∈ a'

theorem After.mono {c c' : Cmd} {r : Except Code (Ans c)} {r' : Except Code (Ans c')}
    (h : After a c r c' r') (hsuffix : a <:+ a') : After a' c r c' r' :=
  h.imp fun _ h => ⟨h.1.trans hsuffix, h.2⟩

theorem After.head {c c' : Cmd} {r : Except Code (Ans c)} {r' : Except Code (Ans c')}
    (h : ⟨c', r'⟩ ∈ a) : After (⟨c, r⟩ :: a) c r c' r' := ⟨a, List.suffix_rfl, h⟩

/-! ## The grounds -/

/-- A result is kept when it is the held one the event names, or when the escrow holds its hash. -/
inductive MayKeep (cfg : Config) (t : Call) (a : Answers Ans Code) (ref : TaskRef)
    (submitter : Address) (result : OpenResult) : Prop where
  | held (chain : TaskChain) (taskId count : Nat)
      (hop : t.op = .handle chain (.openSubmission taskId submitter result.evidenceHash count))
      (href : ref = cfg.taskRef chain taskId)
      (h : ⟨.redis (.getPending ref submitter), .ok (some result)⟩ ∈ a)
  | committed (chain : TaskChain) (taskId : Nat) (href : ref = cfg.taskRef chain taskId)
      (h : ⟨.escrow chain (.submissionOf taskId submitter), .ok result.evidenceHash⟩ ∈ a)
      (hne : result.evidenceHash ≠ 0) (hashed : Hashed cfg result)

/-- The task was scheduled, or had an outcome. -/
def Scheduled (a : Answers Ans Code) (ref : TaskRef) : Prop :=
  (∃ atSec nx, ⟨.redis (.zaddJudge ref atSec nx), .ok ()⟩ ∈ a) ∨
    ∃ outcome, ⟨.redis (.getOutcome ref), .ok (some outcome)⟩ ∈ a

/-- A record is saved for the task of the event, as the escrow has it, once it is scheduled. -/
structure MaySave (cfg : Config) (t : Call) (a : Answers Ans Code) (ref : TaskRef)
    (record : OpenTaskRecord) : Prop where
  about : ∃ log, t.op = .handle record.chain log ∧ log.openTask = some record.taskId
  names : ref = cfg.taskRef record.chain record.taskId
  scope : record.scope = some (cfg.chainScope record.chain)
  task : ∃ task : BlindEscrow.Task,
    ⟨.escrow record.chain (.getTask record.taskId), .ok task⟩ ∈ a ∧
      record.taskHash = task.taskHash
  scheduled : Scheduled a ref

def JudgeCall.taskId : JudgeCall → Nat
  | .selectWinnerByBackup taskId _ _ | .selectWinnerByVerifier taskId _ _
  | .voidOpenTask taskId _ => taskId

/-- What a look at a task with this record has found before it drops the task. -/
inductive GivenUp (cfg : Config) (a : Answers Ans Code) (ref : TaskRef) (record : OpenTaskRecord) :
    Prop where
  | elsewhere (h : cfg.onThisNetwork record = false)
  | past (phase : OpenPhase) (hphase : phase = .closed ∨ phase = .adminResolve)
      (h : ⟨.escrow record.chain (.openPhase record.taskId), .ok phase⟩ ∈ a)
  | another (task : BlindEscrow.Task) (hne : task.taskHash ≠ record.taskHash)
      (h : After a (.escrow record.chain (.getTask record.taskId)) (.ok task)
        (.redis (.getRecord ref)) (.ok (some record)))
  | empty (phase : OpenPhase) (hphase : phase ≠ .submissions)
      (h : After a (.escrow record.chain (.submissionCount record.taskId)) (.ok 0)
        (.escrow record.chain (.openPhase record.taskId)) (.ok phase))
  | unlisted (h : ⟨.listingOf record, .ok none⟩ ∈ a)
  | left (h : ⟨.leftForAdmin ref, .ok ()⟩ ∈ a)
  | sent (call : JudgeCall) (basis : Basis) (tx : TxId) (hcall : call.taskId = record.taskId)
      (hsend : ⟨.send record.chain call basis, .ok tx⟩ ∈ a) (hwait : ⟨.wait tx, .ok true⟩ ∈ a)

/-- One of its own networks' sets has named the task. -/
def Due (cfg : Config) (a : Answers Ans Code) (ref : TaskRef) : Prop :=
  ∃ scope nowSec limit refs, scope ∈ ownScopes cfg ∧ ref ∈ refs ∧
    ⟨.redis (.zrangeJudge scope nowSec limit), .ok refs⟩ ∈ a

theorem Due.mono (h : Due cfg a ref) (hsuffix : a <:+ a') : Due cfg a' ref := by
  obtain ⟨scope, nowSec, limit, refs, hscope, hin, hmem⟩ := h
  exact ⟨scope, nowSec, limit, refs, hscope, hin, hsuffix.subset hmem⟩

/-- A task is dropped once its outcome is recorded, or by a judge that gives it up. -/
inductive MayDrop (cfg : Config) (t : Call) (a : Answers Ans Code) (ref : TaskRef) : Prop where
  | outcome (outcome : OpenTaskOutcome) (h : ⟨.redis (.getOutcome ref), .ok (some outcome)⟩ ∈ a)
  | settled (outcome : OpenTaskOutcome) (saved : Bool)
      (h : ⟨.redis (.setOutcomeNX ref outcome), .ok saved⟩ ∈ a)
  | givenUp (record : OpenTaskRecord) (hjudge : t.op = .judge)
      (hdue : Due cfg a ref)
      (hrecord : ⟨.redis (.getRecord ref), .ok (some record)⟩ ∈ a) (h : GivenUp cfg a ref record)

/-- What the pass over the saved tasks does about one. -/
def SeenTo (cfg : Config) (a : Answers Ans Code) (ref : TaskRef) : Prop :=
  ⟨.redis (.getRecord ref), .ok none⟩ ∈ a ∨
    (∃ record, cfg.onThisNetwork record = false ∧
      ⟨.redis (.getRecord ref), .ok (some record)⟩ ∈ a) ∨ Scheduled a ref

/-- Every task the scan brought so far is seen to. -/
structure SeenToAll (cfg : Config) (a : Answers Ans Code) (scope : Scope) : Prop where
  answered : ∀ cursor r, ⟨.redis (.scanRecords cursor), r⟩ ∈ a → ∃ page, r = .ok page
  each : ∀ cursor page, ⟨.redis (.scanRecords cursor), .ok page⟩ ∈ a → ∀ ref ∈ page.items,
    ref.scope = scope → SeenTo cfg a ref

/-- The marks of the pass wait for the end of the scan. -/
structure MayMark (cfg : Config) (a : Answers Ans Code) (scope : Scope) : Prop extends
    SeenToAll cfg a scope where
  complete : ∃ cursor page, ⟨.redis (.scanRecords cursor), .ok page⟩ ∈ a ∧ page.cursor = 0

/-- What a judge transaction is decided on. -/
inductive Decided (cfg : Config) (a : Answers Ans Code) (chain : TaskChain) (call : JudgeCall)
    (basis : Basis) : Prop where
  | mk (ref : TaskRef) (record : OpenTaskRecord) (phase : OpenPhase) (count : Nat)
      (listing : A2ATaskMeta) (subs : List (Address × Nat)) (results : List (Option OpenResult))
      (scorecardHash : Bytes32)
      (hdue : Due cfg a ref)
      (hrecord : ⟨.redis (.getRecord ref), .ok (some record)⟩ ∈ a)
      (hchain : chain = record.chain)
      (hphase : phase ≠ .submissions)
      (hcount : After a (.escrow record.chain (.submissionCount record.taskId)) (.ok count)
        (.escrow record.chain (.openPhase record.taskId)) (.ok phase))
      (hlisting : ⟨.listingOf record, .ok (some listing)⟩ ∈ a)
      (hcriteria : basis.criteria = listing.verificationCriteria.getD NO_CRITERIA)
      (hsubs : ∀ sub ∈ subs, ∃ cursor n page, ⟨.redis (.hscanSubs ref cursor n), .ok page⟩ ∈ a ∧
        ∃ record, (sub.1, record) ∈ page.items ∧ sub.2 = record.ordinal)
      (hresults : results = [] ∨
        ⟨.redis (.hmgetResults ref (subs.map (·.1))), .ok results⟩ ∈ a)
      (hjudge : basis.toJudge = (withResult subs results).take MAX_JUDGED)
      (hcall : call = judgeCall basis.asBackup record.taskId
        (pickWinner (judgeSubmissions cfg basis.toJudge basis.criteria)) scorecardHash)
      (hvoid : pickWinner (judgeSubmissions cfg basis.toJudge basis.criteria) = none →
        count ≤ basis.toJudge.length)

/-- What a program has been told when it asks for a command. -/
def Asks (cfg : Config) (t : Call) (a : Answers Ans Code) : Cmd → Prop
  | .redis (.hsetnxResult ref submitter result) => MayKeep cfg t a ref submitter result
  | .redis (.setPending _ _ result) => Hashed cfg result
  | .redis (.hsetnxSub ref submitter record) => ∃ chain taskId count,
    t.op = .handle chain (.openSubmission taskId submitter record.evidenceHash count) ∧
      ref = cfg.taskRef chain taskId
  | .redis (.setRecordNX ref record) => MaySave cfg t a ref record
  | .redis (.zremJudge ref) => MayDrop cfg t a ref
  | .redis (.markJudgeBackfilled scope) => MayMark cfg a scope
  | .redis (.scanRecords cursor) =>
    cursor = 0 ∨ ∃ cursor r, ⟨.redis (.scanRecords cursor), r⟩ ∈ a
  | .send chain call basis => Decided cfg a chain call basis
  | _ => True

/-- Commands that need no grounds. -/
def Cmd.free : Cmd → Bool
  | .redis c =>
    match c with
    | .hsetnxResult _ _ _ | .setPending _ _ _ | .hsetnxSub _ _ _ | .setRecordNX _ _ | .zremJudge _
    | .markJudgeBackfilled _ | .scanRecords _ => false
    | _ => true
  | .send _ _ _ => false
  | _ => true

theorem free_asks {c : Cmd} (h : c.free = true) : Asks cfg t a c := by
  cases c with
  | redis c => cases c <;> trivial
  | send => cases h
  | _ => trivial

/-- A program that needs none. -/
abbrev Free (p : Backend α) : Prop := p.Issues fun c => c.free = true

theorem Free.yields {p : Backend α} (hp : Free p) :
    Yields (Asks cfg t) (fun _ a' => a <:+ a') p a :=
  Issues.yields hp fun _ _ hc => free_asks hc

theorem yields_free {c : Cmd} {k : Ans c → Backend α} {R : α → Answers Ans Code → Prop}
    (h : c.free = true) (hk : ∀ v, Yields (Asks cfg t) R (k v) (⟨c, .ok v⟩ :: a)) :
    Yields (Asks cfg t) R (call c >>= k) a := yields_call (free_asks h) hk

end OpenSubmissions
