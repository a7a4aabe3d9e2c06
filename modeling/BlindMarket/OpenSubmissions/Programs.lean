import BlindMarket.OpenSubmissions.Grounds

/-!
# Every program has its grounds

Function by function: each command comes on the answers it needs.
-/
namespace OpenSubmissions

open Async Prog Runs
open BlindEscrow (Address Bytes32 OpenPhase)

variable {cfg : Config} {t : Call} {a a' : Answers Ans Code} {ref : TaskRef}
  {record : OpenTaskRecord} {α β : Type} {R : α → Answers Ans Code → Prop}

theorem yields_ite {p q : Backend α} {b : Prop} [Decidable b]
    (hp : b → Yields (Asks cfg t) R p a) (hq : ¬ b → Yields (Asks cfg t) R q a) :
    Yields (Asks cfg t) R (if b then p else q) a := by
  by_cases h : b
  · simpa only [if_pos h] using hp h
  · simpa only [if_neg h] using hq h

/-! ## The store -/

theorem yields_keep {submitter : Address} {result : OpenResult}
    (h : MayKeep cfg t a ref submitter result) :
    Yields (Asks cfg t) (fun _ a' => ∃ kept : Bool,
      ⟨.redis (.hsetnxResult ref submitter result), .ok kept⟩ ∈ a') (keep ref submitter result) a :=
  yields_call h fun kept => yields_free rfl fun _ => yields_free rfl fun _ =>
    yields_pure ⟨kept, by simp⟩

/-- The held result of an event, once the escrow's hash is known to be its own. -/
theorem yields_keepResult {chain : TaskChain} {taskId count : Nat} {submitter : Address}
    {evidenceHash : Bytes32}
    (hop : t.op = .handle chain (.openSubmission taskId submitter evidenceHash count)) :
    Yields (Asks cfg t) (fun _ a' => ∃ p : Option OpenResult,
      ⟨.redis (.getPending (cfg.taskRef chain taskId) submitter), .ok p⟩ ∈ a' ∧
        ∀ result, p = some result → result.evidenceHash = evidenceHash → ∃ kept : Bool,
          ⟨.redis (.hsetnxResult (cfg.taskRef chain taskId) submitter result), .ok kept⟩ ∈ a')
      (keepResult (cfg.taskRef chain taskId) submitter evidenceHash) a := by
  refine yields_free rfl fun p => ?_
  cases p with
  | none => exact yields_pure ⟨none, by simp, fun _ h => by cases h⟩
  | some pending =>
    refine yields_ite (fun hne => yields_pure ⟨some pending, by simp, ?_⟩) fun heq => ?_
    · intro result h
      cases h
      exact fun h => absurd h hne
    · obtain rfl : pending.evidenceHash = evidenceHash := not_not.mp heq
      refine (yields_keep (.held chain taskId count hop rfl List.mem_cons_self)).bind ?_
      rintro kept a' hsuffix ⟨saved, hsaved⟩
      refine yields_free rfl fun _ => yields_pure ⟨some pending, ?_, ?_⟩
      · exact List.mem_cons_of_mem _ (hsuffix.subset List.mem_cons_self)
      · intro result h
        cases h
        exact fun _ => ⟨saved, List.mem_cons_of_mem _ hsaved⟩

theorem free_call {c : Cmd} (h : c.free = true) : Free (call c) := issues_call h

theorem free_takeHeldSlot {submitter : Address} {nowSec : Nat} :
    Free (takeHeldSlot submitter ref nowSec) := by
  have henough : ∀ holding, Free (holdsEnough submitter holding) := by
    intro holding
    cases holding with
    | true => trivial
    | false => exact Issues.bind (free_call rfl) fun _ => trivial
  refine Issues.bind (free_call rfl) fun _ => Issues.bind (free_call rfl) fun held => ?_
  refine Issues.bind (henough _) fun full => ?_
  cases full with
  | true => trivial
  | false => exact Issues.bind (free_call rfl) fun _ => Issues.bind (free_call rfl) fun _ => trivial

theorem free_forEachSubmitter {visit : List Address → Backend Unit} (hvisit : ∀ l, Free (visit l))
    (pages cursor : Nat) : Free (forEachSubmitter ref visit pages cursor) := by
  induction pages generalizing cursor with
  | zero => trivial
  | succ pages ih =>
    refine Issues.bind (free_call rfl) fun page => Issues.bind ?_ fun _ => ?_
    · unfold visitPage
      split
      · trivial
      · exact hvisit _
    · split
      · trivial
      · exact ih _

/-! ## The events -/

/-- The task is on record. -/
def Recorded (a : Answers Ans Code) (ref : TaskRef) : Prop :=
  (∃ record, ⟨.redis (.getRecord ref), .ok (some record)⟩ ∈ a) ∨
    ∃ record saved, ⟨.redis (.setRecordNX ref record), .ok saved⟩ ∈ a

theorem Recorded.mono (h : Recorded a ref) (hsuffix : a <:+ a') : Recorded a' ref :=
  h.imp (Exists.imp fun _ h => hsuffix.subset h)
    (Exists.imp fun _ => Exists.imp fun _ h => hsuffix.subset h)

theorem yields_scheduleMet {deadline : Nat} :
    Yields (Asks cfg t) (fun _ a' => Scheduled a' ref) (scheduleMet ref deadline) a := by
  refine yields_free rfl fun outcome => ?_
  cases outcome with
  | some outcome => exact yields_pure (.inr ⟨outcome, List.mem_cons_self⟩)
  | none =>
    refine yields_free rfl fun closed => ?_
    have hschedule : ∀ {a}, Yields (Asks cfg t) (fun _ a' => Scheduled a' ref)
        (scheduleJudgeIfAbsent ref deadline) a := fun {a} =>
      yields_one (free_asks rfl) fun _ => .inl ⟨deadline, true, List.mem_cons_self⟩
    cases closed with
    | true => exact hschedule
    | false => exact yields_free rfl fun _ => hschedule

theorem yields_saveRecord (h : MaySave cfg t a (cfg.taskRef record.chain record.taskId)
    { record with scope := some (cfg.chainScope record.chain) }) :
    Yields (Asks cfg t) (fun _ a' => Recorded a' (cfg.taskRef record.chain record.taskId))
      (saveRecord cfg record) a := by
  refine yields_call h fun saved => ?_
  have hrecorded : ∀ {a'}, ⟨.redis (.setRecordNX (cfg.taskRef record.chain record.taskId)
      { record with scope := some (cfg.chainScope record.chain) }), .ok saved⟩ ∈ a' →
      Recorded a' (cfg.taskRef record.chain record.taskId) := fun h => .inr ⟨_, saved, h⟩
  cases saved with
  | true => exact yields_pure (hrecorded List.mem_cons_self)
  | false => exact yields_free rfl fun _ => yields_pure (hrecorded (by simp))

/-- The record of an event's task. Without one the escrow says the task is not open. -/
def Met (cfg : Config) (chain : TaskChain) (taskId : Nat) (found : Option (TaskRef × OpenTaskRecord))
    (a : Answers Ans Code) : Prop :=
  match found with
  | some (ref, _) => ref = cfg.taskRef chain taskId ∧ Recorded a ref
  | none => ∃ openTask : BlindEscrow.OpenTask,
    ⟨.escrow chain (.getOpenTask taskId), .ok openTask⟩ ∈ a ∧ openTask.isOpen = false

theorem yields_ensureRecord {chain : TaskChain} {taskId : Nat} {log : BlindEscrow.Log}
    (hop : t.op = .handle chain log) (hlog : log.openTask = some taskId) :
    Yields (Asks cfg t) (Met cfg chain taskId) (ensureRecord cfg chain taskId) a := by
  refine yields_free rfl fun known => ?_
  cases known with
  | some known => exact yields_pure ⟨rfl, .inl ⟨known, List.mem_cons_self⟩⟩
  | none =>
    refine yields_free rfl fun task => yields_free rfl fun openTask => ?_
    refine yields_ite (fun hclosed => yields_pure ⟨openTask, List.mem_cons_self, hclosed⟩) fun _ => ?_
    refine yields_scheduleMet.bind fun _ a' hsuffix hscheduled => ?_
    refine (yields_saveRecord ⟨⟨log, hop, hlog⟩, rfl, rfl, ⟨task, ?_, rfl⟩, hscheduled⟩).bind ?_
    · exact hsuffix.subset (by simp)
    · exact fun record a'' _ hrecorded => yields_pure ⟨rfl, hrecorded⟩

theorem free_alertPoster {n nowSec : Nat} : Free (alertPoster ref record n nowSec) := by
  unfold alertPoster
  split
  · trivial
  · refine Issues.bind (free_call rfl) fun closed => ?_
    cases closed with
    | true => trivial
    | false =>
      refine Issues.bind (free_call rfl) fun slot => ?_
      split
      · exact free_call rfl
      · trivial

/-- What a handled submission shows: its task is on record, and its held result was kept. -/
def Reported (cfg : Config) (chain : TaskChain) (taskId : Nat) (submitter : Address)
    (evidenceHash : Bytes32) (a : Answers Ans Code) : Prop :=
  Met cfg chain taskId none a ∨ Recorded a (cfg.taskRef chain taskId) ∧
    ∃ p : Option OpenResult,
      ⟨.redis (.getPending (cfg.taskRef chain taskId) submitter), .ok p⟩ ∈ a ∧
        ∀ result, p = some result → result.evidenceHash = evidenceHash → ∃ kept : Bool,
          ⟨.redis (.hsetnxResult (cfg.taskRef chain taskId) submitter result), .ok kept⟩ ∈ a

theorem Reported.mono {chain : TaskChain} {taskId : Nat} {submitter : Address}
    {evidenceHash : Bytes32} (h : Reported cfg chain taskId submitter evidenceHash a)
    (hsuffix : a <:+ a') : Reported cfg chain taskId submitter evidenceHash a' := by
  obtain ⟨openTask, hopen, hclosed⟩ | ⟨hrecorded, p, hp, hkept⟩ := h
  · exact .inl ⟨openTask, hsuffix.subset hopen, hclosed⟩
  · refine .inr ⟨hrecorded.mono hsuffix, p, hsuffix.subset hp, fun result hsome heq => ?_⟩
    obtain ⟨kept, hkept⟩ := hkept result hsome heq
    exact ⟨kept, hsuffix.subset hkept⟩

theorem yields_handleOpenSubmission {chain : TaskChain} {taskId count : Nat} {submitter : Address}
    {evidenceHash : Bytes32}
    (hop : t.op = .handle chain (.openSubmission taskId submitter evidenceHash count)) :
    Yields (Asks cfg t) (fun _ => Reported cfg chain taskId submitter evidenceHash)
      (handleOpenSubmission cfg chain taskId submitter evidenceHash count) a := by
  refine yields_free rfl fun nowSec => (yields_ensureRecord hop rfl).bind ?_
  rintro (_ | ⟨ref, record⟩) a' - hmet
  · exact yields_pure (.inl hmet)
  · obtain ⟨rfl, hrecorded⟩ := hmet
    refine yields_call ⟨chain, taskId, count, hop, rfl⟩ fun isNew => ?_
    refine (yields_keepResult hop).bind fun kept a'' hsuffix hkept => ?_
    have hreported : Reported cfg chain taskId submitter evidenceHash a'' :=
      .inr ⟨hrecorded.mono ((List.suffix_cons _ _).trans hsuffix), hkept⟩
    refine yields_ite (fun _ => ?_) fun _ => yields_pure hreported
    exact (Free.yields free_alertPoster).mono fun _ _ _ hsuffix' => hreported.mono hsuffix'

theorem free_keepScorecard {role : ScorecardRole} {scorecardHash : Bytes32} :
    Free (keepScorecard cfg ref role scorecardHash) := by
  refine Issues.bind (free_call rfl) fun pending => ?_
  cases pending with
  | none => trivial
  | some pending =>
    simp only
    split
    · trivial
    · exact Issues.bind (free_call rfl) fun _ => Issues.bind (free_call rfl) fun _ => trivial

theorem free_keepJudgeScorecard {judge : OpenJudge} {scorecardHash : Bytes32} :
    Free (keepJudgeScorecard cfg ref judge scorecardHash) := by
  unfold keepJudgeScorecard
  split
  · trivial
  · split
    · trivial
    · exact Issues.bind free_keepScorecard fun _ => trivial

/-- A settlement drops its task once its outcome is recorded. -/
theorem yields_settleRecord {kind : OutcomeKind} {judge : OpenJudge} {scorecardHash : Bytes32} :
    Yields (Asks cfg t) (fun _ _ => True) (settleRecord cfg ref kind judge scorecardHash) a := by
  refine yields_free rfl fun saved => (Free.yields free_keepJudgeScorecard).bind ?_
  refine fun _ a' hsuffix _ => yields_free rfl fun _ => yields_one ?_ fun _ => trivial
  exact .settled ⟨kind, judge, scorecardHash⟩ saved
    (List.mem_cons_of_mem _ (hsuffix.subset List.mem_cons_self))

theorem free_creditWinner {chain : TaskChain} {taskId : Nat} {winner : Address} :
    Free (creditWinner chain taskId record winner) := by
  refine Issues.bind (free_call rfl) fun task => ?_
  split
  · exact Issues.bind (Issues.bind (free_call rfl) fun _ => trivial) fun _ => free_call rfl
  · trivial

theorem free_closeListing {kind : OutcomeKind} (credit : Backend Unit) (hcredit : Free credit) :
    Free (closeListing record kind credit) := by
  refine Issues.bind (free_call rfl) fun listing => ?_
  cases listing with
  | none => trivial
  | some listing => exact Issues.bind (free_call rfl) fun _ => hcredit

theorem free_submissionTotal : Free (submissionTotal ref record) := by
  refine Issues.bind (Issues.attempt (free_call rfl)) fun r => ?_
  cases r with
  | ok count => trivial
  | error e => exact free_call rfl

theorem free_tellSubmitters {pages : Nat} {but : Option Address} :
    Free (tellSubmitters pages ref but) :=
  free_forEachSubmitter (fun _ => free_call rfl) pages 0

theorem yields_handleWinnerSelected {pages : Nat} {chain : TaskChain} {taskId : Nat}
    {winner : Address} {judge : BlindEscrow.Judge} {scorecardHash : Bytes32}
    (hop : t.op = .handle chain (.winnerSelected taskId winner judge scorecardHash)) :
    Yields (Asks cfg t) (fun _ _ => True)
      (handleWinnerSelected cfg pages chain taskId winner judge scorecardHash) a := by
  refine (yields_ensureRecord hop rfl).bind ?_
  rintro (_ | ⟨ref, record⟩) a' - -
  · exact yields_pure trivial
  · refine yields_settleRecord.bind fun _ a'' _ _ => ?_
    have hfree : Free (do
        closeListing record (.winner winner) (creditWinner chain taskId record winner)
        let _ ← submissionTotal ref record
        call (Cmd.notify [record.poster])
        call (Cmd.notify [winner])
        tellSubmitters pages ref (some winner)) :=
      Issues.bind (free_closeListing _ free_creditWinner) fun _ =>
        Issues.bind free_submissionTotal fun _ => Issues.bind (free_call rfl) fun _ =>
          Issues.bind (free_call rfl) fun _ => free_tellSubmitters
    exact (Free.yields hfree).mono fun _ _ _ _ => trivial

theorem yields_handleOpenTaskVoided {pages : Nat} {chain : TaskChain} {taskId : Nat}
    {judge : BlindEscrow.Judge} {scorecardHash : Bytes32}
    (hop : t.op = .handle chain (.openTaskVoided taskId judge scorecardHash)) :
    Yields (Asks cfg t) (fun _ _ => True)
      (handleOpenTaskVoided cfg pages chain taskId judge scorecardHash) a := by
  refine (yields_ensureRecord hop rfl).bind ?_
  rintro (_ | ⟨ref, record⟩) a' - -
  · exact yields_pure trivial
  · refine yields_settleRecord.bind fun _ a'' _ _ => ?_
    refine (Free.yields (free_closeListing (pure ()) trivial)).bind fun _ a₃ _ _ => ?_
    refine yields_ite (fun _ => yields_pure trivial) fun _ => ?_
    have hfree : Free (do
        call (Cmd.notify [record.poster])
        tellSubmitters pages ref none) :=
      Issues.bind (free_call rfl) fun _ => free_tellSubmitters
    exact (Free.yields hfree).mono fun _ _ _ _ => trivial

/-! ## The routes -/

theorem yields_submitterOf {user : User} {task : OpenTaskInfo} :
    Yields (Asks cfg t) (fun who a' => who.address = user.address ∧
      ⟨.escrow task.chain (.submissionOf task.taskId user.address), .ok who.alreadySubmitted⟩ ∈ a')
      (submitterOf user task) a := by
  refine yields_free rfl fun collecting => yields_ite (fun _ => yields_throw) fun _ => ?_
  refine yields_ite (fun _ => yields_throw) fun _ => yields_free rfl fun registered => ?_
  refine yields_ite (fun _ => yields_throw) fun _ => yields_free rfl fun onChain => ?_
  refine yields_free rfl fun alreadySubmitted => yields_free rfl fun paused => ?_
  exact yields_ite (fun _ => yields_throw) fun _ => yields_pure ⟨rfl, by simp⟩

theorem free_throw {e : Code} : Free (throw e : Backend α) := trivial

theorem free_ite {p q : Backend α} {b : Prop} [Decidable b] (hp : Free p) (hq : Free q) :
    Free (if b then p else q) := by
  split
  · exact hp
  · exact hq

theorem free_refuseNewSubmission {task : OpenTaskInfo} {who : Submitter} :
    Free (refuseNewSubmission task who) := by
  have hposted : ∀ mine, Free (postedBySameOwner task mine) := by
    intro mine
    unfold postedBySameOwner
    split
    · trivial
    · exact free_call rfl
  have hjudged : ∀ mine, Free (judgedBySameOwner task mine) := by
    intro mine
    unfold judgedBySameOwner
    split
    · trivial
    · exact free_call rfl
  have hreached : Free (deadlineReached task) := by
    unfold deadlineReached
    split
    · trivial
    · exact Issues.bind (free_call rfl) fun _ => free_ite trivial
        (Issues.bind (free_call rfl) fun _ => trivial)
  refine free_ite free_throw (Issues.bind (hposted _) fun _ => free_ite free_throw ?_)
  refine Issues.bind (free_call rfl) fun _ => free_ite free_throw ?_
  refine Issues.bind (hjudged _) fun _ => free_ite free_throw ?_
  exact Issues.bind hreached fun _ => free_ite free_throw trivial

theorem yields_submitOpen {user : User} {taskHash : Bytes32} {body : SubmitOpenBody} :
    Yields (Asks cfg t) (fun _ _ => True) (submitOpen cfg user taskHash body) a := by
  refine yields_free rfl fun task => yields_submitterOf.bind ?_
  rintro who a' - ⟨haddress, halready⟩
  refine yields_ite (fun _ => yields_throw) fun _ => yields_free rfl fun savedAt => ?_
  refine yields_ite (fun hne => ?_) fun _ => ?_
  · refine yields_ite (fun heq => ?_) fun _ => yields_throw
    refine (yields_keep (.committed task.chain task.taskId rfl ?_ ?_ (by exact rfl))).bind
      fun _ _ _ _ => yields_pure trivial
    · rw [haddress, ← heq]
      exact List.mem_cons_of_mem _ halready
    · rwa [← heq]
  · refine (Free.yields free_refuseNewSubmission).bind fun _ _ _ _ => ?_
    refine yields_free rfl fun nowSec => (Free.yields free_takeHeldSlot).bind fun slot _ _ _ => ?_
    refine yields_ite (fun _ => yields_throw) fun _ => ?_
    exact yields_call (by exact rfl) fun _ => yields_free rfl fun _ => yields_pure trivial

/-- Who may see a page of a task: its judges at any time, others once submissions are seen closed. -/
def MaySee (user : User) (task : OpenTaskInfo) (a : Answers Ans Code) : Prop :=
  isJudge user task.listing = true ∨ ∃ phase : OpenPhase,
    ⟨.escrow task.chain (.openPhase task.taskId), .ok phase⟩ ∈ a ∧ phase ≠ .submissions

theorem MaySee.mono {user : User} {task : OpenTaskInfo} (h : MaySee user task a)
    (hsuffix : a <:+ a') : MaySee user task a' := by
  obtain hjudge | ⟨phase, hphase, hne⟩ := h
  · exact .inl hjudge
  · exact .inr ⟨phase, hsuffix.subset hphase, hne⟩

/-- What a read page shows: the results it read are of the task its hash names, which the caller
may see. -/
structure Seen (cfg : Config) (user : User) (taskHash : Bytes32) (task : OpenTaskInfo)
    (a : Answers Ans Code) : Prop where
  opened : ⟨.openTask taskHash, .ok task⟩ ∈ a
  allowed : MaySee user task a
  read : ∀ ref subs r, ⟨.redis (.hmgetResults ref subs), r⟩ ∈ a → ref = task.ref cfg

theorem Seen.cons {user : User} {taskHash : Bytes32} {task : OpenTaskInfo} {c : Cmd}
    {r : Except Code (Ans c)} (h : Seen cfg user taskHash task a)
    (hc : ∀ ref subs, c = .redis (.hmgetResults ref subs) → ref = task.ref cfg) :
    Seen cfg user taskHash task (⟨c, r⟩ :: a) := by
  refine ⟨List.mem_cons_of_mem _ h.opened, h.allowed.mono (List.suffix_cons _ _), ?_⟩
  intro ref subs r' hmem
  obtain heq | hmem := List.mem_cons.mp hmem
  · cases heq
    exact hc ref subs rfl
  · exact h.read ref subs r' hmem

theorem yields_showSubmissions {user : User} {taskHash : Bytes32} {task : OpenTaskInfo}
    {cursor limit : Nat} (h : Seen cfg user taskHash task a) :
    Yields (Asks cfg t) (fun _ => Seen cfg user taskHash task)
      (showSubmissions (task.ref cfg) cursor limit) a := by
  refine yields_free rfl fun page => Yields.bind
    (S := fun _ a' => Seen cfg user taskHash task a') ?_ fun results a' _ hseen => ?_
  · have hpage := h.cons (c := .redis (.hscanSubs (task.ref cfg) cursor (min (max limit 1) 50)))
      (r := .ok page) fun _ _ h => by cases h
    refine yields_ite (fun _ => yields_pure hpage) fun _ => ?_
    refine yields_one (free_asks rfl) fun results => hpage.cons fun ref subs h => ?_
    cases h
    rfl
  · exact yields_free rfl fun total => yields_pure (hseen.cons fun _ _ h => by cases h)

theorem yields_stillOpen {task : OpenTaskInfo} :
    Yields (Asks cfg t) (fun still a' => (∀ ref subs r, ⟨.redis (.hmgetResults ref subs), r⟩ ∈ a' →
      ⟨.redis (.hmgetResults ref subs), r⟩ ∈ a) ∧ (still = false → ∃ phase : OpenPhase,
        ⟨.escrow task.chain (.openPhase task.taskId), .ok phase⟩ ∈ a' ∧ phase ≠ .submissions))
      (stillOpen task) a := by
  refine yields_free rfl fun nowSec => ?_
  cases task.listing.deadline with
  | none => exact yields_pure ⟨by simp, fun h => by cases h⟩
  | some deadline =>
    refine yields_ite (fun _ => yields_pure ⟨by simp, fun h => by cases h⟩) fun _ => ?_
    refine yields_free rfl fun phase => yields_pure ⟨by simp, fun h => ?_⟩
    exact ⟨phase, List.mem_cons_self, of_decide_eq_false h⟩

theorem yields_getSubmissions {user : User} {taskHash : Bytes32} {cursor limit : Nat} :
    Yields (Asks cfg t) (fun _ a => ∃ task, Seen cfg user taskHash task a)
      (getSubmissions cfg user taskHash cursor limit) [] := by
  refine yields_free rfl fun task => ?_
  have hshow : ∀ {a}, Seen cfg user taskHash task a →
      Yields (Asks cfg t) (fun _ a => ∃ task, Seen cfg user taskHash task a)
        (showSubmissions (task.ref cfg) cursor limit) a :=
    fun {a} h => (yields_showSubmissions h).mono fun _ _ _ hseen => ⟨task, hseen⟩
  refine yields_ite (fun hjudge => hshow ⟨List.mem_cons_self, .inl hjudge, by simp⟩) fun _ => ?_
  refine yields_stillOpen.bind fun still a' hsuffix hclosed => ?_
  refine yields_ite (fun _ => yields_throw) fun hstill => hshow ⟨?_, ?_, fun ref subs r hmem => ?_⟩
  · exact hsuffix.subset List.mem_cons_self
  · exact .inr (hclosed.2 (by simpa using hstill))
  · have hnone := hclosed.1 ref subs r hmem
    simp at hnone

/-! ## The judge -/

theorem yields_scanSubmissions (pages cursor : Nat) :
    Yields (Asks cfg t) (fun subs a' => a <:+ a' ∧ ∀ sub ∈ subs, ∃ cursor n page,
      ⟨.redis (.hscanSubs ref cursor n), .ok page⟩ ∈ a' ∧
        ∃ record, (sub.1, record) ∈ page.items ∧ sub.2 = record.ordinal)
      (scanSubmissions ref pages cursor) a := by
  induction pages generalizing a cursor with
  | zero => exact yields_throw
  | succ pages ih =>
    refine yields_free rfl fun page => ?_
    have hpage : ∀ sub ∈ page.items.map fun s => (s.1, s.2.ordinal),
        ∃ record, (sub.1, record) ∈ page.items ∧ sub.2 = record.ordinal := by
      intro sub hsub
      obtain ⟨s, hs, rfl⟩ := List.mem_map.mp hsub
      exact ⟨s.2, hs, rfl⟩
    refine yields_ite (fun _ => yields_pure ⟨List.suffix_cons _ _, fun sub hsub => ?_⟩) fun _ => ?_
    · exact ⟨cursor, SCAN_COUNT, page, List.mem_cons_self, hpage sub hsub⟩
    · refine (ih page.cursor).bind fun subs a' _ hsubs => yields_pure ?_
      refine ⟨(List.suffix_cons _ _).trans hsubs.1, fun sub hsub => ?_⟩
      obtain hsub | hsub := List.mem_append.mp hsub
      · exact ⟨cursor, SCAN_COUNT, page, hsubs.1.subset List.mem_cons_self, hpage sub hsub⟩
      · exact hsubs.2 sub hsub

theorem yields_getResults {subs : List Address} :
    Yields (Asks cfg t) (fun results a' => a <:+ a' ∧ (results = [] ∨
      ⟨.redis (.hmgetResults ref subs), .ok results⟩ ∈ a')) (getResults ref subs) a := by
  refine yields_ite (fun _ => yields_pure ⟨List.suffix_rfl, .inl rfl⟩) fun _ => ?_
  exact yields_one (free_asks rfl) fun _ => ⟨List.suffix_cons _ _, .inr List.mem_cons_self⟩

/-- Batch by batch every submission is judged. -/
theorem yields_judgeBatches {criteria : VerificationCriteria} (batches : Nat)
    (subs : List Submission) (hlength : subs.length ≤ batches) :
    Yields (Asks cfg t) (fun judged a' => a <:+ a' ∧ judged = judgeSubmissions cfg subs criteria)
      (judgeBatches cfg criteria batches subs) a := by
  induction batches generalizing a subs with
  | zero =>
    obtain rfl := List.eq_nil_of_length_eq_zero (Nat.le_zero.mp hlength)
    exact yields_pure ⟨List.suffix_rfl, rfl⟩
  | succ batches ih =>
    have hsplit : judgeSubmissions cfg (subs.take JUDGE_BATCH) criteria ++
        judgeSubmissions cfg (subs.drop JUDGE_BATCH) criteria =
        judgeSubmissions cfg subs criteria := by
      simp only [judgeSubmissions, ← List.map_append, List.take_append_drop]
    refine yields_ite (fun hrest => yields_pure ⟨List.suffix_rfl, ?_⟩) fun hrest => ?_
    · rw [← hsplit, hrest]
      exact (List.append_nil _).symm
    · have hshort : (subs.drop JUDGE_BATCH).length ≤ batches := by
        have hpos := List.length_pos_iff.mpr hrest
        rw [List.length_drop] at hpos ⊢
        simp only [JUDGE_BATCH] at hpos ⊢
        omega
      refine yields_free rfl fun _ => (ih _ hshort).bind fun judged a' _ hjudged => ?_
      refine yields_pure ⟨(List.suffix_cons _ _).trans hjudged.1, ?_⟩
      rw [hjudged.2, hsplit]

/-- A look at a task that has its record. -/
structure Looking (cfg : Config) (a : Answers Ans Code) (ref : TaskRef) (record : OpenTaskRecord) :
    Prop where
  due : Due cfg a ref
  record : ⟨.redis (.getRecord ref), .ok (some record)⟩ ∈ a

theorem Looking.mono (h : Looking cfg a ref record) (hsuffix : a <:+ a') :
    Looking cfg a' ref record := ⟨h.due.mono hsuffix, hsuffix.subset h.record⟩

theorem Looking.cons (h : Looking cfg a ref record) {x : (c : Cmd) × Except Code (Ans c)} :
    Looking cfg (x :: a) ref record := h.mono (List.suffix_cons _ _)

theorem yields_schedule {atSec : Nat} {v : α} :
    Yields (Asks cfg t) (fun _ _ => True)
      (scheduleJudge ref atSec >>= fun _ => pure v) a :=
  yields_free rfl fun _ => yields_pure trivial

theorem yields_unschedule {v : α} (h : MayDrop cfg t a ref) :
    Yields (Asks cfg t) (fun _ _ => True) (unscheduleJudge ref >>= fun _ => pure v) a :=
  yields_call h fun _ => yields_pure trivial

theorem yields_giveUp {v : α} (hjudge : t.op = .judge) (hlooking : Looking cfg a ref record)
    (h : GivenUp cfg a ref record) :
    Yields (Asks cfg t) (fun _ _ => True) (unscheduleJudge ref >>= fun _ => pure v) a :=
  yields_unschedule (.givenUp record hjudge hlooking.due hlooking.record h)

/-- A look in the platform's turn has seen the submissions closed before it counted them. -/
structure Counted (cfg : Config) (t : Call) (a : Answers Ans Code) (look : Look)
    (listing : A2ATaskMeta) (count : Nat) : Prop where
  judge : t.op = .judge
  looking : Looking cfg a look.ref look.record
  count : ∃ phase : OpenPhase, phase ≠ .submissions ∧
    After a (.escrow look.record.chain (.submissionCount look.record.taskId)) (.ok count)
      (.escrow look.record.chain (.openPhase look.record.taskId)) (.ok phase)
  listing : ⟨.listingOf look.record, .ok (some listing)⟩ ∈ a

theorem Counted.mono {look : Look} {listing : A2ATaskMeta} {count : Nat}
    (h : Counted cfg t a look listing count) (hsuffix : a <:+ a') :
    Counted cfg t a' look listing count := by
  obtain ⟨hjudge, hlooking, ⟨phase, hne, hcount⟩, hlisting⟩ := h
  exact ⟨hjudge, hlooking.mono hsuffix, ⟨phase, hne, hcount.mono hsuffix⟩,
    hsuffix.subset hlisting⟩

theorem judgeCall_taskId (asBackup : Bool) (taskId : Nat) (winner : Option JudgedEntry)
    (scorecardHash : Bytes32) : (judgeCall asBackup taskId winner scorecardHash).taskId = taskId := by
  cases winner <;> cases asBackup <;> rfl

theorem yields_settle {look : Look} {count recorded found : Nat} {basis : Basis}
    {judged : List JudgedEntry} {winner : Option JudgedEntry} (hjudge : t.op = .judge)
    (hlooking : Looking cfg a look.ref look.record)
    (h : ∀ a' scorecardHash, a <:+ a' → Decided cfg a' look.record.chain
      (judgeCall look.asBackup look.record.taskId winner scorecardHash) basis) :
    Yields (Asks cfg t) (fun _ _ => True)
      (settle cfg look count recorded found basis judged winner) a := by
  refine Yields.bind (S := fun _ a' => a <:+ a') ?_ fun scorecardHash a' _ hsuffix => ?_
  · exact yields_free rfl fun _ => yields_pure (List.suffix_cons _ _)
  · refine yields_call (h a' _ hsuffix) fun tx => yields_free rfl fun ok => ?_
    refine yields_ite (fun hok => ?_) fun _ => yields_throw
    refine yields_giveUp hjudge (hlooking.mono hsuffix).cons.cons ?_
    obtain rfl : ok = true := by simpa using hok
    exact .sent (judgeCall look.asBackup look.record.taskId winner scorecardHash) basis tx
      (judgeCall_taskId _ _ _ _) (by simp) List.mem_cons_self

theorem yields_judgeRecorded {pages : Nat} {look : Look} {listing : A2ATaskMeta}
    {count recorded : Nat} (h : Counted cfg t a look listing count) :
    Yields (Asks cfg t) (fun _ _ => True)
      (judgeRecorded cfg pages look listing count recorded) a := by
  refine Yields.bind (S := fun subs a' => a <:+ a' ∧ ∀ sub ∈ subs, ∃ cursor n page,
      ⟨.redis (.hscanSubs look.ref cursor n), .ok page⟩ ∈ a' ∧
        ∃ record, (sub.1, record) ∈ page.items ∧ sub.2 = record.ordinal) ?_ ?_
  · refine (yields_scanSubmissions pages 0).bind fun subs a' _ hsubs => yields_pure ?_
    exact ⟨hsubs.1, fun sub hsub => hsubs.2 sub ((List.mem_insertionSort _).mp hsub)⟩
  rintro subs a₁ - ⟨hsuffix₁, hsubs⟩
  refine yields_getResults.bind ?_
  rintro results a₂ - ⟨hsuffix₂, hresults⟩
  refine (yields_judgeBatches _ _ le_rfl).bind ?_
  rintro judged a₃ - ⟨hsuffix₃, rfl⟩
  have hsuffix : a <:+ a₃ := hsuffix₁.trans (hsuffix₂.trans hsuffix₃)
  have hcounted := h.mono hsuffix
  have hdecided : ∀ a' scorecardHash, a₃ <:+ a' →
      (pickWinner (judgeSubmissions cfg ((withResult subs results).take MAX_JUDGED)
        (listing.verificationCriteria.getD NO_CRITERIA)) = none →
          count ≤ ((withResult subs results).take MAX_JUDGED).length) →
      Decided cfg a' look.record.chain (judgeCall look.asBackup look.record.taskId
        (pickWinner (judgeSubmissions cfg ((withResult subs results).take MAX_JUDGED)
          (listing.verificationCriteria.getD NO_CRITERIA))) scorecardHash)
        ⟨look.asBackup, listing.verificationCriteria.getD NO_CRITERIA,
          (withResult subs results).take MAX_JUDGED⟩ := by
    intro a' scorecardHash hsuffix' hvoid
    obtain ⟨-, hlooking, ⟨phase, hne, hcount⟩, hlisting⟩ := hcounted.mono hsuffix'
    refine .mk look.ref look.record phase count listing subs results scorecardHash hlooking.due
      hlooking.record rfl hne hcount hlisting rfl (fun sub hsub => ?_) ?_ rfl rfl hvoid
    · obtain ⟨cursor, n, page, hpage, hin⟩ := hsubs sub hsub
      exact ⟨cursor, n, page, (hsuffix₂.trans (hsuffix₃.trans hsuffix')).subset hpage, hin⟩
    · exact hresults.imp id fun h => (hsuffix₃.trans hsuffix').subset h
  refine yields_ite (fun hsome => ?_) fun hnone => ?_
  · refine yields_settle h.judge hcounted.looking fun a' scorecardHash hsuffix' => ?_
    exact hdecided a' scorecardHash hsuffix' fun hnone => by rw [hnone] at hsome; cases hsome
  refine yields_ite (fun _ => yields_schedule) fun _ => yields_ite (fun _ => ?_) fun hall => ?_
  · refine yields_ite (fun _ => yields_schedule) fun _ => yields_free rfl fun _ => ?_
    exact yields_giveUp h.judge hcounted.looking.cons (.left List.mem_cons_self)
  · refine yields_settle h.judge hcounted.looking fun a' scorecardHash hsuffix' => ?_
    exact hdecided a' scorecardHash hsuffix' fun _ => Nat.le_of_not_lt hall

theorem yields_judgeListed {pages : Nat} {look : Look} (phase : OpenPhase) (hjudge : t.op = .judge)
    (hlooking : Looking cfg a look.ref look.record) (hne : phase ≠ .submissions)
    (hphase : ⟨.escrow look.record.chain (.openPhase look.record.taskId), .ok phase⟩ ∈ a) :
    Yields (Asks cfg t) (fun _ _ => True) (judgeListed cfg pages look) a := by
  refine yields_free rfl fun count => ?_
  refine yields_ite (fun hzero => ?_) fun _ => yields_free rfl fun listing => ?_
  · subst hzero
    exact yields_giveUp hjudge hlooking.cons (.empty phase hne (.head hphase))
  · cases listing with
    | none => exact yields_giveUp hjudge hlooking.cons.cons (.unlisted List.mem_cons_self)
    | some listing =>
      refine yields_free rfl fun recorded => yields_ite (fun _ => yields_schedule) fun _ => ?_
      refine yields_judgeRecorded ⟨hjudge, hlooking.cons.cons.cons, ⟨phase, hne, ?_⟩, by simp⟩
      exact (After.head hphase).mono ((List.suffix_cons _ _).trans (List.suffix_cons _ _))

theorem yields_judgeTurn {pages : Nat} {signer : Address} {phase : OpenPhase} {nowSec : Nat}
    (hjudge : t.op = .judge) (hlooking : Looking cfg a ref record)
    (hphase : ⟨.escrow record.chain (.openPhase record.taskId), .ok phase⟩ ∈ a) :
    Yields (Asks cfg t) (fun _ _ => True)
      (judgeTurn cfg pages ref record signer phase nowSec) a := by
  refine yields_free rfl fun deadline => yields_free rfl fun taskVerifier => ?_
  refine yields_ite (fun hbackup => yields_free rfl fun verifier => ?_) fun _ => ?_
  · refine yields_ite (fun _ => ?_) fun _ => yields_schedule
    refine yields_judgeListed phase hjudge hlooking.cons.cons.cons ?_ (by simp [hphase])
    rw [hbackup]
    decide
  · refine yields_ite (fun hturn => ?_) fun _ => yields_schedule
    refine yields_judgeListed phase hjudge hlooking.cons.cons ?_ (by simp [hphase])
    rw [hturn.1]
    decide

theorem yields_judgeRecord {pages nowSec : Nat} (hjudge : t.op = .judge)
    (hlooking : Looking cfg a ref record) :
    Yields (Asks cfg t) (fun _ _ => True) (judgeRecord cfg pages ref record nowSec) a := by
  unfold judgeRecord
  split
  · exact yields_schedule
  · next signer hsigner =>
    refine yields_free rfl fun phase => yields_ite (fun hover => ?_) fun _ => ?_
    · exact yields_giveUp hjudge hlooking.cons (.past phase hover List.mem_cons_self)
    · refine yields_free rfl fun task => yields_ite (fun hne => ?_) fun _ => ?_
      · exact yields_giveUp hjudge hlooking.cons.cons
          (.another task hne (.head hlooking.cons.record))
      · exact yields_judgeTurn hjudge hlooking.cons.cons (by simp)

theorem yields_judgeOne {pages nowSec : Nat} (hjudge : t.op = .judge) (hdue : Due cfg a ref) :
    Yields (Asks cfg t) (fun _ _ => True) (judgeOne cfg pages ref nowSec) a := by
  refine yields_free rfl fun found => ?_
  cases found with
  | none => exact yields_schedule
  | some record =>
    refine yields_free rfl fun outcome => yields_ite (fun hdone => ?_) fun _ => ?_
    all_goals have hlooking : Looking cfg (⟨.redis (.getOutcome ref), .ok outcome⟩ ::
        ⟨.redis (.getRecord ref), .ok (some record)⟩ :: a) ref record :=
      ⟨hdue.mono ((List.suffix_cons _ _).trans (List.suffix_cons _ _)), by simp⟩
    · refine yields_unschedule ?_
      obtain hsome | helse := hdone
      · obtain ⟨o, rfl⟩ := Option.isSome_iff_exists.mp hsome
        exact .outcome o List.mem_cons_self
      · exact .givenUp record hjudge hlooking.due hlooking.record (.elsewhere helse)
    · exact yields_judgeRecord hjudge hlooking

/-! ## The tick -/

theorem yields_judgeDueTasks {pages nowSec : Nat} (hjudge : t.op = .judge) (refs : List TaskRef)
    (hdue : ∀ ref ∈ refs, Due cfg a ref) (settled : Nat) :
    Yields (Asks cfg t) (fun _ a' => a <:+ a') (judgeDueTasks cfg pages nowSec refs settled) a := by
  induction refs generalizing a settled with
  | nil => exact yields_pure List.suffix_rfl
  | cons ref refs ih =>
    have hrest : ∀ settled {a'}, a <:+ a' → Yields (Asks cfg t) (fun _ a'' => a <:+ a'')
        (judgeDueTasks cfg pages nowSec refs settled) a' := fun settled {a'} hsuffix =>
      (ih (fun ref h => (hdue ref (List.mem_cons_of_mem _ h)).mono hsuffix) settled).mono
        fun _ _ _ hsuffix' => hsuffix.trans hsuffix'
    refine (yields_judgeOne hjudge (hdue ref List.mem_cons_self)).attempt fun r a' hsuffix _ => ?_
    cases r with
    | ok action => exact hrest _ hsuffix
    | error e =>
      exact (yields_one (R := fun _ _ => True) (free_asks rfl) fun _ => trivial).attempt
        fun _ _ hsuffix' _ => hrest _ (hsuffix.trans hsuffix')

theorem yields_judgeScopes {pages nowSec : Nat} (hjudge : t.op = .judge) (scopes : List Scope)
    (hown : ∀ scope ∈ scopes, scope ∈ ownScopes cfg) (settled : Nat) :
    Yields (Asks cfg t) (fun _ _ => True) (judgeScopes cfg pages nowSec scopes settled) a := by
  induction scopes generalizing a settled with
  | nil => exact yields_pure trivial
  | cons scope scopes ih =>
    refine (yields_one (c := .redis (.zrangeJudge scope nowSec JUDGE_LIMIT)) (R := fun due a' =>
      ⟨.redis (.zrangeJudge scope nowSec JUDGE_LIMIT), .ok due⟩ ∈ a') (free_asks rfl)
      fun _ => List.mem_cons_self).attempt fun r a' _ hr => ?_
    cases r with
    | ok due =>
      refine (yields_judgeDueTasks hjudge due (fun ref href => ?_) settled).bind
        fun settled' _ _ _ => ih (fun scope h => hown scope (List.mem_cons_of_mem _ h)) settled'
      exact ⟨scope, nowSec, JUDGE_LIMIT, due, hown scope List.mem_cons_self, href, hr due rfl⟩
    | error e => exact yields_pure trivial

theorem yields_judgeOpenSubmissions {pages : Nat} (hjudge : t.op = .judge) :
    Yields (Asks cfg t) (fun _ _ => True) (judgeOpenSubmissions cfg pages) a := by
  refine yields_free rfl fun nowSec => yields_ite (fun _ => yields_pure trivial) fun _ => ?_
  refine yields_free rfl fun allowed => yields_ite (fun _ => yields_pure trivial) fun _ => ?_
  refine yields_free rfl fun inFlight => yields_ite (fun _ => yields_pure trivial) fun _ => ?_
  refine (yields_judgeScopes hjudge _ (fun _ h => h) 0).bind fun _ _ _ _ => ?_
  exact yields_free rfl fun _ => yields_pure trivial

/-! ## The tasks from before -/

/-- More answers, none of them to a scan. -/
def Quietly (a a' : Answers Ans Code) : Prop :=
  a <:+ a' ∧ ∀ cursor r, ⟨.redis (.scanRecords cursor), r⟩ ∈ a' → ⟨.redis (.scanRecords cursor), r⟩ ∈ a

theorem Quietly.refl (a : Answers Ans Code) : Quietly a a := ⟨List.suffix_rfl, fun _ _ h => h⟩

theorem Quietly.trans {a'' : Answers Ans Code} (h : Quietly a a') (h' : Quietly a' a'') :
    Quietly a a'' :=
  ⟨h.1.trans h'.1, fun cursor r hmem => h.2 cursor r (h'.2 cursor r hmem)⟩

theorem Quietly.cons {c : Cmd} {r : Except Code (Ans c)} (h : Quietly a a')
    (hc : ∀ cursor, c ≠ .redis (.scanRecords cursor)) : Quietly a (⟨c, r⟩ :: a') := by
  refine ⟨h.1.trans (List.suffix_cons _ _), fun cursor r' hmem => ?_⟩
  obtain heq | hmem := List.mem_cons.mp hmem
  · cases heq
    exact absurd rfl (hc cursor)
  · exact h.2 cursor r' hmem

theorem free_ne_scan {c : Cmd} (h : c.free = true) (cursor : Nat) :
    c ≠ .redis (.scanRecords cursor) := by
  rintro rfl
  cases h

theorem Free.quietly {p : Backend α} (hp : Free p) :
    Yields (Asks cfg t) (fun _ a' => Quietly a a') p a := by
  refine Told.mono (Issues.told (I := Quietly a) (T := Asks cfg t) hp (.refl a) ?_ ?_)
    (fun _ _ => id) fun _ _ hq _ _ => hq
  · exact fun a' c r hq hc => hq.cons (free_ne_scan hc)
  · exact fun a' c _ hc => free_asks hc

theorem SeenTo.mono (h : SeenTo cfg a ref) (hsuffix : a <:+ a') : SeenTo cfg a' ref := by
  obtain hnone | ⟨record, helse, hrecord⟩ | ⟨atSec, nx, hadd⟩ | ⟨outcome, houtcome⟩ := h
  · exact .inl (hsuffix.subset hnone)
  · exact .inr (.inl ⟨record, helse, hsuffix.subset hrecord⟩)
  · exact .inr (.inr (.inl ⟨atSec, nx, hsuffix.subset hadd⟩))
  · exact .inr (.inr (.inr ⟨outcome, hsuffix.subset houtcome⟩))

theorem SeenToAll.mono {scope : Scope} (h : SeenToAll cfg a scope) (hq : Quietly a a') :
    SeenToAll cfg a' scope :=
  ⟨fun cursor r hmem => h.answered cursor r (hq.2 cursor r hmem),
    fun cursor page hmem ref href hscope =>
      (h.each cursor page (hq.2 cursor _ hmem) ref href hscope).mono hq.1⟩

theorem MayMark.mono {scope : Scope} (h : MayMark cfg a scope) (hq : Quietly a a') :
    MayMark cfg a' scope := by
  obtain ⟨cursor, page, hpage, hend⟩ := h.complete
  exact ⟨h.toSeenToAll.mono hq, cursor, page, hq.1.subset hpage, hend⟩

theorem free_pendingScopes (scopes : List Scope) : Free (pendingScopes scopes) := by
  induction scopes with
  | nil => trivial
  | cons scope scopes ih => exact Issues.bind (free_call rfl) fun _ => Issues.bind ih fun _ => trivial

theorem yields_scheduleExisting {pending : List Scope} (ref : TaskRef) :
    Yields (Asks cfg t) (fun _ a' => Quietly a a' ∧ (ref.scope ∈ pending → SeenTo cfg a' ref))
      (scheduleExisting cfg pending ref) a := by
  have hfree : ∀ {c : Cmd} {r : Except Code (Ans c)} {a' : Answers Ans Code}, c.free = true →
      Quietly a a' → Quietly a (⟨c, r⟩ :: a') := fun hc h => h.cons (free_ne_scan hc)
  refine yields_ite (fun hout => yields_pure ⟨.refl a, fun h => absurd h hout⟩) fun _ => ?_
  refine yields_free rfl fun found => ?_
  cases found with
  | none => exact yields_pure ⟨hfree rfl (.refl a), fun _ => .inl List.mem_cons_self⟩
  | some record =>
    refine yields_ite (fun helse => yields_pure ⟨hfree rfl (.refl a), fun _ => ?_⟩) fun _ => ?_
    · exact .inr (.inl ⟨record, helse, List.mem_cons_self⟩)
    · refine yields_free rfl fun outcome => yields_ite (fun hsome => ?_) fun _ => ?_
      · obtain ⟨outcome, rfl⟩ := Option.isSome_iff_exists.mp hsome
        refine yields_pure ⟨hfree rfl (hfree rfl (.refl a)), fun _ => ?_⟩
        exact .inr (.inr (.inr ⟨outcome, List.mem_cons_self⟩))
      · refine yields_free rfl fun _ => yields_pure ⟨hfree rfl (hfree rfl (hfree rfl (.refl a))), ?_⟩
        exact fun _ => .inr (.inr (.inl ⟨record.deadline, true, List.mem_cons_self⟩))

theorem yields_scheduleAll {pending : List Scope} (refs : List TaskRef) (scheduled : Nat) :
    Yields (Asks cfg t) (fun _ a' => Quietly a a' ∧
      ∀ ref ∈ refs, ref.scope ∈ pending → SeenTo cfg a' ref)
      (scheduleAll cfg pending refs scheduled) a := by
  induction refs generalizing a scheduled with
  | nil => exact yields_pure ⟨.refl a, fun _ h => by cases h⟩
  | cons ref refs ih =>
    refine (yields_scheduleExisting ref).bind fun n a' _ hfirst => ?_
    refine (ih (scheduled + n)).mono fun _ a'' _ hrest => ?_
    refine ⟨hfirst.1.trans hrest.1, fun ref' href hscope => ?_⟩
    obtain rfl | href := List.mem_cons.mp href
    · exact (hfirst.2 hscope).mono hrest.1.1
    · exact hrest.2 ref' href hscope

theorem yields_forEachRecordRef {pending : List Scope} (pages cursor scheduled : Nat)
    (hcursor : cursor = 0 ∨ ∃ cursor r, ⟨.redis (.scanRecords cursor), r⟩ ∈ a)
    (h : ∀ scope ∈ pending, SeenToAll cfg a scope) :
    Yields (Asks cfg t) (fun _ a' => ∀ scope ∈ pending, MayMark cfg a' scope)
      (forEachRecordRef (scheduleAll cfg pending) pages cursor scheduled) a := by
  induction pages generalizing a cursor scheduled with
  | zero => exact yields_throw
  | succ pages ih =>
    refine yields_call hcursor fun page => ?_
    refine (yields_scheduleAll page.items scheduled).bind fun scheduled' a' _ hpage => ?_
    have hscan : ⟨.redis (.scanRecords cursor), .ok page⟩ ∈ a' :=
      hpage.1.1.subset List.mem_cons_self
    have hall : ∀ scope ∈ pending, SeenToAll cfg a' scope := by
      intro scope hscope
      constructor
      · intro cursor' r hmem
        obtain heq | hmem := List.mem_cons.mp (hpage.1.2 cursor' r hmem)
        · cases heq
          exact ⟨page, rfl⟩
        · exact (h scope hscope).answered cursor' r hmem
      · intro cursor' page' hmem ref href hin
        obtain heq | hmem := List.mem_cons.mp (hpage.1.2 cursor' (.ok page') hmem)
        · cases heq
          exact hpage.2 ref href (by rwa [hin])
        · have hseen := (h scope hscope).each cursor' page' hmem ref href hin
          exact hseen.mono ((List.suffix_cons _ _).trans hpage.1.1)
    refine yields_ite (fun hend => yields_pure fun scope hscope => ?_) fun _ => ?_
    · exact ⟨hall scope hscope, cursor, page, hscan, hend⟩
    · exact ih page.cursor scheduled' (.inr ⟨cursor, .ok page, hscan⟩) hall

theorem yields_markAll (pending : List Scope) (h : ∀ scope ∈ pending, MayMark cfg a scope) :
    Yields (Asks cfg t) (fun _ _ => True) (markAll pending) a := by
  induction pending generalizing a with
  | nil => exact yields_pure trivial
  | cons scope pending ih =>
    refine yields_call (h scope List.mem_cons_self) fun _ => ih fun scope' hscope => ?_
    exact (h scope' (List.mem_cons_of_mem _ hscope)).mono ((Quietly.refl a).cons fun _ h => by cases h)

theorem yields_scheduleExistingOpenTasks {pages : Nat} :
    Yields (Asks cfg t) (fun _ _ => True) (scheduleExistingOpenTasks cfg pages) [] := by
  refine (Free.quietly (free_pendingScopes _)).bind fun pending a' _ hq => ?_
  have hnone : ∀ cursor r, ⟨.redis (.scanRecords cursor), r⟩ ∉ a' := fun cursor r hmem =>
    List.not_mem_nil (hq.2 cursor r hmem)
  refine yields_ite (fun _ => yields_pure trivial) fun _ => ?_
  refine (yields_forEachRecordRef pages 0 0 (.inl rfl) fun scope _ => ⟨?_, ?_⟩).bind ?_
  · exact fun cursor r hmem => absurd hmem (hnone cursor r)
  · exact fun cursor page hmem => absurd hmem (hnone cursor (.ok page))
  · exact fun scheduled a'' _ hmark => (yields_markAll pending hmark).bind fun _ _ _ _ =>
      yields_pure trivial

/-! ## Every program -/

/-- What the end of a program shows. -/
def Shown (cfg : Config) (t : Call) (a : Answers Ans Code) : Prop :=
  match t.op with
  | .handle chain (.openSubmission taskId submitter evidenceHash _) =>
    Reported cfg chain taskId submitter evidenceHash a
  | .getSubmissions user taskHash _ _ => ∃ task, Seen cfg user taskHash task a
  | _ => True

theorem yields_handleOpenEvent {chain : TaskChain} {log : BlindEscrow.Log}
    (hop : t.op = .handle chain log) :
    Yields (Asks cfg t) (fun _ => Shown cfg t) (handleOpenEvent cfg t.pages chain log) a := by
  have hother : (∀ taskId submitter evidenceHash count,
      log ≠ .openSubmission taskId submitter evidenceHash count) → ∀ {a}, Shown cfg t a := by
    intro hne a
    unfold Shown
    rw [hop]
    split
    · next heq =>
      cases heq
      exact absurd rfl (hne _ _ _ _)
    · next heq => cases heq
    · trivial
  cases log with
  | openTaskCreated taskId mode creatorWindow =>
    exact (yields_ensureRecord hop rfl).bind fun _ _ _ _ => yields_pure
      (hother fun _ _ _ _ h => by cases h)
  | openSubmission taskId submitter evidenceHash count =>
    refine (yields_handleOpenSubmission hop).mono fun _ a' _ h => ?_
    unfold Shown
    rw [hop]
    exact h
  | winnerSelected taskId winner judge scorecardHash =>
    exact (yields_handleWinnerSelected hop).mono fun _ _ _ _ => hother fun _ _ _ _ h => by cases h
  | openTaskVoided taskId judge scorecardHash =>
    exact (yields_handleOpenTaskVoided hop).mono fun _ _ _ _ => hother fun _ _ _ _ h => by cases h
  | _ => exact yields_pure (hother fun _ _ _ _ h => by cases h)

theorem yields_prog (cfg : Config) (t : Call) :
    Yields (Asks cfg t) (fun _ => Shown cfg t) (t.prog cfg) [] := by
  unfold Call.prog
  split
  · next user taskHash body hop =>
    refine yields_submitOpen.bind fun _ a _ _ => yields_pure ?_
    simp [Shown, hop]
  · next user taskHash cursor limit hop =>
    refine yields_getSubmissions.bind fun _ a _ hsee => yields_pure ?_
    simpa [Shown, hop] using hsee
  · next chain log hop =>
    exact (yields_handleOpenEvent hop).bind fun _ a _ hshown => yields_pure hshown
  · next hop =>
    refine (yields_judgeOpenSubmissions hop).bind fun _ a _ _ => yields_pure ?_
    simp [Shown, hop]
  · next hop =>
    refine yields_scheduleExistingOpenTasks.bind fun _ a _ _ => yields_pure ?_
    simp [Shown, hop]

end OpenSubmissions
