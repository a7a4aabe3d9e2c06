import BlindMarket.Escrow.Rows

/-!
# Reading the effects off the code

One lemma per function, each by inverting its guards; together they say that
every successful call is an `Effect`.
-/
namespace BlindEscrow

open Checked

variable {x : Ctx} {s s' : Escrow} {id : Nat} {todo : List Action}

/-! ## Writes as rows -/

theorem put_task (s : Escrow) (id : Nat) (t : Task) :
    s.put id { s.row id with task := t } = { s with tasks := Function.update s.tasks id t } := by
  simp [Escrow.put, Escrow.row]

theorem put_verdict (s : Escrow) (id : Nat) (t : Task) (now : Nat) :
    s.put id { s.row id with task := t, failedVerdictAt := now } =
      { s with
        tasks := Function.update s.tasks id t
        failedVerdictAt := Function.update s.failedVerdictAt id now } := by
  simp [Escrow.put, Escrow.row]

theorem put_escalation (s : Escrow) (id : Nat) (t : Task) :
    s.put id { s.row id with task := t, unjudged := true } =
      { s with
        tasks := Function.update s.tasks id t
        unjudgedEscalation := Function.update s.unjudgedEscalation id true } := by
  simp [Escrow.put, Escrow.row]

theorem put_submission (s : Escrow) (id : Nat) (of : Address → Bytes32) (count : Nat) :
    s.put id { s.row id with submissionOf := of, submissionCount := count } =
      { s with
        submissionOf := Function.update s.submissionOf id of
        submissionCount := Function.update s.submissionCount id count } := by
  simp [Escrow.put, Escrow.row]

theorem put_closed (s : Escrow) (id : Nat) (t : Task) (o : OpenTask) (scorecard : Bytes32) :
    s.put id { s.row id with task := t, openTask := o, scorecard := scorecard } =
      { s with
        tasks := Function.update s.tasks id t
        openTasks := Function.update s.openTasks id o
        scorecardOf := Function.update s.scorecardOf id scorecard } := by
  simp [Escrow.put, Escrow.row]

/-! ## Clocks and fees -/

theorem effectiveDeadline_eq_ok {now d : Nat} :
    effectiveDeadline s now id = .ok d ↔
      ∃ ext, pauseExtension s now id = .ok ext ∧ d = (s.tasks id).deadline + ext := by
  simp only [effectiveDeadline, seq_eq_ok, pure_eq, Except.ok.injEq]
  constructor <;> rintro ⟨ext, h, rfl⟩ <;> exact ⟨ext, h, rfl⟩

theorem platformFee_eq_ok {amount fee : Nat} :
    platformFee s amount = .ok fee ↔
      amount * s.feeBps < word ∧ fee = amount * s.feeBps / 10000 := by
  simp only [platformFee, seq_eq_ok, mul_eq_ok, pure_eq, Except.ok.injEq]
  constructor
  · rintro ⟨product, ⟨h, rfl⟩, rfl⟩
    exact ⟨h, rfl⟩
  · rintro ⟨h, rfl⟩
    exact ⟨_, ⟨h, rfl⟩, rfl⟩

theorem payWorker_eq_ok {score payout fee : Nat} {pays : List Action} :
    payWorker id score s = .ok (s', payout, fee, pays) ↔
      platformFee s (s.tasks id).amount = .ok fee ∧ fee ≤ (s.tasks id).amount ∧
      payout = (s.tasks id).amount - fee ∧
      s' = { s with
        tasks := Function.update s.tasks id { s.tasks id with status := .completed } } ∧
      pays = [.transferPayout id .worker payout, .transferPayout id .treasury fee,
        .rate id score] := by
  simp only [payWorker, seq_eq_ok, sub_eq_ok, pure_eq, Except.ok.injEq, Prod.mk.injEq]
  constructor
  · rintro ⟨fee', hfee, payout', ⟨hle, rfl⟩, rfl, rfl, rfl, rfl⟩
    exact ⟨hfee, hle, rfl, rfl, rfl⟩
  · rintro ⟨hfee, hle, rfl, rfl, rfl⟩
    exact ⟨fee, hfee, _, ⟨hle, rfl⟩, rfl, rfl, rfl, rfl⟩

/-! ## Single-worker functions -/

theorem assign_effect {op : Op} {worker barred : Address} (hid : op.taskId = some id)
    (hp : s.paused = false)
    (hop : op = .assignWorker id worker ∧ x.sender = (s.tasks id).agent ∨
      op = .marketplaceAssign id worker ∧ x.sender = s.verifier)
    (hbar : barred = (s.tasks id).agent)
    (h : assign x id worker barred s = .ok (s', todo)) : Effect x s op s' todo := by
  subst hbar
  simp only [assign, effectiveDeadline_eq_ok, pure_eq, Except.ok.injEq, Prod.mk.injEq,
    seq_eq_ok, require_eq_ok, exists_const] at h
  obtain ⟨ho, hst, h0, hne, d, ⟨ext, hext, rfl⟩, hd, rfl, rfl⟩ := h
  rw [← put_task]
  exact .move id op _ _ hid (.assign op worker ext hp hop ho hst h0 hne hext hd)

theorem assignWorker_effect {worker : Address}
    (h : assignWorker x id worker s = .ok (s', todo)) :
    Effect x s (.assignWorker id worker) s' todo := by
  simp only [assignWorker, onlyAgent, whenNotPaused, seq_eq_ok, require_eq_ok, exists_const] at h
  obtain ⟨hs, hp, h⟩ := h
  exact assign_effect rfl hp (.inl ⟨rfl, hs⟩) hs h

theorem marketplaceAssign_effect {worker : Address}
    (h : marketplaceAssign x id worker s = .ok (s', todo)) :
    Effect x s (.marketplaceAssign id worker) s' todo := by
  simp only [marketplaceAssign, onlyVerifier, whenNotPaused, seq_eq_ok, require_eq_ok,
    exists_const] at h
  obtain ⟨hs, hp, h⟩ := h
  exact assign_effect rfl hp (.inr ⟨rfl, hs⟩) rfl h

theorem submitEvidence_effect {hash : Bytes32}
    (h : submitEvidence x id hash s = .ok (s', todo)) :
    Effect x s (.submitEvidence id hash) s' todo := by
  simp only [submitEvidence, onlyWorker, whenNotPaused, effectiveDeadline_eq_ok, pure_eq,
    Except.ok.injEq, Prod.mk.injEq, seq_eq_ok, require_eq_ok, exists_const] at h
  obtain ⟨hs, hp, hst, h0, d, ⟨ext, hext, rfl⟩, hd, hatt, rfl, rfl⟩ := h
  rw [← put_task]
  refine .move id _ _ _ rfl (.evidence hash ext hp hs ?_ h0 hext hd)
  rcases hst with hst | hst
  · exact .inl hst
  · exact .inr ⟨hst, hatt hst⟩

/-- A verdict after its gate, with the events it emits first. -/
theorem verdict_effect {op : Op} {passed : Bool} {emitted : List Action}
    (hid : op.taskId = some id) (hl : x.locked = false) (hp : s.paused = false)
    (hop : op = .completeVerification id passed ∨
      ∃ signature text, op = .completeVerificationWithTEE id passed signature text)
    (hs : x.sender = if s.taskVerifier id ≠ 0 then s.taskVerifier id else s.verifier)
    (hw : x.sender ≠ (s.tasks id).worker) (hst : (s.tasks id).status = .submitted)
    (hem : ∀ a ∈ emitted, ∃ log, a = .emit log)
    (h : verdict x id passed emitted s = .ok (s', todo)) : Effect x s op s' todo := by
  cases passed with
  | true =>
    simp only [verdict, ↓reduceIte, passScore, seq_eq_ok, pure_eq, Except.ok.injEq, Prod.exists,
      payWorker_eq_ok, Prod.mk.injEq] at h
    obtain ⟨score, ⟨rated, hrated, rfl⟩, s₁, payout, fee, pays,
      ⟨hfee, hle, rfl, rfl, rfl⟩, rfl, rfl⟩ := h
    obtain rfl : rated = fee := by rw [hrated] at hfee; exact Except.ok.inj hfee
    rw [← put_task]
    exact .move id op _ _ hid (.complete op rated _ _ _ hl hfee hle
      (.passed op rated emitted hp hop hs hw hst hfee hem))
  | false =>
    simp only [verdict, Bool.false_eq_true, ↓reduceIte, pure_eq, Except.ok.injEq,
      Prod.mk.injEq] at h
    obtain ⟨rfl, rfl⟩ := h
    rw [← put_verdict]
    refine .move id op _ _ hid (.fail op emitted _ hl hp hop hs hw hst hem ?_)
    split
    · exact .inr rfl
    · exact .inl rfl

theorem verdictGate_eq_ok {u : Unit} :
    verdictGate x id s = .ok u ↔
      x.sender = (if s.taskVerifier id ≠ 0 then s.taskVerifier id else s.verifier) ∧
      x.sender ≠ (s.tasks id).worker ∧ (s.tasks id).status = .submitted := by
  simp only [verdictGate, require_eq_ok, seq_eq_ok, require_eq_ok, exists_const]

theorem completeVerification_effect {passed : Bool}
    (h : completeVerification x id passed s = .ok (s', todo)) :
    Effect x s (.completeVerification id passed) s' todo := by
  simp only [completeVerification, nonReentrant, whenNotPaused, verdictGate_eq_ok, seq_eq_ok,
    require_eq_ok, exists_const] at h
  obtain ⟨hl, hp, ⟨hs, hw, hst⟩, h⟩ := h
  exact verdict_effect rfl hl hp (.inl rfl) hs hw hst (by simp) h

theorem completeVerificationWithTEE_effect {recover : Bytes → Bytes → Option Address}
    {passed : Bool} {signature text : Bytes}
    (h : completeVerificationWithTEE recover x id passed signature text s = .ok (s', todo)) :
    Effect x s (.completeVerificationWithTEE id passed signature text) s' todo := by
  simp only [completeVerificationWithTEE, nonReentrant, whenNotPaused, verdictGate_eq_ok,
    seq_eq_ok, require_eq_ok, exists_const] at h
  obtain ⟨hl, hp, ⟨hs, hw, hst⟩, -, -, h⟩ := h
  exact verdict_effect rfl hl hp (.inr ⟨signature, text, rfl⟩) hs hw hst (by simp) h

theorem cancelTask_effect (h : cancelTask x id s = .ok (s', todo)) :
    Effect x s (.cancelTask id) s' todo := by
  simp only [cancelTask, onlyAgent, nonReentrant, whenNotPaused, pure_eq, Except.ok.injEq,
    Prod.mk.injEq, seq_eq_ok, require_eq_ok, exists_const] at h
  obtain ⟨hs, hl, hp, hst, hc, rfl, rfl⟩ := h
  rw [← put_task]
  exact .move id _ _ _ rfl (.refund _ _ hl (.withdrawn hp hs hst hc))

theorem timeoutRefund_eq_ok :
    timeoutRefund id s = .ok (s', todo) ↔
      s' = s.put id { s.row id with task := { s.tasks id with status := .cancelled } } ∧
      todo = guarded [.transferPayout id .agent (s.tasks id).amount,
        .emit (.deadlineExpired id (s.tasks id).amount)] := by
  simp only [timeoutRefund, pure_eq, Except.ok.injEq, Prod.mk.injEq, put_task, eq_comm]

theorem claimTimeout_effect (h : claimTimeout x id s = .ok (s', todo)) :
    Effect x s (.claimTimeout id) s' todo := by
  simp only [claimTimeout, onlyAgent, nonReentrant, whenNotPaused, effectiveDeadline_eq_ok,
    seq_eq_ok, require_eq_ok, exists_const] at h
  obtain ⟨hs, hl, hp, d, ⟨ext, hext, rfl⟩, hd, h⟩ := h
  cases hst : (s.tasks id).status with
  | submitted =>
    simp only [hst, pure_eq, Except.ok.injEq, Prod.mk.injEq] at h
    obtain ⟨rfl, rfl⟩ := h
    rw [← put_escalation]
    exact .move id _ _ _ rfl (.escalate ext hl hp hs hext hd hst)
  | disputed =>
    rw [hst] at h
    simp only [hext, ok_bind, timeoutRefund_eq_ok, seq_eq_ok, require_eq_ok, exists_const] at h
    obtain ⟨hu, ⟨h0, ht⟩, rfl, rfl⟩ := h
    exact .move id _ _ _ rfl (.refund _ _ hl (.stale ext hp hs hext hd hst hu h0 ht))
  | verified =>
    rw [hst] at h
    dsimp only at h
    rw [hext, ok_bind] at h
    obtain ⟨_, ht, h⟩ := seq_eq_ok.mp h
    obtain ⟨rfl, rfl⟩ := timeoutRefund_eq_ok.mp h
    rw [require_eq_ok] at ht
    exact .move id _ _ _ rfl (.refund _ _ hl (.failed ext hp hs hext hd hst ht))
  | assigned =>
    simp only [hst, timeoutRefund_eq_ok] at h
    obtain ⟨rfl, rfl⟩ := h
    exact .move id _ _ _ rfl (.refund _ _ hl (.ghosted ext hp hs hext hd hst))
  | funded => simp only [hst, reduceCtorEq] at h
  | completed => simp only [hst, reduceCtorEq] at h
  | cancelled => simp only [hst, reduceCtorEq] at h

theorem raiseDispute_effect (h : raiseDispute x id s = .ok (s', todo)) :
    Effect x s (.raiseDispute id) s' todo := by
  simp only [raiseDispute, whenNotPaused, pure_eq, Except.ok.injEq, Prod.mk.injEq, seq_eq_ok,
    require_eq_ok, exists_const] at h
  obtain ⟨hp, hs, hst, ext, hext, hd, rfl, rfl⟩ := h
  rw [← put_task]
  exact .move id _ _ _ rfl (.dispute ext hp hs hst hext hd)

theorem resolveDispute_effect {workerFavored : Bool}
    (h : resolveDispute x id workerFavored s = .ok (s', todo)) :
    Effect x s (.resolveDispute id workerFavored) s' todo := by
  simp only [resolveDispute, onlyAdmin, nonReentrant, seq_eq_ok, require_eq_ok, exists_const] at h
  obtain ⟨hs, hl, hst, h⟩ := h
  cases workerFavored with
  | true =>
    simp only [↓reduceIte, seq_eq_ok, Prod.exists, payWorker_eq_ok, pure_eq, Except.ok.injEq,
      Prod.mk.injEq] at h
    obtain ⟨s₁, payout, fee, pays, ⟨hfee, hle, rfl, rfl, rfl⟩, rfl, rfl⟩ := h
    rw [← put_task]
    exact .move id _ _ _ rfl (.complete _ fee 3 [] _ hl hfee hle (.ruled fee hs hst hfee))
  | false =>
    simp only [Bool.false_eq_true, ↓reduceIte, pure_eq, Except.ok.injEq, Prod.mk.injEq] at h
    obtain ⟨rfl, rfl⟩ := h
    rw [← put_task]
    exact .move id _ _ _ rfl (.refund _ _ hl (.ruled hs hst))

theorem releaseUnjudgedWork_effect (h : releaseUnjudgedWork x id s = .ok (s', todo)) :
    Effect x s (.releaseUnjudgedWork id) s' todo := by
  simp only [releaseUnjudgedWork, onlyWorker, nonReentrant, whenNotPaused, Prod.exists,
    payWorker_eq_ok, pure_eq, Except.ok.injEq, Prod.mk.injEq, seq_eq_ok, require_eq_ok,
    exists_const] at h
  obtain ⟨hs, hl, hp, hst, hu, ext, hext, ht, s₁, payout, fee, pays,
    ⟨hfee, hle, rfl, rfl, rfl⟩, rfl, rfl⟩ := h
  rw [← put_task]
  exact .move id _ _ _ rfl
    (.complete _ fee 0 [] _ hl hfee hle (.released fee ext hp hs hst hu hext ht hfee))

/-! ## Open submission -/

theorem submitOpen_effect {hash : Bytes32} (h : submitOpen x id hash s = .ok (s', todo)) :
    Effect x s (.submitOpen id hash) s' todo := by
  simp only [submitOpen, whenNotPaused, effectiveDeadline_eq_ok, pure_eq, Except.ok.injEq,
    Prod.mk.injEq, seq_eq_ok, require_eq_ok, exists_const] at h
  obtain ⟨hp, ho, hst, ⟨ha, hv, hg⟩, h0, d, ⟨ext, hext, rfl⟩, hd, hnew, rfl, rfl⟩ := h
  rw [← put_submission]
  exact .move id _ _ _ rfl (.submit hash ext hp ho hst ha hv hg h0 hext hd hnew)

theorem requirePhase_eq_ok {phase : OpenPhase} {u : Unit} :
    requirePhase x id phase s = .ok u ↔ openPhase s x.timestamp id = .ok phase := by
  simp only [requirePhase, seq_eq_ok, require_eq_ok]
  constructor
  · rintro ⟨current, h, rfl⟩
    exact h
  · intro h
    exact ⟨phase, h, rfl⟩

theorem pickWinner_effect {op : Op} {winner : Address} {scorecard : Bytes32} {judge : Judge}
    (hid : op.taskId = some id) (hl : x.locked = false)
    (hpick : Picks x s id winner scorecard op judge)
    (h : pickWinner x id winner scorecard judge s = .ok (s', todo)) : Effect x s op s' todo := by
  simp only [pickWinner, Prod.exists, payWorker_eq_ok, pure_eq, Except.ok.injEq, Prod.mk.injEq,
    Function.update_self, Function.update_idem, seq_eq_ok, require_eq_ok, exists_const] at h
  obtain ⟨hsub, hne, rated, hrated, s₁, payout, fee, pays,
    ⟨hfee, hle, rfl, rfl, rfl⟩, rfl, rfl⟩ := h
  have hfee' : platformFee s (s.tasks id).amount = .ok fee := by
    simpa only [platformFee] using hfee
  obtain rfl : rated = fee := by rw [hrated] at hfee; exact Except.ok.inj hfee
  have heff := Effect.move (x := x) id op _ _ hid
    (.pick op winner scorecard judge rated hl hpick hsub hne hfee' hle)
  rw [put_closed] at heff
  exact heff

theorem refundOpenTask_effect {op : Op} {scorecard : Bytes32} {judge : Judge}
    (hid : op.taskId = some id) (hl : x.locked = false) (hvoid : Voids x s id scorecard op judge)
    (h : refundOpenTask id judge scorecard s = .ok (s', todo)) : Effect x s op s' todo := by
  simp only [refundOpenTask, pure_eq, Except.ok.injEq, Prod.mk.injEq] at h
  obtain ⟨rfl, rfl⟩ := h
  rw [← put_closed]
  exact .move id op _ _ hid (.void op scorecard judge hl hvoid)

theorem selectWinner_effect {winner : Address} {scorecard : Bytes32}
    (h : selectWinner x id winner scorecard s = .ok (s', todo)) :
    Effect x s (.selectWinner id winner scorecard) s' todo := by
  simp only [selectWinner, nonReentrant, whenNotPaused, requirePhase_eq_ok, seq_eq_ok,
    require_eq_ok, exists_const] at h
  obtain ⟨hl, hp, hs, hph, h⟩ := h
  exact pickWinner_effect rfl hl (.creator hp hs hph) h

theorem selectWinnerByVerifier_effect {winner : Address} {scorecard : Bytes32}
    (h : selectWinnerByVerifier x id winner scorecard s = .ok (s', todo)) :
    Effect x s (.selectWinnerByVerifier id winner scorecard) s' todo := by
  simp only [selectWinnerByVerifier, nonReentrant, whenNotPaused, requirePhase_eq_ok, seq_eq_ok,
    require_eq_ok, exists_const] at h
  obtain ⟨hl, hp, hs, hph, h⟩ := h
  exact pickWinner_effect rfl hl (.taskVerifier hp hs hph) h

theorem selectWinnerByBackup_effect {winner : Address} {scorecard : Bytes32}
    (h : selectWinnerByBackup x id winner scorecard s = .ok (s', todo)) :
    Effect x s (.selectWinnerByBackup id winner scorecard) s' todo := by
  simp only [selectWinnerByBackup, onlyVerifier, nonReentrant, whenNotPaused,
    requirePhase_eq_ok, seq_eq_ok, require_eq_ok, exists_const] at h
  obtain ⟨hs, hl, hp, hph, h⟩ := h
  exact pickWinner_effect rfl hl (.backup hp hs hph) h

theorem voidOpenTask_effect {scorecard : Bytes32}
    (h : voidOpenTask x id scorecard s = .ok (s', todo)) :
    Effect x s (.voidOpenTask id scorecard) s' todo := by
  simp only [voidOpenTask, nonReentrant, whenNotPaused, seq_eq_ok, require_eq_ok, exists_const] at h
  obtain ⟨hl, hp, phase, hph, h⟩ := h
  by_cases hc : s.submissionCount id = 0
  · simp only [hc, ↓reduceIte, seq_eq_ok, require_eq_ok, exists_const] at h
    obtain ⟨hs, ⟨h0, h5⟩, h⟩ := h
    exact refundOpenTask_effect rfl hl (.creator phase hp hs hc hph h0 h5) h
  · simp only [hc, ↓reduceIte, seq_eq_ok, require_eq_ok, exists_const] at h
    obtain ⟨hs, rfl, h⟩ := h
    exact refundOpenTask_effect rfl hl (.backup hp hs hc hph) h

theorem resolveOpenTask_effect {winner : Address} {scorecard : Bytes32}
    (h : resolveOpenTask x id winner scorecard s = .ok (s', todo)) :
    Effect x s (.resolveOpenTask id winner scorecard) s' todo := by
  simp only [resolveOpenTask, onlyAdmin, nonReentrant, requirePhase_eq_ok, seq_eq_ok,
    require_eq_ok, exists_const] at h
  obtain ⟨hs, hl, hph, h⟩ := h
  by_cases hw : winner = 0
  · subst hw
    simp only [↓reduceIte] at h
    exact refundOpenTask_effect rfl hl (.admin hs hph) h
  · simp only [hw, ↓reduceIte] at h
    exact pickWinner_effect rfl hl (.admin hs hw hph) h

/-! ## Creation -/

theorem recordTask_eq_ok {token : Address} {i : TaskInput} {deadline : Nat}
    {emitted : List Action} :
    recordTask x token i s = .ok (s', id, deadline, emitted) ↔
      Recordable x s token i ∧ s' = s.recorded x token i ∧ id = s.nextTaskId ∧
      deadline = x.timestamp + i.duration ∧ emitted = verifierEvents i s.nextTaskId := by
  by_cases hv : i.verifierAgent = 0
  · simp only [recordTask, hv, ne_eq, not_true_eq_false, ↓reduceIte, pure_eq, Except.ok.injEq,
    Prod.mk.injEq, verifierEvents, seq_eq_ok, require_eq_ok, exists_const]
    constructor
    · rintro ⟨h0, hh, ht, hd, rfl, rfl, rfl, rfl⟩
      refine ⟨⟨h0, hh, ht, hd, by simp [hv]⟩, ?_, rfl, rfl, rfl⟩
      simp [Escrow.recorded, Escrow.put, Escrow.row, newRow, newTask, hv]
    · rintro ⟨hr, rfl, rfl, rfl, rfl⟩
      refine ⟨hr.amount, hr.hash, hr.allowed, hr.duration, ?_, rfl, rfl, rfl⟩
      simp [Escrow.recorded, Escrow.put, Escrow.row, newRow, newTask, hv]
  · simp only [recordTask, hv, ne_eq, not_false_eq_true, ↓reduceIte, pure_eq, Except.ok.injEq,
    Prod.mk.injEq, verifierEvents, seq_eq_ok, require_eq_ok, exists_const]
    constructor
    · rintro ⟨h0, hh, ht, hd, hs, rfl, rfl, rfl, rfl⟩
      refine ⟨⟨h0, hh, ht, hd, fun _ => hs⟩, ?_, rfl, rfl, rfl⟩
      simp [Escrow.recorded, Escrow.put, Escrow.row, newRow, newTask, hv]
    · rintro ⟨hr, rfl, rfl, rfl, rfl⟩
      refine ⟨hr.amount, hr.hash, hr.allowed, hr.duration, hr.verifier hv, ?_, rfl, rfl, rfl⟩
      simp [Escrow.recorded, Escrow.put, Escrow.row, newRow, newTask, hv]

theorem pullPayment_eq_ok {token : Address} {amount : Nat} :
    pullPayment x token amount = .ok todo ↔
      ValueOk x token amount ∧ todo = paymentOf x token amount := by
  unfold pullPayment ValueOk paymentOf
  by_cases ht : token = 0
  · simp only [ht, ↓reduceIte, seq_eq_ok, require_eq_ok, exists_const, pure_eq, Except.ok.injEq]
    constructor <;> rintro ⟨hv, rfl⟩ <;> exact ⟨hv, rfl⟩
  · simp only [ht, ↓reduceIte, seq_eq_ok, require_eq_ok, exists_const, pure_eq, Except.ok.injEq]
    constructor <;> rintro ⟨hv, rfl⟩ <;> exact ⟨hv, rfl⟩

theorem createTaskCore_eq_ok {token : Address} {i : TaskInput} :
    createTaskCore x token i s = .ok (s', todo) ↔
      x.locked = false ∧ s.paused = false ∧ Recordable x s token i ∧ ValueOk x token i.amount ∧
      s' = s.recorded x token i ∧
      todo = guarded (verifierEvents i s.nextTaskId ++ paymentOf x token i.amount ++
        announceTask x token i s.nextTaskId (x.timestamp + i.duration)) := by
  simp only [createTaskCore, nonReentrant, whenNotPaused, Prod.exists, recordTask_eq_ok,
    pullPayment_eq_ok, pure_eq, Except.ok.injEq, Prod.mk.injEq, seq_eq_ok, require_eq_ok,
    exists_const]
  constructor
  · rintro ⟨hl, hp, _, _, _, _, ⟨hr, rfl, rfl, rfl, rfl⟩, _, ⟨hv, rfl⟩, rfl, rfl⟩
    exact ⟨hl, hp, hr, hv, rfl, rfl⟩
  · rintro ⟨hl, hp, hr, hv, rfl, rfl⟩
    exact ⟨hl, hp, _, _, _, _, ⟨hr, rfl, rfl, rfl, rfl⟩, _, ⟨hv, rfl⟩, rfl, rfl⟩

/-- Recording one task leaves the checks of the next ones as they were. -/
theorem recordable_recorded {token t : Address} {i j : TaskInput} :
    Recordable x (s.recorded x t i) token j ↔ Recordable x s token j := by
  constructor <;> intro h <;> exact ⟨h.amount, h.hash, h.allowed, h.duration, h.verifier⟩

/-- The loop of `createTasks` succeeds exactly when every task passes its checks and the
running total stays a word. -/
theorem createTasksLoop_eq_ok {token : Address} (tasks : List TaskInput) (total : Nat)
    (s s' : Escrow) (total' : Nat) (todo : List Action) :
    createTasksLoop x token tasks total s = .ok (s', total', todo) ↔
      (∀ i ∈ tasks, Recordable x s token i) ∧
      (tasks ≠ [] → total + (tasks.map TaskInput.amount).sum < word) ∧
      s' = s.recordedAll x token tasks ∧
      total' = total + (tasks.map TaskInput.amount).sum ∧
      todo = announceAll x token tasks s.nextTaskId := by
  induction tasks generalizing total s s' total' todo with
  | nil =>
    simp only [createTasksLoop, pure_eq, Except.ok.injEq, Prod.mk.injEq, Escrow.recordedAll,
      List.foldl_nil, announceAll]
    constructor
    · rintro ⟨rfl, rfl, rfl⟩; simp
    · rintro ⟨-, -, rfl, rfl, rfl⟩; simp
  | cons i tasks ih =>
    simp only [createTasksLoop, seq_eq_ok, Prod.exists, recordTask_eq_ok, add_eq_ok, ih, pure_eq,
      Except.ok.injEq, Prod.mk.injEq]
    constructor
    · rintro ⟨_, _, _, _, ⟨hr, rfl, rfl, rfl, rfl⟩, _, ⟨hlt, rfl⟩, _, _, _,
        ⟨hall, hsum, rfl, rfl, rfl⟩, rfl, rfl, rfl⟩
      refine ⟨?_, ?_, rfl, by simp; omega, rfl⟩
      · intro j hj
        rcases List.mem_cons.mp hj with rfl | hj
        · exact hr
        · exact recordable_recorded.mp (hall j hj)
      · intro _
        by_cases hn : tasks = []
        · subst hn; simpa using hlt
        · have := hsum hn
          simp only [List.map_cons, List.sum_cons]
          omega
    · rintro ⟨hall, hsum, rfl, rfl, rfl⟩
      have hs := hsum (by simp)
      simp only [List.map_cons, List.sum_cons] at hs
      refine ⟨_, _, _, _, ⟨hall i (by simp), rfl, rfl, rfl, rfl⟩, _, ⟨by omega, rfl⟩, _, _, _,
        ⟨?_, ?_, rfl, rfl, rfl⟩, rfl, by simp; omega, rfl⟩
      · intro j hj
        exact recordable_recorded.mpr (hall j (by simp [hj]))
      · intro _
        omega

theorem createTasks_eq_ok {token : Address} {tasks : List TaskInput} {first : Nat} :
    createTasks x token tasks s = .ok (first, s', todo) ↔
      x.locked = false ∧ s.paused = false ∧ tasks ≠ [] ∧ tasks.length ≤ MAX_BATCH ∧ token ≠ 0 ∧
      x.value = 0 ∧ (∀ i ∈ tasks, Recordable x s token i) ∧
      (tasks.map TaskInput.amount).sum < word ∧ first = s.nextTaskId ∧
      s' = s.recordedAll x token tasks ∧
      todo = guarded (announceAll x token tasks s.nextTaskId ++
        [.pull token x.sender (tasks.map TaskInput.amount).sum]) := by
  simp only [createTasks, nonReentrant, whenNotPaused, Prod.exists, createTasksLoop_eq_ok,
    pure_eq, Except.ok.injEq, Prod.mk.injEq, ne_eq, List.length_eq_zero_iff, seq_eq_ok,
    require_eq_ok, exists_const]
  constructor
  · rintro ⟨hl, hp, hn, hmax, ht, hv, _, _, _, ⟨hall, hsum, rfl, rfl, rfl⟩, rfl, rfl, rfl⟩
    exact ⟨hl, hp, hn, hmax, ht, hv, hall, by simpa using hsum hn, rfl, rfl, by simp⟩
  · rintro ⟨hl, hp, hn, hmax, ht, hv, hall, hsum, rfl, rfl, rfl⟩
    exact ⟨hl, hp, hn, hmax, ht, hv, _, _, _, ⟨hall, fun _ => by simpa using hsum, rfl, rfl, rfl⟩,
      rfl, rfl, by simp⟩

theorem createTaskOpen_effect {taskHash : Bytes32} {token : Address} {amount : Nat}
    {category locationZone : String} {duration : Nat} {verifierAgent : Address} {mode : PickMode}
    {creatorWindow : Nat}
    (h : createTaskOpen x taskHash token amount category locationZone duration verifierAgent mode
      creatorWindow s = .ok (s', todo)) :
    Effect x s (.createTaskOpen taskHash token amount category locationZone duration verifierAgent
      mode creatorWindow) s' todo := by
  simp only [createTaskOpen, nonReentrant, whenNotPaused, Prod.exists, recordTask_eq_ok,
    pullPayment_eq_ok, pure_eq, Except.ok.injEq, Prod.mk.injEq, seq_eq_ok, require_eq_ok,
    exists_const] at h
  obtain ⟨hl, hp, hv, hw, _, _, _, _, ⟨hr, rfl, rfl, rfl, rfl⟩, _, ⟨hval, rfl⟩, rfl, rfl⟩ := h
  -- the window fits its 32 bits
  have hwin : creatorWindow % 2 ^ 32 = creatorWindow := by
    apply Nat.mod_eq_of_lt
    split at hw
    · have := hw.2
      simp only [MAX_CREATOR_WINDOW] at this
      omega
    · omega
  have heff := Effect.createOpen (x := x) (s := s) token
    ⟨taskHash, amount, category, locationZone, duration, verifierAgent⟩ mode creatorWindow
    hl hp hv hw hr hval
  rw [hwin]
  simpa [Escrow.recorded, Escrow.put] using heff

/-! ## Every call -/

theorem unpause_effect (h : unpause x s = .ok (s', todo)) : Effect x s .unpause s' todo := by
  by_cases h0 : s.pausedSince = 0
  · simp only [unpause, onlyAdmin, whenPaused, h0, ne_eq, not_true_eq_false, ↓reduceIte, ok_bind,
      pure_eq, seq_eq_ok, require_eq_ok, exists_const, Except.ok.injEq, Prod.mk.injEq] at h
    obtain ⟨hs, hp, rfl, rfl⟩ := h
    exact .unpause 0 hs hp (by simp [h0])
  · simp only [unpause, onlyAdmin, whenPaused, h0, ne_eq, not_false_eq_true, ↓reduceIte, sub_eq_ok,
      pure_eq, seq_eq_ok, require_eq_ok, exists_const, Except.ok.injEq, Prod.mk.injEq] at h
    obtain ⟨hs, hp, ran, hran, rfl, rfl⟩ := h
    exact .unpause ran hs hp (by simpa [h0] using hran)

/-- What any successful call did. -/
theorem enter_effect {recover : Bytes → Bytes → Option Address} {op : Op}
    (h : enter recover x op s = .ok (s', todo)) : Effect x s op s' todo := by
  cases op with
  | createTask taskHash token amount category locationZone duration =>
    simp only [enter, createTask, createTaskCore_eq_ok] at h
    obtain ⟨hl, hp, hr, hv, rfl, rfl⟩ := h
    exact .create _ token _ hl hp (.inl ⟨rfl, rfl⟩) hr hv
  | createTaskWithVerifier taskHash token amount category locationZone duration verifierAgent =>
    simp only [enter, createTaskWithVerifier, createTaskCore_eq_ok] at h
    obtain ⟨hl, hp, hr, hv, rfl, rfl⟩ := h
    exact .create _ token _ hl hp (.inr rfl) hr hv
  | createTasks token tasks =>
    simp only [enter, seq_eq_ok, Prod.exists, createTasks_eq_ok, pure_eq, Except.ok.injEq,
      Prod.mk.injEq] at h
    obtain ⟨_, _, _, ⟨hl, hp, hn, hmax, ht, hv, hall, hsum, rfl, rfl, rfl⟩, rfl, rfl⟩ := h
    exact .batch token tasks hl hp hn hmax ht hv hall hsum
  | createTaskOpen => exact createTaskOpen_effect h
  | assignWorker => exact assignWorker_effect h
  | marketplaceAssign => exact marketplaceAssign_effect h
  | submitEvidence => exact submitEvidence_effect h
  | completeVerification => exact completeVerification_effect h
  | completeVerificationWithTEE => exact completeVerificationWithTEE_effect h
  | cancelTask => exact cancelTask_effect h
  | claimTimeout => exact claimTimeout_effect h
  | raiseDispute => exact raiseDispute_effect h
  | resolveDispute => exact resolveDispute_effect h
  | releaseUnjudgedWork => exact releaseUnjudgedWork_effect h
  | submitOpen => exact submitOpen_effect h
  | selectWinner => exact selectWinner_effect h
  | selectWinnerByVerifier => exact selectWinnerByVerifier_effect h
  | selectWinnerByBackup => exact selectWinnerByBackup_effect h
  | voidOpenTask => exact voidOpenTask_effect h
  | resolveOpenTask => exact resolveOpenTask_effect h
  | unpause => exact unpause_effect h
  | proposeAdmin newAdmin =>
    simp only [enter, proposeAdmin, onlyAdmin, pure_eq, Except.ok.injEq, Prod.mk.injEq, seq_eq_ok,
    require_eq_ok, exists_const] at h
    obtain ⟨hs, -, rfl, rfl⟩ := h
    exact .configure _ s.admin newAdmin s.treasury s.verifier s.reputationContract s.taskRegistry
      s.teeSigner s.feeBps s.allowedTokens s.minRatedAmount _ rfl rfl (.inl hs) (.inl rfl)
      (.inl rfl) (.inl rfl) (.inl rfl)
  | acceptAdmin =>
    simp only [enter, acceptAdmin, pure_eq, Except.ok.injEq, Prod.mk.injEq, seq_eq_ok,
    require_eq_ok, exists_const] at h
    obtain ⟨hs, rfl, rfl⟩ := h
    exact .configure _ s.pendingAdmin 0 s.treasury s.verifier s.reputationContract s.taskRegistry
      s.teeSigner s.feeBps s.allowedTokens s.minRatedAmount _ rfl rfl (.inr ⟨rfl, hs⟩)
      (.inr hs.symm) (.inl rfl) (.inl rfl) (.inl rfl)
  | setTreasury treasury =>
    simp only [enter, setTreasury, onlyAdmin, pure_eq, Except.ok.injEq, Prod.mk.injEq, seq_eq_ok,
    require_eq_ok, exists_const] at h
    obtain ⟨hs, h0, rfl, rfl⟩ := h
    exact .configure _ s.admin s.pendingAdmin treasury s.verifier s.reputationContract
      s.taskRegistry s.teeSigner s.feeBps s.allowedTokens s.minRatedAmount _ rfl rfl (.inl hs)
      (.inl rfl) (.inr h0) (.inl rfl) (.inl rfl)
  | setVerifier verifier =>
    simp only [enter, setVerifier, onlyAdmin, pure_eq, Except.ok.injEq, Prod.mk.injEq, seq_eq_ok,
    require_eq_ok, exists_const] at h
    obtain ⟨hs, h0, rfl, rfl⟩ := h
    exact .configure _ s.admin s.pendingAdmin s.treasury verifier s.reputationContract
      s.taskRegistry s.teeSigner s.feeBps s.allowedTokens s.minRatedAmount _ rfl rfl (.inl hs)
      (.inl rfl) (.inl rfl) (.inr h0) (.inl rfl)
  | setMinRatedAmount token amount =>
    simp only [enter, setMinRatedAmount, onlyAdmin, pure_eq, Except.ok.injEq, Prod.mk.injEq,
    seq_eq_ok, require_eq_ok, exists_const] at h
    obtain ⟨hs, rfl, rfl⟩ := h
    exact .configure _ s.admin s.pendingAdmin s.treasury s.verifier s.reputationContract
      s.taskRegistry s.teeSigner s.feeBps s.allowedTokens _ _ rfl rfl (.inl hs)
      (.inl rfl) (.inl rfl) (.inl rfl) (.inl rfl)
  | setTeeSigner teeSigner =>
    simp only [enter, setTeeSigner, onlyAdmin, pure_eq, Except.ok.injEq, Prod.mk.injEq, seq_eq_ok,
    require_eq_ok, exists_const] at h
    obtain ⟨hs, rfl, rfl⟩ := h
    exact .configure _ s.admin s.pendingAdmin s.treasury s.verifier s.reputationContract
      s.taskRegistry teeSigner s.feeBps s.allowedTokens s.minRatedAmount _ rfl rfl (.inl hs)
      (.inl rfl) (.inl rfl) (.inl rfl) (.inl rfl)
  | setFeeBps feeBps =>
    simp only [enter, setFeeBps, onlyAdmin, pure_eq, Except.ok.injEq, Prod.mk.injEq, seq_eq_ok,
    require_eq_ok, exists_const] at h
    obtain ⟨hs, hle, rfl, rfl⟩ := h
    exact .configure _ s.admin s.pendingAdmin s.treasury s.verifier s.reputationContract
      s.taskRegistry s.teeSigner feeBps s.allowedTokens s.minRatedAmount _ rfl rfl (.inl hs)
      (.inl rfl) (.inl rfl) (.inl rfl) (.inr hle)
  | allowToken token =>
    simp only [enter, allowToken, onlyAdmin, pure_eq, Except.ok.injEq, Prod.mk.injEq, seq_eq_ok,
    require_eq_ok, exists_const] at h
    obtain ⟨hs, rfl, rfl⟩ := h
    exact .configure _ s.admin s.pendingAdmin s.treasury s.verifier s.reputationContract
      s.taskRegistry s.teeSigner s.feeBps _ s.minRatedAmount _ rfl rfl (.inl hs)
      (.inl rfl) (.inl rfl) (.inl rfl) (.inl rfl)
  | disallowToken token =>
    simp only [enter, disallowToken, onlyAdmin, pure_eq, Except.ok.injEq, Prod.mk.injEq,
    seq_eq_ok, require_eq_ok, exists_const] at h
    obtain ⟨hs, rfl, rfl⟩ := h
    exact .configure _ s.admin s.pendingAdmin s.treasury s.verifier s.reputationContract
      s.taskRegistry s.teeSigner s.feeBps _ s.minRatedAmount _ rfl rfl (.inl hs)
      (.inl rfl) (.inl rfl) (.inl rfl) (.inl rfl)
  | setReputationContract reputation =>
    simp only [enter, setReputationContract, onlyAdmin, pure_eq, Except.ok.injEq, Prod.mk.injEq,
    seq_eq_ok, require_eq_ok, exists_const] at h
    obtain ⟨hs, rfl, rfl⟩ := h
    exact .configure _ s.admin s.pendingAdmin s.treasury s.verifier reputation
      s.taskRegistry s.teeSigner s.feeBps s.allowedTokens s.minRatedAmount _ rfl rfl (.inl hs)
      (.inl rfl) (.inl rfl) (.inl rfl) (.inl rfl)
  | setTaskRegistry registry =>
    simp only [enter, setTaskRegistry, onlyAdmin, pure_eq, Except.ok.injEq, Prod.mk.injEq,
    seq_eq_ok, require_eq_ok, exists_const] at h
    obtain ⟨hs, rfl, rfl⟩ := h
    exact .configure _ s.admin s.pendingAdmin s.treasury s.verifier s.reputationContract
      registry s.teeSigner s.feeBps s.allowedTokens s.minRatedAmount _ rfl rfl (.inl hs)
      (.inl rfl) (.inl rfl) (.inl rfl) (.inl rfl)
  | pause =>
    simp only [enter, BlindEscrow.pause, onlyAdmin, whenNotPaused, pure_eq, Except.ok.injEq,
    Prod.mk.injEq, seq_eq_ok, require_eq_ok, exists_const] at h
    obtain ⟨hs, hp, rfl, rfl⟩ := h
    exact .pause hs hp
  | recordPauseStart pausedAt =>
    simp only [enter, BlindEscrow.recordPauseStart, onlyAdmin, whenPaused, pure_eq,
    Except.ok.injEq, Prod.mk.injEq, seq_eq_ok, require_eq_ok, exists_const] at h
    obtain ⟨hs, hp, ⟨h0, hat, hle⟩, rfl, rfl⟩ := h
    exact .recordPauseStart pausedAt hs hp h0 hat hle

end BlindEscrow
