import BlindMarket.Escrow.Appeals
import BlindMarket.Escrow.OpenPhases

/-!
# Exits

The ways out of a live task that are left to its own parties: finite sequences
of waits and calls that end in a settlement. The one state without such a way
is unjudged work whose fee computation overflows, and lowering the fee reopens
it.
-/
namespace BlindEscrow

open Checked Runs TokenLedger

variable {D : Deployment} {c c' c₀ : Config} {tr later : Trace} {w w' : World}
  {s s' : Escrow} {x : Ctx} {id ext : Nat} {op : Op} {r : Row} {m : Msg} {todo : List Action}
  {paid : List Payment} {allowed : Msg → Prop}

/-- The functions that only the admin or a verifier may call. -/
def Op.privileged : Op → Bool
  | .marketplaceAssign .. | .completeVerification .. | .completeVerificationWithTEE ..
  | .resolveDispute .. | .selectWinnerByVerifier .. | .selectWinnerByBackup ..
  | .resolveOpenTask .. | .proposeAdmin .. | .acceptAdmin | .setTreasury .. | .setVerifier ..
  | .setMinRatedAmount .. | .setTeeSigner .. | .setFeeBps .. | .allowToken ..
  | .disallowToken .. | .setReputationContract .. | .setTaskRegistry .. | .pause | .unpause
  | .recordPauseStart .. => true
  | _ => false

/-! ## Sequences of calls -/

/-- A call made after a wait. -/
structure Turn where
  wait : Nat
  msg : Msg

def World.after (w : World) (dt : Nat) : World := { w with timestamp := w.timestamp + dt }

@[simp] theorem World.after_escrow (w : World) (dt : Nat) : (w.after dt).escrow = w.escrow := rfl
@[simp] theorem World.after_timestamp (w : World) (dt : Nat) :
    (w.after dt).timestamp = w.timestamp + dt := rfl
@[simp] theorem World.after_locked (w : World) (dt : Nat) : (w.after dt).locked = w.locked := rfl
@[simp] theorem World.after_zero (w : World) : w.after 0 = w := rfl

/-- The turns one after the other, each call to its end. -/
def takeTurns (D : Deployment) : List Turn → World → Except Revert World
  | [], w => return w
  | t :: turns, w => do
    let (w, _) ← transact D t.msg (w.after t.wait)
    takeTurns D turns w

/-- Some sequence of allowed calls settles the task. -/
def Exit (D : Deployment) (allowed : Msg → Prop) (w : World) (id : Nat) : Prop :=
  ∃ turns w', (∀ t ∈ turns, allowed t.msg) ∧ takeTurns D turns w = .ok w' ∧
    (w'.escrow.tasks id).status.live = false

theorem Exit.turn (dt : Nat) (hm : allowed m) (h : transact D m (w.after dt) = .ok (w', paid))
    (hexit : Exit D allowed w' id) : Exit D allowed w id := by
  obtain ⟨turns, w'', hall, hturns, hdead⟩ := hexit
  refine ⟨⟨dt, m⟩ :: turns, w'', ?_, ?_, hdead⟩
  · intro t ht
    rcases List.mem_cons.mp ht with rfl | ht
    · exact hm
    · exact hall t ht
  · simp only [takeTurns, h, ok_bind, hturns]

theorem Exit.last (dt : Nat) (hm : allowed m) (h : transact D m (w.after dt) = .ok (w', paid))
    (hdead : (w'.escrow.tasks id).status.live = false) : Exit D allowed w id :=
  .turn dt hm h ⟨[], w', by simp, rfl, hdead⟩

theorem Exit.mono {allowed' : Msg → Prop} (h : Exit D allowed w id)
    (hle : ∀ m, allowed m → allowed' m) : Exit D allowed' w id := by
  obtain ⟨turns, w', hall, hturns, hdead⟩ := h
  exact ⟨turns, w', fun t ht => hle _ (hall t ht), hturns, hdead⟩

/-- A world between two transactions of a run from the start. -/
def Idle (D : Deployment) (w : World) : Prop :=
  ∃ c₀ tr calls, Initial D c₀ ∧ EscrowRun D c₀ tr ⟨w, [], calls⟩

theorem Idle.sound (h : Idle D w) : Sound D w := by
  obtain ⟨c₀, tr, calls, h0, hrun⟩ := h
  exact h0.sound_run hrun

theorem Idle.unlocked (h : Idle D w) : w.locked = false := by
  obtain ⟨c₀, tr, calls, h0, hrun⟩ := h
  exact h0.unlocked hrun rfl

theorem Idle.after (h : Idle D w) (dt : Nat) : Idle D (w.after dt) := by
  obtain ⟨c₀, tr, calls, h0, hrun⟩ := h
  exact ⟨c₀, _, calls, h0, .snoc hrun (.tick dt)⟩

theorem Idle.called (h : Idle D w) (hs : Sender D m.sender)
    (hcall : transact D m w = .ok (w', paid)) : Idle D w' := by
  obtain ⟨c₀, tr, calls, h0, hrun⟩ := h
  obtain ⟨tr', hrun', -⟩ := transact_run hs hcall
  exact ⟨c₀, _, _, h0, hrun.append hrun'⟩

/-- A call about a task that the code accepts can be made. -/
theorem Idle.call (h : Idle D w) (hs : Sender D m.sender) (hid : m.op.taskId = some id)
    (hvalue : m.value = 0) (henter : enter D.recover (w.ctx m) m.op w.escrow = .ok (s', todo))
    (htreasury : (s'.tasks id).status = .completed → (w.escrow.tasks id).token = 0 →
      w.escrow.treasury ≠ D.self) :
    ∃ w' paid, transact D m w = .ok (w', paid) ∧ w'.escrow = s' ∧
      w'.timestamp = w.timestamp ∧ Idle D w' := by
  have hidle := h
  obtain ⟨c₀, tr, calls, h0, hrun⟩ := h
  obtain ⟨w', paid, hcall, hescrow, ht⟩ := h0.call_succeeds hrun hs hid hvalue henter htreasury
  exact ⟨w', paid, hcall, hescrow, ht, hidle.called hs hcall⟩

/-- An unpaused escrow gives a task the same extension at every later time. -/
theorem Idle.extension (h : Idle D w) (hp : w.escrow.paused = false) (hid : 0 < id)
    (hlt : id < w.escrow.nextTaskId) :
    ∃ ext, ∀ now, pauseExtension w.escrow now id = .ok ext := by
  have hidle := h.sound.clock.idle hp
  obtain ⟨c₀, tr, calls, h0, hrun⟩ := h
  obtain @⟨b, b', m, token, i, o, mid, e, earlier, before, step, created, after⟩ :=
    h0.born hrun hid hlt
  obtain ⟨d, hd, -⟩ := created.deadline step (h0.sound_run before).clock after
  obtain ⟨ext, hext, -⟩ := effectiveDeadline_eq_ok.mp hd
  refine ⟨ext, fun now => ?_⟩
  simpa [pauseExtension, pausedSeconds, hidle] using hext

/-- A dispute has its time. -/
theorem Idle.disputedAt (h : Idle D w) (hid : 0 < id) (hlt : id < w.escrow.nextTaskId)
    (hst : (w.escrow.tasks id).status = .disputed) : (w.escrow.tasks id).disputedAt ≠ 0 := by
  obtain ⟨c₀, tr, calls, h0, hrun⟩ := h
  obtain ⟨since, f, mid, b, b', -, hmid, hf, -, hb, hne, hrow, -⟩ :=
    h0.entered hrun hid hlt (by simp [hst])
  have hst' : (b'.world.escrow.tasks id).status = .disputed :=
    (congrArg (fun r => r.task.status) hrow).trans hst
  obtain ⟨m, todo, -, -, -, -, hat⟩ := hf.enters_disputed hb (hst ▸ hne) hst'
  have hsame : (b'.world.escrow.tasks id).disputedAt = (w.escrow.tasks id).disputedAt :=
    congrArg (fun r => r.task.disputedAt) hrow
  have hpos := (h0.sound_run hmid).clock.positive
  rw [← hsame, hat]
  exact hpos.ne'

/-! ## Calls that go through -/

section Accepted

variable (recover : Bytes → Bytes → Option Address)

theorem cancelTask_ok (hs : x.sender = (s.tasks id).agent) (hl : x.locked = false)
    (hp : s.paused = false) (hst : (s.tasks id).status = .funded)
    (hcount : s.submissionCount id = 0) :
    ∃ s' todo, enter recover x (.cancelTask id) s = .ok (s', todo) ∧
      (s'.tasks id).status = .cancelled := by
  dsimp only [enter]
  unfold cancelTask onlyAgent nonReentrant whenNotPaused
  rw [require_pos hs, ok_bind, require_pos hl, ok_bind, require_pos hp, ok_bind]
  dsimp only
  rw [require_pos hst, ok_bind, require_pos hcount, ok_bind]
  exact ⟨_, _, rfl, by simp⟩

/-- Delivered work past its deadline goes to adjudication. -/
theorem escalate_ok (hs : x.sender = (s.tasks id).agent) (hl : x.locked = false)
    (hp : s.paused = false) (hst : (s.tasks id).status = .submitted)
    (hext : pauseExtension s x.timestamp id = .ok ext)
    (hlate : (s.tasks id).deadline + ext ≤ x.timestamp) :
    ∃ todo, enter recover x (.claimTimeout id) s = .ok ({ s with
      tasks := Function.update s.tasks id
        { s.tasks id with status := .disputed, disputedAt := x.timestamp }
      unjudgedEscalation := Function.update s.unjudgedEscalation id true }, todo) := by
  dsimp only [enter]
  unfold claimTimeout onlyAgent nonReentrant whenNotPaused effectiveDeadline
  rw [require_pos hs, ok_bind, require_pos hl, ok_bind, require_pos hp, ok_bind]
  dsimp only
  rw [hext, ok_bind, pure_eq, ok_bind, require_pos hlate, ok_bind, hst]
  exact ⟨_, rfl⟩

/-- Before the deadline either party may dispute delivered work. -/
theorem disputeWork_ok (hs : x.sender = (s.tasks id).agent) (hp : s.paused = false)
    (hst : (s.tasks id).status = .submitted)
    (hext : pauseExtension s x.timestamp id = .ok ext)
    (hd : x.timestamp < (s.tasks id).deadline + ext) :
    ∃ todo, enter recover x (.raiseDispute id) s = .ok ({ s with
      tasks := Function.update s.tasks id
        { s.tasks id with status := .disputed, disputedAt := x.timestamp } }, todo) := by
  have hparty : x.sender = (s.tasks id).agent ∨ x.sender = (s.tasks id).worker := .inl hs
  have hstatus : (s.tasks id).status = .submitted ∨ (s.tasks id).status = .verified := .inl hst
  have hopen : x.timestamp < (s.tasks id).deadline + ext ∨ x.sender = (s.tasks id).worker ∧
      (s.tasks id).status = .verified ∧
      x.timestamp < s.failedVerdictAt id + APPEAL_WINDOW + ext := .inl hd
  dsimp only [enter]
  unfold raiseDispute whenNotPaused
  rw [require_pos hp, ok_bind]
  dsimp only
  rw [require_pos hparty, ok_bind, require_pos hstatus, ok_bind, hext, ok_bind,
    require_pos hopen, ok_bind]
  exact ⟨_, rfl⟩

theorem releaseUnjudgedWork_ok (hs : x.sender = (s.tasks id).worker) (hl : x.locked = false)
    (hp : s.paused = false) (hst : (s.tasks id).status = .disputed)
    (hu : s.unjudgedEscalation id = true) (hext : pauseExtension s x.timestamp id = .ok ext)
    (ht : (s.tasks id).disputedAt + DISPUTE_WINDOW + ext ≤ x.timestamp)
    (hbps : s.feeBps ≤ MAX_FEE_BPS) (hfee : (s.tasks id).amount * s.feeBps < word) :
    ∃ s' todo, enter recover x (.releaseUnjudgedWork id) s = .ok (s', todo) ∧
      (s'.tasks id).status = .completed := by
  obtain ⟨fee, hok⟩ : ∃ fee, platformFee s (s.tasks id).amount = .ok fee :=
    ⟨_, platformFee_eq_ok.mpr ⟨hfee, rfl⟩⟩
  have hle : fee ≤ (s.tasks id).amount := platformFee_le hbps hok
  have hpay : payWorker id 0 s = .ok (_, _, fee, _) :=
    payWorker_eq_ok.mpr ⟨hok, hle, rfl, rfl, rfl⟩
  dsimp only [enter]
  unfold releaseUnjudgedWork onlyWorker nonReentrant whenNotPaused
  rw [require_pos hs, ok_bind, require_pos hl, ok_bind, require_pos hp, ok_bind]
  dsimp only
  rw [require_pos hst, ok_bind, require_pos hu, ok_bind, hext, ok_bind, require_pos ht, ok_bind,
    hpay, ok_bind]
  exact ⟨_, _, rfl, by simp⟩

/-- In the last phase the admin may refund an open task. -/
theorem resolveOpenTask_ok (scorecard : Bytes32) (hs : x.sender = s.admin) (hl : x.locked = false)
    (hph : openPhase s x.timestamp id = .ok .adminResolve) :
    ∃ s' todo, enter recover x (.resolveOpenTask id 0 scorecard) s = .ok (s', todo) ∧
      (s'.tasks id).status = .cancelled := by
  dsimp only [enter]
  unfold resolveOpenTask onlyAdmin nonReentrant
  have hphase : requirePhase x id .adminResolve s = .ok () := requirePhase_eq_ok.mpr hph
  rw [require_pos hs, ok_bind, require_pos hl, ok_bind, hphase, ok_bind, if_pos rfl]
  exact ⟨_, _, rfl, by simp⟩

end Accepted

/-! ## The ways out -/

/-- The poster alone, through no function of the admin or a verifier. -/
def ByPoster (s : Escrow) (id : Nat) (m : Msg) : Prop :=
  m.sender = (s.tasks id).agent ∧ m.op.privileged = false

/-- The poster and the worker, through no function of the admin or a verifier. -/
def ByParties (s : Escrow) (id : Nat) (m : Msg) : Prop :=
  (m.sender = (s.tasks id).agent ∨ m.sender = (s.tasks id).worker) ∧ m.op.privileged = false

theorem ByPoster.parties (h : ByPoster s id m) : ByParties s id m := ⟨.inl h.1, h.2⟩

/-- A funded task without submissions is withdrawn by its poster. -/
theorem Idle.withdraw (h : Idle D w) (hp : w.escrow.paused = false) (hid : 0 < id)
    (hlt : id < w.escrow.nextTaskId) (hst : (w.escrow.tasks id).status = .funded)
    (hcount : w.escrow.submissionCount id = 0) : Exit D (ByPoster w.escrow id) w id := by
  obtain ⟨s', todo, henter, hcancelled⟩ := cancelTask_ok D.recover
    (x := w.ctx ⟨(w.escrow.tasks id).agent, 0, .cancelTask id⟩) rfl h.unlocked hp hst hcount
  obtain ⟨w', paid, hcall, rfl, -, -⟩ := h.call (h.sound.rows id hid hlt).agent rfl rfl henter
    (fun hst' => absurd (hcancelled.symm.trans hst') (by simp))
  exact .last 0 ⟨rfl, rfl⟩ hcall (by rw [hcancelled]; rfl)

/-- Work that was not delivered, that failed its verdict or that was disputed is refunded to the
poster when every window is over. -/
theorem Idle.refund (h : Idle D w) (hp : w.escrow.paused = false) (hid : 0 < id)
    (hlt : id < w.escrow.nextTaskId)
    (hst : (w.escrow.tasks id).status = .assigned ∨ (w.escrow.tasks id).status = .verified ∨
      (w.escrow.tasks id).status = .disputed ∧ w.escrow.unjudgedEscalation id = false) :
    Exit D (ByPoster w.escrow id) w id := by
  obtain ⟨ext, hext⟩ := h.extension hp hid hlt
  obtain ⟨dt, hlate, hverdict, hdispute⟩ : ∃ dt,
      (w.escrow.tasks id).deadline + ext ≤ w.timestamp + dt ∧
      w.escrow.failedVerdictAt id + APPEAL_WINDOW + ext ≤ w.timestamp + dt ∧
      (w.escrow.tasks id).disputedAt + DISPUTE_WINDOW + ext ≤ w.timestamp + dt := by
    generalize APPEAL_WINDOW = appeal
    generalize DISPUTE_WINDOW = dispute
    exact ⟨(w.escrow.tasks id).deadline + w.escrow.failedVerdictAt id + appeal +
      (w.escrow.tasks id).disputedAt + dispute + ext, by omega, by omega, by omega⟩
  have hafter := h.after dt
  have hwindows : (w.escrow.tasks id).status = .assigned ∨
      (w.escrow.tasks id).status = .verified ∧
        w.escrow.failedVerdictAt id + APPEAL_WINDOW + ext ≤ w.timestamp + dt ∨
      (w.escrow.tasks id).status = .disputed ∧ w.escrow.unjudgedEscalation id = false ∧
        (w.escrow.tasks id).disputedAt ≠ 0 ∧
        (w.escrow.tasks id).disputedAt + DISPUTE_WINDOW + ext ≤ w.timestamp + dt := by
    rcases hst with hst | hst | ⟨hst, hu⟩
    · exact .inl hst
    · exact .inr (.inl ⟨hst, hverdict⟩)
    · exact .inr (.inr ⟨hst, hu, h.disputedAt hid hlt hst, hdispute⟩)
  obtain ⟨s', todo, henter, hcancelled⟩ := claimTimeout_ok D.recover
    (x := (w.after dt).ctx ⟨(w.escrow.tasks id).agent, 0, .claimTimeout id⟩) (s := w.escrow)
    hafter.unlocked hp rfl (hext _) hlate hwindows
  obtain ⟨w', paid, hcall, rfl, -, -⟩ := hafter.call (h.sound.rows id hid hlt).agent rfl rfl henter
    (fun hst' => absurd (hcancelled.symm.trans hst') (by simp))
  exact .last dt ⟨rfl, rfl⟩ hcall (by rw [hcancelled]; rfl)

/-- Escalated work is released to its worker when the window is over, unless the fee overflows. -/
theorem Idle.release (h : Idle D w) (hp : w.escrow.paused = false) (hid : 0 < id)
    (hlt : id < w.escrow.nextTaskId) (hst : (w.escrow.tasks id).status = .disputed)
    (hu : w.escrow.unjudgedEscalation id = true)
    (hfee : (w.escrow.tasks id).amount * w.escrow.feeBps < word)
    (htreasury : (w.escrow.tasks id).token = 0 → w.escrow.treasury ≠ D.self) :
    Exit D (ByParties w.escrow id) w id := by
  obtain ⟨ext, hext⟩ := h.extension hp hid hlt
  obtain ⟨dt, hover⟩ : ∃ dt,
      (w.escrow.tasks id).disputedAt + DISPUTE_WINDOW + ext ≤ w.timestamp + dt :=
    ⟨_, Nat.le_add_left _ _⟩
  have hafter := h.after dt
  obtain ⟨s', todo, henter, hcompleted⟩ := releaseUnjudgedWork_ok D.recover
    (x := (w.after dt).ctx ⟨(w.escrow.tasks id).worker, 0, .releaseUnjudgedWork id⟩)
    (s := w.escrow) rfl hafter.unlocked hp hst hu (hext _) hover
    h.sound.fee hfee
  obtain ⟨w', paid, hcall, rfl, -, -⟩ := hafter.call
    ((h.sound.rows id hid hlt).delivered (.inr (.inr hst))).2.2 rfl rfl henter (fun _ => htreasury)
  exact .last dt ⟨.inr rfl, rfl⟩ hcall (by rw [hcompleted]; rfl)

/-- Delivered work is disputed before its deadline and refunded, or escalated after it and
released. -/
theorem Idle.deliver (h : Idle D w) (hp : w.escrow.paused = false) (hid : 0 < id)
    (hlt : id < w.escrow.nextTaskId) (hst : (w.escrow.tasks id).status = .submitted)
    (hfee : Late w id → (w.escrow.tasks id).amount * w.escrow.feeBps < word)
    (htreasury : (w.escrow.tasks id).token = 0 → w.escrow.treasury ≠ D.self) :
    Exit D (ByParties w.escrow id) w id := by
  have hr := h.sound.rows id hid hlt
  obtain ⟨ext, hext⟩ := h.extension hp hid hlt
  by_cases hd : w.timestamp < (w.escrow.tasks id).deadline + ext
  · have hu : w.escrow.unjudgedEscalation id = false := by
      rw [← Bool.not_eq_true]
      intro hu
      rcases hr.unjudged hu with hst' | hdead
      · exact absurd (hst.symm.trans hst') (by simp)
      · exact absurd ((congrArg TaskStatus.live hst).symm.trans hdead) (by decide)
    obtain ⟨todo, henter⟩ := disputeWork_ok D.recover
      (x := w.ctx ⟨(w.escrow.tasks id).agent, 0, .raiseDispute id⟩) rfl hp hst (hext _) hd
    obtain ⟨w', paid, hcall, hescrow, -, hidle⟩ := h.call hr.agent rfl rfl henter (by simp)
    have hexit : Exit D (ByPoster w'.escrow id) w' id := hidle.refund (by rw [hescrow]; exact hp)
      hid (by rw [hescrow]; exact hlt) (by rw [hescrow]; simp [hu])
    refine .turn 0 (ByPoster.parties ⟨rfl, rfl⟩) hcall (hexit.mono fun m hm => ?_)
    simpa [hescrow, ByParties] using hm.parties
  · have hlate : Late w id := ⟨_, effectiveDeadline_eq_ok.mpr ⟨ext, hext _, rfl⟩, not_lt.mp hd⟩
    obtain ⟨todo, henter⟩ := escalate_ok D.recover
      (x := w.ctx ⟨(w.escrow.tasks id).agent, 0, .claimTimeout id⟩) rfl h.unlocked hp hst (hext _)
      (not_lt.mp hd)
    obtain ⟨w', paid, hcall, hescrow, -, hidle⟩ := h.call hr.agent rfl rfl henter (by simp)
    have hexit : Exit D (ByParties w'.escrow id) w' id := hidle.release
      (by rw [hescrow]; exact hp) hid (by rw [hescrow]; exact hlt) (by simp [hescrow]) (by simp [hescrow])
      (by simpa [hescrow] using hfee hlate) (by simpa [hescrow] using htreasury)
    refine .turn 0 (ByPoster.parties ⟨rfl, rfl⟩) hcall (hexit.mono fun m hm => ?_)
    simpa [hescrow, ByParties] using hm

/-- In its last phase an open task is settled by one call of the admin. -/
theorem Idle.resolve (h : Idle D w) (hp : w.escrow.paused = false) (hid : 0 < id)
    (hlt : id < w.escrow.nextTaskId) (hst : (w.escrow.tasks id).status = .funded)
    (ho : (w.escrow.openTasks id).isOpen = true) (scorecard : Bytes32) :
    ∃ dt w' paid, transact D ⟨w.escrow.admin, 0, .resolveOpenTask id 0 scorecard⟩ (w.after dt) =
      .ok (w', paid) ∧ (w'.escrow.tasks id).status.live = false := by
  obtain ⟨ext, hext⟩ := h.extension hp hid hlt
  obtain ⟨dt, hover⟩ : ∃ dt, (w.escrow.tasks id).deadline + ext +
      (w.escrow.openTasks id).creatorWindow + VERIFIER_PICK_WINDOW + BACKUP_PICK_WINDOW ≤
        w.timestamp + dt := ⟨_, Nat.le_add_left _ _⟩
  have hafter := h.after dt
  have hph : openPhase w.escrow (w.timestamp + dt) id = .ok .adminResolve := by
    have hfunded : ¬ (w.escrow.tasks id).status ≠ .funded := by simp [hst]
    have hbackup := not_lt.mpr hover
    have hverifier := not_lt.mpr (le_of_add_le_left hover)
    have hcreator := not_lt.mpr (le_of_add_le_left (le_of_add_le_left hover))
    have hopen := not_lt.mpr (le_of_add_le_left (le_of_add_le_left (le_of_add_le_left hover)))
    unfold openPhase effectiveDeadline
    dsimp only
    rw [require_pos ho, ok_bind, if_neg hfunded, hext, ok_bind, pure_eq, ok_bind, if_neg hopen,
      if_neg hcreator, if_neg hverifier, if_neg hbackup]
    rfl
  obtain ⟨s', todo, henter, hcancelled⟩ := resolveOpenTask_ok D.recover
    (x := (w.after dt).ctx ⟨w.escrow.admin, 0, .resolveOpenTask id 0 scorecard⟩) (s := w.escrow)
    scorecard rfl hafter.unlocked hph
  obtain ⟨w', paid, hcall, rfl, -, -⟩ := hafter.call h.sound.admin rfl rfl henter
    (fun hst' => absurd (hcancelled.symm.trans hst') (by simp))
  exact ⟨dt, w', paid, hcall, by rw [hcancelled]; rfl⟩

/-! ## Work whose fee overflows -/

/-- Unjudged work past its deadline for which `platformFee` reverts. -/
def Stuck (w : World) (id : Nat) : Prop :=
  (w.escrow.openTasks id).isOpen = false ∧
    word ≤ (w.escrow.tasks id).amount * w.escrow.feeBps ∧
    ((w.escrow.tasks id).status = .submitted ∧ Late w id ∨
      (w.escrow.tasks id).status = .disputed ∧ w.escrow.unjudgedEscalation id = true)

/-- A call settles a task by refunding it or after computing its fee. -/
theorem Move.settles (h : Move x s id op r todo) (hdead : r.task.status.live = false) :
    r.task.status = .cancelled ∨ ∃ fee, platformFee s (s.tasks id).amount = .ok fee := by
  cases h with
  | complete op fee score before after hl hfee => exact .inr ⟨fee, hfee⟩
  | pick op winner scorecard judge fee hl h hsub hne hfee => exact .inr ⟨fee, hfee⟩
  | refund | void => exact .inl rfl
  | submit hash ext hp ho hst =>
    have hlive : (s.tasks id).status.live = false := hdead
    rw [hst] at hlive
    cases hlive
  | assign | evidence | fail | escalate | dispute => cases hdead

/-- Only the admin changes the fee. -/
theorem unprivileged_fee {recover : Bytes → Bytes → Option Address}
    (h : enter recover x op s = .ok (s', todo)) (hop : op.privileged = false) :
    s'.feeBps = s.feeBps := by
  have heff := enter_effect h
  cases heff with
  | batch => exact (recordedAll_same _ _ _ _).1.feeBps
  | configure op _ _ _ _ _ _ _ _ _ _ _ hid hin =>
    cases op with
    | createTasks token tasks =>
      -- the empty batch is rejected
      obtain rfl : tasks = [] := hin
      simp [enter, createTasks, require, seq_eq_ok] at h
    | _ => simp [Op.privileged, Op.taskId, Op.inputs] at hop hid hin
  | pause | unpause | recordPauseStart => cases hop
  | move | create | createOpen => rfl

/-- The parties cannot get stuck work out: each of their calls leaves it stuck. -/
theorem Idle.stuck_call (h : Idle D w) (hid : 0 < id) (hlt : id < w.escrow.nextTaskId)
    (hstuck : Stuck w id) (hs : Sender D m.sender) (hop : m.op.privileged = false) (dt : Nat)
    (hcall : transact D m (w.after dt) = .ok (w', paid)) : Stuck w' id := by
  obtain ⟨ho, hfee, hst⟩ := hstuck
  obtain ⟨c₀, tr, calls, h0, hrun⟩ := h
  have hwait : EscrowRun D ⟨w, [], calls⟩ _ ⟨w.after dt, [], calls⟩ := .single (.tick dt)
  obtain ⟨tr', hrun', -⟩ : ∃ tr', EscrowRun D ⟨w.after dt, [], calls⟩ tr' ⟨w', [], calls + 1⟩ ∧ _ :=
    transact_run hs hcall
  have hlater := hwait.append hrun'
  have hterms := sameTerms_run hlater hlt
  have hopen : (w'.escrow.openTasks id).isOpen = false := hterms.isOpen.trans ho
  obtain ⟨ledger, s', todo, -, -, henter, hsettle⟩ := transact_ok hcall
  have hescrow : w'.escrow = s' := (settle_escrow hsettle).1
  have hbps : w'.escrow.feeBps = w.escrow.feeBps := by
    rw [hescrow]
    exact unprivileged_fee henter hop
  have hamount : (w'.escrow.tasks id).amount = (w.escrow.tasks id).amount := hterms.amount
  refine ⟨hopen, by rw [hamount, hbps]; exact hfee, ?_⟩
  rcases (enter_effect henter).row id with ⟨-, -, hrow⟩ | ⟨-, -, hmove⟩ | ⟨_, i, _, -, hin, -⟩
  · have hstatus : (w'.escrow.tasks id).status = (w.escrow.tasks id).status := by
      rw [hescrow]
      exact congrArg (fun r => r.task.status) hrow
    have hflag : w'.escrow.unjudgedEscalation id = w.escrow.unjudgedEscalation id := by
      rw [hescrow]
      exact congrArg Row.unjudged hrow
    rw [hstatus, hflag]
    exact hst.imp_left fun ⟨hst, hlate⟩ => ⟨hst, h0.late hrun hid hlt hlater hlate⟩
  · have hu : Unjudged w.escrow id := hst.elim (fun h => .inl h.1) fun h => .inr (.inl h)
    have hlate : (w.escrow.tasks id).status = .submitted → ∀ ext,
        pauseExtension w.escrow (w.timestamp + dt) id = .ok ext →
        (w.escrow.tasks id).deadline + ext ≤ w.timestamp + dt := by
      intro hsub ext hext
      rcases hst with ⟨-, hlate⟩ | ⟨hst, -⟩
      · exact (h0.late hrun hid hlt hwait hlate).deadline_le hext
      · rw [hsub] at hst
        cases hst
    have hfails : m.op.fails id = false := by
      generalize m.op = op at hop
      cases op <;> first | rfl | cases hop
    obtain ⟨hwhere, hruled⟩ := hmove.unjudged hu hlate hfails
    rw [hescrow]
    rcases hwhere with hdisputed | hdead
    · exact .inr hdisputed
    · rcases hmove.settles hdead with hcancelled | ⟨fee, hok⟩
      · rw [(hruled hcancelled).1] at hop
        cases hop
      · have := (platformFee_eq_ok.mp hok).1
        exact absurd hfee (not_le.mpr this)
  · have := (inputAt_eq_some hin).1
    exact absurd hlt (not_lt.mpr this)

/-- No calls of the parties settle stuck work. -/
theorem Idle.stuck_turns (h : Idle D w) (hid : 0 < id) (hlt : id < w.escrow.nextTaskId)
    (hstuck : Stuck w id) (turns : List Turn)
    (hall : ∀ t ∈ turns, ByParties w.escrow id t.msg)
    (hturns : takeTurns D turns w = .ok w') : Stuck w' id := by
  induction turns generalizing w with
  | nil =>
    cases hturns
    exact hstuck
  | cons t turns ih =>
    simp only [takeTurns, seq_eq_ok, Prod.exists] at hturns
    obtain ⟨w₁, paid, hcall, hturns⟩ := hturns
    have hr := h.sound.rows id hid hlt
    have hdelivered := hr.delivered (hstuck.2.2.elim (fun h => .inl h.1) fun h => .inr (.inr h.1))
    obtain ⟨hwho, hop⟩ := hall t (by simp)
    have hs : Sender D t.msg.sender := by
      rcases hwho with hwho | hwho
      · exact hwho ▸ hr.agent
      · exact hwho ▸ hdelivered.2.2
    have hstuck₁ := h.stuck_call hid hlt hstuck hs hop t.wait hcall
    obtain ⟨ledger, s', todo, -, -, henter, hsettle⟩ := transact_ok hcall
    have hescrow : w₁.escrow = s' := (settle_escrow hsettle).1
    have heff := enter_effect henter
    have hlt₁ : id < w₁.escrow.nextTaskId := by
      rw [hescrow, heff.nextTaskId]
      exact hlt.trans_le (Nat.le_add_right _ _)
    have hrow : (w₁.escrow.tasks id).agent = (w.escrow.tasks id).agent ∧
        (w₁.escrow.tasks id).worker = (w.escrow.tasks id).worker := by
      rw [hescrow]
      rcases heff.row id with ⟨-, -, hrow⟩ | ⟨-, -, hmove⟩ | ⟨_, i, _, -, hin, -⟩
      · exact ⟨congrArg (fun r => r.task.agent) hrow, congrArg (fun r => r.task.worker) hrow⟩
      · refine ⟨hmove.sameTerms.agent, ?_⟩
        rcases hmove.worker hr with ⟨-, hsame⟩ | ⟨-, hst, -⟩
        · exact hsame
        · rcases hstuck.2.2 with ⟨hst', -⟩ | ⟨hst', -⟩
          all_goals exact absurd (hst.symm.trans hst') (by simp)
      · exact absurd hlt (not_lt.mpr (inputAt_eq_some hin).1)
    refine ih ((h.after t.wait).called hs hcall) hlt₁ hstuck₁ (fun t' ht' => ?_) hturns
    simpa only [ByParties, hrow.1, hrow.2] using hall t' (List.mem_cons_of_mem _ ht')

/-! ## The guarantee -/

/-- The way out of a live task of each kind: the two parties for a single-worker task, the poster
for an open task without submissions, one call of the admin for the others. -/
def CanSettle (D : Deployment) (w : World) (id : Nat) : Prop :=
  if (w.escrow.openTasks id).isOpen = false then Exit D (ByParties w.escrow id) w id
  else if w.escrow.submissionCount id = 0 then Exit D (ByPoster w.escrow id) w id
  else ∀ scorecard, ∃ dt w' paid,
    transact D ⟨w.escrow.admin, 0, .resolveOpenTask id 0 scorecard⟩ (w.after dt) = .ok (w', paid) ∧
      (w'.escrow.tasks id).status.live = false

/-- The escrow can pay this task's fee to the treasury. -/
def FeePayable (D : Deployment) (w : World) (id : Nat) : Prop :=
  (w.escrow.tasks id).token = 0 → w.escrow.treasury ≠ D.self

theorem Idle.canSettle (h : Idle D w) (hp : w.escrow.paused = false) (hid : 0 < id)
    (hlt : id < w.escrow.nextTaskId) (hlive : (w.escrow.tasks id).status.live = true)
    (hpay : FeePayable D w id) : CanSettle D w id ↔ ¬ Stuck w id := by
  have hr := h.sound.rows id hid hlt
  constructor
  · intro hcan hstuck
    rw [CanSettle, if_pos hstuck.1] at hcan
    obtain ⟨turns, w', hall, hturns, hdead⟩ := hcan
    obtain ⟨-, -, ⟨hst, -⟩ | ⟨hst, -⟩⟩ := h.stuck_turns hid hlt hstuck turns hall hturns
    all_goals
      rw [hst] at hdead
      cases hdead
  · intro hfree
    unfold CanSettle
    split
    · rename_i ho
      cases hst : (w.escrow.tasks id).status with
      | funded =>
        exact (h.withdraw hp hid hlt hst (hr.single ho).1).mono fun _ => ByPoster.parties
      | assigned => exact (h.refund hp hid hlt (.inl hst)).mono fun _ => ByPoster.parties
      | verified => exact (h.refund hp hid hlt (.inr (.inl hst))).mono fun _ => ByPoster.parties
      | submitted =>
        refine h.deliver hp hid hlt hst (fun hlate => ?_) hpay
        by_contra hover
        exact hfree ⟨ho, not_lt.mp hover, .inl ⟨hst, hlate⟩⟩
      | disputed =>
        cases hu : w.escrow.unjudgedEscalation id with
        | false =>
          exact (h.refund hp hid hlt (.inr (.inr ⟨hst, hu⟩))).mono fun _ => ByPoster.parties
        | true =>
          refine h.release hp hid hlt hst hu ?_ hpay
          by_contra hover
          exact hfree ⟨ho, not_lt.mp hover, .inr ⟨hst, hu⟩⟩
      | completed => rw [hst] at hlive; cases hlive
      | cancelled => rw [hst] at hlive; cases hlive
    · rename_i ho
      have ho' : (w.escrow.openTasks id).isOpen = true := by simpa using ho
      have hst : (w.escrow.tasks id).status = .funded := by
        rcases (hr.isOpen ho').1 with hst | hdead
        · exact hst
        · exact absurd (hlive.symm.trans hdead) (by simp)
      split
      · rename_i hcount
        exact h.withdraw hp hid hlt hst hcount
      · exact h.resolve hp hid hlt hst ho'

theorem Idle.lower (h : Idle D w) :
    ∃ w' paid, transact D ⟨w.escrow.admin, 0, .setFeeBps 0⟩ w = .ok (w', paid) ∧ Idle D w' ∧
      w'.escrow = { w.escrow with feeBps := 0 } := by
  have hcall : transact D ⟨w.escrow.admin, 0, .setFeeBps 0⟩ w =
      .ok ({ w with
        escrow := { w.escrow with feeBps := 0 }
        logs := w.logs ++ [.feeBpsUpdated w.escrow.feeBps 0] }, []) :=
    transact_free.mpr ⟨_, [.emit (.feeBpsUpdated w.escrow.feeBps 0)],
      by simp [enter, setFeeBps, onlyAdmin, require], rfl⟩
  exact ⟨_, _, hcall, h.called h.sound.admin hcall, rfl⟩

theorem Idle.unpause (h : Idle D w) (hp : w.escrow.paused = true) :
    ∃ w' paid total, transact D ⟨w.escrow.admin, 0, .unpause⟩ w = .ok (w', paid) ∧ Idle D w' ∧
      w'.escrow = { w.escrow with paused := false, pausedTotal := total, pausedSince := 0 } := by
  have hsince := h.sound.clock.known hp
  have hpast := h.sound.clock.past
  let total := w.escrow.pausedTotal + (w.timestamp - w.escrow.pausedSince)
  have hcall : transact D ⟨w.escrow.admin, 0, .unpause⟩ w =
      .ok ({ w with
        escrow := { w.escrow with paused := false, pausedTotal := total, pausedSince := 0 }
        logs := w.logs ++ [.unpaused w.escrow.admin] }, []) :=
    transact_free.mpr ⟨_, [.emit (.unpaused w.escrow.admin)],
      by simp [enter, BlindEscrow.unpause, onlyAdmin, whenPaused, require, hp, hsince, sub, hpast,
        total], rfl⟩
  exact ⟨_, _, total, hcall, h.called h.sound.admin hcall, rfl⟩

/-- Two calls of the admin reopen every way out: unpausing, and lowering the fee. -/
theorem Idle.reopen (h : Idle D w) :
    ∃ turns w' total since, (∀ t ∈ turns, t.msg.sender = w.escrow.admin ∧
        (t.msg.op = .unpause ∨ t.msg.op = .setFeeBps 0)) ∧
      takeTurns D turns w = .ok w' ∧ Idle D w' ∧
      w'.escrow = { w.escrow with
        feeBps := 0, paused := false, pausedTotal := total, pausedSince := since } := by
  have hlowered : ∀ {t : Turn}, t ∈ [⟨0, ⟨w.escrow.admin, 0, .setFeeBps 0⟩⟩] →
      t.msg.sender = w.escrow.admin ∧ (t.msg.op = .unpause ∨ t.msg.op = .setFeeBps 0) := by
    intro t ht
    rw [List.mem_singleton.mp ht]
    exact ⟨rfl, .inr rfl⟩
  cases hp : w.escrow.paused with
  | false =>
    obtain ⟨w', paid, hcall, hidle, hescrow⟩ := h.lower
    refine ⟨[⟨0, ⟨w.escrow.admin, 0, .setFeeBps 0⟩⟩], w', w.escrow.pausedTotal,
      w.escrow.pausedSince, fun t => hlowered, ?_, hidle, ?_⟩
    · simp only [takeTurns, World.after_zero, hcall, ok_bind, pure_eq]
    · rw [hescrow, ← hp]
  | true =>
    obtain ⟨w₁, paid₁, total, hcall₁, hidle₁, hescrow₁⟩ := h.unpause hp
    obtain ⟨w', paid, hcall, hidle, hescrow⟩ := hidle₁.lower
    have hadmin : w₁.escrow.admin = w.escrow.admin := by rw [hescrow₁]
    rw [hadmin] at hcall
    refine ⟨[⟨0, ⟨w.escrow.admin, 0, .unpause⟩⟩, ⟨0, ⟨w.escrow.admin, 0, .setFeeBps 0⟩⟩], w',
      total, 0, ?_, ?_, hidle, ?_⟩
    · intro t ht
      rcases List.mem_cons.mp ht with rfl | ht
      · exact ⟨rfl, .inl rfl⟩
      · exact hlowered ht
    · simp only [takeTurns, World.after_zero, hcall₁, hcall, ok_bind, pure_eq]
    · rw [hescrow, hescrow₁]

/-- An escrow whose tokens have a large supply, most of it with one poster who has approved it. -/
def largeStart : Config :=
  let c := demoStart (2 ^ 250) (by decide)
  { c with world := { c.world with ledger := c.world.ledger.approve 5 10 100 (2 ^ 250) } }

theorem largeStart_initial : Initial demo largeStart where
  sender := ⟨1, 2, 3, ⟨by decide, by decide⟩, rfl⟩
  locked := rfl
  timestamp := by decide
  stack := rfl
  calls := rfl

/-- Work on a task of the given amount that nobody judged before its deadline. -/
def unjudgedWork (amount : Nat) : List Cue :=
  [.send ⟨1, 0, .allowToken 5⟩, .send ⟨10, 0, .createTask 7 5 amount "delivery" "north" 7200⟩,
    .send ⟨10, 0, .assignWorker 1 20⟩, .send ⟨20, 0, .submitEvidence 1 8⟩, .wait 7200]

def unjudgedPlay (amount : Nat) : Config × Trace :=
  play demo (unjudgedWork amount) (largeStart, [])

theorem unjudgedPlay_run (amount : Nat) :
    EscrowRun demo largeStart (unjudgedPlay amount).2 (unjudgedPlay amount).1 :=
  play_run _ _ .nil

end BlindEscrow
