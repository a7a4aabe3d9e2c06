import BlindMarket.Escrow.Refunds
import BlindMarket.Escrow.Transactions

/-!
# Appeals

What can happen to a task with a failed verdict once its deadline is over: the
worker may dispute until the appeal window ends, and from that second on the
poster may take the refund, which nobody can then prevent.
-/
namespace BlindEscrow

open Checked Runs

variable {D : Deployment} {b c c' c₀ : Config} {e : Event} {tr later : Trace} {w : World}
  {s s' : Escrow} {x : Ctx} {id ext : Nat} {op : Op} {r : Row} {todo : List Action}

/-- Past the deadline a failed task moves only by the worker's appeal, while the window is open,
and by the poster's timeout afterwards. -/
theorem Move.appeal (h : Move x s id op r todo) (hst : (s.tasks id).status = .verified)
    (hext : pauseExtension s x.timestamp id = .ok ext)
    (hlate : (s.tasks id).deadline + ext ≤ x.timestamp) :
    (op = .raiseDispute id ∧ x.sender = (s.tasks id).worker ∧
        x.timestamp < s.failedVerdictAt id + APPEAL_WINDOW + ext) ∨
      (op = .claimTimeout id ∧ x.sender = (s.tasks id).agent ∧
        s.failedVerdictAt id + APPEAL_WINDOW + ext ≤ x.timestamp ∧
        r.task.status = .cancelled) := by
  have hsame : ∀ {ext'}, pauseExtension s x.timestamp id = .ok ext' → ext' = ext :=
    fun h => Except.ok.inj (h.symm.trans hext)
  cases h with
  | assign op worker ext' hp hop ho hst' => simp [hst] at hst'
  | evidence hash ext' hp hs hst' h0 hext' hd =>
    obtain rfl := hsame hext'
    omega
  | fail op emitted disputed hl hp hop hs hw hst' => simp [hst] at hst'
  | complete op fee score before after hl hfee hle h => simpa [hst] using h.status
  | refund op after hl h =>
    cases h with
    | withdrawn hp hs hst' => simp [hst] at hst'
    | ghosted ext' hp hs hext' hd hst' => simp [hst] at hst'
    | failed ext' hp hs hext' hd hst' ht =>
      obtain rfl := hsame hext'
      exact .inr ⟨rfl, hs, ht, rfl⟩
    | stale ext' hp hs hext' hd hst' => simp [hst] at hst'
    | ruled hs hst' => simp [hst] at hst'
  | escalate ext' hl hp hs hext' hd hst' => simp [hst] at hst'
  | dispute ext' hp hs hst' hext' hd =>
    obtain rfl := hsame hext'
    rcases hd with hd | ⟨hworker, -, ht⟩
    · omega
    · exact .inl ⟨rfl, hworker, ht⟩
  | submit hash ext' hp ho hst' => simp [hst] at hst'
  | pick op winner scorecard judge fee hl h => exact absurd (hst.symm.trans h.open_funded.2) (by simp)
  | void op scorecard judge hl h => exact absurd (hst.symm.trans h.open_funded.2) (by simp)

/-! ## The two calls -/

variable (recover : Bytes → Bytes → Option Address)

theorem raiseDispute_ok (hp : s.paused = false) (hst : (s.tasks id).status = .verified)
    (hs : x.sender = (s.tasks id).worker) (hext : pauseExtension s x.timestamp id = .ok ext)
    (ht : x.timestamp < s.failedVerdictAt id + APPEAL_WINDOW + ext) :
    ∃ s' todo, enter recover x (.raiseDispute id) s = .ok (s', todo) ∧
      (s'.tasks id).status = .disputed := by
  have hparty : x.sender = (s.tasks id).agent ∨ x.sender = (s.tasks id).worker := .inr hs
  have hstatus : (s.tasks id).status = .submitted ∨ (s.tasks id).status = .verified := .inr hst
  have hopen : x.timestamp < (s.tasks id).deadline + ext ∨ x.sender = (s.tasks id).worker ∧
      (s.tasks id).status = .verified ∧
      x.timestamp < s.failedVerdictAt id + APPEAL_WINDOW + ext := .inr ⟨hs, hst, ht⟩
  dsimp only [enter]
  unfold raiseDispute whenNotPaused
  rw [require_pos hp, ok_bind]
  dsimp only
  rw [require_pos hparty, ok_bind, require_pos hstatus, ok_bind, hext, ok_bind,
    require_pos hopen, ok_bind]
  exact ⟨_, _, rfl, by simp⟩

/-- The states from which the poster's timeout refunds. -/
theorem claimTimeout_ok (hl : x.locked = false) (hp : s.paused = false)
    (hs : x.sender = (s.tasks id).agent) (hext : pauseExtension s x.timestamp id = .ok ext)
    (hlate : (s.tasks id).deadline + ext ≤ x.timestamp)
    (hst : (s.tasks id).status = .assigned ∨
      (s.tasks id).status = .verified ∧
        s.failedVerdictAt id + APPEAL_WINDOW + ext ≤ x.timestamp ∨
      (s.tasks id).status = .disputed ∧ s.unjudgedEscalation id = false ∧
        (s.tasks id).disputedAt ≠ 0 ∧
        (s.tasks id).disputedAt + DISPUTE_WINDOW + ext ≤ x.timestamp) :
    ∃ s' todo, enter recover x (.claimTimeout id) s = .ok (s', todo) ∧
      (s'.tasks id).status = .cancelled := by
  dsimp only [enter]
  unfold claimTimeout onlyAgent nonReentrant whenNotPaused effectiveDeadline
  rw [require_pos hs, ok_bind, require_pos hl, ok_bind, require_pos hp, ok_bind]
  dsimp only
  rw [hext, ok_bind, pure_eq, ok_bind, require_pos hlate, ok_bind]
  rcases hst with hst | ⟨hst, ht⟩ | ⟨hst, hu, h0, ht⟩
  · rw [hst]
    exact ⟨_, _, rfl, by simp⟩
  · rw [hst]
    dsimp only
    rw [ok_bind, require_pos ht, ok_bind]
    exact ⟨_, _, rfl, by simp⟩
  · rw [hst]
    dsimp only
    rw [require_pos hu, ok_bind, ok_bind, require_pos (And.intro h0 ht), ok_bind]
    exact ⟨_, _, rfl, by simp⟩

/-- The two calls, and only these, are accepted on a failed task past its deadline. -/
theorem Sound.appeal (hw : Sound D w) {m : Msg} (hs : Sender D m.sender)
    (hid : m.op.taskId = some id) (hst : (w.escrow.tasks id).status = .verified)
    (hlate : Late w id) (hext : pauseExtension w.escrow w.timestamp id = .ok ext)
    (h : enter D.recover (w.ctx m) m.op w.escrow = .ok (s', todo)) :
    (m.op = .raiseDispute id ∧ m.sender = (w.escrow.tasks id).worker ∧
        w.timestamp < w.escrow.failedVerdictAt id + APPEAL_WINDOW + ext) ∨
      (m.op = .claimTimeout id ∧ m.sender = (w.escrow.tasks id).agent ∧
        m.sender ≠ (w.escrow.tasks id).worker ∧
        w.escrow.failedVerdictAt id + APPEAL_WINDOW + ext ≤ w.timestamp) := by
  obtain ⟨hmove, -, -, hr⟩ := hw.target hs (enter_effect h) hid
  rcases hmove.appeal hst hext (hlate.deadline_le hext) with hdispute | ⟨hop, hagent, ht, -⟩
  · exact .inl hdispute
  · refine .inr ⟨hop, hagent, ?_, ht⟩
    intro hworker
    exact hr.worker (hworker.symm.trans hagent)

/-! ## Once the window is over -/

/-- A window that is over stays over, pauses or not. -/
theorem windowOver_run {start width : Nat} (hc : ClockOk c.world) (hrun : EscrowRun D c later c')
    (hid : id < c.world.escrow.nextTaskId) (h : windowOver c.world id start width) :
    windowOver c'.world id start width := by
  obtain ⟨hc', hpaused, htime⟩ := hc.run hrun
  have hcreate : c'.world.escrow.pausedTotalAtCreate id = c.world.escrow.pausedTotalAtCreate id :=
    (sameTerms_run hrun hid).pausedAtCreate
  obtain ⟨ext, hext, hle⟩ := h
  rw [pauseExtension_eq_ok hc.past] at hext
  refine ⟨ext + pausedTime later, ?_, by omega⟩
  rw [pauseExtension_eq_ok hc'.past]
  omega

/-- From then on the task stays as it is until its refund. -/
theorem lapsed_run (h0 : Initial D c₀) (hrun : EscrowRun D c₀ tr c) (hid : 0 < id)
    (hlt : id < c.world.escrow.nextTaskId) (hst : (c.world.escrow.tasks id).status = .verified)
    (hlate : Late c.world id)
    (hover : windowOver c.world id (c.world.escrow.failedVerdictAt id) APPEAL_WINDOW)
    (hlater : EscrowRun D c later c') :
    c'.world.escrow.row id = c.world.escrow.row id ∨
      (c'.world.escrow.tasks id).status = .cancelled := by
  have hclock := (h0.sound_run hrun).clock
  induction hlater with
  | nil => exact .inl rfl
  | @snoc later b c' e hlater hs ih =>
    have hlt' := hlt.trans_le (nextTaskId_le_run hlater)
    rcases ih with hrow | hcancelled
    · rcases hs.row id with ⟨-, -, hsame⟩ | ⟨m, todo, -, -, -, -, hmove⟩ | ⟨m, token, i, o, hcr⟩
      · exact .inl (hsame.trans hrow)
      · have hst' : (b.world.escrow.tasks id).status = .verified :=
          (congrArg (fun r => r.task.status) hrow).trans hst
        have hat : b.world.escrow.failedVerdictAt id = c.world.escrow.failedVerdictAt id :=
          congrArg Row.failedVerdictAt hrow
        obtain ⟨ext, hext, hle⟩ := windowOver_run hclock hlater hlt hover
        have hlate' := (h0.late hrun hid hlt hlater hlate).deadline_le hext
        rcases hmove.appeal hst' hext hlate' with ⟨-, -, ht⟩ | ⟨-, -, -, hcancelled⟩
        · simp only [World.ctx] at ht
          omega
        · exact .inr hcancelled
      · exact absurd hcr.next (by omega)
    · refine .inr ((congrArg (fun r => r.task.status) (hs.settled hlt' ?_)).trans hcancelled)
      rw [hcancelled]
      rfl

/-- Between two calls the poster's timeout then goes through. -/
theorem Initial.timeout_succeeds (h0 : Initial D c₀) (hrun : EscrowRun D c₀ tr c)
    (hstack : c.stack = []) (hp : c.world.escrow.paused = false)
    (hst : (c.world.escrow.tasks id).status = .verified) (hid : 0 < id)
    (hlt : id < c.world.escrow.nextTaskId) (hlate : Late c.world id)
    (hover : windowOver c.world id (c.world.escrow.failedVerdictAt id) APPEAL_WINDOW) :
    Succeeds D ⟨(c.world.escrow.tasks id).agent, 0, .claimTimeout id⟩ c.world := by
  obtain ⟨ext, hext, hle⟩ := hover
  obtain ⟨s', todo, henter, hcancelled⟩ := claimTimeout_ok D.recover
    (x := c.world.ctx ⟨(c.world.escrow.tasks id).agent, 0, .claimTimeout id⟩)
    (h0.unlocked hrun hstack) hp rfl hext (hlate.deadline_le hext) (.inr (.inl ⟨hst, hle⟩))
  obtain ⟨w', paid, h, -⟩ := h0.call_succeeds hrun ((h0.sound_run hrun).rows id hid hlt).agent rfl
    rfl henter (fun hst' => absurd (hcancelled.symm.trans hst') (by simp))
  exact ⟨w', paid, h⟩

/-- After the deadline a failed verdict leaves exactly one move: the worker's dispute before the
appeal window ends, the poster's timeout from that second on. No other call on the task is accepted,
by whomever; and once the window is over every later state between two calls is one where the task
is refunded or the timeout succeeds, unless the escrow is paused there. -/
theorem failed_verdict_appeal (h0 : Initial D c₀) (hrun : EscrowRun D c₀ tr c)
    (hp : c.world.escrow.paused = false) (hst : (c.world.escrow.tasks id).status = .verified)
    (hlate : Late c.world id) :
    ∃ ext endsAt : Nat, pauseExtension c.world.escrow c.world.timestamp id = .ok ext ∧
      endsAt = c.world.escrow.failedVerdictAt id + APPEAL_WINDOW + ext ∧
      (Succeeds D ⟨(c.world.escrow.tasks id).worker, 0, .raiseDispute id⟩ c.world ↔
        c.world.timestamp < endsAt) ∧
      (c.stack = [] →
        (Succeeds D ⟨(c.world.escrow.tasks id).agent, 0, .claimTimeout id⟩ c.world ↔
          endsAt ≤ c.world.timestamp)) ∧
      (∀ m stop, Sender D m.sender → m.op.taskId = some id → begin D m c.world = .ok stop →
        m.op = .raiseDispute id ∧ m.sender = (c.world.escrow.tasks id).worker ∧
            c.world.timestamp < endsAt ∨
          m.op = .claimTimeout id ∧ m.sender = (c.world.escrow.tasks id).agent ∧
            m.sender ≠ (c.world.escrow.tasks id).worker ∧ endsAt ≤ c.world.timestamp) ∧
      (endsAt ≤ c.world.timestamp → ∀ later c', EscrowRun D c later c' → c'.stack = [] →
        (c'.world.escrow.tasks id).status = .cancelled ∨ c'.world.escrow.paused = true ∨
          Succeeds D ⟨(c.world.escrow.tasks id).agent, 0, .claimTimeout id⟩ c'.world) := by
  have hw := h0.sound_run hrun
  have hcreated : 0 < id ∧ id < c.world.escrow.nextTaskId := by
    by_contra hnot
    have hblank := congrArg (fun r => r.task.status) (hw.blank id (by omega))
    exact absurd (hst.symm.trans hblank) (by simp)
  obtain ⟨hid, hlt⟩ := hcreated
  have hr := hw.rows id hid hlt
  have hworker : Sender D (c.world.escrow.tasks id).worker := (hr.delivered (.inr (.inl hst))).2.2
  obtain ⟨ext, hext⟩ : ∃ ext, pauseExtension c.world.escrow c.world.timestamp id = .ok ext := by
    obtain ⟨d, hd, -⟩ := hlate
    obtain ⟨ext, hext, -⟩ := effectiveDeadline_eq_ok.mp hd
    exact ⟨ext, hext⟩
  refine ⟨ext, _, hext, rfl, ⟨?_, ?_⟩, ?_, ?_, ?_⟩
  · rintro ⟨w', paid, h⟩
    obtain ⟨-, s', todo, -, -, henter, -⟩ := transact_ok h
    rcases hw.appeal hworker rfl hst hlate hext henter with ⟨-, -, ht⟩ | ⟨hop, -⟩
    · exact ht
    · cases hop
  · intro ht
    obtain ⟨s', todo, henter, hdisputed⟩ := raiseDispute_ok D.recover
      (x := c.world.ctx ⟨(c.world.escrow.tasks id).worker, 0, .raiseDispute id⟩) hp hst rfl hext ht
    obtain ⟨w', paid, h, -⟩ := h0.call_succeeds hrun hworker rfl rfl henter
      (fun hst' => absurd (hdisputed.symm.trans hst') (by simp))
    exact ⟨w', paid, h⟩
  · intro hstack
    constructor
    · rintro ⟨w', paid, h⟩
      obtain ⟨-, s', todo, -, -, henter, -⟩ := transact_ok h
      rcases hw.appeal hr.agent rfl hst hlate hext henter with ⟨hop, -⟩ | ⟨-, -, -, ht⟩
      · cases hop
      · exact ht
    · intro ht
      exact h0.timeout_succeeds hrun hstack hp hst hid hlt hlate ⟨ext, hext, ht⟩
  · intro m stop hs hop hbegin
    obtain ⟨-, s', todo, -, -, henter, -⟩ := begin_ok hbegin
    exact hw.appeal hs hop hst hlate hext henter
  · intro ht later c' hlater hstack
    rcases lapsed_run h0 hrun hid hlt hst hlate ⟨ext, hext, ht⟩ hlater with hrow | hcancelled
    · rcases Bool.eq_false_or_eq_true c'.world.escrow.paused with hp' | hp'
      · exact .inr (.inl hp')
      · have hat : c'.world.escrow.failedVerdictAt id = c.world.escrow.failedVerdictAt id :=
          congrArg Row.failedVerdictAt hrow
        have hagent : (c'.world.escrow.tasks id).agent = (c.world.escrow.tasks id).agent :=
          congrArg (fun r => r.task.agent) hrow
        have hover := windowOver_run hw.clock hlater hlt ⟨ext, hext, ht⟩
        rw [← hagent]
        exact .inr (.inr (h0.timeout_succeeds (hrun.append hlater) hstack hp'
          ((congrArg (fun r => r.task.status) hrow).trans hst) hid
          (hlt.trans_le (nextTaskId_le_run hlater)) (h0.late hrun hid hlt hlater hlate)
          (hat ▸ hover)))
    · exact .inl hcancelled

/-- Work that failed its verdict just before the deadline, and whose appeal window is over. -/
def lapsed : List Cue :=
  [.send ⟨1, 0, .allowToken 0⟩, .send ⟨10, 500, .createTask 7 0 500 "delivery" "north" 7200⟩,
    .send ⟨10, 0, .assignWorker 1 20⟩, .send ⟨20, 0, .submitEvidence 1 8⟩, .wait 7000,
    .send ⟨3, 0, .completeVerification 1 false⟩, .wait 259200]

theorem failed_verdict_appeal_lapsed :
    ∃ ext endsAt : Nat, endsAt ≤ (demoPlay lapsed).1.world.timestamp ∧
      pauseExtension (demoPlay lapsed).1.world.escrow (demoPlay lapsed).1.world.timestamp 1 =
        .ok ext ∧
      Succeeds demo ⟨10, 0, .claimTimeout 1⟩ (demoPlay lapsed).1.world ∧
      ¬ Succeeds demo ⟨20, 0, .raiseDispute 1⟩ (demoPlay lapsed).1.world := by
  have hlate : Late (demoPlay lapsed).1.world 1 := ⟨8200, by decide, by decide⟩
  obtain ⟨ext, endsAt, hext, rfl, hdispute, htimeout, -⟩ :=
    failed_verdict_appeal (demoStart_initial (by decide)) (demoPlay_run lapsed) (by decide)
      (by decide) hlate
  have hext0 : ext = 0 := Except.ok.inj (hext.symm.trans (by decide))
  subst hext0
  have hover : (demoPlay lapsed).1.world.escrow.failedVerdictAt 1 + APPEAL_WINDOW + 0 ≤
      (demoPlay lapsed).1.world.timestamp := by decide
  exact ⟨0, _, hover, hext, (htimeout (by decide)).mpr hover,
    fun h => absurd (hdispute.mp h) (not_lt.mpr hover)⟩

end BlindEscrow
