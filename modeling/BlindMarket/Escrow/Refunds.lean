import BlindMarket.Escrow.Pauses
import BlindMarket.Escrow.Solvency

/-!
# Refunds

When the amount of a task goes back to its poster. Refunds are read off the
payments of a run: a payment to the agent belongs to the call that cancelled the
task, and the trace before that call tells why it could.
-/
namespace BlindEscrow

open Checked Runs

variable {D : Deployment} {b b' c c' c₀ c₁ : Config} {e f : Event} {tr later earlier : Trace}
  {w : World} {s s' : Escrow} {x : Ctx} {id cid : Nat} {op : Op} {r : Row} {todo : List Action}

/-! ## Refunding calls -/

/-- The run paid the amount of task `id`, or a part of it, to its agent. -/
def Refunded (id : Nat) (tr : Trace) : Prop :=
  ∃ e ∈ tr, ∃ p ∈ e.paid, p.task = id ∧ p.party = .agent

/-- A task whose agent was paid is cancelled. -/
theorem Initial.refunded (h0 : Initial D c₀) (hrun : EscrowRun D c₀ tr c) (h : Refunded id tr) :
    (c.world.escrow.tasks id).status = .cancelled := by
  obtain ⟨e, he, p, hp, hid, hparty⟩ := h
  have hmem : p.due ∈ duesOn id (e.paid.map Payment.due) :=
    List.mem_filter.mpr ⟨List.mem_map_of_mem hp, by simp [Payment.due, hid]⟩
  rcases h0.account hrun id with ⟨-, hpaid, -⟩ | ⟨-, e', -, cid, -, hplan, -⟩
  · exact absurd (paidOn_eq_nil hpaid e he) (List.ne_nil_of_mem hmem)
  · have hd : p.due ∈ plan e'.pre.escrow id (c.world.escrow.tasks id).status := by
      rw [← hplan]
      exact List.mem_append_left _ (mem_paidOn he hmem)
    rcases plan_party hd with ⟨-, h | h⟩ | ⟨hst, -⟩
    · exact absurd (hparty.symm.trans h) (by simp)
    · exact absurd (hparty.symm.trans h) (by simp)
    · exact hst

/-- Which moves cancel a task. -/
theorem Move.cancels (h : Move x s id op r todo) (hr : r.task.status = .cancelled) :
    (∃ after, Refunds x s id op after) ∨ ∃ scorecard judge, Voids x s id scorecard op judge := by
  cases h with
  | refund op after hl h => exact .inl ⟨after, h⟩
  | void op scorecard judge hl h => exact .inr ⟨scorecard, judge, h⟩
  | submit hash ext hp ho hst =>
    simp only [Escrow.row_task, hst] at hr
    cases hr
  | _ => cases hr

/-! ## The grounds of a refund -/

/-- The call is a failed verdict on task `id`. -/
def Op.fails (id : Nat) : Op → Bool
  | .completeVerification j passed | .completeVerificationWithTEE j passed _ _ =>
    j = id ∧ passed = false
  | _ => false

theorem Move.fails (h : Move x s id op r todo) (hne : (s.tasks id).status ≠ .verified)
    (hr : r.task.status = .verified) : op.fails id = true := by
  cases h with
  | fail op emitted disputed hl hp hop => rcases hop with rfl | ⟨signature, text, rfl⟩ <;> simp [Op.fails]
  | submit hash ext hp ho hst => exact absurd hr hne
  | _ => cases hr

theorem Move.disputes (h : Move x s id op r todo) (hne : (s.tasks id).status ≠ .disputed)
    (hr : r.task.status = .disputed) :
    op = .raiseDispute id ∨ op = .claimTimeout id ∧ r.unjudged = true := by
  cases h with
  | escalate => exact .inr ⟨rfl, rfl⟩
  | dispute => exact .inl rfl
  | submit hash ext hp ho hst => exact absurd hr hne
  | _ => cases hr

/-- The grounds on which a call may refund a single-worker task, given the trace before it. -/
inductive RefundGround (id : Nat) (m : Msg) (w : World) (earlier : Trace) : Prop where
  | withdrawn (hop : m.op = .cancelTask id) (hs : m.sender = (w.escrow.tasks id).agent)
      (hfills : callCount (Op.fills id) earlier = 0)
  | ghosted (d : Nat) (hop : m.op = .claimTimeout id) (hs : m.sender = (w.escrow.tasks id).agent)
      (hst : (w.escrow.tasks id).status = .assigned)
      (hevidence : callCount (Op.evidences id) earlier = 0)
      (hd : effectiveDeadline w.escrow w.timestamp id = .ok d) (hle : d ≤ w.timestamp)
  | failed (d ext : Nat) (since mid : Trace) (f : Event) (hop : m.op = .claimTimeout id)
      (hs : m.sender = (w.escrow.tasks id).agent)
      (hd : effectiveDeadline w.escrow w.timestamp id = .ok d) (hle : d ≤ w.timestamp)
      (htr : earlier = since ++ f :: mid) (hf : f.calls (Op.fails id) = true)
      (hlatest : ∀ g ∈ since, (g.pre.escrow.tasks id).status = .verified)
      (hext : pauseExtension w.escrow w.timestamp id = .ok ext)
      (hwindow : f.pre.timestamp + APPEAL_WINDOW + ext ≤ w.timestamp)
  | stale (d ext : Nat) (since mid : Trace) (f : Event) (hop : m.op = .claimTimeout id)
      (hs : m.sender = (w.escrow.tasks id).agent)
      (hu : w.escrow.unjudgedEscalation id = false)
      (hd : effectiveDeadline w.escrow w.timestamp id = .ok d) (hle : d ≤ w.timestamp)
      (htr : earlier = since ++ f :: mid)
      (hf : f.calls (fun op => op = .raiseDispute id) = true)
      (hlatest : ∀ g ∈ since, (g.pre.escrow.tasks id).status = .disputed)
      (hext : pauseExtension w.escrow w.timestamp id = .ok ext)
      (hwindow : f.pre.timestamp + DISPUTE_WINDOW + ext ≤ w.timestamp)
  | ruled (hop : m.op = .resolveDispute id false) (hs : m.sender = w.escrow.admin)

/-- The last entry of a task into its present status, in a run from the start. -/
theorem Initial.entered (h0 : Initial D c₀) (hrun : EscrowRun D c₀ tr c) (hid : 0 < id)
    (hlt : id < c.world.escrow.nextTaskId) (hst : (c.world.escrow.tasks id).status ≠ .funded) :
    ∃ since f mid b b', tr = since ++ f :: mid ∧ EscrowRun D c₀ mid b ∧ Step D b f b' ∧
      EscrowRun D b' since c ∧ id < b.world.escrow.nextTaskId ∧
      (b.world.escrow.tasks id).status ≠ (c.world.escrow.tasks id).status ∧
      b'.world.escrow.row id = c.world.escrow.row id ∧
      ∀ g ∈ since, (g.pre.escrow.tasks id).status = (c.world.escrow.tasks id).status := by
  obtain @⟨a, a', m, token, i, o, later, e, earlier, before, step, created, after⟩ :=
    h0.born hrun hid hlt
  have hfunded : (a'.world.escrow.tasks id).status = .funded :=
    congrArg Task.status created.fields.1
  obtain ⟨since, f, mid, b, b', rfl, hmid, hf, hsince, hne, hrow, hall⟩ :=
    BlindEscrow.entered after created.next' hst (by rw [hfunded]; exact hst.symm) rfl
  exact ⟨since, f, mid ++ e :: earlier, b, b', by simp, (Run.snoc before step).append hmid, hf,
    hsince, created.next'.trans_le (nextTaskId_le_run hmid), hne, hrow, hall⟩

theorem Refunds.ground {m : Msg} {after : List Action} (h0 : Initial D c₀)
    (hrun : EscrowRun D c₀ tr c) (hid : 0 < id) (hlt : id < c.world.escrow.nextTaskId)
    (h : Refunds (c.world.ctx m) c.world.escrow id m.op after) :
    RefundGround id m c.world tr := by
  have hcalls := h0.row_calls hrun id
  have hr := (h0.sound_run hrun).rows id hid hlt
  generalize hop : m.op = op at h
  cases h with
  | withdrawn hp hs hst hc => exact .withdrawn hop hs (hcalls.1.mp (hr.vacant hst))
  | ghosted ext hp hs hext hd hst =>
    have hzero : (c.world.escrow.tasks id).submissionAttempts = 0 := hr.untried (.inr hst)
    exact .ghosted _ hop hs hst (hcalls.2.symm.trans hzero)
      (effectiveDeadline_eq_ok.mpr ⟨ext, hext, rfl⟩) hd
  | failed ext hp hs hext hd hst hwindow =>
    obtain ⟨since, f, mid, b, b', htr, -, hf, -, hb, hne, hrow, hall⟩ :=
      h0.entered hrun hid hlt (by rw [hst]; simp)
    rw [hst] at hne hall
    have hst' : (b'.world.escrow.tasks id).status = .verified :=
      (congrArg (fun r => r.task.status) hrow).trans hst
    obtain ⟨m', todo, hk, -, -, hmove, hat⟩ := hf.enters_verified hb hne hst'
    have hat' : c.world.escrow.failedVerdictAt id = f.pre.timestamp := by
      rw [hf.worlds.1]
      exact (congrArg Row.failedVerdictAt hrow).symm.trans hat
    rw [hat'] at hwindow
    exact .failed _ ext since mid f hop hs (effectiveDeadline_eq_ok.mpr ⟨ext, hext, rfl⟩) hd htr
      (by simpa [Event.calls, hk] using hmove.fails hne hst') hall hext hwindow
  | stale ext hp hs hext hd hst hu hat0 hwindow =>
    obtain ⟨since, f, mid, b, b', htr, -, hf, -, hb, hne, hrow, hall⟩ :=
      h0.entered hrun hid hlt (by rw [hst]; simp)
    rw [hst] at hne hall
    have hst' : (b'.world.escrow.tasks id).status = .disputed :=
      (congrArg (fun r => r.task.status) hrow).trans hst
    obtain ⟨m', todo, hk, -, -, hmove, hat⟩ := hf.enters_disputed hb hne hst'
    have hat' : (c.world.escrow.tasks id).disputedAt = f.pre.timestamp := by
      rw [hf.worlds.1]
      exact (congrArg (fun r => r.task.disputedAt) hrow).symm.trans hat
    have hop' : m'.op = .raiseDispute id := by
      rcases hmove.disputes hne hst' with hop' | ⟨-, hu'⟩
      · exact hop'
      · rw [hrow] at hu'
        exact absurd (hu.symm.trans hu') Bool.false_ne_true
    rw [hat'] at hwindow
    exact .stale _ ext since mid f hop hs hu (effectiveDeadline_eq_ok.mpr ⟨ext, hext, rfl⟩) hd htr
      (by simp [Event.calls, hk, hop']) hall hext hwindow
  | ruled hs hst => exact .ruled hop hs

/-! ## Work that was never judged -/

/-- The effective deadline of a task is over. -/
def Late (w : World) (id : Nat) : Prop :=
  ∃ d, effectiveDeadline w.escrow w.timestamp id = .ok d ∧ d ≤ w.timestamp

theorem Late.deadline_le {ext : Nat} (h : Late w id)
    (hext : pauseExtension w.escrow w.timestamp id = .ok ext) :
    (w.escrow.tasks id).deadline + ext ≤ w.timestamp := by
  obtain ⟨d, hd, hle⟩ := h
  have hd' := effectiveDeadline_eq_ok.mpr ⟨ext, hext, rfl⟩
  rw [hd] at hd'
  cases hd'
  exact hle

/-- A deadline that is over stays over. -/
theorem Initial.late (h0 : Initial D c₀) (hrun : EscrowRun D c₀ tr c) (hid : 0 < id)
    (hlt : id < c.world.escrow.nextTaskId) (hrun' : EscrowRun D c later c')
    (h : Late c.world id) : Late c'.world id := by
  obtain @⟨b, b', m, token, i, o, mid, e, earlier, before, step, created, after⟩ :=
    h0.born hrun hid hlt
  have hb := (h0.sound_run before).clock
  obtain ⟨d, hd, -, hover⟩ := created.deadline step hb after
  obtain ⟨d', hd', -, hover'⟩ := created.deadline step hb (after.append hrun')
  obtain ⟨d₁, hd₁, hle⟩ := h
  rw [hd] at hd₁
  cases hd₁
  rw [runningTime_append] at hover'
  exact ⟨d', hd', by omega⟩

/-- Delivered work past its deadline, not judged so far: still submitted, or escalated, or settled. -/
def Unjudged (s : Escrow) (id : Nat) : Prop :=
  (s.tasks id).status = .submitted ∨
    (s.tasks id).status = .disputed ∧ s.unjudgedEscalation id = true ∨
    (s.tasks id).status.live = false

/-- Past the deadline, work without a failed verdict stays unjudged until it is settled, and it is
cancelled only by the admin's ruling. -/
theorem Move.unjudged (h : Move x s id op r todo) (hu : Unjudged s id)
    (hlate : (s.tasks id).status = .submitted → ∀ ext,
      pauseExtension s x.timestamp id = .ok ext → (s.tasks id).deadline + ext ≤ x.timestamp)
    (hfails : op.fails id = false) :
    (r.task.status = .disputed ∧ r.unjudged = true ∨ r.task.status.live = false) ∧
      (r.task.status = .cancelled → op = .resolveDispute id false ∧ x.sender = s.admin) := by
  have hstatus : (s.tasks id).status = .submitted ∨
      (s.tasks id).status = .disputed ∧ s.unjudgedEscalation id = true := by
    rcases hu with hst | hst | hdead
    · exact .inl hst
    · exact .inr hst
    · exact absurd (hdead.symm.trans h.live) Bool.false_ne_true
  have hne : (s.tasks id).status ≠ .funded ∧ (s.tasks id).status ≠ .assigned ∧
      (s.tasks id).status ≠ .verified := by
    rcases hstatus with hst | ⟨hst, -⟩ <;> simp [hst]
  cases h with
  | assign op worker ext hp hop ho hst => exact absurd hst hne.1
  | evidence hash ext hp hs hst =>
    rcases hst with hst | ⟨hst, -⟩
    · exact absurd hst hne.2.1
    · exact absurd hst hne.2.2
  | fail op emitted disputed hl hp hop =>
    rcases hop with rfl | ⟨signature, text, rfl⟩ <;> simp [Op.fails] at hfails
  | complete op fee score before after hl hfee hle h => exact ⟨.inr rfl, by simp⟩
  | refund op after hl h =>
    refine ⟨.inr rfl, fun _ => ?_⟩
    cases h with
    | withdrawn hp hs hst => exact absurd hst hne.1
    | ghosted ext hp hs hext hd hst => exact absurd hst hne.2.1
    | failed ext hp hs hext hd hst => exact absurd hst hne.2.2
    | stale ext hp hs hext hd hst hu' =>
      rcases hstatus with hst' | ⟨-, hu''⟩
      · simp [hst'] at hst
      · exact absurd (hu'.symm.trans hu'') Bool.false_ne_true
    | ruled hs hst => exact ⟨rfl, hs⟩
  | escalate => exact ⟨.inl ⟨rfl, rfl⟩, by simp⟩
  | dispute ext hp hs hst hext hd =>
    rcases hst with hst | hst
    · have := hlate hst ext hext
      rcases hd with hd | ⟨-, hst', -⟩
      · omega
      · exact absurd hst' hne.2.2
    · exact absurd hst hne.2.2
  | submit hash ext hp ho hst => exact absurd hst hne.1
  | pick op winner scorecard judge fee hl h => exact absurd h.open_funded.2 hne.1
  | void op scorecard judge hl h => exact absurd h.open_funded.2 hne.1

theorem Initial.unjudged (h0 : Initial D c₀) (hrun : EscrowRun D c₀ earlier c) (hid : 0 < id)
    (hlt : id < c.world.escrow.nextTaskId) (hlate : Late c.world id)
    (hrun' : EscrowRun D c later c') (hu : Unjudged c.world.escrow id)
    (hfails : callCount (Op.fails id) later = 0) : Unjudged c'.world.escrow id := by
  induction hrun' with
  | nil => exact hu
  | @snoc later b c' e hlater hs ih =>
    simp only [callCount_cons, Nat.add_eq_zero_iff] at hfails
    have hb := ih hfails.1
    rcases hs.row id with ⟨-, -, hrow⟩ | ⟨m, todo, hk, -, -, -, hmove⟩ | ⟨m, token, i, o, hc⟩
    · have hst : (c'.world.escrow.tasks id).status = (b.world.escrow.tasks id).status :=
        congrArg (fun r => r.task.status) hrow
      have hflag : c'.world.escrow.unjudgedEscalation id = b.world.escrow.unjudgedEscalation id :=
        congrArg Row.unjudged hrow
      unfold Unjudged
      rw [hst, hflag]
      exact hb
    · have hnot : m.op.fails id = false := by simpa [Event.calls, hk] using hfails.2
      have hlate' := h0.late hrun hid hlt hlater hlate
      rcases (hmove.unjudged hb (fun _ _ => hlate'.deadline_le) hnot).1 with ⟨hst, hflag⟩ | hdead
      · exact .inr (.inl ⟨hst, hflag⟩)
      · exact .inr (.inr hdead)
    · exact absurd hc.next (by have := hlt.trans_le (nextTaskId_le_run hlater); omega)

/-! ## The guarantee -/

/-- Delivered single-worker work is never refunded by silence. A refund has one of the five grounds,
and comes from one call. If the task is submitted when its deadline is over and gets no failed
verdict from then on, the only call that can refund it is the admin's `resolveDispute`. -/
theorem refund_grounds (h0 : Initial D c₀) (hrun : EscrowRun D c₀ tr c)
    (ho : (c.world.escrow.openTasks id).isOpen = false) (hrefund : Refunded id tr) :
    ∃ later e earlier cid m, tr = later ++ e :: earlier ∧ e.kind = .called cid m ∧
      paidOn id tr ++ pendingOn id c.stack = [⟨id, .agent, (c.world.escrow.tasks id).amount⟩] ∧
      (∀ e' ∈ tr, duesOn id (e'.paid.map Payment.due) ≠ [] → e'.cid = some cid) ∧
      RefundGround id m e.pre earlier ∧
      ∀ since before c₁, tr = since ++ before → EscrowRun D c₀ before c₁ →
        EscrowRun D c₁ since c → (c₁.world.escrow.tasks id).status = .submitted →
        Late c₁.world id → callCount (Op.fails id) since = 0 →
        m.op = .resolveDispute id false ∧ m.sender = e.pre.escrow.admin := by
  have hcancelled := h0.refunded hrun hrefund
  obtain ⟨later, e, earlier, b, b', m, todo, rfl, hb, hs, hlater, hsettle, hk, hsender, hid, hlt,
    hmove, hrow, hplan, hpayer⟩ := h0.settlement hrun (by rw [hcancelled]; rfl)
  have hcancelled' : (b'.world.escrow.tasks id).status = .cancelled :=
    (congrArg (fun r => r.task.status) hrow).symm.trans hcancelled
  have hamount : (c.world.escrow.tasks id).amount = (b.world.escrow.tasks id).amount :=
    (sameTerms_run ((Run.single hs).append hlater) hlt).amount
  refine ⟨later, e, earlier, b.calls, m, rfl, hk, ?_, hpayer, ?_, ?_⟩
  · rw [hplan, hcancelled, hamount]
    rfl
  · have hopen : (b.world.escrow.openTasks id).isOpen = false :=
      (sameTerms_run ((Run.single hs).append hlater) hlt).isOpen.symm.trans ho
    rw [hs.worlds.1]
    rcases hmove.cancels hcancelled' with ⟨after, h⟩ | ⟨scorecard, judge, h⟩
    · exact h.ground h0 hb hid hlt
    · exact absurd (hopen.symm.trans h.open_funded.1) Bool.false_ne_true
  · intro since before c₁ htr hbefore hsince hst hlate hfails
    have he : e ∈ since ++ before := htr ▸ List.mem_append_right _ List.mem_cons_self
    rcases List.mem_append.mp he with he | he
    · obtain ⟨l₂, l₁, a, a', rfl, ha, hsa, -⟩ := hsince.split_mem he
      have hlt₁ : id < c₁.world.escrow.nextTaskId := by
        by_contra hge
        have hblank := (h0.sound_run hbefore).blank id (.inr (not_lt.mp hge))
        have := (congrArg (fun r => r.task.status) hblank).symm.trans hst
        cases this
      simp only [callCount_append, callCount_cons, Nat.add_eq_zero_iff] at hfails
      have hu := h0.unjudged hbefore hid hlt₁ hlate ha (.inl hst) hfails.2.1
      have hlate' := h0.late hbefore hid hlt₁ ha hlate
      obtain ⟨m', todo', hk', -, -, -, hmove'⟩ :=
        hsa.settling (h0.sound_run (hbefore.append ha)) hsettle
      rw [hk, Kind.called.injEq] at hk'
      obtain ⟨-, rfl⟩ := hk'
      have hnot : m.op.fails id = false := by simpa [Event.calls, hk] using hfails.2.2
      have hcancelled₂ : (a'.world.escrow.row id).task.status = .cancelled := by
        rw [← hsa.worlds.2, hs.worlds.2]
        exact hcancelled'
      rw [hsa.worlds.1]
      exact (hmove'.unjudged hu (fun _ _ => hlate'.deadline_le) hnot).2 hcancelled₂
    · obtain ⟨l₂, l₁, a, a', rfl, ha, hsa, hrest⟩ := hbefore.split_mem he
      have hdead := hsettle.2.2
      rw [hsa.worlds.2] at hdead
      obtain ⟨m', todo', -, -, -, hlt', -⟩ := hsa.settling (h0.sound_run ha) hsettle
      have hrow := settled_run hrest (hlt'.trans_le hsa.nextTaskId_le) hdead
      have hst' := (congrArg (fun r => r.task.status) hrow).symm.trans hst
      have hlive : (a'.world.escrow.tasks id).status = .submitted := hst'
      rw [hlive] at hdead
      cases hdead

/-- Work that nobody judges is escalated, and the admin rules against the worker. -/
def escalated : List Cue :=
  [.send ⟨1, 0, .allowToken 0⟩, .send ⟨10, 500, .createTask 7 0 500 "delivery" "north" 7200⟩,
    .send ⟨10, 0, .assignWorker 1 20⟩, .send ⟨20, 0, .submitEvidence 1 8⟩, .wait 7200,
    .send ⟨10, 0, .claimTimeout 1⟩, .wait 3000000, .send ⟨10, 0, .claimTimeout 1⟩,
    .send ⟨1, 0, .resolveDispute 1 false⟩, .resume]

theorem refund_grounds_escalated :
    Refunded 1 (demoPlay escalated).2 ∧
      ∃ e ∈ (demoPlay escalated).2, ∃ earlier cid m, e.kind = .called cid m ∧
        RefundGround 1 m e.pre earlier := by
  have hrefund : Refunded 1 (demoPlay escalated).2 := by
    unfold Refunded
    decide
  obtain ⟨later, e, earlier, cid, m, htr, hk, -, -, hground, -⟩ :=
    refund_grounds (demoStart_initial (by decide)) (demoPlay_run escalated) (by decide) hrefund
  exact ⟨hrefund, e, by rw [htr]; simp, earlier, cid, m, hk, hground⟩

end BlindEscrow
