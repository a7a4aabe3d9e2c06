import BlindMarket.Escrow.OpenPhases
import BlindMarket.Escrow.Refunds

/-!
# Settlement of open tasks

Once somebody has submitted to an open task, its poster cannot get the escrow
back alone, and whoever is paid for it had submitted before the deadline and was
picked by the judge whose turn it was.
-/
namespace BlindEscrow

open Checked Runs

variable {D : Deployment} {b c c' c₀ : Config} {e : Event} {tr : Trace} {s : Escrow} {x : Ctx}
  {id cid : Nat} {op : Op} {r : Row} {todo : List Action} {a : Address}

/-! ## Submissions -/

/-- The submissions of a task change only by its submitters' own calls, once each. -/
theorem Move.submissionOf (h : Move x s id op r todo) :
    r.submissionOf = s.submissionOf id ∨
      ∃ hash, op = .submitOpen id hash ∧ s.submissionOf id x.sender = 0 ∧
        r.submissionOf = Function.update (s.submissionOf id) x.sender hash ∧
        ∃ d, effectiveDeadline s x.timestamp id = .ok d ∧ x.timestamp < d := by
  cases h with
  | submit hash ext hp ho hst ha hv hg h0 hext hd hnew =>
    exact .inr ⟨hash, rfl, hnew, rfl, _, effectiveDeadline_eq_ok.mpr ⟨ext, hext, rfl⟩, hd⟩
  | _ => exact .inl rfl

/-- A submission was made by its submitter, before the deadline of that moment. -/
theorem Initial.submitted (h0 : Initial D c₀) (hrun : EscrowRun D c₀ tr c)
    (ha : c.world.escrow.submissionOf id a ≠ 0) :
    ∃ since f mid cid m, tr = since ++ f :: mid ∧ f.kind = .called cid m ∧ m.sender = a ∧
      m.op = .submitOpen id (c.world.escrow.submissionOf id a) ∧
      ∃ d, effectiveDeadline f.pre.escrow f.pre.timestamp id = .ok d ∧ f.pre.timestamp < d := by
  induction hrun with
  | nil =>
    obtain ⟨sender, treasury, verifier, -, -, -, hs⟩ := h0.storage
    simp [hs] at ha
  | @snoc tr b c e hrun hs ih =>
    have hkeep (hsame : c.world.escrow.submissionOf id a = b.world.escrow.submissionOf id a) :
        ∃ since f mid cid m, e :: tr = since ++ f :: mid ∧ f.kind = .called cid m ∧
          m.sender = a ∧ m.op = .submitOpen id (c.world.escrow.submissionOf id a) ∧
          ∃ d, effectiveDeadline f.pre.escrow f.pre.timestamp id = .ok d ∧
            f.pre.timestamp < d := by
      rw [hsame] at ha ⊢
      obtain ⟨since, f, mid, cid, m, rfl, hf⟩ := ih ha
      exact ⟨e :: since, f, mid, cid, m, rfl, hf⟩
    rcases hs.row id with ⟨-, -, hrow⟩ | ⟨m, todo, hk, -, -, -, hmove⟩ | ⟨m, token, i, o, hc⟩
    · exact hkeep (congrArg (fun r => r.submissionOf a) hrow)
    · rcases hmove.submissionOf with hsame | ⟨hash, hop, hnew, hupdate, hdeadline⟩
      · exact hkeep (congrFun hsame a)
      · have hof : c.world.escrow.submissionOf id =
            Function.update (b.world.escrow.submissionOf id) m.sender hash := hupdate
        by_cases hsender : a = m.sender
        · refine ⟨[], e, tr, b.calls, m, rfl, hk, hsender.symm, ?_, ?_⟩
          · rw [hop, hof, hsender, Function.update_self]
          · rw [hs.worlds.1]
            exact hdeadline
        · exact hkeep (by rw [hof, Function.update_of_ne hsender])
    · have hblank := (h0.sound_run hrun).blank id (.inr hc.next)
      have hold : b.world.escrow.submissionOf id a = 0 :=
        congrArg (fun r => r.submissionOf a) hblank
      have hnew : c.world.escrow.submissionOf id a = b.world.escrow.submissionOf id a :=
        congrArg (fun r => r.submissionOf a) hc.row
      exact absurd (hnew.trans hold) ha

/-! ## Settlements -/

theorem Picks.judged {winner : Address} {scorecard : Bytes32} {judge : Judge}
    (h : Picks x s id winner scorecard op judge) :
    judge.pick id winner scorecard = some op ∧ x.sender = judge.address s id ∧
      openPhase s x.timestamp id = .ok judge.phase := by
  cases h <;> exact ⟨rfl, ‹_›, ‹_›⟩

/-- An open task is completed only by a pick. -/
theorem Move.wins (h : Move x s id op r todo) (hr : RowOk D (s.row id))
    (ho : (s.openTasks id).isOpen = true) (hst : r.task.status = .completed) :
    ∃ winner scorecard judge, Picks x s id winner scorecard op judge ∧
      s.submissionOf id winner ≠ 0 ∧ winner ≠ x.sender ∧ r.task.worker = winner ∧
      r.task.evidenceHash = s.submissionOf id winner ∧ r.openTask.closedBy = judge ∧
      r.scorecard = scorecard ∧ r.submissionOf = s.submissionOf id := by
  cases h with
  | pick op winner scorecard judge fee hl h hsub hne =>
    exact ⟨winner, scorecard, judge, h, hsub, hne, rfl, rfl, rfl, rfl, rfl⟩
  | complete op fee score before after hl hfee hle h =>
    have hopen := (hr.isOpen ho).1
    rcases h.status with hst' | hst' <;> simp [hst', TaskStatus.live] at hopen
  | submit hash ext hp ho' hst' => exact absurd (hst'.symm.trans hst) (by simp)
  | _ => cases hst

/-- Once there are submissions, only the backup judge and the admin can void an open task. -/
theorem Move.voids (h : Move x s id op r todo) (hr : RowOk D (s.row id))
    (ho : (s.openTasks id).isOpen = true) (hcount : r.submissionCount ≠ 0)
    (hst : r.task.status = .cancelled) :
    (∃ scorecard, op = .voidOpenTask id scorecard ∧ x.sender = s.verifier ∧
      openPhase s x.timestamp id = .ok .backupPick) ∨
    (∃ scorecard, op = .resolveOpenTask id 0 scorecard ∧ x.sender = s.admin ∧
      openPhase s x.timestamp id = .ok .adminResolve) := by
  have hopen := (hr.isOpen ho).1
  cases h with
  | void op scorecard judge hl h =>
    cases h with
    | creator phase hp hs hc => exact absurd hc hcount
    | backup hp hs hc hph => exact .inl ⟨scorecard, rfl, hs, hph⟩
    | admin hs hph => exact .inr ⟨scorecard, rfl, hs, hph⟩
  | refund op after hl h =>
    rcases h.status with ⟨-, hc⟩ | hst' | hst' | hst'
    · exact absurd hc hcount
    all_goals simp [hst', TaskStatus.live] at hopen
  | submit hash ext hp ho' hst' => exact absurd (hst'.symm.trans hst) (by simp)
  | _ => cases hst

/-- The agent and the worker of a task are paid at the addresses its record keeps. -/
theorem Initial.payee (h0 : Initial D c₀) (hrun : EscrowRun D c₀ tr c) (he : e ∈ tr)
    {p : Payment} (hp : p ∈ e.paid) (hparty : p.party ≠ .treasury) :
    p.payee = p.party.address c.world.escrow p.task := by
  obtain ⟨later, earlier, b, b', rfl, hb, hs, hlater⟩ := hrun.split_mem he
  obtain ⟨hlt, -, hpayee⟩ := hs.paid_ok (h0.sound_run hb) (h0.account hb) p hp
  have hmem : p.due ∈ duesOn p.task (e.paid.map Payment.due) :=
    List.mem_filter.mpr ⟨List.mem_map_of_mem hp, by simp [Payment.due]⟩
  have hdead : (b'.world.escrow.tasks p.task).status.live = false := by
    rcases h0.account (hb.snoc hs) p.task with ⟨-, hpaid, -⟩ | ⟨hdead, -⟩
    · exact absurd (paidOn_eq_nil hpaid e List.mem_cons_self) (List.ne_nil_of_mem hmem)
    · exact hdead
  have hrow := settled_run hlater (hlt.trans_le hs.nextTaskId_le) hdead
  have htask : c.world.escrow.tasks p.task = b'.world.escrow.tasks p.task :=
    congrArg Row.task hrow
  rw [hpayee]
  cases h : p.party with
  | treasury => exact absurd h hparty
  | _ => simp only [Party.address, htask]

/-- Submitted work on an open task is protected from its poster. With submissions the task is
cancelled, and its amount refunded, only by the global verifier's void in the backup phase or by
the admin in the last one. If it is completed, its worker is the one address that was paid: it had
submitted before the deadline, is none of the poster, the task verifier and the picker, and was
picked by the judge whose phase it was. -/
theorem open_task_settlement (h0 : Initial D c₀) (hrun : EscrowRun D c₀ tr c)
    (ho : (c.world.escrow.openTasks id).isOpen = true) :
    (c.world.escrow.submissionCount id ≠ 0 →
      Refunded id tr ∨ (c.world.escrow.tasks id).status = .cancelled →
      ∃ (later : Trace) (e : Event) (earlier : Trace) (cid : Nat) (m : Msg) (scorecard : Bytes32),
        tr = later ++ e :: earlier ∧ e.settles id cid ∧
        e.kind = .called cid m ∧
        (m.op = .voidOpenTask id scorecard ∧ m.sender = e.pre.escrow.verifier ∧
            openPhase e.pre.escrow e.pre.timestamp id = .ok .backupPick ∨
          m.op = .resolveOpenTask id 0 scorecard ∧ m.sender = e.pre.escrow.admin ∧
            openPhase e.pre.escrow e.pre.timestamp id = .ok .adminResolve)) ∧
    ((c.world.escrow.tasks id).status = .completed →
      ∃ (later : Trace) (e : Event) (earlier : Trace) (cid : Nat) (m : Msg) (winner : Address)
          (scorecard : Bytes32) (judge : Judge), tr = later ++ e :: earlier ∧
        e.settles id cid ∧ e.kind = .called cid m ∧
        judge.pick id winner scorecard = some m.op ∧
        m.sender = judge.address e.pre.escrow id ∧
        openPhase e.pre.escrow e.pre.timestamp id = .ok judge.phase ∧
        paidOn id tr ++ pendingOn id c.stack = plan e.pre.escrow id .completed ∧
        (∀ e' ∈ tr, ∀ p ∈ e'.paid, p.task = id → p.party ≠ .treasury → p.payee = winner) ∧
        (∃ (since : Trace) (f : Event) (mid : Trace) (cid' : Nat) (m' : Msg),
          earlier = since ++ f :: mid ∧ f.kind = .called cid' m' ∧
          m'.sender = winner ∧ m'.op = .submitOpen id (c.world.escrow.submissionOf id winner) ∧
          ∃ d, effectiveDeadline f.pre.escrow f.pre.timestamp id = .ok d ∧ f.pre.timestamp < d) ∧
        winner ≠ (c.world.escrow.tasks id).agent ∧ winner ≠ c.world.escrow.taskVerifier id ∧
        winner ≠ m.sender ∧ (c.world.escrow.tasks id).worker = winner ∧
        (c.world.escrow.tasks id).evidenceHash = c.world.escrow.submissionOf id winner ∧
        (c.world.escrow.openTasks id).closedBy = judge ∧
        c.world.escrow.scorecardOf id = scorecard) := by
  constructor
  · intro hcount hcancelled
    have hst : (c.world.escrow.tasks id).status = .cancelled :=
      hcancelled.elim (h0.refunded hrun) fun h => h
    obtain ⟨later, e, earlier, b, b', m, todo, rfl, hb, hs, hlater, hsettle, hk, hsender, hid, hlt,
      hmove, hrow, -, -⟩ := h0.settlement hrun (by rw [hst]; rfl)
    have hr := (h0.sound_run hb).rows id hid hlt
    have hopen : (b.world.escrow.openTasks id).isOpen = true :=
      (sameTerms_run ((Run.single hs).append hlater) hlt).isOpen.symm.trans ho
    have hst' : (b'.world.escrow.row id).task.status = .cancelled :=
      (congrArg (fun r => r.task.status) hrow).symm.trans hst
    have hcount' : (b'.world.escrow.row id).submissionCount ≠ 0 := by
      rw [← hrow]
      exact hcount
    rw [← hs.worlds.1] at hmove hr hopen
    rcases hmove.voids hr hopen hcount' hst' with ⟨scorecard, h⟩ | ⟨scorecard, h⟩
    · exact ⟨later, e, earlier, b.calls, m, scorecard, rfl, hsettle, hk, .inl h⟩
    · exact ⟨later, e, earlier, b.calls, m, scorecard, rfl, hsettle, hk, .inr h⟩
  · intro hst
    obtain ⟨later, e, earlier, b, b', m, todo, rfl, hb, hs, hlater, hsettle, hk, hsender, hid, hlt,
      hmove, hrow, hplan, -⟩ := h0.settlement hrun (by rw [hst]; rfl)
    have hr := (h0.sound_run hb).rows id hid hlt
    have hopen : (b.world.escrow.openTasks id).isOpen = true :=
      (sameTerms_run ((Run.single hs).append hlater) hlt).isOpen.symm.trans ho
    have hst' : (b'.world.escrow.row id).task.status = .completed :=
      (congrArg (fun r => r.task.status) hrow).symm.trans hst
    obtain ⟨winner, scorecard, judge, hpick, hsub, hne, hworker, hevidence, hclosed, hscore, hof⟩ :=
      hmove.wins hr hopen hst'
    obtain ⟨hop, haddress, hphase⟩ := hpick.judged
    rw [← hrow] at hworker hevidence hclosed hscore hof
    have hof' : c.world.escrow.submissionOf id winner = b.world.escrow.submissionOf id winner :=
      congrFun hof winner
    have hterms := sameTerms_run ((Run.single hs).append hlater) hlt
    obtain ⟨-, hagent, hverifier, -⟩ := hr.submitter winner hsub
    obtain ⟨since, f, mid, cid', m', hearlier, hf⟩ := h0.submitted hb hsub
    rw [hst] at hplan
    refine ⟨later, e, earlier, b.calls, m, winner, scorecard, judge, rfl, hsettle, hk, hop, ?_, ?_,
      ?_, ?_, ⟨since, f, mid, cid', m', hearlier, by rw [hof']; exact hf⟩, ?_, ?_, hne, hworker,
      hevidence.trans hof'.symm, hclosed, hscore⟩
    · rw [hs.worlds.1]; exact haddress
    · rw [hs.worlds.1]; exact hphase
    · rw [hs.worlds.1]; exact hplan
    · rintro e' he' p hp rfl hparty
      have hpayee := h0.payee hrun he' hp hparty
      cases h : p.party with
      | treasury => exact absurd h hparty
      | agent =>
        have hcancelled := h0.refunded hrun ⟨e', he', p, hp, rfl, h⟩
        exact absurd (hst.symm.trans hcancelled) (by simp)
      | worker => rw [hpayee, h]; exact hworker
    · exact fun h => hagent (h.trans hterms.agent)
    · exact fun h => hverifier (h.trans hterms.verifier)

/-- The poster lets its window pass, and the task verifier picks one of two submitters. -/
def verifierPicks : List Cue :=
  [.send ⟨1, 0, .allowToken 0⟩,
    .send ⟨10, 500, .createTaskOpen 7 0 500 "survey" "north" 7200 11 .creatorReview 3600⟩,
    .send ⟨20, 0, .submitOpen 1 8⟩, .send ⟨21, 0, .submitOpen 1 9⟩,
    .send ⟨10, 0, .cancelTask 1⟩, .wait 10800, .send ⟨10, 0, .voidOpenTask 1 5⟩,
    .send ⟨11, 0, .selectWinnerByVerifier 1 21 5⟩, .resume, .resume]

theorem open_task_settlement_verifierPicks :
    ((demoPlay verifierPicks).1.world.escrow.tasks 1).worker = 21 ∧
      ∃ e ∈ (demoPlay verifierPicks).2, ∃ cid judge, e.settles 1 cid ∧
        openPhase e.pre.escrow e.pre.timestamp 1 = .ok (Judge.phase judge) ∧
        ((demoPlay verifierPicks).1.world.escrow.openTasks 1).closedBy = judge := by
  obtain ⟨later, e, earlier, cid, m, winner, scorecard, judge, htr, hsettle, -, -, -, hphase, -, -,
    -, -, -, -, -, -, hclosed, -⟩ := (open_task_settlement
      (demoStart_initial (by decide)) (demoPlay_run verifierPicks)
      (show ((demoPlay verifierPicks).1.world.escrow.openTasks 1).isOpen = true by decide)).2
      (by decide)
  exact ⟨by decide, e, by rw [htr]; simp, cid, judge, hsettle, hphase, hclosed⟩

end BlindEscrow
