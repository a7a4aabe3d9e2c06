import BlindMarket.Escrow.Pauses

/-!
# Phases of an open task

The phase of an open task is computed from a deadline that moves with every
pause. An open task can only be created unpaused, so the pauses after its
creation all have a known start, and its phase depends on nothing but the
seconds that have run unpaused since. This also holds after an upgrade in the
middle of a pause of unknown start.
-/
namespace BlindEscrow

open Checked Runs

variable {D : Deployment} {b b' c c' c₀ : Config} {e : Event} {tr later : Trace}
  {id : Nat} {m : Msg} {token : Address} {i : TaskInput} {o : OpenTask} {s s' : Escrow} {w : World}
  {x : Ctx} {op : Op} {winner : Address} {scorecard : Bytes32} {judge : Judge} {todo : List Action}

/-! ## Phases by time -/

def OpenPhase.rank : OpenPhase → Nat
  | .submissions => 0
  | .creatorPick => 1
  | .verifierPick => 2
  | .backupPick => 3
  | .adminResolve => 4
  | .closed => 5

/-- The phase after `t` unpaused seconds. -/
def phaseAt (duration window t : Nat) : OpenPhase :=
  if t < duration then .submissions
  else if t < duration + window then .creatorPick
  else if t < duration + window + VERIFIER_PICK_WINDOW then .verifierPick
  else if t < duration + window + VERIFIER_PICK_WINDOW + BACKUP_PICK_WINDOW then .backupPick
  else .adminResolve

theorem phaseAt_mono {duration window t t' : Nat} (h : t ≤ t') :
    (phaseAt duration window t).rank ≤ (phaseAt duration window t').rank := by
  unfold phaseAt
  split_ifs <;> first | decide | omega

theorem OpenPhase.rank_le_closed (p : OpenPhase) : p.rank ≤ OpenPhase.closed.rank := by
  cases p <;> decide

theorem phaseAt_ne_closed (duration window t : Nat) : phaseAt duration window t ≠ .closed := by
  unfold phaseAt
  split_ifs <;> simp

/-- Each phase lasts exactly its window, the last one for ever. -/
theorem phaseAt_eq (duration window t : Nat) :
    (phaseAt duration window t = .submissions ↔ t < duration) ∧
    (phaseAt duration window t = .creatorPick ↔ duration ≤ t ∧ t < duration + window) ∧
    (phaseAt duration window t = .verifierPick ↔
      duration + window ≤ t ∧ t < duration + window + VERIFIER_PICK_WINDOW) ∧
    (phaseAt duration window t = .backupPick ↔ duration + window + VERIFIER_PICK_WINDOW ≤ t ∧
      t < duration + window + VERIFIER_PICK_WINDOW + BACKUP_PICK_WINDOW) ∧
    (phaseAt duration window t = .adminResolve ↔
      duration + window + VERIFIER_PICK_WINDOW + BACKUP_PICK_WINDOW ≤ t) := by
  unfold phaseAt
  split_ifs <;> simp <;> omega

/-! ## Starts -/

/-- Right after an upgrade over a state without open tasks. A pause may be running whose start is
unknown. -/
structure Upgraded (c : Config) : Prop where
  stack : c.stack = []
  locked : c.world.locked = false
  timestamp : 0 < c.world.timestamp
  noOpen : ∀ id, (c.world.escrow.openTasks id).isOpen = false
  idle : c.world.escrow.paused = false → c.world.escrow.pausedSince = 0
  past : c.world.escrow.pausedSince ≤ c.world.timestamp
  fee : c.world.escrow.feeBps ≤ MAX_FEE_BPS

theorem Initial.upgraded (h : Initial D c) : Upgraded c := by
  obtain ⟨hclock, -⟩ := h.clock
  have hfee := h.sound.fee
  obtain ⟨sender, treasury, verifier, -, -, -, hs⟩ := h.storage
  exact ⟨h.stack, h.locked, h.timestamp, by rw [hs]; exact fun _ => rfl, hclock.idle, hclock.past,
    hfee⟩

/-- The pause accounting when a running pause may have an unknown start. -/
structure Coherent (w : World) : Prop where
  positive : 0 < w.timestamp
  idle : w.escrow.paused = false → w.escrow.pausedSince = 0
  past : w.escrow.pausedSince ≤ w.timestamp
  fee : w.escrow.feeBps ≤ MAX_FEE_BPS

theorem Coherent.clock (h : Coherent w) (hp : w.escrow.paused = false) : ClockOk w :=
  ⟨h.positive, by simp [hp], h.idle, h.past⟩

theorem Coherent.step (hw : Coherent c.world) (h : Step D c e c') : Coherent c'.world := by
  obtain ⟨hpos, hidle, hpast, hfee⟩ := hw
  rcases h.storage with ⟨m, todo, -, -, heff, ht, -⟩ | ⟨-, hsame, ht, -⟩
  · have hfee' : c'.world.escrow.feeBps ≤ MAX_FEE_BPS := by
      rcases heff.settings with hsame | ⟨-, -, -, -, h | h⟩
      · rwa [hsame.feeBps]
      · rwa [h]
      · exact h
    rcases heff.clock with hsame | ⟨-, -, -, hp', -, hsince⟩ | ⟨-, -, -, -, hsince, -⟩ |
      ⟨pausedAt, -, -, -, -, hp', -, hsince, -, hle⟩
    · exact ⟨by omega, by rw [hsame.paused, hsame.pausedSince]; exact hidle,
        by rw [hsame.pausedSince, ht]; exact hpast, hfee'⟩
    · exact ⟨by omega, by simp [hp'], by rw [hsince, ht]; exact le_rfl, hfee'⟩
    · exact ⟨by omega, fun _ => hsince, by omega, hfee'⟩
    · exact ⟨by omega, by simp [hp'], by rw [hsince, ht]; exact hle, hfee'⟩
  · rw [← hsame] at hidle hpast hfee
    exact ⟨by omega, hidle, by omega, hfee⟩

theorem Upgraded.coherent (h : Upgraded c₀) (hrun : EscrowRun D c₀ tr c) : Coherent c.world :=
  hrun.invariant (I := fun _ c => Coherent c.world) ⟨h.timestamp, h.idle, h.past, h.fee⟩
    fun _ _ _ _ _ hb hs => hb.step hs

/-- A row keeps its terms, or its task was created in the run. -/
theorem sameTerms_or_born (h : EscrowRun D c₀ tr c) (id : Nat) :
    (c₀.world.escrow.row id).SameTerms (c.world.escrow.row id) ∨ Born D id c₀ c tr := by
  induction h with
  | nil => exact .inl (.refl _)
  | @snoc tr b c e hrun hs ih =>
    rcases ih with hsame | @⟨b₁, b₂, m, token, i, o, later, e', earlier, before, step, created,
      after⟩
    · rcases hs.row id with ⟨-, -, hrow⟩ | ⟨m, todo, -, -, -, -, hmove⟩ | ⟨m, token, i, o, hc⟩
      · rw [hrow]; exact .inl hsame
      · exact .inl (hsame.trans hmove.sameTerms)
      · exact .inr (.mk [] e tr hrun hs hc .nil)
    · exact .inr (.mk (e :: later) e' earlier before step created (.snoc after hs))

theorem Upgraded.born (h : Upgraded c₀) (hrun : EscrowRun D c₀ tr c)
    (ho : (c.world.escrow.openTasks id).isOpen = true) : Born D id c₀ c tr := by
  rcases sameTerms_or_born hrun id with hsame | hborn
  · exact absurd ((h.noOpen id).symm.trans (hsame.isOpen.symm.trans ho)) Bool.false_ne_true
  · exact hborn

/-! ## The phase along a run -/

/-- A funded open task stays funded or is settled. -/
theorem Move.open_status {r : Row} (h : Move x s id op r todo)
    (ho : (s.openTasks id).isOpen = true) (hst : (s.tasks id).status = .funded) :
    r.task.status = .funded ∨ r.task.status.live = false := by
  cases h with
  | submit => exact .inl hst
  | refund | pick | void => exact .inr rfl
  | assign op worker ext hp hop ho' => exact absurd (ho'.symm.trans ho) Bool.false_ne_true
  | evidence hash ext hp hs hst' => simp [hst] at hst'
  | fail op emitted disputed hl hp hop hs hw hst' => simp [hst] at hst'
  | complete op fee score before after hl hfee hle h => simpa [hst] using h.status
  | escalate ext hl hp hs hext hd hst' => simp [hst] at hst'
  | dispute ext hp hs hst' => simp [hst] at hst'

theorem open_status_run (h : EscrowRun D c tr c') (hid : id < c.world.escrow.nextTaskId)
    (ho : (c.world.escrow.openTasks id).isOpen = true)
    (hst : (c.world.escrow.tasks id).status = .funded) :
    (c'.world.escrow.tasks id).status = .funded ∨
      (c'.world.escrow.tasks id).status.live = false := by
  induction h with
  | nil => exact .inl hst
  | @snoc tr b c' e hrun hs ih =>
    have hid' := hid.trans_le (nextTaskId_le_run hrun)
    rcases ih with hfunded | hdead
    · rcases hs.row id with ⟨-, -, hrow⟩ | ⟨m, todo, -, -, -, -, hmove⟩ | ⟨m, token, i, o, hc⟩
      · exact .inl ((congrArg (fun r => r.task.status) hrow).trans hfunded)
      · exact hmove.open_status ((sameTerms_run hrun hid).isOpen.trans ho) hfunded
      · exact absurd hc.next (by omega)
    · exact .inr ((congrArg (fun r => r.task.status.live) (hs.settled hid' hdead)).trans hdead)

/-- The phase of an open task some time after its creation. -/
theorem Created.openPhase (hcr : Created D b e b' id m token i o) (hs : Step D b e b')
    (hb : ClockOk b.world) (h : EscrowRun D b' later c)
    (ho : (c.world.escrow.openTasks id).isOpen = true) :
    BlindEscrow.openPhase c.world.escrow c.world.timestamp id =
      .ok (if (c.world.escrow.tasks id).status ≠ .funded then .closed
        else phaseAt i.duration (c.world.escrow.openTasks id).creatorWindow
          (runningTime later)) := by
  obtain ⟨d, hd, hdeq, -⟩ := hcr.deadline hs hb h
  have htime := (hcr.clock hs hb h).2.2.2
  unfold BlindEscrow.openPhase
  simp only [require, ho, ↓reduceIte, ok_bind, hd, pure_eq, phaseAt]
  split_ifs <;> first | rfl | omega

/-- The phase of an open task never goes back, and is closed once the task is settled. -/
theorem Upgraded.phase_mono {tr' : Trace} (hstart : Upgraded c₀) (hrun : EscrowRun D c₀ tr c)
    (ho : (c.world.escrow.openTasks id).isOpen = true) (hrun' : EscrowRun D c tr' c') :
    ∃ p p', openPhase c.world.escrow c.world.timestamp id = .ok p ∧
      openPhase c'.world.escrow c'.world.timestamp id = .ok p' ∧ p.rank ≤ p'.rank ∧
      ((c.world.escrow.tasks id).status ≠ .funded → p' = .closed) := by
  obtain @⟨b, b', m, token, i, o, later, e, earlier, before, step, created, after⟩ :=
    hstart.born hrun ho
  have hb : ClockOk b.world := (hstart.coherent before).clock created.paused
  have hphase := created.openPhase step hb after ho
  have hid := created.next'.trans_le (nextTaskId_le_run after)
  have hterms := sameTerms_run hrun' hid
  have ho' : (c'.world.escrow.openTasks id).isOpen = true := hterms.isOpen.trans ho
  have hwindow : (c'.world.escrow.openTasks id).creatorWindow =
      (c.world.escrow.openTasks id).creatorWindow := hterms.creatorWindow
  have hphase' := created.openPhase step hb (after.append hrun') ho'
  refine ⟨_, _, hphase, hphase', ?_⟩
  have hstatus := open_status_run after created.next' ((sameTerms_run after
    created.next').isOpen.symm.trans ho) (congrArg Task.status created.fields.1)
  obtain hst | hdead := hstatus
  · simp only [hst, ne_eq, not_true_eq_false, ↓reduceIte, false_implies, and_true]
    split
    · exact OpenPhase.rank_le_closed _
    · rw [hwindow, runningTime_append]
      exact phaseAt_mono (Nat.le_add_left _ _)
  · have hrow := settled_run hrun' hid hdead
    have hsame : (c'.world.escrow.tasks id).status = (c.world.escrow.tasks id).status :=
      congrArg (fun r => r.task.status) hrow
    have hne : (c.world.escrow.tasks id).status ≠ .funded := fun h => by
      rw [h] at hdead
      cases hdead
    simp [hsame, hne]

/-! ## Judges -/

/-- The phase in which a judge picks. -/
def Judge.phase : Judge → OpenPhase
  | .none => .closed
  | .creator => .creatorPick
  | .taskVerifier => .verifierPick
  | .backup => .backupPick
  | .admin => .adminResolve

/-- Who the judge of a task is at the moment. -/
def Judge.address (s : Escrow) (id : Nat) : Judge → Address
  | .none => 0
  | .creator => (s.tasks id).agent
  | .taskVerifier => s.taskVerifier id
  | .backup => s.verifier
  | .admin => s.admin

/-- The call by which a judge picks a winner. -/
def Judge.pick (id : Nat) (winner : Address) (scorecard : Bytes32) : Judge → Option Op
  | .none => Option.none
  | .creator => some (.selectWinner id winner scorecard)
  | .taskVerifier => some (.selectWinnerByVerifier id winner scorecard)
  | .backup => some (.selectWinnerByBackup id winner scorecard)
  | .admin => some (.resolveOpenTask id winner scorecard)

variable {recover : Bytes → Bytes → Option Address}

/-- A pick that goes through is made in its judge's phase. -/
theorem pick_phase (hop : judge.pick id winner scorecard = some op)
    (h : enter recover x op s = .ok (s', todo)) :
    openPhase s x.timestamp id = .ok judge.phase := by
  cases judge <;> cases hop <;>
    simp only [enter, selectWinner, selectWinnerByVerifier, selectWinnerByBackup,
      resolveOpenTask, onlyAdmin, onlyVerifier, nonReentrant, whenNotPaused, requirePhase_eq_ok,
      require_eq_ok, seq_eq_ok, exists_const] at h
  · exact h.2.2.2.1
  · exact h.2.2.2.1
  · exact h.2.2.2.1
  · exact h.2.2.1

theorem pickWinner_ok (scorecard : Bytes32) (judge : Judge) {fee : Nat}
    (hsub : s.submissionOf id winner ≠ 0) (hne : winner ≠ x.sender)
    (hfee : platformFee s (s.tasks id).amount = .ok fee) (hle : fee ≤ (s.tasks id).amount) :
    ∃ s' todo, pickWinner x id winner scorecard judge s = .ok (s', todo) := by
  have hfee' : ∀ t, platformFee { s with
      tasks := Function.update s.tasks id t
      openTasks := Function.update s.openTasks id { s.openTasks id with closedBy := judge }
      scorecardOf := Function.update s.scorecardOf id scorecard } (s.tasks id).amount = .ok fee :=
    fun _ => hfee
  simp [pickWinner, payWorker, require, sub, hsub, hne, hfee', hle]

/-- In its phase a judge can pick whoever submitted, unless the fee overflows. -/
theorem pick_succeeds {fee : Nat} (hop : judge.pick id winner scorecard = some op)
    (hs : x.sender = judge.address s id) (hl : x.locked = false) (hp : s.paused = false)
    (hph : openPhase s x.timestamp id = .ok judge.phase) (hsub : s.submissionOf id winner ≠ 0)
    (hne : winner ≠ x.sender) (h0 : winner ≠ 0)
    (hfee : platformFee s (s.tasks id).amount = .ok fee) (hle : fee ≤ (s.tasks id).amount) :
    ∃ s' todo, enter recover x op s = .ok (s', todo) := by
  obtain ⟨s', todo, h⟩ := pickWinner_ok scorecard judge hsub hne hfee hle
  refine ⟨s', todo, ?_⟩
  cases judge <;> cases hop <;>
    simpa [enter, selectWinner, selectWinnerByVerifier, selectWinnerByBackup, resolveOpenTask,
      onlyVerifier, onlyAdmin, nonReentrant, whenNotPaused, requirePhase, require, hl, hp, hph, h0,
      hs, Judge.address, Judge.phase] using h

theorem Judge.phase_injective {j j' : Judge} (h : j.phase = j'.phase) : j = j' := by
  cases j <;> cases j' <;> first | rfl | cases h

/-- Past the submissions every phase is some judge's. -/
theorem OpenPhase.exists_judge (p : OpenPhase) (h0 : p ≠ .submissions) (h5 : p ≠ .closed) :
    ∃ j : Judge, j ≠ .none ∧ p = j.phase := by
  cases p with
  | submissions => exact absurd rfl h0
  | creatorPick => exact ⟨.creator, by simp, rfl⟩
  | verifierPick => exact ⟨.taskVerifier, by simp, rfl⟩
  | backupPick => exact ⟨.backup, by simp, rfl⟩
  | adminResolve => exact ⟨.admin, by simp, rfl⟩
  | closed => exact absurd rfl h5

/-- The fee never exceeds the amount. -/
theorem platformFee_le {amount fee : Nat} (hbps : s.feeBps ≤ MAX_FEE_BPS)
    (h : platformFee s amount = .ok fee) : fee ≤ amount := by
  rw [(platformFee_eq_ok.mp h).2]
  apply Nat.div_le_of_le_mul
  rw [Nat.mul_comm]
  exact Nat.mul_le_mul_right _ (hbps.trans (by decide))

/-! ## Order of the phases -/

/-- From `initialize`, or from an upgrade over a state without open tasks, the phases of an open
task are in order, without gaps, and never go back. While it is funded each lasts exactly its
window of unpaused seconds and the last one for ever; it is closed from its settlement on. Calls
of two different judges cannot both pick a winner now, and after the deadline every unpaused
moment belongs to one judge, who can pick whoever submitted. -/
theorem open_phases (h0 : Initial D c₀ ∨ Upgraded c₀) (hrun : EscrowRun D c₀ tr c)
    (ho : (c.world.escrow.openTasks id).isOpen = true) :
    ∃ later e earlier i, tr = later ++ e :: earlier ∧ e.input id = some i ∧
      (∀ window, window = (c.world.escrow.openTasks id).creatorWindow →
        (c.world.escrow.tasks id).status = .funded →
        (openPhase c.world.escrow c.world.timestamp id = .ok .submissions ↔
          runningTime later < i.duration) ∧
        (openPhase c.world.escrow c.world.timestamp id = .ok .creatorPick ↔
          i.duration ≤ runningTime later ∧ runningTime later < i.duration + window) ∧
        (openPhase c.world.escrow c.world.timestamp id = .ok .verifierPick ↔
          i.duration + window ≤ runningTime later ∧
            runningTime later < i.duration + window + VERIFIER_PICK_WINDOW) ∧
        (openPhase c.world.escrow c.world.timestamp id = .ok .backupPick ↔
          i.duration + window + VERIFIER_PICK_WINDOW ≤ runningTime later ∧
            runningTime later <
              i.duration + window + VERIFIER_PICK_WINDOW + BACKUP_PICK_WINDOW) ∧
        (openPhase c.world.escrow c.world.timestamp id = .ok .adminResolve ↔
          i.duration + window + VERIFIER_PICK_WINDOW + BACKUP_PICK_WINDOW ≤
            runningTime later)) ∧
      (∀ tr' c', EscrowRun D c tr' c' → ∃ p p',
        openPhase c.world.escrow c.world.timestamp id = .ok p ∧
        openPhase c'.world.escrow c'.world.timestamp id = .ok p' ∧ p.rank ≤ p'.rank ∧
        ((c.world.escrow.tasks id).status ≠ .funded → p' = .closed)) ∧
      (∀ j₁ j₂ winner₁ winner₂ scorecard₁ scorecard₂ m₁ m₂ stop₁ stop₂,
        Judge.pick id winner₁ scorecard₁ j₁ = some m₁.op →
        Judge.pick id winner₂ scorecard₂ j₂ = some m₂.op →
        begin D m₁ c.world = .ok stop₁ → begin D m₂ c.world = .ok stop₂ → j₁ = j₂) ∧
      ((c.world.escrow.tasks id).status = .funded → c.world.escrow.paused = false →
        ∀ d, effectiveDeadline c.world.escrow c.world.timestamp id = .ok d →
        d ≤ c.world.timestamp → ∃ j : Judge, j ≠ .none ∧
          openPhase c.world.escrow c.world.timestamp id = .ok j.phase ∧
          ∀ (x : Ctx) winner scorecard op fee, j.pick id winner scorecard = some op →
            x.timestamp = c.world.timestamp → x.locked = false →
            x.sender = j.address c.world.escrow id →
            c.world.escrow.submissionOf id winner ≠ 0 → winner ≠ x.sender → winner ≠ 0 →
            platformFee c.world.escrow (c.world.escrow.tasks id).amount = .ok fee →
            ∃ s' todo, enter D.recover x op c.world.escrow = .ok (s', todo)) := by
  have hstart : Upgraded c₀ := h0.elim Initial.upgraded fun h => h
  obtain @⟨b, b', m, token, i, o, later, e, earlier, before, step, created, after⟩ :=
    hstart.born hrun ho
  have hb : ClockOk b.world := (hstart.coherent before).clock created.paused
  have hphase := created.openPhase step hb after ho
  obtain ⟨d, hd, -, hover⟩ := created.deadline step hb after
  refine ⟨later, e, earlier, i, rfl, created.input, ?_, ?_, ?_, ?_⟩
  · rintro window rfl hst
    rw [hphase]
    simp only [hst, ne_eq, not_true_eq_false, ↓reduceIte, Except.ok.injEq]
    exact phaseAt_eq _ _ _
  · exact fun tr' c' hrun' => hstart.phase_mono hrun ho hrun'
  · intro j₁ j₂ winner₁ winner₂ scorecard₁ scorecard₂ m₁ m₂ stop₁ stop₂ hop₁ hop₂ h₁ h₂
    obtain ⟨-, s₁, todo₁, -, -, henter₁, -⟩ := begin_ok h₁
    obtain ⟨-, s₂, todo₂, -, -, henter₂, -⟩ := begin_ok h₂
    have hp₁ := pick_phase hop₁ henter₁
    have hp₂ := pick_phase hop₂ henter₂
    exact Judge.phase_injective (Except.ok.inj (hp₁.symm.trans hp₂))
  · intro hst hp d' hd' hle
    rw [hd] at hd'
    cases hd'
    have hne : phaseAt i.duration (c.world.escrow.openTasks id).creatorWindow (runningTime later) ≠
        .submissions := fun h => by
      have := (phaseAt_eq _ _ _).1.mp h
      omega
    obtain ⟨j, hj, hjp⟩ := OpenPhase.exists_judge _ hne (phaseAt_ne_closed _ _ _)
    have hjphase : openPhase c.world.escrow c.world.timestamp id = .ok j.phase := by
      rw [hphase, ← hjp]
      simp [hst]
    refine ⟨j, hj, hjphase, ?_⟩
    intro x winner scorecard op fee hop ht hl hs hsub hne h0 hfee
    exact pick_succeeds hop hs hl hp (by rw [ht]; exact hjphase) hsub hne h0 hfee
      (platformFee_le (hstart.coherent hrun).fee hfee)

/-- An upgrade in the middle of a pause of unknown start. -/
def demoUpgrade : Config :=
  let c := demoStart (10 ^ 24) demoSupply_lt
  { c with world := { c.world with escrow := { c.world.escrow with paused := true } } }

/-- The start of the pause is recorded, the pause ends, and an open task passes its deadline. -/
def afterUpgrade : List Cue :=
  [.wait 50, .send ⟨1, 0, .recordPauseStart 900⟩, .wait 50, .send ⟨1, 0, .unpause⟩,
    .send ⟨1, 0, .allowToken 0⟩,
    .send ⟨10, 500, .createTaskOpen 7 0 500 "survey" "north" 7200 11 .creatorReview 3600⟩,
    .send ⟨20, 0, .submitOpen 1 8⟩, .wait 7200]

theorem open_phases_afterUpgrade :
    openPhase (play demo afterUpgrade (demoUpgrade, [])).1.world.escrow
        (play demo afterUpgrade (demoUpgrade, [])).1.world.timestamp 1 = .ok .creatorPick ∧
      ∃ later e earlier i, (play demo afterUpgrade (demoUpgrade, [])).2 = later ++ e :: earlier ∧
        e.input 1 = some i ∧ i.duration ≤ runningTime later := by
  have hstart : Upgraded demoUpgrade :=
    { stack := rfl
      locked := rfl
      timestamp := by decide
      noOpen := fun _ => rfl
      idle := by decide
      past := by decide
      fee := by decide }
  obtain ⟨later, e, earlier, i, htr, hin, hphases, -⟩ :=
    open_phases (.inr hstart) (play_run (D := demo) afterUpgrade (demoUpgrade, []) .nil)
      (show ((play demo afterUpgrade (demoUpgrade, [])).1.world.escrow.openTasks 1).isOpen = true
        by decide)
  have hphase : openPhase (play demo afterUpgrade (demoUpgrade, [])).1.world.escrow
      (play demo afterUpgrade (demoUpgrade, [])).1.world.timestamp 1 = .ok .creatorPick := by decide
  exact ⟨hphase, later, e, earlier, i, htr, hin,
    ((hphases _ rfl (by decide)).2.1.mp hphase).1⟩

end BlindEscrow
