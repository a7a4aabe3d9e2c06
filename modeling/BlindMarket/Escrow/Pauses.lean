import BlindMarket.Escrow.Lifecycle

/-!
# Pauses are neutral

For a task created in a run, the extension of its windows is the time spent
paused since its creation. Deadlines therefore run in unpaused seconds, and a
window that starts at a later event is longer by the pauses between the
creation and that event, never shorter.
-/
namespace BlindEscrow

open Checked Runs

variable {D : Deployment} {b b' c c' c₀ : Config} {e : Event} {tr later since mid : Trace}
  {id : Nat} {m : Msg} {token : Address} {i : TaskInput} {o : OpenTask} {s : Escrow} {w : World}

/-! ## The extension of one task -/

theorem Created.instant (hcr : Created D b e b' id m token i o) : e.elapsed = 0 :=
  Event.call_instant hcr.kind

/-- Time and deadline of a task some time after its creation. -/
theorem Created.clock (hcr : Created D b e b' id m token i o) (hs : Step D b e b')
    (hb : ClockOk b.world) (h : EscrowRun D b' later c) :
    ClockOk c.world ∧
      pauseExtension c.world.escrow c.world.timestamp id = .ok (pausedTime later) ∧
      (c.world.escrow.tasks id).deadline = b.world.timestamp + i.duration ∧
      c.world.timestamp = b.world.timestamp + pausedTime later + runningTime later := by
  obtain ⟨hb', hpaused, htime⟩ := hb.step hs
  obtain ⟨hc, hpaused', htime'⟩ := hb'.run h
  have hterms := sameTerms_run h hcr.next'
  have hinstant := hcr.instant
  have hsplit := e.elapsed_split
  have hnow : pausedSoFar b.world.escrow b.world.timestamp = b.world.escrow.pausedTotal := by
    simp [pausedSoFar, hb.idle hcr.paused]
  have hcreate : c.world.escrow.pausedTotalAtCreate id = b.world.escrow.pausedTotal :=
    hterms.pausedAtCreate.trans hcr.fields.2.2
  have hdeadline : (c.world.escrow.tasks id).deadline = b.world.timestamp + i.duration := by
    have h : (c.world.escrow.tasks id).deadline = (b'.world.escrow.row id).task.deadline :=
      hterms.deadline
    rw [h, hcr.fields.1]
    rfl
  refine ⟨hc, ?_, hdeadline, by omega⟩
  rw [pauseExtension_eq_ok hc.past]
  omega

/-- The deadline of a task is over exactly when `duration` seconds have run unpaused. -/
theorem Created.deadline (hcr : Created D b e b' id m token i o) (hs : Step D b e b')
    (hb : ClockOk b.world) (h : EscrowRun D b' later c) :
    ∃ d, effectiveDeadline c.world.escrow c.world.timestamp id = .ok d ∧
      d = b.world.timestamp + i.duration + pausedTime later ∧
      (c.world.timestamp < d ↔ runningTime later < i.duration) := by
  obtain ⟨-, hext, hdeadline, htime⟩ := hcr.clock hs hb h
  refine ⟨b.world.timestamp + i.duration + pausedTime later, ?_, rfl, by omega⟩
  simp [effectiveDeadline, hext, hdeadline]

/-! ## Windows -/

/-- A window of `width` seconds that starts at `start`, as the functions compare it with the clock. -/
def windowOver (w : World) (id start width : Nat) : Prop :=
  ∃ ext, pauseExtension w.escrow w.timestamp id = .ok ext ∧ start + width + ext ≤ w.timestamp

/-- A window starting at a later call runs for its width and the pauses before that call. -/
theorem Created.window (hcr : Created D b e b' id m token i o) (hs : Step D b e b')
    (hb : ClockOk b.world) {f : Event} {b₁ b₂ : Config} (hmid : EscrowRun D b' mid b₁)
    (hf : Step D b₁ f b₂) (hinstant : f.elapsed = 0) (hsince : EscrowRun D b₂ since c)
    (width : Nat) :
    windowOver c.world id b₁.world.timestamp width ↔
      width + pausedTime mid ≤ runningTime since := by
  have hrun : EscrowRun D b' (since ++ f :: mid) c := (Run.snoc hmid hf).append hsince
  obtain ⟨-, hext, -, htime⟩ := hcr.clock hs hb hrun
  have hmid' := (hcr.clock hs hb hmid).2.2.2
  have hsplit := f.elapsed_split
  have hp : pausedTime (since ++ f :: mid) = pausedTime since + (f.pausedFor + pausedTime mid) := by
    rw [pausedTime_append, pausedTime_cons]
  have hr : runningTime (since ++ f :: mid) =
      runningTime since + (f.runningFor + runningTime mid) := by
    rw [runningTime_append, runningTime_cons]
  unfold windowOver
  rw [hext]
  constructor
  · rintro ⟨ext, hok, hle⟩
    cases hok
    omega
  · intro hle
    exact ⟨_, rfl, by omega⟩

/-! ## Neutrality -/

/-- Pauses are neutral in every run. `recordPauseStart` never succeeds. For a created task the
extension is the time paused since its creation, so its deadline is over after `duration` unpaused
seconds and never decreases; the dispute and appeal windows take their width in unpaused seconds
and the time that was paused between the creation and the event that started them. -/
theorem pauses_neutral (h0 : Initial D c₀) (hrun : EscrowRun D c₀ tr c) :
    (∀ x pausedAt r, recordPauseStart x pausedAt c.world.escrow ≠ .ok r) ∧
    ∀ id, 0 < id → id < c.world.escrow.nextTaskId →
      ∃ later e earlier i, tr = later ++ e :: earlier ∧ e.input id = some i ∧
        pauseExtension c.world.escrow c.world.timestamp id = .ok (pausedTime later) ∧
        (∃ d, effectiveDeadline c.world.escrow c.world.timestamp id = .ok d ∧
          (c.world.timestamp < d ↔ runningTime later < i.duration) ∧
          ∀ c' tr' d', EscrowRun D c tr' c' →
            effectiveDeadline c'.world.escrow c'.world.timestamp id = .ok d' → d ≤ d') ∧
        ((c.world.escrow.tasks id).status = .disputed →
          ∃ since f mid, later = since ++ f :: mid ∧
            (f.pre.escrow.tasks id).status ≠ .disputed ∧
            (∀ g ∈ since, (g.pre.escrow.tasks id).status = .disputed) ∧
            (c.world.escrow.tasks id).disputedAt = f.pre.timestamp ∧
            (windowOver c.world id (c.world.escrow.tasks id).disputedAt DISPUTE_WINDOW ↔
              DISPUTE_WINDOW + pausedTime mid ≤ runningTime since)) ∧
        ((c.world.escrow.tasks id).status = .verified →
          ∃ since f mid, later = since ++ f :: mid ∧
            (f.pre.escrow.tasks id).status ≠ .verified ∧
            (∀ g ∈ since, (g.pre.escrow.tasks id).status = .verified) ∧
            c.world.escrow.failedVerdictAt id = f.pre.timestamp ∧
            (windowOver c.world id (c.world.escrow.failedVerdictAt id) APPEAL_WINDOW ↔
              APPEAL_WINDOW + pausedTime mid ≤ runningTime since)) := by
  constructor
  · intro x pausedAt r h
    have hclock := (h0.sound_run hrun).clock
    simp only [recordPauseStart, whenPaused, onlyAdmin, seq_eq_ok, require_eq_ok,
      exists_const] at h
    exact hclock.known h.2.1 h.2.2.1.1
  intro id hid hlt
  obtain @⟨b, b', m, token, i, o, later, e, earlier, before, step, created, after⟩ :=
    h0.born hrun hid hlt
  have hb := (h0.sound_run before).clock
  obtain ⟨d, hd, hdeq, hover⟩ := created.deadline step hb after
  have hfunded : (b'.world.escrow.tasks id).status = .funded :=
    congrArg Task.status created.fields.1
  refine ⟨later, e, earlier, i, rfl, created.input, (created.clock step hb after).2.1,
    ⟨d, hd, hover, ?_⟩, ?_, ?_⟩
  · intro c' tr' d' hrun' hd'
    obtain ⟨d₂, hd₂, hdeq₂, -⟩ := created.deadline step hb (after.append hrun')
    rw [hd₂] at hd'
    cases hd'
    rw [pausedTime_append] at hdeq₂
    omega
  · intro hst
    obtain ⟨since, f, mid, b₁, b₂, rfl, hmid, hf, hsince, hne, hrow, hall⟩ :=
      entered after created.next' (by simp) (by rw [hfunded]; simp) hst
    have hst₂ : (b₂.world.escrow.tasks id).status = .disputed :=
      (congrArg (fun r => r.task.status) hrow).trans hst
    obtain ⟨m', todo, hk, -, -, -, hat⟩ := hf.enters_disputed
      (created.next'.trans_le (nextTaskId_le_run hmid)) hne hst₂
    have hat' : (c.world.escrow.tasks id).disputedAt = b₁.world.timestamp :=
      (congrArg (fun r => r.task.disputedAt) hrow).symm.trans hat
    rw [hat']
    exact ⟨since, f, mid, rfl, by rw [hf.worlds.1]; exact hne, hall, by rw [hf.worlds.1],
      created.window step hb hmid hf (Event.call_instant hk) hsince _⟩
  · intro hst
    obtain ⟨since, f, mid, b₁, b₂, rfl, hmid, hf, hsince, hne, hrow, hall⟩ :=
      entered after created.next' (by simp) (by rw [hfunded]; simp) hst
    have hst₂ : (b₂.world.escrow.tasks id).status = .verified :=
      (congrArg (fun r => r.task.status) hrow).trans hst
    obtain ⟨m', todo, hk, -, -, -, hat⟩ := hf.enters_verified
      (created.next'.trans_le (nextTaskId_le_run hmid)) hne hst₂
    have hat' : c.world.escrow.failedVerdictAt id = b₁.world.timestamp :=
      (congrArg Row.failedVerdictAt hrow).symm.trans hat
    rw [hat']
    exact ⟨since, f, mid, rfl, by rw [hf.worlds.1]; exact hne, hall, by rw [hf.worlds.1],
      created.window step hb hmid hf (Event.call_instant hk) hsince _⟩

/-- A dispute that waits through a pause which began after it. -/
def pausedDispute : List Cue :=
  [.send ⟨1, 0, .allowToken 0⟩, .send ⟨10, 500, .createTask 7 0 500 "delivery" "north" 7200⟩,
    .send ⟨10, 0, .assignWorker 1 20⟩, .send ⟨1, 0, .pause⟩, .wait 40, .send ⟨1, 0, .unpause⟩,
    .send ⟨20, 0, .submitEvidence 1 8⟩, .send ⟨20, 0, .raiseDispute 1⟩, .send ⟨1, 0, .pause⟩,
    .wait 60]

theorem pauses_neutral_pausedDispute :
    ((demoPlay pausedDispute).1.world.escrow.tasks 1).status = .disputed ∧
      (demoPlay pausedDispute).1.world.escrow.paused = true ∧
      ∃ later e earlier since f mid, (demoPlay pausedDispute).2 = later ++ e :: earlier ∧
        later = since ++ f :: mid ∧
        pauseExtension (demoPlay pausedDispute).1.world.escrow
          (demoPlay pausedDispute).1.world.timestamp 1 = .ok (pausedTime later) ∧
        (windowOver (demoPlay pausedDispute).1.world 1
            ((demoPlay pausedDispute).1.world.escrow.tasks 1).disputedAt DISPUTE_WINDOW ↔
          DISPUTE_WINDOW + pausedTime mid ≤ runningTime since) := by
  obtain ⟨later, e, earlier, i, htr, -, hext, -, hdispute, -⟩ :=
    (pauses_neutral (demoStart_initial (by decide)) (demoPlay_run pausedDispute)).2 1
      (by decide) (by decide)
  obtain ⟨since, f, mid, hlater, -, -, -, hwindow⟩ := hdispute (by decide)
  exact ⟨by decide, by decide, later, e, earlier, since, f, mid, htr, hlater, hext, hwindow⟩

end BlindEscrow
