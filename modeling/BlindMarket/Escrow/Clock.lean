import BlindMarket.Escrow.Steps

/-!
# The pause clock

Three counters stand for the whole pause history: the seconds of the finished
pauses, the start of the running one, and the total at each task's creation.
Where the running pause has a known start, the seconds counted so far grow in
every step by exactly the seconds that step spent paused.
-/
namespace BlindEscrow

open Checked Runs

variable {D : Deployment} {c c' : Config} {e : Event} {tr : Trace} {id : Nat}

/-! ## Time in a trace -/

def Event.pausedFor (e : Event) : Nat := if e.pre.escrow.paused then e.elapsed else 0

def Event.runningFor (e : Event) : Nat := if e.pre.escrow.paused then 0 else e.elapsed

/-- Seconds of a trace that the escrow spent paused. -/
def pausedTime (tr : Trace) : Nat := (tr.map Event.pausedFor).sum

/-- Seconds of a trace that the escrow spent unpaused. -/
def runningTime (tr : Trace) : Nat := (tr.map Event.runningFor).sum

@[simp] theorem pausedTime_nil : pausedTime [] = 0 := rfl
@[simp] theorem runningTime_nil : runningTime [] = 0 := rfl
@[simp] theorem pausedTime_cons : pausedTime (e :: tr) = e.pausedFor + pausedTime tr := by
  simp [pausedTime]
@[simp] theorem runningTime_cons : runningTime (e :: tr) = e.runningFor + runningTime tr := by
  simp [runningTime]
@[simp] theorem pausedTime_append (tr tr' : Trace) :
    pausedTime (tr ++ tr') = pausedTime tr + pausedTime tr' := by simp [pausedTime]
@[simp] theorem runningTime_append (tr tr' : Trace) :
    runningTime (tr ++ tr') = runningTime tr + runningTime tr' := by simp [runningTime]

theorem Event.elapsed_split (e : Event) : e.elapsed = e.pausedFor + e.runningFor := by
  unfold Event.pausedFor Event.runningFor
  split <;> omega

/-- A call takes no time. -/
theorem Event.call_instant {cid : Nat} {m : Msg} (h : e.kind = .called cid m) : e.elapsed = 0 := by
  simp [Event.elapsed, h]

/-! ## The counters -/

/-- Seconds counted as paused so far, without the checks of the code. -/
def pausedSoFar (s : Escrow) (now : Nat) : Nat :=
  s.pausedTotal + if s.pausedSince ≠ 0 then now - s.pausedSince else 0

/-- The pause accounting is coherent and the start of a running pause is known. -/
structure ClockOk (w : World) : Prop where
  positive : 0 < w.timestamp
  known : w.escrow.paused = true → w.escrow.pausedSince ≠ 0
  idle : w.escrow.paused = false → w.escrow.pausedSince = 0
  past : w.escrow.pausedSince ≤ w.timestamp

theorem pausedSeconds_eq {s : Escrow} {now : Nat} (h : s.pausedSince ≤ now) :
    pausedSeconds s now = .ok (pausedSoFar s now) := by
  unfold pausedSeconds pausedSoFar
  split <;> simp [sub, h]

theorem pauseExtension_eq {s : Escrow} {now : Nat} (h : s.pausedSince ≤ now)
    (hle : s.pausedTotalAtCreate id ≤ pausedSoFar s now) :
    pauseExtension s now id = .ok (pausedSoFar s now - s.pausedTotalAtCreate id) := by
  simp [pauseExtension, pausedSeconds_eq h, sub, hle]

theorem pauseExtension_eq_ok {s : Escrow} {now ext : Nat} (h : s.pausedSince ≤ now) :
    pauseExtension s now id = .ok ext ↔
      s.pausedTotalAtCreate id ≤ pausedSoFar s now ∧
      ext = pausedSoFar s now - s.pausedTotalAtCreate id := by
  simp [pauseExtension, pausedSeconds_eq h]

/-- The seconds counted grow by the seconds spent paused. -/
theorem ClockOk.step (hc : ClockOk c.world) (h : Step D c e c') :
    ClockOk c'.world ∧
      pausedSoFar c'.world.escrow c'.world.timestamp =
        pausedSoFar c.world.escrow c.world.timestamp + e.pausedFor ∧
      c'.world.timestamp = c.world.timestamp + e.elapsed := by
  have hpre := h.worlds.1
  rcases h.storage with ⟨m, todo, hk, -, heff, ht, -⟩ | ⟨hk, hsame, ht, -⟩
  · have h0 : e.elapsed = 0 := Event.call_instant hk
    have hp0 : e.pausedFor = 0 := by have := e.elapsed_split; omega
    rw [h0, hp0, ht]
    refine ⟨?_, ?_, rfl⟩
    all_goals
      rcases heff.clock with hsame | ⟨-, -, hp, hp', htot, hsince⟩ |
        ⟨-, -, hp, hp', hsince, htot⟩ | ⟨pausedAt, -, -, hp, hsince, -⟩
    · exact ⟨by rw [ht]; exact hc.positive, by rw [hsame.paused, hsame.pausedSince]; exact hc.known,
        by rw [hsame.paused, hsame.pausedSince]; exact hc.idle,
        by rw [ht, hsame.pausedSince]; exact hc.past⟩
    · have hpos := hc.positive
      refine ⟨by omega, ?_, by simp [hp'], ?_⟩
      · intro _
        rw [hsince]
        exact Nat.pos_iff_ne_zero.mp hpos
      · rw [hsince, ht]
        exact le_refl _
    · exact ⟨by rw [ht]; exact hc.positive, by simp [hp'], fun _ => hsince, by omega⟩
    · exact absurd hsince (hc.known hp)
    · simp only [pausedSoFar, hsame.pausedTotal, hsame.pausedSince, Nat.add_zero]
    · have hidle := hc.idle hp
      simp only [pausedSoFar, htot, hsince, hidle, World.ctx]
      simp
    · simp only [pausedSoFar, htot, hsince, World.ctx]
      simp
    · exact absurd hsince (hc.known hp)
  · have hpast := hc.past
    refine ⟨⟨?_, ?_, ?_, ?_⟩, ?_, ht⟩
    · have := hc.positive
      omega
    · rw [hsame]; exact hc.known
    · rw [hsame]; exact hc.idle
    · rw [hsame]; omega
    · rw [hsame, ht]
      unfold Event.pausedFor pausedSoFar
      rw [hpre]
      cases hp : c.world.escrow.paused with
      | true =>
        have hne := hc.known hp
        simp only [ne_eq, hne, not_false_eq_true, ↓reduceIte]
        omega
      | false => simp [hc.idle hp]

theorem ClockOk.run (hc : ClockOk c.world) (h : EscrowRun D c tr c') :
    ClockOk c'.world ∧
      pausedSoFar c'.world.escrow c'.world.timestamp =
        pausedSoFar c.world.escrow c.world.timestamp + pausedTime tr ∧
      c'.world.timestamp = c.world.timestamp + pausedTime tr + runningTime tr := by
  induction h with
  | nil => exact ⟨hc, by simp, by simp⟩
  | @snoc tr b c' e hrun hs ih =>
    obtain ⟨hb, hpaused, htime⟩ := ih
    obtain ⟨hc', hpaused', htime'⟩ := hb.step hs
    have := e.elapsed_split
    refine ⟨hc', ?_, ?_⟩
    · rw [hpaused', hpaused, pausedTime_cons]
      omega
    · rw [htime', htime, pausedTime_cons, runningTime_cons]
      omega

/-! ## From the start -/

variable {c₀ : Config}

theorem Initial.storage (h : Initial D c₀) :
    ∃ sender treasury verifier, Sender D sender ∧ treasury ≠ 0 ∧ verifier ≠ 0 ∧
      c₀.world.escrow =
        { admin := sender, treasury, verifier, nextTaskId := 1, feeBps := 1000 } := by
  obtain ⟨sender, treasury, verifier, hs, h⟩ := h.sender
  simp only [initializeEscrow, seq_eq_ok, require_eq_ok, exists_const, pure_eq,
    Except.ok.injEq] at h
  exact ⟨sender, treasury, verifier, hs, h.1, h.2.1, h.2.2.symm⟩

theorem Initial.clock (h : Initial D c₀) :
    ClockOk c₀.world ∧ pausedSoFar c₀.world.escrow c₀.world.timestamp = 0 := by
  obtain ⟨sender, treasury, verifier, -, -, -, hs⟩ := h.storage
  have ht := h.timestamp
  rw [hs]
  exact ⟨⟨ht, by rw [hs]; simp, by rw [hs]; simp, by rw [hs]; simp⟩, by simp [pausedSoFar]⟩

/-- In a run from the start the counted seconds are the seconds spent paused, and they
never reach the current time. -/
theorem Initial.clock_run (h : Initial D c₀) (hrun : EscrowRun D c₀ tr c) :
    ClockOk c.world ∧ pausedSoFar c.world.escrow c.world.timestamp = pausedTime tr ∧
      pausedTime tr < c.world.timestamp := by
  obtain ⟨hc, hp, ht⟩ := h.clock.1.run hrun
  have h0 := h.clock.2
  have hpos := h.timestamp
  exact ⟨hc, by omega, by omega⟩

end BlindEscrow
