import BlindMarket.ValidatorPool.System

/-!
# Scripted runs of the pool

Playing a script computes a run, in which what would revert is left out, so
concrete runs can be evaluated.
-/
namespace ValidatorPool

open BlindEscrow (Address word)
open Checked Runs TokenLedger

variable (D : Deployment)

inductive Cue where
  | send (m : Msg)
  | resume
  | wait (dt : Nat)

/-- The step a cue makes, if it makes one. -/
def cueStep (c : Config) : Cue → Option (Event × Config)
  | .send m =>
    if m.sender ≠ 0 ∧ m.sender ≠ D.self then
      match begin D m c.world with
      | .ok (w, calls) => some (⟨.called m, c.world, w⟩,
          ⟨w, if calls then m.op.disputeId :: c.waiting else c.waiting⟩)
      | .error _ => none
    else none
  | .resume =>
    match c.waiting with
    | [] => none
    | id :: waiting => some (⟨.returned id, c.world, { c.world with locked := false }⟩,
        ⟨{ c.world with locked := false }, waiting⟩)
  | .wait dt =>
    match c.waiting with
    | [] => some (⟨.tick dt, c.world, { c.world with timestamp := c.world.timestamp + dt }⟩,
        ⟨{ c.world with timestamp := c.world.timestamp + dt }, []⟩)
    | _ :: _ => none

def play : List Cue → Config × Trace → Config × Trace
  | [], r => r
  | cue :: cues, (c, tr) =>
    match cueStep D c cue with
    | some (e, c') => play cues (c', e :: tr)
    | none => play cues (c, tr)

variable {D}

theorem cueStep_step {c c' : Config} {e : Event} {cue : Cue}
    (h : cueStep D c cue = some (e, c')) : Step D c e c' := by
  obtain ⟨w, waiting⟩ := c
  cases cue with
  | send m =>
    simp only [cueStep] at h
    split at h
    · rename_i hs
      split at h
      · rename_i w' calls hb
        simp only [Option.some.injEq, Prod.mk.injEq] at h
        obtain ⟨rfl, rfl⟩ := h
        exact .call m w' calls hs hb
      · cases h
    · cases h
  | resume =>
    cases waiting with
    | nil => cases h
    | cons id waiting =>
      simp only [cueStep, Option.some.injEq, Prod.mk.injEq] at h
      obtain ⟨rfl, rfl⟩ := h
      exact .ret id waiting
  | wait dt =>
    cases waiting with
    | nil =>
      simp only [cueStep, Option.some.injEq, Prod.mk.injEq] at h
      obtain ⟨rfl, rfl⟩ := h
      exact .tick dt
    | cons id waiting => cases h

/-- A script played on a run continues it. -/
theorem play_run {c₀ : Config} (cues : List Cue) (r : Config × Trace)
    (h : PoolRun D c₀ r.2 r.1) : PoolRun D c₀ (play D cues r).2 (play D cues r).1 := by
  induction cues generalizing r with
  | nil => exact h
  | cons cue cues ih =>
    obtain ⟨c, tr⟩ := r
    simp only [play]
    split
    · rename_i e c' hstep
      exact ih (c', e :: tr) (.snoc h (cueStep_step hstep))
    · exact ih (c, tr) h

/-! ## A small deployment -/

/-- The pool at address 100, staking token 7. -/
def demo : Deployment where
  self := 100
  stakeToken := 7

/-- Right after deployment by 9, with an escrow at 50; the accounts below 8 are rich. -/
def demoStart (amount : Nat) (h : 8 * amount < word) : Config where
  world :=
    { pool := { admin := 9 }
      ledger := .shared 8 amount h
      hasCode := fun a => a = 50
      timestamp := 1000
      locked := false }
  waiting := []

theorem demoStart_initial {amount : Nat} (h : 8 * amount < word) :
    Initial demo (demoStart amount h) where
  pool := ⟨9, rfl⟩
  balance := rfl
  timestamp := by simp [demoStart]
  locked := rfl
  waiting := rfl

/-- The run of a script in the small deployment. -/
def demoPlay (amount : Nat) (h : 8 * amount < word) (cues : List Cue) : Config × Trace :=
  play demo cues (demoStart amount h, [])

theorem demoPlay_run {amount : Nat} (h : 8 * amount < word) (cues : List Cue) :
    PoolRun demo (demoStart amount h) (demoPlay amount h cues).2 (demoPlay amount h cues).1 :=
  play_run cues _ .nil

end ValidatorPool
