import BlindMarket.Escrow.System

/-!
# Scripted runs

A script is a list of cues: messages sent to the escrow, payees returning, and
time passing. Playing it computes a run, in which what would revert is left
out, so concrete runs can be evaluated.
-/
namespace BlindEscrow

open Checked Runs TokenLedger

variable (D : Deployment)

inductive Cue where
  | send (m : Msg)
  | resume
  | wait (dt : Nat)

/-- The step a cue makes, if it makes one. -/
def cueStep (c : Config) : Cue → Option (Event × Config)
  | .send m =>
    if m.sender ≠ 0 ∧ m.sender ≠ D.self then
      match begin D m c.world with
      | .ok stop => some (⟨.called c.calls m, c.world, stop.world, stop.paid⟩,
          ⟨stop.world, suspend c.calls stop.rest c.stack, c.calls + 1⟩)
      | .error _ => none
    else none
  | .resume =>
    match c.stack with
    | [] => none
    | f :: stack =>
      match drive D f.rest c.world with
      | .ok stop => some (⟨.returned f.cid, c.world, stop.world, stop.paid⟩,
          ⟨stop.world, suspend f.cid stop.rest stack, c.calls⟩)
      | .error _ => none
  | .wait dt =>
    match c.stack with
    | [] => some (⟨.tick dt, c.world, { c.world with timestamp := c.world.timestamp + dt }, []⟩,
        { c with world := { c.world with timestamp := c.world.timestamp + dt } })
    | _ :: _ => none

def play : List Cue → Config × Trace → Config × Trace
  | [], r => r
  | cue :: cues, (c, tr) =>
    match cueStep D c cue with
    | some (e, c') => play cues (c', e :: tr)
    | none => play cues (c, tr)

variable {D}

theorem cueStep_step {c c' : Config} {e : Event} {cue : Cue}
    (h : cueStep D c cue = some (e, c')) : Step D c e c' := by
  obtain ⟨w, stack, calls⟩ := c
  cases cue with
  | send m =>
    simp only [cueStep] at h
    split at h
    · rename_i hs
      split at h
      · rename_i stop hstop
        simp only [Option.some.injEq, Prod.mk.injEq] at h
        obtain ⟨rfl, rfl⟩ := h
        exact .call m stop hs hstop
      · cases h
    · cases h
  | resume =>
    cases stack with
    | nil => cases h
    | cons f stack =>
      simp only [cueStep] at h
      split at h
      · rename_i stop hstop
        simp only [Option.some.injEq, Prod.mk.injEq] at h
        obtain ⟨rfl, rfl⟩ := h
        exact .ret f stack stop hstop
      · cases h
  | wait dt =>
    cases stack with
    | nil =>
      simp only [cueStep, Option.some.injEq, Prod.mk.injEq] at h
      obtain ⟨rfl, rfl⟩ := h
      exact .tick dt
    | cons f stack => cases h

/-- A script played on a run continues it. -/
theorem play_run {c₀ : Config} (cues : List Cue) (r : Config × Trace)
    (h : EscrowRun D c₀ r.2 r.1) : EscrowRun D c₀ (play D cues r).2 (play D cues r).1 := by
  induction cues generalizing r with
  | nil => exact h
  | cons cue cues ih =>
    obtain ⟨c, tr⟩ := r
    simp only [play]
    split
    · rename_i e c' hstep
      exact ih (c', e :: tr) (.snoc h (cueStep_step hstep))
    · exact ih (c, tr) h

/-! ## A small deployment -/

/-- The escrow at address 100, with the two other contracts beside it. -/
def demo : Deployment where
  self := 100
  reputationAt := 101
  registryAt := 102
  recover := fun _ _ => none

theorem demoSupply_lt : 10 ^ 24 < word := by decide

/-- Right after deployment by 1, with 2 as treasury and 3 as verifier; 10 owns all tokens. -/
def demoStart (supply : Nat) (h : supply < word) : Config where
  world :=
    { escrow := { admin := 1, treasury := 2, verifier := 3, nextTaskId := 1, feeBps := 1000 }
      locked := false
      ledger := .single 10 supply h
      reputation := { admin := 1, authorizedRaters := fun a => a = 100 }
      registry := { admin := 1, authorizedPublishers := fun a => a = 100 }
      timestamp := 1000
      logs := [] }
  stack := []
  calls := 0

theorem demoStart_initial {supply : Nat} (h : supply < word) :
    Initial demo (demoStart supply h) where
  sender := ⟨1, 2, 3, ⟨by decide, by decide⟩, rfl⟩
  locked := rfl
  timestamp := by simp [demoStart]
  stack := rfl
  calls := rfl

/-- The run of a script in the small deployment. -/
def demoPlay (cues : List Cue) : Config × Trace :=
  play demo cues (demoStart (10 ^ 24) demoSupply_lt, [])

theorem demoPlay_run (cues : List Cue) :
    EscrowRun demo (demoStart (10 ^ 24) demoSupply_lt) (demoPlay cues).2 (demoPlay cues).1 :=
  play_run cues _ .nil

end BlindEscrow
