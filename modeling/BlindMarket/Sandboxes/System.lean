import BlindMarket.Sandboxes.Code
import BlindMarket.Support.Knowledge

/-!
# Sandbox runs under way

Requests of any workers over one process's memory, the sandbox service, one
Redis and one clock. Redis answers and a destroy succeeds; a create may throw,
with or without a sandbox left behind, and a command may throw or time out.
-/
namespace Sandboxes

open Async Prog Runs

structure Call where
  id : Nat
  req : Request
  deriving DecidableEq, Repr

structure State where
  now : Nat := 0
  /-- The sandboxes that exist. -/
  sandboxes : List SandboxId := []
  nextId : SandboxId := 0
  activeSandboxes : List SandboxInstance := []
  usageHistory : List SandboxUsage := []
  pendingCosts : Nat → Nat := fun _ => 0
  spend : Address → Nat → Option Nat := fun _ _ => none
  calls : Nat := 0

/-- How the sandbox service answers. -/
inductive Reply
  | answered
  | result (r : SandboxExecResult)
  | thrown
  /-- The sandbox is made and the answer is lost. -/
  | lost
  deriving DecidableEq, Repr

def State.made (s : State) : State :=
  { s with sandboxes := s.nextId :: s.sandboxes, nextId := s.nextId + 1 }

def State.recorded (s : State) (usage : SandboxUsage) : State where
  now := s.now
  sandboxes := s.sandboxes
  nextId := s.nextId
  activeSandboxes := s.activeSandboxes
  usageHistory := s.usageHistory ++ [usage]
  pendingCosts :=
    match usage.taskId with
    | some taskId =>
      Function.update s.pendingCosts taskId (s.pendingCosts taskId + usage.costMicroUnits)
    | none => s.pendingCosts
  spend := s.spend
  calls := s.calls

/-- `getUsageHistory(agentId).at(-1)` -/
def State.lastUsage (s : State) (agentId : Address) : Option SandboxUsage :=
  (s.usageHistory.filter (·.agentId = agentId)).getLast?

def respond (x : Reply) (s : State) : (c : Cmd) → Except Failure (Ans c) × State
  | .now => (.ok s.now, s)
  | .activeCount => (.ok s.activeSandboxes.length, s)
  | .track inst => (.ok (), { s with
      activeSandboxes := inst :: s.activeSandboxes.filter (·.id ≠ inst.id) })
  | .tracked id => (.ok (s.activeSandboxes.any (·.id = id)), s)
  | .untrack id => (.ok (), { s with activeSandboxes := s.activeSandboxes.filter (·.id ≠ id) })
  | .record usage => (.ok (), s.recorded usage)
  | .lastUsage agentId => (.ok (s.lastUsage agentId), s)
  | .create =>
    match x with
    | .thrown => (.error .thrown, s)
    | .lost => (.error .thrown, s.made)
    | _ => (.ok s.nextId, s.made)
  | .exec _ _ _ _ =>
    match x with
    | .result r => (.ok r, s)
    | _ => (.error .thrown, s)
  | .destroy id => (.ok (), { s with sandboxes := s.sandboxes.filter (· ≠ id) })
  | .getSpend agentId day => (.ok (s.spend agentId day), s)
  | .incrby agentId day cost => (.ok (), { s with
      spend := Function.update s.spend agentId
        (Function.update (s.spend agentId) day (some ((s.spend agentId day).getD 0 + cost))) })
  | .expire _ _ => (.ok (), s)

variable (cfg : Config)

def backend : Async.System Ans Failure Response Call State where
  exec _ s c r s' := ∃ x, respond x s c = (r, s')
  start _ s t p s' := t.id = s.calls ∧ p = exec cfg t.req ∧ s' = { s with calls := s.calls + 1 }
  env s s' := ∃ ms, s' = { s with now := s.now + ms }
  die _ s s' := s' = s

abbrev Ev := Event Ans Failure Response Call State

variable {cfg} {s s' : State} {c : Cmd} {r : Except Failure (Ans c)} {x : Reply} {t : Call}

theorem respond_calls (h : respond x s c = (r, s')) : s'.calls = s.calls := by
  cases c with
  | create => cases x <;> cases h <;> rfl
  | exec stage id command timeoutSec => cases x <;> cases h <;> rfl
  | _ =>
    cases h
    rfl

theorem backend_numbered : Numbered (backend cfg) Call.id State.calls where
  exec := by
    rintro t s c r s' ⟨x, hx⟩
    exact respond_calls hx
  start := by
    rintro tags s t p s' ⟨hid, -, rfl⟩
    exact ⟨hid, rfl⟩
  env := by
    rintro s s' ⟨ms, rfl⟩
    rfl
  die := by
    rintro t s s' rfl
    rfl

/-- Only the sandbox service fails. -/
theorem respond_error {f : Failure} (h : respond x s c = (.error f, s')) :
    c = .create ∨ ∃ stage id command timeoutSec, c = .exec stage id command timeoutSec := by
  cases c with
  | create => exact .inl rfl
  | exec stage id command timeoutSec => exact .inr ⟨_, _, _, _, rfl⟩
  | _ => cases h

/-! ## Scripts -/

def stage (cfg : Config) : Async.Stage (backend cfg) Reply Nat where
  respond _ := respond
  enter s t :=
    if t.id = s.calls then some (exec cfg t.req, { s with calls := s.calls + 1 }) else none
  move ms s := some { s with now := s.now + ms }
  kill _ s := s
  exec _ x _ _ := ⟨x, rfl⟩
  start := by
    intro tags s t p s' hs
    split at hs
    · next h =>
      cases hs
      exact ⟨h, rfl, rfl⟩
    · cases hs
  env := by
    intro ms s s' h
    cases h
    exact ⟨ms, rfl⟩
  die _ _ := rfl

end Sandboxes
