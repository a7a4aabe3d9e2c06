import BlindMarket.AgentSkills.Code
import BlindMarket.Support.Knowledge

/-!
# Edits under way

Requests of any callers over the table of agents and the registry of skills,
whose rows authors change at any time. The database answers.
-/
namespace AgentSkills

open Async Prog Runs JsText

structure Call where
  id : Nat
  req : Request
  deriving DecidableEq

structure State where
  agents : AgentId → Option DeployedAgent := fun _ => none
  nextId : AgentId := 0
  registry : List AgentSkillRow := []
  calls : Nat := 0

/-- A patch of an agent that is not there changes nothing. -/
def State.patched (s : State) (id : AgentId) (fields : AgentFieldPatch) : State :=
  { s with agents := Function.update s.agents id ((s.agents id).map (·.patched fields)) }

def State.saved (s : State) (agent : DeployedAgent) : State :=
  { s with agents := Function.update s.agents s.nextId (some agent), nextId := s.nextId + 1 }

def respond (refuses : Bool) (s : State) : (c : Cmd) → Except Oversize (Ans c) × State
  | .loadAgent id => (.ok (s.agents id), s)
  | .getSkillBySlug slug => (.ok (s.registry.find? (·.slug = slug)), s)
  | .refusesModel _ => (.ok refuses, s)
  | .refusesDeploy => (.ok refuses, s)
  | .saveAgent agent => (.ok s.nextId, s.saved agent)
  | .updateAgentFields id fields => (.ok (), s.patched id fields)

def backend : Async.System Ans Oversize Response Call State where
  exec _ s c r s' := ∃ x, respond x s c = (r, s')
  start _ s t p s' := t.id = s.calls ∧ p = handle t.req ∧ s' = { s with calls := s.calls + 1 }
  env s s' := ∃ registry, s' = { s with registry := registry }
  die _ s s' := s' = s

abbrev Ev := Event Ans Oversize Response Call State

variable {s s' : State} {c : Cmd} {r : Except Oversize (Ans c)} {x : Bool}

theorem respond_calls (h : respond x s c = (r, s')) : s'.calls = s.calls := by
  cases c <;> cases h <;> rfl

theorem backend_numbered : Numbered backend Call.id State.calls where
  exec := by
    rintro t s c r s' ⟨x, hx⟩
    exact respond_calls hx
  start := by
    rintro tags s t p s' ⟨hid, -, rfl⟩
    exact ⟨hid, rfl⟩
  env := by
    rintro s s' ⟨registry, rfl⟩
    rfl
  die := by
    rintro t s s' rfl
    rfl

theorem respond_ok (h : respond x s c = (r, s')) : ∃ v, r = .ok v := by
  cases c <;> cases h <;> exact ⟨_, rfl⟩

/-! ## Scripts -/

def stage : Async.Stage backend Bool (List AgentSkillRow) where
  respond _ := respond
  enter s t :=
    if t.id = s.calls then some (handle t.req, { s with calls := s.calls + 1 }) else none
  move registry s := some { s with registry := registry }
  kill _ s := s
  exec _ x _ _ := ⟨x, rfl⟩
  start := by
    intro tags s t p s' hs
    split at hs
    · next h =>
      cases hs
      exact ⟨h, rfl, rfl⟩
    · cases hs
  env := by
    intro registry s s' h
    cases h
    exact ⟨registry, rfl⟩
  die _ _ := rfl

end AgentSkills
