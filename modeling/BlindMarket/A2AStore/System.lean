import BlindMarket.A2AStore.Indexes

/-!
# Calls of the store at once

Any number of calls run over one Redis, one command at a time. A script is one
command, a pipeline is as many as it holds.
-/
namespace A2AStore

open Async Prog Runs

/-! ## What the writers ask for -/

theorem issues_exec {P : Cmd → Prop} {ws : List Write} (h : ∀ w ∈ ws, P (.write w)) :
    (exec ws).Issues P := by
  induction ws with
  | nil => exact issues_done _
  | cons w ws ih =>
    exact ⟨h w List.mem_cons_self, fun _ => ih fun w' hw' => h w' (List.mem_cons_of_mem _ hw')⟩

theorem issues_getMeta {P : Cmd → Prop} {taskId : Text} (h : ∀ key, P (.getMeta key)) :
    (getMeta taskId).Issues P := by
  refine (issues_call (h _)).bind fun m => ?_
  cases m with
  | some m => exact issues_done _
  | none =>
    simp only
    split
    · exact issues_call (h _)
    · exact issues_done _

/-! ## The system -/

structure State where
  redis : Redis
  calls : Nat := 0

/-- A call and its number. -/
structure Call (O : Type) where
  id : Nat
  op : O

variable {O α : Type} (Allowed : O → Prop) (prog : O → Store α)

def store : System Ans Failure α (Call O) State where
  exec _ s c r s' := r = .ok (respond s.redis c).1 ∧ s' = { s with redis := (respond s.redis c).2 }
  start _ s t p s' :=
    t.id = s.calls ∧ Allowed t.op ∧ p = prog t.op ∧ s' = { s with calls := s.calls + 1 }
  env _ _ := False
  die _ s s' := s' = s

variable {Allowed : O → Prop} {prog : O → Store α}

theorem store_numbered : Numbered (store Allowed prog) Call.id State.calls where
  exec := by
    rintro t s c r s' ⟨-, rfl⟩
    rfl
  start := by
    rintro tags s t p s' ⟨hid, -, -, rfl⟩
    exact ⟨hid, rfl⟩
  env := fun _ _ h => h.elim
  die := by
    rintro t s s' rfl
    rfl

/-- The store played from a script, with a test of the calls that may start. -/
def storeStage (ok : O → Bool) (hok : ∀ o, ok o = true → Allowed o) :
    Stage (store Allowed prog) Unit Empty where
  respond _ _ s c := (.ok (respond s.redis c).1, { s with redis := (respond s.redis c).2 })
  enter s t :=
    if t.id = s.calls ∧ ok t.op = true then some (prog t.op, { s with calls := s.calls + 1 })
    else none
  move m := m.elim
  kill _ s := s
  exec _ _ _ _ := ⟨rfl, rfl⟩
  start := by
    intro tags s t p s' h
    split at h
    · next hstart =>
      cases h
      exact ⟨hstart.1, hok _ hstart.2, rfl, rfl⟩
    · cases h
  env m := m.elim
  die _ _ := rfl

/-- A step either is a command, or leaves the store alone. -/
theorem store_step {b c : Pool Ans Failure α (Call O) State}
    {e : Event Ans Failure α (Call O) State} (h : Async.Step (store Allowed prog) b e c) :
    (e.post.redis = e.pre.redis ∧ ∀ (t : Call O) (cmd : Cmd) (r : Except Failure (Ans cmd)),
      e.label ≠ .ran t cmd r) ∨
    ∃ (t : Call O) (cmd : Cmd), e.label = .ran t cmd (.ok (respond e.pre.redis cmd).1) ∧
      e.post.redis = (respond e.pre.redis cmd).2 := by
  cases h with
  | run l₁ l₂ t cmd k r hx =>
    obtain ⟨rfl, rfl⟩ := hx
    exact .inr ⟨t, cmd, rfl, rfl⟩
  | start l t p hx =>
    obtain ⟨-, -, -, rfl⟩ := hx
    exact .inl ⟨rfl, by simp⟩
  | finish l₁ l₂ t r => exact .inl ⟨rfl, by simp⟩
  | env l hx => exact hx.elim
  | die l₁ l₂ t p hx => exact .inl ⟨congrArg State.redis hx, by simp⟩

end A2AStore
