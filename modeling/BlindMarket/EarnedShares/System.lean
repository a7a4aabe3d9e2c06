import BlindMarket.Escrow.Payments
import BlindMarket.Escrow.Script
import BlindMarket.Support.Knowledge
import BlindMarket.WorkerPayout.AtMostOnce

/-!
# Payouts beside the escrows

Calls of `recordWorkerPayout` while the escrows go on. A process asks the
escrow of a chain for its fee once and keeps the answer, or the fallback. A
process that restarts is a new process, and the calls of the old one die.
-/
namespace EarnedShares

open Async Prog Runs WorkerPayout

/-- The escrow of a chain between two transactions, and what it has done so far. -/
structure Chain where
  config : BlindEscrow.Config
  trace : BlindEscrow.Trace := []

structure State where
  chains : TaskChain → Chain
  books : WorkerPayout.State
  cachedFeeBps : Nat → TaskChain → Option Nat := fun _ _ => none

/-- A payout for the task with an id on its chain, recorded by one process. -/
structure Call where
  id : Nat
  process : Nat
  taskId : Nat
  input : Input
  deriving DecidableEq, Repr

def Call.chain (t : Call) : TaskChain := t.input.settlement.chain

def State.task (s : State) (t : Call) : BlindEscrow.Task :=
  (s.chains t.chain).config.world.escrow.tasks t.taskId

/-- The task was settled for its worker, and the call has its terms from the escrow. -/
structure Settled (s : State) (t : Call) : Prop where
  status : (s.task t).status = .completed
  grossAmount : t.input.grossAmount = (s.task t).amount
  token : t.input.settlement.token = (s.task t).token
  taskHash : t.input.taskHash = (s.task t).taskHash

/-- The fee a process has in memory, and the fee the escrow has now. -/
def feeTurn (s : State) (process : Nat) (fate : Fate) : Cmd → Turn
  | .cachedFeeBps chain => { cachedFeeBps := s.cachedFeeBps process chain }
  | .feeBpsOn chain => { fate, feeBps := (s.chains chain).config.world.escrow.feeBps }
  | _ => { fate }

/-- The fee that an answer amounts to: an escrow that cannot be asked has fee 1000. -/
def feeOf : (c : Cmd) × Except Failure (Ans c) → Option Nat
  | ⟨.cachedFeeBps _, .ok cached⟩ => cached
  | ⟨.feeBpsOn _, .ok bps⟩ => some bps
  | ⟨.feeBpsOn _, .error _⟩ => some 1000
  | _ => none

/-- What the answer of an escrow leaves in the memory of the process. -/
def keepFee (process : Nat) (s : State) (c : Cmd) (r : Except Failure (Ans c)) : State :=
  match c with
  | .feeBpsOn chain =>
    { s with
      cachedFeeBps := Function.update s.cachedFeeBps process
        (Function.update (s.cachedFeeBps process) chain (feeOf ⟨.feeBpsOn chain, r⟩)) }
  | _ => s

def respond (F : Config) (t : Call) (fate : Fate) (s : State) (c : Cmd) :
    Except Failure (Ans c) × State :=
  let (r, books) := WorkerPayout.respond F (feeTurn s t.process fate c) s.books c
  (r, keepFee t.process { s with books } c r)

/-- A chain mines any calls on its escrow; Redis and the agents move for reasons of their own. -/
inductive Outside (D : TaskChain → BlindEscrow.Deployment) (s : State) : State → Prop where
  | mined (chain : TaskChain) (trace : BlindEscrow.Trace) (config : BlindEscrow.Config)
      (h : BlindEscrow.EscrowRun (D chain) (s.chains chain).config trace config)
      (hstack : config.stack = []) :
      Outside D s { s with
        chains := Function.update s.chains chain ⟨config, trace ++ (s.chains chain).trace⟩ }
  | others (books : WorkerPayout.State) (h : Others s.books books) : Outside D s { s with books }

def backend (D : TaskChain → BlindEscrow.Deployment) (F : Config) :
    System Ans Failure Unit Call State where
  exec t s c r s' := ∃ fate, respond F t fate s c = (r, s')
  start _ s t p s' :=
    t.id = s.books.calls ∧ p = recordWorkerPayout F t.input ∧ Settled s t ∧
      s' = { s with books := { s.books with calls := s.books.calls + 1 } }
  env := Outside D
  die _ s s' := s' = s

abbrev Ev := Event Ans Failure Unit Call State

variable {D : TaskChain → BlindEscrow.Deployment} {F : Config} {s s' : State} {t : Call}
  {fate : Fate} {c : Cmd} {r : Except Failure (Ans c)} {chain : TaskChain}

@[simp] theorem keepFee_chains {process : Nat} : (keepFee process s c r).chains = s.chains := by
  cases c <;> rfl

@[simp] theorem keepFee_books {process : Nat} : (keepFee process s c r).books = s.books := by
  cases c <;> rfl

/-- A command of a call leaves the escrows alone and acts on the books. -/
theorem respond_books (h : respond F t fate s c = (r, s')) :
    s'.chains = s.chains ∧
      WorkerPayout.respond F (feeTurn s t.process fate c) s.books c = (r, s'.books) := by
  obtain ⟨hr, hs⟩ := Prod.mk.injEq .. ▸ h
  rw [← hs, keepFee_chains, keepFee_books, ← hr]
  exact ⟨rfl, rfl⟩

theorem backend_numbered : Numbered (backend D F) Call.id fun s => s.books.calls where
  exec := by
    rintro t s c r s' ⟨fate, hx⟩
    obtain hs | hs := respond_state (respond_books hx).2
    · rw [hs]
    · rw [hs]
      exact effect_calls
  start := by
    rintro tags s t p s' ⟨hid, -, -, rfl⟩
    exact ⟨hid, rfl⟩
  env := by
    intro s s' h
    cases h with
    | mined => rfl
    | others books h => exact h.2
  die := by
    rintro t s s' rfl
    rfl

/-! ## The escrows along a run -/

/-- Every escrow has come from its start, and no transaction is under way. -/
def Reached (D : TaskChain → BlindEscrow.Deployment) (s : State) : Prop :=
  ∀ chain, (s.chains chain).config.stack = [] ∧ ∃ c₀, BlindEscrow.Initial (D chain) c₀ ∧
    BlindEscrow.EscrowRun (D chain) c₀ (s.chains chain).trace (s.chains chain).config

/-- The escrows have gone on. -/
def Later (D : TaskChain → BlindEscrow.Deployment) (s s' : State) : Prop :=
  ∀ chain, ∃ trace, (s'.chains chain).trace = trace ++ (s.chains chain).trace ∧
    BlindEscrow.EscrowRun (D chain) (s.chains chain).config trace (s'.chains chain).config

theorem later_of_chains (h : s'.chains = s.chains) : Later D s s' := by
  intro chain
  rw [h]
  exact ⟨[], rfl, .nil⟩

theorem Later.trans {s'' : State} (h : Later D s s') (h' : Later D s' s'') : Later D s s'' := by
  intro chain
  obtain ⟨trace, htrace, hrun⟩ := h chain
  obtain ⟨trace', htrace', hrun'⟩ := h' chain
  exact ⟨trace' ++ trace, by rw [htrace', htrace, List.append_assoc], hrun.append hrun'⟩

theorem Outside.later (h : Outside D s s') : Later D s s' := by
  cases h with
  | mined chain trace config h hstack =>
    intro chain'
    obtain rfl | hne := eq_or_ne chain' chain
    · exact ⟨trace, by simp, by simpa using h⟩
    · simpa [Function.update_of_ne hne] using later_of_chains (D := D) rfl chain'
  | others => exact later_of_chains rfl

theorem Outside.stack (h : Outside D s s') (hs : ∀ chain, (s.chains chain).config.stack = []) :
    ∀ chain, (s'.chains chain).config.stack = [] := by
  cases h with
  | mined chain trace config h hstack =>
    intro chain'
    obtain rfl | hne := eq_or_ne chain' chain
    · simpa using hstack
    · simpa [Function.update_of_ne hne] using hs chain'
  | others => exact hs

/-- A step of the backend leaves the escrows alone, or is a step outside. -/
theorem step_chains {b b' : Pool Ans Failure Unit Call State} {e : Ev}
    (h : Step (backend D F) b e b') :
    b'.state.chains = b.state.chains ∨ Outside D b.state b'.state := by
  cases h with
  | run l₁ l₂ t c k r hx =>
    obtain ⟨fate, hx⟩ := hx
    exact .inl (respond_books hx).1
  | start l t p hx =>
    rw [hx.2.2.2]
    exact .inl rfl
  | finish => exact .inl rfl
  | env l hx => exact .inr hx
  | die l₁ l₂ t p hx =>
    rw [hx]
    exact .inl rfl

theorem run_later {b b' : Pool Ans Failure Unit Call State} {tr : List Ev}
    (h : PoolRun (backend D F) b tr b') : Later D b.state b'.state := by
  refine Run.relates (R := fun b b' => Later D b.state b'.state) h (later_of_chains rfl) ?_
  intro b₁ e b₂ hlater hs
  obtain hsame | hout := step_chains hs
  · exact hlater.trans (later_of_chains hsame)
  · exact hlater.trans hout.later

theorem run_reached {b b' : Pool Ans Failure Unit Call State} {tr : List Ev}
    (h : PoolRun (backend D F) b tr b') (h0 : Reached D b.state) : Reached D b'.state := by
  have hstack : ∀ chain, (b'.state.chains chain).config.stack = [] := by
    refine Run.relates (R := fun _ b' => ∀ chain, (b'.state.chains chain).config.stack = []) h
      (fun chain => (h0 chain).1) ?_
    intro b₁ e b₂ hat hs
    obtain hsame | hout := step_chains hs
    · rw [hsame]
      exact hat
    · exact hout.stack hat
  intro chain
  obtain ⟨-, c₀, hinit, hrun⟩ := h0 chain
  obtain ⟨trace, htrace, hrun'⟩ := run_later h chain
  exact ⟨hstack chain, c₀, hinit, by rw [htrace]; exact hrun.append hrun'⟩

/-! ## Scripts -/

instance : Decidable (Settled s t) :=
  decidable_of_iff ((s.task t).status = .completed ∧ t.input.grossAmount = (s.task t).amount ∧
      t.input.settlement.token = (s.task t).token ∧ t.input.taskHash = (s.task t).taskHash)
    ⟨fun h => ⟨h.1, h.2.1, h.2.2.1, h.2.2.2⟩,
      fun h => ⟨h.status, h.grossAmount, h.token, h.taskHash⟩⟩

/-- A chain mines the calls of a script. -/
def mine (D : TaskChain → BlindEscrow.Deployment) (m : TaskChain × List BlindEscrow.Cue)
    (s : State) : Option State :=
  let (config, trace) := BlindEscrow.play (D m.1) m.2 ((s.chains m.1).config, [])
  if config.stack.isEmpty then
    some { s with
      chains := Function.update s.chains m.1 ⟨config, trace ++ (s.chains m.1).trace⟩ }
  else none

theorem mine_outside {m : TaskChain × List BlindEscrow.Cue} (h : mine D m s = some s') :
    Outside D s s' := by
  unfold mine at h
  simp only at h
  split at h
  · next hstack =>
    cases h
    exact .mined m.1 _ _ (BlindEscrow.play_run m.2 _ .nil) (List.isEmpty_iff.mp hstack)
  · cases h

def stage (D : TaskChain → BlindEscrow.Deployment) (F : Config) :
    Async.Stage (backend D F) Fate (TaskChain × List BlindEscrow.Cue) where
  respond t fate s c := respond F t fate s c
  enter s t :=
    if t.id = s.books.calls ∧ Settled s t then
      some (recordWorkerPayout F t.input,
        { s with books := { s.books with calls := s.books.calls + 1 } })
    else none
  move := mine D
  kill _ s := s
  exec _ fate _ _ := ⟨fate, rfl⟩
  start := by
    intro tags s t p s' hs
    split at hs
    · next h =>
      cases hs
      exact ⟨h.1, rfl, h.2, rfl⟩
    · cases hs
  env _ _ _ h := mine_outside h
  die _ _ := rfl

/-! ## Two tasks on Arc -/

/-- Poster 10 has approved the escrow at 100 for token 1. -/
def demoChain : BlindEscrow.Config :=
  { BlindEscrow.demoStart (10 ^ 24) BlindEscrow.demoSupply_lt with
    world := { (BlindEscrow.demoStart (10 ^ 24) BlindEscrow.demoSupply_lt).world with
      ledger :=
        (TokenLedger.Ledger.single 10 (10 ^ 24) BlindEscrow.demoSupply_lt).approve 1 10 100 (10 ^ 24) } }

theorem demoChain_initial : BlindEscrow.Initial BlindEscrow.demo demoChain where
  sender := ⟨1, 2, 3, ⟨by decide, by decide⟩, rfl⟩
  locked := rfl
  timestamp := by decide
  stack := rfl
  calls := rfl

def demoState : State where
  chains _ := ⟨demoChain, []⟩
  books := demoStart

theorem demoState_reached : Reached (fun _ => BlindEscrow.demo) demoState :=
  fun _ => ⟨rfl, demoChain, demoChain_initial, .nil⟩

end EarnedShares
