import BlindMarket.Cascades.Code

/-!
# Cascades under way

Timers, declines and accepts of one task over one Redis and one clock. A
command takes effect and answers, fails before it takes effect, or takes effect
and fails anyway; keys expire. A timer fires once, when its time has come or
later, or is lost with its process.
-/
namespace Cascades

open Async Prog Runs

inductive Op where
  | start
  | timer (position : Nat)
  | decline (address : Address)
  | accept (address : Address)
  deriving DecidableEq, Repr

structure Call where
  id : Nat
  op : Op
  deriving DecidableEq, Repr

/-- The ranking of the agents, and the new agent drawn for exploration, if any. -/
structure Config where
  ranked : List CascadeEntry
  pick : Option CascadeEntry := none

variable (cfg : Config)

/-- The ranking that is stored. -/
def Config.queue : List CascadeEntry :=
  match cfg.pick with
  | some pick => withExplorationHead pick cfg.ranked
  | none => cfg.ranked

def Call.prog (t : Call) : Backend Unit :=
  match t.op with
  | .start => startCascade cfg.pick
  | .timer position => cascadeAdvance position
  | .decline address => Cascades.decline address
  | .accept address => Cascades.accept address

structure Timer where
  position : Nat
  due : Nat
  deriving DecidableEq, Repr

/-- The clock is in milliseconds; a key is there until its time. -/
structure State where
  now : Nat := 0
  found : Bool := true
  status : Option Status := some .opened
  offer : Option (TaskOffer × Nat) := none
  cascade : Option (TaskCascade × Nat) := none
  timers : List Timer := []
  started : Bool := false
  calls : Nat := 0
  deriving DecidableEq, Repr

/-- What Redis shows of a key. -/
def State.live {α : Type} (s : State) (key : Option (α × Nat)) : Option α :=
  (key.filter fun x => s.now < x.2).map (·.1)

inductive Reply where
  | answered | failed | unanswered
  deriving DecidableEq, Repr

def effect (s : State) : (c : Cmd) → Ans c × State
  | .now => (s.now, s)
  | .rankedEntries => (cfg.ranked, s)
  | .getMeta => (s.found, s)
  | .getState => (s.status, s)
  | .casAccept _ =>
    if s.status = some .opened then (true, { s with status := some .accepted }) else (false, s)
  | .getOffer => (s.live s.offer, s)
  | .setOffer offer => ((), { s with offer := some (offer, s.now + OFFER_TTL_MS) })
  | .dropOffer | .clearOffer => ((), { s with offer := none })
  | .getCascade | .readCascade => (s.live s.cascade, s)
  | .setCascade cascade | .moveCascade cascade =>
    ((), { s with cascade := some (cascade, s.now + CASCADE_TTL_MS) })
  | .endCascade | .clearCascade => ((), { s with cascade := none })
  | .emitTaskOffer _ _ | .emitTaskAvailable => ((), s)
  | .setTimeout position delay => ((), { s with timers := ⟨position, s.now + delay⟩ :: s.timers })

/-- Commands that go to no store. -/
def Cmd.local : Cmd → Bool
  | .now | .emitTaskOffer _ _ | .emitTaskAvailable | .setTimeout _ _ => true
  | _ => false

def respond (x : Reply) (s : State) (c : Cmd) : Except Code (Ans c) × State :=
  if c.local then (.ok (effect cfg s c).1, (effect cfg s c).2)
  else
    match x with
    | .answered => (.ok (effect cfg s c).1, (effect cfg s c).2)
    | .failed => (.error .rejected, s)
    | .unanswered => (.error .rejected, (effect cfg s c).2)

/-- The state in which a call is under way; a timer is spent, and the cascade starts once. -/
def enter (s : State) (t : Call) : Option State :=
  match t.op with
  | .start => if s.started then none else some { s with started := true, calls := s.calls + 1 }
  | .timer position =>
    match s.timers.find? fun x => x.position = position ∧ x.due ≤ s.now with
    | some x => some { s with timers := s.timers.erase x, calls := s.calls + 1 }
    | none => none
  | .decline _ | .accept _ => some { s with calls := s.calls + 1 }

/-- Time passes, and timers are lost. -/
inductive Moves (s : State) : State → Prop where
  | wait (ms : Nat) : Moves s { s with now := s.now + ms }
  | restart : Moves s { s with timers := [] }

def backend : System Ans Code Unit Call State where
  exec _ s c r s' := ∃ x, respond cfg x s c = (r, s')
  start _ s t p s' := t.id = s.calls ∧ p = t.prog cfg ∧ enter s t = some s'
  env := Moves
  die _ s s' := s' = s

abbrev Ev := Event Ans Code Unit Call State

variable {cfg} {s s' : State} {c : Cmd} {r : Except Code (Ans c)} {x : Reply} {t : Call}

theorem respond_state (h : respond cfg x s c = (r, s')) :
    s' = s ∨ s' = (effect cfg s c).2 := by
  unfold respond at h
  split at h
  · exact .inr (Prod.ext_iff.mp h).2.symm
  · cases x with
    | answered => exact .inr (Prod.ext_iff.mp h).2.symm
    | failed => exact .inl (Prod.ext_iff.mp h).2.symm
    | unanswered => exact .inr (Prod.ext_iff.mp h).2.symm

/-- An answer tells what happened. -/
theorem respond_ok {a : Ans c} (h : respond cfg x s c = (.ok a, s')) :
    effect cfg s c = (a, s') := by
  unfold respond at h
  split at h
  · obtain ⟨ha, hs⟩ := Prod.mk.injEq .. ▸ h
    cases ha
    rw [← hs]
  · cases x with
    | answered =>
      obtain ⟨ha, hs⟩ := Prod.mk.injEq .. ▸ h
      cases ha
      rw [← hs]
    | failed =>
      obtain ⟨ha, -⟩ := Prod.mk.injEq .. ▸ h
      cases ha
    | unanswered =>
      obtain ⟨ha, -⟩ := Prod.mk.injEq .. ▸ h
      cases ha

theorem effect_fixed : (effect cfg s c).2.now = s.now ∧ (effect cfg s c).2.started = s.started ∧
    (effect cfg s c).2.calls = s.calls := by
  cases c with
  | casAccept address =>
    simp only [effect]
    split <;> exact ⟨rfl, rfl, rfl⟩
  | _ => exact ⟨rfl, rfl, rfl⟩

theorem respond_fixed (h : respond cfg x s c = (r, s')) :
    s'.now = s.now ∧ s'.started = s.started ∧ s'.calls = s.calls := by
  obtain rfl | rfl := respond_state h
  · exact ⟨rfl, rfl, rfl⟩
  · exact effect_fixed

theorem backend_numbered : Numbered (backend cfg) Call.id State.calls where
  exec := by
    rintro t s c r s' ⟨x, hx⟩
    exact (respond_fixed hx).2.2
  start := by
    rintro tags s t p s' ⟨hid, -, henter⟩
    refine ⟨hid, ?_⟩
    unfold enter at henter
    split at henter
    · split at henter
      · cases henter
      · cases henter
        rfl
    · split at henter
      · cases henter
        rfl
      · cases henter
    · cases henter
      rfl
    · cases henter
      rfl
  env := by
    intro s s' h
    cases h <;> rfl
  die := by
    rintro t s s' rfl
    rfl

/-! ## Scripts -/

inductive Env where
  | wait (ms : Nat)
  | restart

def move : Env → State → Option State
  | .wait ms, s => some { s with now := s.now + ms }
  | .restart, s => some { s with timers := [] }

def stage (cfg : Config) : Async.Stage (backend cfg) Reply Env where
  respond _ := respond cfg
  enter s t := if t.id = s.calls then (enter s t).map fun s' => (t.prog cfg, s') else none
  move := move
  kill _ s := s
  exec _ x _ _ := ⟨x, rfl⟩
  start := by
    intro tags s t p s' hs
    split at hs
    · next h =>
      obtain ⟨s₁, henter, heq⟩ := Option.map_eq_some_iff.mp hs
      cases heq
      exact ⟨h, rfl, henter⟩
    · cases hs
  env := by
    intro m s s' h
    cases m with
    | wait ms =>
      cases h
      exact .wait ms
    | restart =>
      cases h
      exact .restart
  die _ _ := rfl

/-- Three agents, ranked. -/
def demoConfig : Config where
  ranked := [⟨11, 9⟩, ⟨12, 8⟩, ⟨13, 7⟩]

end Cascades
