import BlindMarket.AgentRunner.Handlers

/-!
# The agent runner under way

Any number of handlers over one process. From outside, rows of the database
change, memory is measured, time passes and workers end; a worker that is
suspended ends only if the system kills it.
-/
namespace AgentRunner

open Async Prog Runs

structure State where
  runner : Runner := {}
  rows : List DeployedAgent := []
  calls : Nat := 0
  deriving Repr

structure Call where
  id : Nat
  occasion : Occasion
  deriving DecidableEq, Repr

/-- What the database, Redis and the heartbeats answer. -/
structure Reply where
  alive : Bool := true
  /-- The answer is lost; an update has acted or not. -/
  lost : Option Bool := none

def Reply.send {α : Type} (x : Reply) (s : State) (r : α × State) : Except Failure α × State :=
  match x.lost with
  | none => (.ok r.1, r.2)
  | some acted => (.error .store, if acted then r.2 else s)

variable (config : Config)

/-- What a command makes of the runner. -/
def Runner.act (r : Runner) : Cmd → Runner
  | .tryStart agent => (r.tryStart config agent).2
  | .fork agent => (r.fork agent).2
  | .stop id => r.stop id
  | .signal id suspended => (r.signal id suspended).2
  | .evict id child => (r.evict id child).2
  | .settle id child crashed running => (r.settle id child crashed running).2
  | .reap id child => r.reap id child
  | .stopLocalWorkers => r.stopLocalWorkers
  | .taskStarted id child task => r.taskStarted id child task
  | .taskFinished id child task completed => r.taskFinished id child task completed
  | _ => r

/-- `UPDATE deployed_agents SET status = … WHERE id = …`, with `AND status = …` if it is given. -/
def setStatus (rows : List DeployedAgent) (id : AgentId) (status : AgentStatus)
    (onlyFrom : Option AgentStatus) : Bool × List DeployedAgent :=
  let hit := fun a : DeployedAgent => a.id = id ∧ onlyFrom.all (· = a.status)
  (rows.any fun a => decide (hit a),
    rows.map fun a => if hit a then { a with status := status } else a)

def setToken (rows : List DeployedAgent) (id : AgentId) : Bool × List DeployedAgent :=
  (rows.any fun a => a.id = id,
    rows.map fun a => if a.id = id then { a with platformToken := true } else a)

def respond (x : Reply) (s : State) : (c : Cmd) → Except Failure (Ans c) × State
  | .loadAgent id => x.send s (s.rows.find? (·.id = id), s)
  | .loadAllAgents => x.send s (s.rows, s)
  | .setAgentStatus id status onlyFrom =>
    let (hit, rows) := setStatus s.rows id status onlyFrom
    x.send s (hit, { s with rows := rows })
  | .updateToken id =>
    let (hit, rows) := setToken s.rows id
    x.send s (hit, { s with rows := rows })
  | .isAlive _ => x.send s (x.alive, s)
  | .notify _ _ => x.send s ((), s)
  | .backgroundWritesAllowed => (.ok s.runner.writes, s)
  | .tryStart agent =>
    (.ok (s.runner.tryStart config agent).1, { s with runner := s.runner.act config (.tryStart agent) })
  | .fork agent =>
    (.ok (s.runner.fork agent).1, { s with runner := s.runner.act config (.fork agent) })
  | .stop id => (.ok (), { s with runner := s.runner.act config (.stop id) })
  | .signal id suspended => (.ok (s.runner.signal id suspended).1,
    { s with runner := s.runner.act config (.signal id suspended) })
  | .evict id child =>
    (.ok (s.runner.evict id child).1, { s with runner := s.runner.act config (.evict id child) })
  | .settle id child crashed running => (.ok (s.runner.settle id child crashed running).1,
    { s with runner := s.runner.act config (.settle id child crashed running) })
  | .hasProcess id => (.ok (s.runner.processes.lookup id).isSome, s)
  | .ownerIsFull owner => (.ok (config.maxAgentsPerOwner ≤ s.runner.liveWorkersFor owner), s)
  | .plan agents => (.ok (s.runner.plan config agents), s)
  | .reap id child => (.ok (), { s with runner := s.runner.act config (.reap id child) })
  | .stopLocalWorkers => (.ok (), { s with runner := s.runner.act config .stopLocalWorkers })
  | .taskStarted id child task =>
    (.ok (), { s with runner := s.runner.act config (.taskStarted id child task) })
  | .taskFinished id child task completed =>
    (.ok (), { s with runner := s.runner.act config (.taskFinished id child task completed) })

/-- What happens to a worker from outside: nothing, or it ends. -/
def Child.Outlived (before after : Child) : Prop :=
  after = before ∨ after = { before with gone := true }

/-- A handler starts on its occasion: the event of a worker that ended, a timer, an entry that the
reaper comes to. -/
def Occasion.Arises (s s' : State) : Occasion → Prop
  | .exit id child _ _ | .error id child =>
    s' = s ∧ ∃ c, s.runner.children[child]? = some c ∧ c.agent = id ∧ c.gone = true
  | .timer id => id ∈ s.runner.timers ∧
    s' = { s with runner := { s.runner with timers := s.runner.timers.erase id } }
  | .reap id child => s' = s ∧ s.runner.processes.lookup id = some child
  | _ => s' = s

/-- What moves by itself. -/
def Outside (s s' : State) : Prop :=
  ∃ (rows : List DeployedAgent) (children : List Child) (now : Nat) (slotsFree : Option Nat)
    (writes : Bool), s.runner.now ≤ now ∧ List.Forall₂ Child.Outlived s.runner.children children ∧
      s' = { s with
        rows := rows
        runner := { s.runner with
          children := children, now := now, slotsFree := slotsFree, writes := writes } }

/-- A handler may be given up where it waits. -/
def service : Async.System Ans Failure Unit Call State where
  exec _ s c r s' := ∃ x, respond config x s c = (r, s')
  start _ s t p s' := t.id = s.calls ∧ p = handler config t.occasion ∧
    ∃ s₁, t.occasion.Arises s s₁ ∧ s' = { s₁ with calls := s.calls + 1 }
  env := Outside
  die _ s s' := s' = s

abbrev Ev := Event Ans Failure Unit Call State

variable {config} {s s' : State} {c : Cmd} {r : Except Failure (Ans c)} {x : Reply}

theorem send_runner {α : Type} {x : Reply} {s : State} {r : α × State}
    (h : r.2.runner = s.runner) : (x.send s r).2.runner = s.runner := by
  unfold Reply.send
  split
  · exact h
  · split
    · exact h
    · rfl

theorem send_calls {α : Type} {x : Reply} {s : State} {r : α × State}
    (h : r.2.calls = s.calls) : (x.send s r).2.calls = s.calls := by
  unfold Reply.send
  split
  · exact h
  · split
    · exact h
    · rfl

/-- The runner after a command is the same function of it, whatever was answered. -/
theorem respond_runner (h : respond config x s c = (r, s')) :
    s'.runner = s.runner.act config c := by
  have hs : (respond config x s c).2.runner = s.runner.act config c := by
    cases c <;> first | rfl | exact send_runner rfl
  rwa [h] at hs

theorem respond_calls (h : respond config x s c = (r, s')) : s'.calls = s.calls := by
  have hs : (respond config x s c).2.calls = s.calls := by
    cases c <;> first | rfl | exact send_calls rfl
  rwa [h] at hs

theorem Occasion.Arises.runner {o : Occasion} (h : o.Arises s s') :
    s'.runner = { s.runner with timers := s'.runner.timers } ∧ s'.calls = s.calls := by
  cases o <;> simp only [Occasion.Arises] at h
  case exit | error => exact h.1 ▸ ⟨rfl, rfl⟩
  case timer => exact h.2 ▸ ⟨rfl, rfl⟩
  case reap => exact h.1 ▸ ⟨rfl, rfl⟩
  all_goals exact h ▸ ⟨rfl, rfl⟩

theorem service_numbered : Numbered (service config) Call.id State.calls where
  exec := by
    rintro t s c r s' ⟨x, hx⟩
    exact respond_calls hx
  start := by
    rintro tags s t p s' ⟨hid, -, s₁, hs₁, rfl⟩
    exact ⟨hid, rfl⟩
  env := by
    rintro s s' ⟨rows, children, now, slotsFree, writes, -, -, rfl⟩
    rfl
  die := by
    rintro t s s' rfl
    rfl

/-! ## Scripts -/

/-- What a script moves from outside. -/
inductive Aside
  | ends (child : Nat)
  | passes (ms : Nat)
  deriving DecidableEq, Repr

def Child.end (child : Child) : Child := { child with gone := true }

def Aside.move (s : State) : Aside → State
  | .ends n => { s with runner := {
      s.runner with children := onChild n Child.end s.runner.children } }
  | .passes ms => { s with runner := { s.runner with now := s.runner.now + ms } }

theorem outlived_end (children : List Child) (n : Nat) :
    List.Forall₂ Child.Outlived children (children.modify n Child.end) := by
  refine List.forall₂_iff_get.2 ⟨by simp, fun i hi hi' => ?_⟩
  simp only [List.get_eq_getElem, List.getElem_modify]
  split
  · exact .inr rfl
  · exact .inl rfl

theorem Aside.outside (s : State) (m : Aside) : Outside s (m.move s) := by
  cases m with
  | ends n => exact ⟨_, _, _, _, _, le_rfl, outlived_end s.runner.children n, rfl⟩
  | passes ms =>
    refine ⟨_, _, _, _, _, Nat.le_add_right s.runner.now ms, ?_, rfl⟩
    exact List.forall₂_same.2 fun child _ => .inl rfl

/-- The state in which a handler starts, if there is occasion for it. -/
def Occasion.arise (s : State) : Occasion → Option State
  | .exit id n _ _ | .error id n =>
    if s.runner.children[n]?.any fun c => c.agent = id ∧ c.gone = true then some s else none
  | .timer id =>
    if id ∈ s.runner.timers then
      some { s with runner := { s.runner with timers := s.runner.timers.erase id } }
    else none
  | .reap id n => if s.runner.processes.lookup id = some n then some s else none
  | _ => some s

theorem Occasion.arises_of_ended {id : AgentId} {n : Nat}
    (h : (if s.runner.children[n]?.any fun c => c.agent = id ∧ c.gone = true then some s else none) =
      some s') :
    s' = s ∧ ∃ c, s.runner.children[n]? = some c ∧ c.agent = id ∧ c.gone = true := by
  split at h
  · next hany =>
    obtain ⟨c, hc, hended⟩ := (Option.any_eq_true _ _).1 hany
    cases h
    exact ⟨rfl, c, hc, of_decide_eq_true hended⟩
  · cases h

theorem Occasion.arise_arises {o : Occasion} (h : o.arise s = some s') : o.Arises s s' := by
  cases o with
  | exit id n code signal => exact arises_of_ended h
  | error id n => exact arises_of_ended h
  | timer id =>
    simp only [Occasion.arise] at h
    split at h
    · next hmem => exact ⟨hmem, (Option.some.inj h).symm⟩
    · cases h
  | reap id n =>
    simp only [Occasion.arise] at h
    split at h
    · next hn => exact ⟨(Option.some.inj h).symm, hn⟩
    · cases h
  | _ => exact (Option.some.inj h).symm

def stage (config : Config) : Async.Stage (service config) Reply Aside where
  respond _ := respond config
  enter s t :=
    if t.id = s.calls then
      (t.occasion.arise s).map fun s₁ => (handler config t.occasion, { s₁ with calls := s.calls + 1 })
    else none
  move m s := some (m.move s)
  kill _ s := s
  exec _ x _ _ := ⟨x, rfl⟩
  start := by
    intro tags s t p s' h
    split at h
    · next hid =>
      obtain ⟨s₁, hs₁, heq⟩ := Option.map_eq_some_iff.1 h
      cases heq
      exact ⟨hid, rfl, s₁, Occasion.arise_arises hs₁, rfl⟩
    · cases h
  env := by
    intro m s s' h
    cases h
    exact m.outside s
  die _ _ := rfl

abbrev Cues := List (Cue Call Reply Aside)

def demoConfig : Config := ⟨5, 10, true⟩

def demoAgent : DeployedAgent := ⟨1, 9, 0, .stopped, true⟩

def demoState : State := { rows := [demoAgent] }

/-- An agent is started, paused and stopped, and an hour passes. -/
def pausedThenStopped : Cues :=
  [.enter ⟨0, .start 1⟩, .turn 0 {}, .turn 0 {}, .turn 0 {}, .turn 0 {}, .leave 0,
    .enter ⟨1, .signal 1 true⟩, .turn 0 {}, .turn 0 {}, .leave 0,
    .enter ⟨2, .stop 1⟩, .turn 0 {}, .turn 0 {}, .leave 0, .move (.passes 3600000)]

theorem pausedThenStopped_plays :
    ((stage demoConfig).play pausedThenStopped ⟨demoState, []⟩).isSome = true := by decide

/-- The run of the script. -/
def pausedRun : List Ev × Pool Ans Failure Unit Call State :=
  ((stage demoConfig).play pausedThenStopped ⟨demoState, []⟩).get pausedThenStopped_plays

theorem paused_run : PoolRun (service demoConfig) ⟨demoState, []⟩ pausedRun.1 pausedRun.2 :=
  Async.Stage.play_get pausedThenStopped_plays

/-- A worker crashes with a task in hand, is restarted and crashes with the same one. -/
def crashesTwice : Cues :=
  [.enter ⟨0, .start 1⟩, .turn 0 {}, .turn 0 {}, .turn 0 {}, .turn 0 {}, .leave 0,
    .enter ⟨1, .taskStarted 1 0 "0xa1"⟩, .turn 0 {}, .leave 0,
    .move (.ends 0), .enter ⟨2, .exit 1 0 (some 1) none⟩, .turn 0 {}, .turn 0 {}, .turn 0 {}, .leave 0,
    .move (.passes 3000), .enter ⟨3, .timer 1⟩, .turn 0 {}, .turn 0 {}, .turn 0 {},
    .turn 0 {}, .turn 0 {}, .turn 0 {}, .turn 0 {}, .leave 0,
    .enter ⟨4, .taskStarted 1 1 "0xa1"⟩, .turn 0 {}, .leave 0,
    .move (.ends 1), .enter ⟨5, .exit 1 1 none (some .sigkill)⟩, .turn 0 {}, .turn 0 {}, .turn 0 {}]

theorem crashesTwice_plays :
    ((stage demoConfig).play crashesTwice ⟨demoState, []⟩).isSome = true := by decide

def crashesRun : List Ev × Pool Ans Failure Unit Call State :=
  ((stage demoConfig).play crashesTwice ⟨demoState, []⟩).get crashesTwice_plays

theorem crashes_run : PoolRun (service demoConfig) ⟨demoState, []⟩ crashesRun.1 crashesRun.2 :=
  Async.Stage.play_get crashesTwice_plays

end AgentRunner
