import BlindMarket.Support.Async

/-!
# The agent runner

What the backend remembers of the workers it forks, the parts of its handlers
that run in one go, and the handlers. What the database and the workers answer
comes from outside. An agent's id is a number, and so is its owner's address.
-/
namespace AgentRunner

open Async Prog

abbrev AgentId := Nat

abbrev Owner := Nat

abbrev Task := String

inductive AgentStatus
  | running
  | paused
  | stopped
  deriving DecidableEq, Repr

/-- `platformToken` is whether the agent has one. -/
structure DeployedAgent where
  id : AgentId
  ownerAddress : Owner
  deployedAt : Nat
  status : AgentStatus
  platformToken : Bool
  deriving DecidableEq, Repr

/-- The configuration of one process. -/
structure Config where
  maxConcurrentAgents : Nat
  maxAgentsPerOwner : Nat
  jwtSecret : Bool
  deriving DecidableEq, Repr

def restartWindowMs : Nat := 10 * 60000

def maxRestartsInWindow : Nat := 5

def healthyUptimeMs : Nat := 30 * 60000

def maxTrackedCrashTasks : Nat := 20

/-! ## Crash memory -/

/-- `byTask` in the order of its keys. -/
structure CrashMemory where
  consecutive : Nat
  byTask : List (Task × Nat)
  deriving DecidableEq, Repr

/-- The count of a task, 0 if it has none. -/
def crashesOf (byTask : List (Task × Nat)) (task : Task) : Nat := (byTask.lookup task).getD 0

/-- `delete byTask[task]` -/
def withoutTask (byTask : List (Task × Nat)) (task : Task) : List (Task × Nat) :=
  byTask.filter fun entry => entry.1 ≠ task

def recordCrash (prev : Option CrashMemory) (inFlightTask : Option Task) (uptimeMs : Nat) :
    CrashMemory :=
  let streak :=
    if healthyUptimeMs ≤ uptimeMs then 0 else (prev.map CrashMemory.consecutive).getD 0
  let byTask := (prev.map CrashMemory.byTask).getD []
  let byTask :=
    match inFlightTask with
    | some task => withoutTask byTask task ++ [(task, crashesOf byTask task + 1)]
    | none => byTask
  ⟨streak + 1, byTask.drop (byTask.length - maxTrackedCrashTasks)⟩

def recordTaskCompleted (prev : Option CrashMemory) (task : Task) : Option CrashMemory :=
  prev.map fun memory => ⟨0, withoutTask memory.byTask task⟩

def taskCrashLimit : Nat := 2

def crashRestartLimit : Nat := 3

/-- Why a worker that was told of these crashes does not drive a task. -/
def resumeSkipReason (taskHash : Task) (crashCount : Nat) (crashedTasks : List (Task × Nat)) :
    Option String :=
  let onTask := crashesOf crashedTasks taskHash
  let attributed := crashedTasks.any fun entry => taskCrashLimit ≤ entry.2
  if taskCrashLimit ≤ onTask then some s!"the worker crashed {onTask} times while running it"
  else if crashRestartLimit ≤ crashCount && !attributed then
    some s!"the worker crashed {crashCount} times in a row and no single task could be blamed"
  else none

/-- The same for a worker that is forked with this memory: `AGENT_CRASH_COUNT` and
`AGENT_CRASHED_TASKS` are taken from it. -/
def CrashMemory.skipReason (memory : Option CrashMemory) (taskHash : Task) : Option String :=
  resumeSkipReason taskHash ((memory.map CrashMemory.consecutive).getD 0)
    ((memory.map CrashMemory.byTask).getD [])

/-! ## What the process remembers -/

/-- A worker that was forked. `intentional` is whether it is in `intentionalStops`, and so whether it
was sent SIGTERM. -/
structure Child where
  agent : AgentId
  startedAt : Nat
  suspended : Bool := false
  intentional : Bool := false
  gone : Bool := false
  deriving DecidableEq, Repr

/-- Workers are known by their place in the order they were forked. `slotsFree` is how many more
memory allows, `none` where it is not measured; `writes` is `backgroundWritesAllowed()`; `timers`
are the restarts that wait for their delay to pass. -/
structure Runner where
  processes : List (AgentId × Nat) := []
  processOwners : List (AgentId × Owner) := []
  children : List Child := []
  restartTimes : List (AgentId × List Nat) := []
  crashMemory : List (AgentId × CrashMemory) := []
  inFlightTasks : List (AgentId × Option Task) := []
  timers : List AgentId := []
  now : Nat := 0
  slotsFree : Option Nat := none
  writes : Bool := true
  deriving DecidableEq, Repr

/-- `map.set` -/
def setKey {α : Type} (id : AgentId) (v : α) : List (AgentId × α) → List (AgentId × α)
  | [] => [(id, v)]
  | (k, w) :: rest => if k = id then (id, v) :: rest else (k, w) :: setKey id v rest

/-- `map.delete` -/
def deleteKey {α : Type} (map : List (AgentId × α)) (id : AgentId) : List (AgentId × α) :=
  map.filter fun entry => entry.1 ≠ id

def onChild (n : Nat) (f : Child → Child) (children : List Child) : List Child :=
  children.modify n f

/-- `intentionalStops.add(child); child.kill('SIGTERM')` -/
def Child.terminate (child : Child) : Child := { child with intentional := true }

/-- SIGSTOP or SIGCONT. -/
def Child.signal (suspended : Bool) (child : Child) : Child := { child with suspended := suspended }

variable (config : Config)

namespace Runner

variable (r : Runner)

def liveWorkersFor (owner : Owner) : Nat :=
  r.processes.countP fun entry => r.processOwners.lookup entry.1 = some owner

def startRefusal (owner : Owner) : Option String :=
  let poolFree := config.maxConcurrentAgents - r.processes.length
  let ownerFree := config.maxAgentsPerOwner - r.liveWorkersFor owner
  if poolFree = 0 then
    let most := config.maxConcurrentAgents
    some s!"Max concurrent agents ({most}) reached — stop an agent first or increase MAX_CONCURRENT_AGENTS"
  else if ownerFree = 0 then
    let most := config.maxAgentsPerOwner
    some s!"You already run {most} agents, the most one owner can run here at once — stop one first"
  else if r.slotsFree = some 0 then
    some "The server is low on memory — stop an agent or try again later"
  else none

/-- `startAgent` from the fork on: whether the worker was kept. -/
def fork (agent : DeployedAgent) : Bool × Runner :=
  let child := r.children.length
  let forked : Runner := { r with
    children := r.children ++ [{ agent := agent.id, startedAt := r.now }]
    inFlightTasks := setKey agent.id none r.inFlightTasks }
  if r.writes then
    (true, { forked with
      processes := setKey agent.id child r.processes
      processOwners := setKey agent.id agent.ownerAddress r.processOwners })
  else (false, { forked with children := onChild child Child.terminate forked.children })

end Runner

inductive Admission
  | present
  | refused (reason : String)
  | noSecret
  | needsToken
  | forked (kept : Bool)
  deriving DecidableEq, Repr

namespace Runner

variable (r : Runner)

/-- `startAgent` once the agent is loaded, up to the next wait. -/
def tryStart (agent : DeployedAgent) : Admission × Runner :=
  if (r.processes.lookup agent.id).isSome then (.present, r)
  else
    match r.startRefusal config agent.ownerAddress with
    | some reason => (.refused reason, r)
    | none =>
      if agent.platformToken then
        let (kept, r) := r.fork agent
        (.forked kept, r)
      else if config.jwtSecret then (.needsToken, r)
      else (.noSecret, r)

/-- The worker of an agent is told to stop and leaves the map. -/
def drop (id : AgentId) : Runner :=
  match r.processes.lookup id with
  | some child => { r with
      children := onChild child Child.terminate r.children
      processes := deleteKey r.processes id }
  | none => r

/-- `stopAgent` up to its wait. -/
def stop (id : AgentId) : Runner :=
  let r := r.drop id
  { r with
    restartTimes := deleteKey r.restartTimes id
    crashMemory := deleteKey r.crashMemory id
    inFlightTasks := deleteKey r.inFlightTasks id }

/-- `pauseAgent` and `resumeAgent` up to their wait: whether the agent has a worker. -/
def signal (id : AgentId) (suspended : Bool) : Bool × Runner :=
  match r.processes.lookup id with
  | some child =>
    (true, { r with children := onChild child (Child.signal suspended) r.children })
  | none => (false, r)

/-- A worker that exits or fails to start leaves the map unless it is no longer the agent's. -/
def evict (id : AgentId) (child : Nat) : Option Bool × Runner :=
  if r.processes.lookup id = some child then
    (some ((r.children[child]?.map Child.intentional).getD false),
      { r with processes := deleteKey r.processes id })
  else (none, r)

/-- `canAutoRestart` -/
def canAutoRestart (id : AgentId) : Bool × Runner :=
  let recent := ((r.restartTimes.lookup id).getD []).filter fun t => r.now - t < restartWindowMs
  if maxRestartsInWindow ≤ recent.length then
    (false, { r with restartTimes := setKey id recent r.restartTimes })
  else (true, { r with restartTimes := setKey id (recent ++ [r.now]) r.restartTimes })

end Runner

inductive Settled
  | restarting
  | looped
  | ended
  deriving DecidableEq, Repr

namespace Runner

variable (r : Runner)

/-- The exit handler once the agent is loaded; `running` is whether it was saved as running. -/
def settle (id : AgentId) (child : Nat) (crashed running : Bool) : Settled × Runner :=
  let inFlightTask := (r.inFlightTasks.lookup id).join
  let startedAt := (r.children[child]?.map Child.startedAt).getD 0
  let r := { r with inFlightTasks := deleteKey r.inFlightTasks id }
  let memory := recordCrash (r.crashMemory.lookup id) inFlightTask (r.now - startedAt)
  let r := if crashed then { r with crashMemory := setKey id memory r.crashMemory } else r
  if crashed && running then
    match r.canAutoRestart id with
    | (true, r) => (.restarting, { r with timers := id :: r.timers })
    | (false, r) => (.looped, { r with restartTimes := deleteKey r.restartTimes id })
  else (.ended, r)

def taskStarted (id : AgentId) (child : Nat) (task : Task) : Runner :=
  if r.processes.lookup id = some child then
    { r with inFlightTasks := setKey id (some task) r.inFlightTasks }
  else r

def taskFinished (id : AgentId) (child : Nat) (task : Task) (completed : Bool) : Runner :=
  if r.processes.lookup id = some child then
    let r := if r.inFlightTasks.lookup id = some (some task) then
        { r with inFlightTasks := setKey id none r.inFlightTasks }
      else r
    match completed, recordTaskCompleted (r.crashMemory.lookup id) task with
    | true, some next => { r with crashMemory := setKey id next r.crashMemory }
    | _, _ => r
  else r

/-- The reaper on an entry of the map that it looked at before it waited. -/
def reap (id : AgentId) (child : Nat) : Runner :=
  { r with
    children := onChild child Child.terminate r.children
    processes := deleteKey r.processes id }

def stopLocalWorkers : Runner :=
  { r with
    children := r.processes.foldl (fun children entry => onChild entry.2 Child.terminate children)
      r.children
    processes := [] }

end Runner

/-! ## The pool after a restart -/

/-- Agents that wait for a worker, by owner. -/
abbrev Queues := List (Owner × List DeployedAgent)

def enqueue (queues : Queues) (a : DeployedAgent) : Queues :=
  setKey a.ownerAddress ((queues.lookup a.ownerAddress).getD [] ++ [a]) queues

/-- Each owner's agents, oldest first, the owners in the order of their oldest. -/
def queuesOf (running : List DeployedAgent) : Queues :=
  (running.mergeSort fun x y => x.deployedAt ≤ y.deployedAt).foldl enqueue []

structure Dealing where
  queues : Queues
  taken : List (Owner × Nat) := []
  toStart : List DeployedAgent := []
  progressed : Bool := true
  deriving DecidableEq, Repr

def Dealing.takenBy (d : Dealing) (owner : Owner) : Nat := (d.taken.lookup owner).getD 0

/-- The slots that are free, and what an owner holds of the others. -/
structure Slots where
  available : Nat
  perOwner : Nat
  live : Owner → Nat

/-- One pass over the owners: `d.queues` are those behind. -/
def pass (slots : Slots) : Queues → Dealing → Dealing
  | [], d => d
  | (owner, queue) :: rest, d =>
    if slots.available ≤ d.toStart.length then { d with queues := d.queues ++ (owner, queue) :: rest }
    else
      match queue with
      | [] => pass slots rest { d with queues := d.queues ++ [(owner, [])] }
      | a :: queue' =>
        if slots.perOwner ≤ slots.live owner + d.takenBy owner then
          pass slots rest { d with queues := d.queues ++ [(owner, queue)] }
        else
          pass slots rest {
            queues := d.queues ++ [(owner, queue')]
            taken := setKey owner (d.takenBy owner + 1) d.taken
            toStart := d.toStart ++ [a]
            progressed := true }

/-- Passes until one takes nothing or the slots are gone. -/
def deal (slots : Slots) : Nat → Dealing → Dealing
  | 0, d => d
  | fuel + 1, d =>
    if d.progressed && decide (d.toStart.length < slots.available) then
      deal slots fuel (pass slots d.queues { d with queues := [], progressed := false })
    else d

namespace Runner

variable (r : Runner)

/-- The agents of `reconcileAgents` that were running, and those of them it starts. -/
def plan (agents : List DeployedAgent) : List DeployedAgent × List DeployedAgent :=
  let running := agents.filter fun a => a.status = .running ∧ r.processes.lookup a.id = none
  let slots : Slots := {
    available := config.maxConcurrentAgents - r.processes.length
    perOwner := config.maxAgentsPerOwner
    live := r.liveWorkersFor }
  (running, (deal slots (running.length + 1) { queues := queuesOf running }).toStart)

end Runner

end AgentRunner
