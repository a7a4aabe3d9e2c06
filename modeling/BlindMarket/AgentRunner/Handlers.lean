import BlindMarket.AgentRunner.Code

/-!
# The handlers of the agent runner

Each handler as a program: it waits for the database, and between two waits
changes what the process remembers in one go.
-/
namespace AgentRunner

open Async Prog

inductive Signal
  | sigterm
  | sigkill
  | other
  deriving DecidableEq, Repr

inductive Failure
  /-- `This backend is on another deployment's Redis (…), so it starts no agents. …` -/
  | otherDeployment
  /-- `Agent … not found` -/
  | notFound (id : AgentId)
  /-- What `startRefusal` says. -/
  | refused (reason : String)
  /-- `Server configuration error: JWT_SECRET missing` -/
  | noSecret
  /-- `Agent … is not running` -/
  | notRunning (id : AgentId)
  /-- The database or Redis failed. -/
  | store
  deriving DecidableEq, Repr

/-- Why an agent was not restarted. -/
inductive NotRestarted
  /-- `it failed to start (…)` -/
  | failed (cause : Failure)
  /-- `its owner already runs … agents, the most one owner can run at once` -/
  | ownerFull (most : Nat)
  /-- `every worker slot on the server is taken (…)` -/
  | poolFull (most : Nat)
  deriving DecidableEq, Repr

/-- What a handler waits for, and the parts of it that run in one go. -/
inductive Cmd
  | loadAgent (id : AgentId)
  | loadAllAgents
  | setAgentStatus (id : AgentId) (status : AgentStatus) (onlyFrom : Option AgentStatus)
  | updateToken (id : AgentId)
  | isAlive (id : AgentId)
  | notify (owner : Owner) (reason : NotRestarted)
  | backgroundWritesAllowed
  | tryStart (agent : DeployedAgent)
  | fork (agent : DeployedAgent)
  | stop (id : AgentId)
  | signal (id : AgentId) (suspended : Bool)
  | evict (id : AgentId) (child : Nat)
  | settle (id : AgentId) (child : Nat) (crashed running : Bool)
  | hasProcess (id : AgentId)
  | ownerIsFull (owner : Owner)
  | plan (agents : List DeployedAgent)
  | reap (id : AgentId) (child : Nat)
  | stopLocalWorkers
  | taskStarted (id : AgentId) (child : Nat) (task : Task)
  | taskFinished (id : AgentId) (child : Nat) (task : Task) (completed : Bool)
  deriving DecidableEq, Repr

abbrev Ans : Cmd → Type
  | .loadAgent _ => Option DeployedAgent
  | .loadAllAgents => List DeployedAgent
  | .setAgentStatus _ _ _ => Bool
  | .updateToken _ => Bool
  | .isAlive _ => Bool
  | .notify _ _ => Unit
  | .backgroundWritesAllowed => Bool
  | .tryStart _ => Admission
  | .fork _ => Bool
  | .stop _ => Unit
  | .signal _ _ => Bool
  | .evict _ _ => Option Bool
  | .settle _ _ _ _ => Settled
  | .hasProcess _ => Bool
  | .ownerIsFull _ => Bool
  | .plan _ => List DeployedAgent × List DeployedAgent
  | .reap _ _ => Unit
  | .stopLocalWorkers => Unit
  | .taskStarted _ _ _ => Unit
  | .taskFinished _ _ _ _ => Unit

abbrev Program := Prog Ans Failure

def startAgent (id : AgentId) : Program Unit := do
  if !(← call Cmd.backgroundWritesAllowed) then throw .otherDeployment
  else
    match ← call (Cmd.loadAgent id) with
    | none => throw (.notFound id)
    | some agent =>
      match ← call (Cmd.tryStart agent) with
      | .present => return
      | .refused reason => throw (.refused reason)
      | .noSecret => throw .noSecret
      | .forked false => throw .otherDeployment
      | .forked true => discard (call (Cmd.setAgentStatus id .running none))
      | .needsToken =>
        discard (call (Cmd.updateToken id))
        if ← call (Cmd.fork agent) then discard (call (Cmd.setAgentStatus id .running none))
        else throw .otherDeployment

def stopAgent (id : AgentId) : Program Unit := do
  call (Cmd.stop id)
  discard (call (Cmd.setAgentStatus id .stopped none))

/-- `pauseAgent` and `resumeAgent` -/
def signalAgent (id : AgentId) (suspended : Bool) : Program Unit := do
  if ← call (Cmd.signal id suspended) then
    discard (call (Cmd.setAgentStatus id (if suspended then .paused else .running) none))
  else throw (.notRunning id)

/-- `child.on('exit', …)` -/
def onExit (id : AgentId) (child : Nat) (code : Option Nat) (signal : Option Signal) :
    Program Unit := do
  match ← call (Cmd.evict id child) with
  | none => return
  | some wasIntentional =>
    let a ← call (Cmd.loadAgent id)
    let crashed := !wasIntentional && (code.any (· ≠ 0) || signal.any (· ≠ .sigterm))
    let running := a.any fun a => a.status = .running
    match ← call (Cmd.settle id child crashed running) with
    | .restarting => return
    | .looped => discard (call (Cmd.setAgentStatus id .stopped (some .running)))
    | .ended =>
      if running then discard (call (Cmd.setAgentStatus id .stopped (some .running)))
      else return

/-- `child.on('error', …)` -/
def onError (id : AgentId) (child : Nat) : Program Unit := do
  match ← call (Cmd.evict id child) with
  | none => return
  | some _ => discard (call (Cmd.setAgentStatus id .stopped (some .running)))

/-- What the timer of a restart runs. -/
def autoRestart (id : AgentId) : Program Unit := do
  if !(← call Cmd.backgroundWritesAllowed) then return
  else
    match ← call (Cmd.loadAgent id) with
    | none => return
    | some a =>
      if a.status ≠ .running then return
      else if ← call (Cmd.hasProcess id) then return
      else
        match ← attempt (startAgent id) with
        | .ok _ => return
        | .error _ => discard (call (Cmd.setAgentStatus id .stopped (some .running)))

def markNotRestarted (a : DeployedAgent) (reason : NotRestarted) : Program Unit := do
  discard (attempt do
    if !(← call (Cmd.hasProcess a.id)) then
      discard (call (Cmd.setAgentStatus a.id .stopped (some .running)))
    call (Cmd.notify a.ownerAddress reason))

variable (config : Config)

/-- The starts of `reconcileAgents`, one after the other. -/
def startEach : List DeployedAgent → Program Unit
  | [] => return
  | a :: rest => do
    match ← attempt (startAgent a.id) with
    | .ok _ => startEach rest
    | .error cause => do
      markNotRestarted a (.failed cause)
      startEach rest

def markEach : List DeployedAgent → Program Unit
  | [] => return
  | a :: rest => do
    if ← call (Cmd.ownerIsFull a.ownerAddress) then
      markNotRestarted a (.ownerFull config.maxAgentsPerOwner)
    else markNotRestarted a (.poolFull config.maxConcurrentAgents)
    markEach rest

def reconcileAgents : Program Unit := do
  if !(← call Cmd.backgroundWritesAllowed) then return
  else
    match ← attempt (call Cmd.loadAllAgents) with
    | .error _ => return
    | .ok agents =>
      let (running, toStart) ← call (Cmd.plan agents)
      startEach toStart
      markEach config (running.filter fun a => !(toStart.any fun b => b.id = a.id))

/-- The reaper at one entry of the map; after a failure it drops the entry all the same. -/
def reapEntry (id : AgentId) (child : Nat) : Program Unit := do
  let reaped ← attempt do
    if !(← call (Cmd.isAlive id)) then
      call (Cmd.reap id child)
      discard (call (Cmd.setAgentStatus id .stopped (some .running)))
  match reaped with
  | .ok _ => return
  | .error _ => call (Cmd.reap id child)

/-! ## What starts them -/

inductive Occasion
  | start (id : AgentId)
  | stop (id : AgentId)
  /-- Stop, and start once that is done. -/
  | restart (id : AgentId)
  | signal (id : AgentId) (suspended : Bool)
  | exit (id : AgentId) (child : Nat) (code : Option Nat) (signal : Option Signal)
  | error (id : AgentId) (child : Nat)
  | timer (id : AgentId)
  | reconcile
  | reap (id : AgentId) (child : Nat)
  | writesStopped
  | taskStarted (id : AgentId) (child : Nat) (task : Task)
  | taskFinished (id : AgentId) (child : Nat) (task : Task) (completed : Bool)
  deriving DecidableEq, Repr

def handler : Occasion → Program Unit
  | .start id => startAgent id
  | .stop id => stopAgent id
  | .restart id => do
    stopAgent id
    startAgent id
  | .signal id suspended => signalAgent id suspended
  | .exit id child code signal => onExit id child code signal
  | .error id child => onError id child
  | .timer id => autoRestart id
  | .reconcile => reconcileAgents config
  | .reap id child => reapEntry id child
  | .writesStopped => call Cmd.stopLocalWorkers
  | .taskStarted id child task => call (Cmd.taskStarted id child task)
  | .taskFinished id child task completed => call (Cmd.taskFinished id child task completed)

end AgentRunner
