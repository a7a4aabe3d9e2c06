import BlindMarket.Support.Async

/-!
# Sandbox runs

`POST /sandbox/exec` and the Railway sandbox service it calls. Times are in
milliseconds, costs in micro-units, addresses in lower case.
-/
namespace Sandboxes

open Async Prog

abbrev Address := Nat

abbrev SandboxId := Nat

structure Config where
  enabled : Bool := true
  sandboxMaxConcurrent : Nat := 3
  sandboxCostPerSecond : Nat := 1000
  sandboxDailyCostCapMicro : Nat := 10000000

/-- The kind of identity a token is for. -/
inductive TokenType
  | agentRegistration
  | agentPlatform
  | other
  deriving DecidableEq, Repr

structure Request where
  agentId : Address
  typ : TokenType := .agentPlatform
  command : String
  setup : Option String := none
  taskId : Option Nat := none
  timeoutSeconds : Option Nat := none
  deriving DecidableEq, Repr

structure SandboxInstance where
  id : SandboxId
  createdAt : Nat
  agentId : Address
  taskId : Option Nat
  deriving DecidableEq, Repr

structure SandboxExecResult where
  stdout : String
  stderr : String
  exitCode : Option Int
  deriving DecidableEq, Repr

structure SandboxUsage where
  sandboxId : SandboxId
  agentId : Address
  taskId : Option Nat
  startedAt : Nat
  endedAt : Nat
  durationSeconds : Nat
  costMicroUnits : Nat
  deriving DecidableEq, Repr

inductive Stage
  | setup
  | main
  deriving DecidableEq, Repr

/-- What a request waits for. The first group is in the process's memory, the second at Railway,
the third in Redis. -/
inductive Cmd
  | now
  | activeCount
  | track (instance_ : SandboxInstance)
  | tracked (id : SandboxId)
  | untrack (id : SandboxId)
  /-- Pushes the usage, and adds its cost to its task's. -/
  | record (usage : SandboxUsage)
  /-- `getUsageHistory(agentId).at(-1)` -/
  | lastUsage (agentId : Address)
  | create
  | exec (stage : Stage) (id : SandboxId) (command : String) (timeoutSec : Nat)
  /-- `Sandbox.connect` and `destroy` -/
  | destroy (id : SandboxId)
  | getSpend (agentId : Address) (utcDay : Nat)
  | incrby (agentId : Address) (utcDay : Nat) (costMicroUnits : Nat)
  | expire (agentId : Address) (utcDay : Nat)
  deriving DecidableEq, Repr

abbrev Ans : Cmd → Type
  | .now | .activeCount => Nat
  | .tracked _ => Bool
  | .lastUsage _ => Option SandboxUsage
  | .create => SandboxId
  | .exec _ _ _ _ => SandboxExecResult
  | .getSpend _ _ => Option Nat
  | _ => Unit

inductive Failure
  | concurrencyLimit (limit : Nat)
  | setupFailed (stderr : String)
  /-- The service refused or threw. -/
  | thrown
  deriving DecidableEq, Repr

abbrev Service := Prog Ans Failure

inductive Response
  /-- 503 `SANDBOX_UNAVAILABLE` -/
  | unavailable
  /-- 403 `SANDBOX_WORKERS_ONLY` -/
  | workersOnly
  /-- 429 `SANDBOX_QUOTA_EXCEEDED` -/
  | quotaExceeded
  | done (sandboxId : SandboxId) (result : SandboxExecResult) (durationSeconds costMicroUnits : Nat)
  deriving DecidableEq, Repr

def msPerDay : Nat := 24 * 60 * 60 * 1000

/-- The UTC day in the spend key. -/
def utcDay (ms : Nat) : Nat := ms / msPerDay

/-- `Math.ceil(ms / 1000)` -/
def ceilSeconds (ms : Nat) : Nat := (ms + 999) / 1000

variable (cfg : Config) (req : Request)

/-- The body of the `try`: the setup, the command and the record of its use. -/
def runIn (startMs : Nat) (id : SandboxId) : Service SandboxExecResult := do
  let timeout := req.timeoutSeconds.getD 300
  match req.setup.filter (· ≠ "") with
  | some setup =>
    let setupResult ← call (Cmd.exec .setup id setup timeout)
    if setupResult.exitCode ≠ some 0 then throw (.setupFailed setupResult.stderr)
  | none => pure ()
  let result ← call (Cmd.exec .main id req.command timeout)
  let endMs ← call Cmd.now
  let endedAt ← call Cmd.now
  let durationSeconds := ceilSeconds (endMs - startMs)
  call (Cmd.record {
    sandboxId := id
    agentId := req.agentId
    taskId := req.taskId
    startedAt := startMs
    endedAt := endedAt
    durationSeconds := durationSeconds
    costMicroUnits := durationSeconds * cfg.sandboxCostPerSecond })
  return result

def destroy (id : SandboxId) : Service Unit := do
  if ← call (Cmd.tracked id) then
    -- A failure to destroy is ignored.
    let _ ← (call (Cmd.destroy id)).attempt
    call (Cmd.untrack id)

def createAndRun : Service (SandboxId × SandboxExecResult) := do
  let active ← call Cmd.activeCount
  if cfg.sandboxMaxConcurrent ≤ active then throw (.concurrencyLimit cfg.sandboxMaxConcurrent)
  let startMs ← call Cmd.now
  let id ← call Cmd.create
  call (Cmd.track ⟨id, startMs, req.agentId, req.taskId⟩)
  let r ← (runIn cfg req startMs id).attempt
  destroy id
  match r with
  | .ok result => return (id, result)
  | .error e => throw e

def exec : Service Response := do
  if ¬cfg.enabled then return .unavailable
  if req.typ ≠ .agentRegistration ∧ req.typ ≠ .agentPlatform then return .workersOnly
  let now ← call Cmd.now
  let spent ← call (Cmd.getSpend req.agentId (utcDay now))
  if spent.any (cfg.sandboxDailyCostCapMicro ≤ ·) then return .quotaExceeded
  let (id, result) ← createAndRun cfg req
  let usage ← call (Cmd.lastUsage req.agentId)
  let costMicroUnits := (usage.map (·.costMicroUnits)).getD 0
  call (Cmd.incrby req.agentId (utcDay now) costMicroUnits)
  call (Cmd.expire req.agentId (utcDay now))
  return .done id result ((usage.map (·.durationSeconds)).getD 0) costMicroUnits

end Sandboxes
