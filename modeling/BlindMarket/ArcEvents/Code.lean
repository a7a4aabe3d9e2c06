import BlindMarket.Support.Async

/-!
# The Arc event listener

The poll tick of `arcEscrowEvents.ts`, command by command. The scan of the
rulings and the retries of the parked ones keep a checkpoint of their own and
never throw: here each is one command.
-/
namespace ArcEvents

open Async Prog

abbrev Text := List Char

structure Args where
  taskId : Nat
  taskHash : Option Text := none

structure Log where
  block : Int
  index : Nat
  eventName : Option Text := none
  args : Option Args := none

inductive Filter where
  | taskCreated | taskCancelled | openEvents
  deriving DecidableEq, Repr

/-- The logs of every block, in order. -/
structure Chain where
  logs : Filter → Int → List Log
  block_eq : ∀ filter block, ∀ ev ∈ logs filter block, ev.block = block

/-- The logs of `n` blocks from one on. -/
def Chain.from (chain : Chain) (filter : Filter) (block : Int) : Nat → List Log
  | 0 => []
  | n + 1 => chain.logs filter block ++ chain.from filter (block + 1) n

def Chain.queryFilter (chain : Chain) (filter : Filter) (fromBlock toBlock : Int) : List Log :=
  chain.from filter fromBlock (toBlock + 1 - fromBlock).toNat

/-- The checkpoint keys. -/
inductive Key where
  | events | dispute | cancel | «open»
  deriving DecidableEq, Repr

structure Config where
  arcEscrow : Bool := true
  arcArchiveEscrow : Bool := false
  deploymentBlock : Int := 0
  openSubmissionEnabled : Bool := true

/-- What a command may throw. -/
inductive Failure where
  | prunedHistory
  | other
  deriving DecidableEq, Repr

inductive Cmd where
  | backgroundWritesAllowed
  | checkEscrowFingerprint
  | getBlockNumber
  | get (key : Key)
  | set (key : Key) (block : Int)
  | setNx (key : Key) (block : Int)
  | disputeCheckpointSeeded
  | seedDisputeCheckpoint
  | queryFilter (archive : Bool) (filter : Filter) (fromBlock toBlock : Int)
  | indexHashes (pairs : List (Text × Nat))
  | enterFollowUps
  | leaveFollowUps
  | indexDisputes (indexedTo : Int)
  | retryParkedDisputes
  | handleTaskCancelled (ev : Log)
  | handleOpenEvent (ev : Log)
  | now

@[reducible] def Ans : Cmd → Type
  | .backgroundWritesAllowed => Bool
  | .getBlockNumber => Int
  | .get _ => Option Int
  | .disputeCheckpointSeeded => Bool
  | .queryFilter .. => List Log
  | .enterFollowUps => Bool
  | .now => Int
  | _ => Unit

abbrev Listener := Prog Ans Failure

def MAX_BLOCKS_PER_TICK : Int := 500
def OPEN_SCAN_BUDGET_MS : Int := 15000

/-- The logs of a range, from the archive where the node has pruned them. -/
def queryArcEscrowLogs (cfg : Config) (filter : Filter) (fromBlock toBlock : Int) : Listener (List Log) := do
  match ← attempt (call (Cmd.queryFilter false filter fromBlock toBlock)) with
  | .ok events => return events
  | .error .prunedHistory =>
    if cfg.arcArchiveEscrow then call (Cmd.queryFilter true filter fromBlock toBlock) else throw .other
  | .error e => throw e

/-- The hashes a range of `TaskCreated` maps. -/
def createdPairs (events : List Log) : List (Text × Nat) :=
  events.filterMap fun ev => ev.args.bind fun args =>
    match args.taskHash with
    | some (c :: hash) => some (c :: hash, args.taskId)
    | _ => none

/-- Where the index starts: after its checkpoint, or at the deployment. -/
def indexFrom (cfg : Config) (latest : Int) : Listener Int := do
  match ← call (Cmd.get .events) with
  | some checkpoint => return checkpoint + 1
  | none => do
    let fromBlock := if cfg.deploymentBlock > 0 then min cfg.deploymentBlock latest else latest
    let _ ← call (Cmd.setNx .dispute latest)
    let _ ← call (Cmd.set .events (fromBlock - 1))
    return fromBlock

def seedDisputes (fromBlock : Int) : Listener Unit := do
  if !(← call Cmd.disputeCheckpointSeeded) then
    let _ ← call (Cmd.setNx .dispute (fromBlock - 1))
    let _ ← call Cmd.seedDisputeCheckpoint

def indexRange (cfg : Config) (fromBlock toBlock : Int) : Listener Int := do
  let events ← queryArcEscrowLogs cfg .taskCreated fromBlock toBlock
  if events.isEmpty then pure () else call (Cmd.indexHashes (createdPairs events))
  let _ ← call (Cmd.set .events toBlock)
  return toBlock

def indexTaskCreated (cfg : Config) : Listener (Option Int) := do
  if !cfg.arcEscrow then return none
  let outcome ← attempt do
    let _ ← call Cmd.checkEscrowFingerprint
    let latest ← call Cmd.getBlockNumber
    let fromBlock ← indexFrom cfg latest
    seedDisputes fromBlock
    if fromBlock > latest then return fromBlock - 1
    indexRange cfg fromBlock (min latest (fromBlock + MAX_BLOCKS_PER_TICK - 1))
  match outcome with
  | .ok indexedTo => return some indexedTo
  | .error _ => return none

def indexOnce (cfg : Config) : Listener (Option Int) := do
  if !(← call Cmd.backgroundWritesAllowed) then return none
  indexTaskCreated cfg

def handleCancels : List Log → Listener Unit
  | [] => return ()
  | ev :: events => do
    if ev.args.isSome then
      let _ ← call (Cmd.handleTaskCancelled ev)
    handleCancels events

def indexCancels (cfg : Config) (indexedTo : Int) : Listener Unit := do
  if !cfg.arcEscrow then return ()
  let _ ← attempt do
    let checkpoint ← call (Cmd.get .cancel)
    let fromBlock := (checkpoint.map (· + 1)).getD indexedTo
    let toBlock := min indexedTo (fromBlock + MAX_BLOCKS_PER_TICK - 1)
    if fromBlock > toBlock then return ()
    let events ← queryArcEscrowLogs cfg .taskCancelled fromBlock toBlock
    handleCancels events
    let _ ← call (Cmd.set .cancel toBlock)
  return ()

def isOverBudget (startedAt : Int) : Listener Bool := do
  let now ← call Cmd.now
  return decide (now - startedAt > OPEN_SCAN_BUDGET_MS)

/-- One event; one that fails leaves the checkpoint before its block. -/
def handleOpen (fromBlock block : Int) (ev : Log) : Listener Unit := do
  if ev.eventName.isSome then
    match ← attempt (call (Cmd.handleOpenEvent ev)) with
    | .ok _ => return ()
    | .error e => do
      if block - 1 ≥ fromBlock then
        let _ ← call (Cmd.set .open (block - 1))
      throw e

/-- The events of an open-submission range; every event of the blocks before `block` has been
handled. Whether the range came to its end. -/
def handleOpens (fromBlock startedAt : Int) : Int → List Log → Listener Bool
  | _, [] => return true
  | block, ev :: events => do
    let isOver ← if ev.block > block then isOverBudget startedAt else pure false
    if isOver then
      let _ ← call (Cmd.set .open (ev.block - 1))
      return false
    else
      let block := if ev.block > block then ev.block else block
      handleOpen fromBlock block ev
      handleOpens fromBlock startedAt block events

def indexOpenSubmissions (cfg : Config) (indexedTo : Int) : Listener Unit := do
  if !cfg.arcEscrow || !cfg.openSubmissionEnabled then return ()
  let _ ← attempt do
    let checkpoint ← call (Cmd.get .open)
    let fromBlock := (checkpoint.map (· + 1)).getD indexedTo
    let toBlock := min indexedTo (fromBlock + MAX_BLOCKS_PER_TICK - 1)
    if fromBlock > toBlock then return ()
    let events ← queryArcEscrowLogs cfg .openEvents fromBlock toBlock
    let startedAt ← call Cmd.now
    if ← handleOpens fromBlock startedAt (fromBlock - 1) events then
      let _ ← call (Cmd.set .open toBlock)
  return ()

/-- A tick. Calls that meet an index run under way share its result; here each makes its own. -/
def pollArcEscrowOnce (cfg : Config) : Listener Unit := do
  match ← indexOnce cfg with
  | none => return ()
  | some indexedTo =>
    if !(← call Cmd.enterFollowUps) then return ()
    let _ ← call (Cmd.indexDisputes indexedTo)
    let _ ← call Cmd.retryParkedDisputes
    indexCancels cfg indexedTo
    indexOpenSubmissions cfg indexedTo
    let _ ← call Cmd.leaveFollowUps

def forceArcTick (cfg : Config) : Listener Unit := do
  let _ ← indexOnce cfg

end ArcEvents
