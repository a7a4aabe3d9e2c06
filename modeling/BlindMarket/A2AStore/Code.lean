import BlindMarket.Support.Async

/-!
# The A2A store

The writers of `a2aStore.ts`, command by command, and the end of the re-index
of `routes/a2a.ts`. A Redis key is the text after its prefix. Values that are
not text stand as the JSON text they are stored as.
-/
namespace A2AStore

open Async Prog

abbrev Text := List Char

/-- Task ids and addresses are ASCII. -/
def toLowerCase (t : Text) : Text := t.map Char.toLower

inductive Status where
  | «open» | collecting | accepted | in_progress | submitted | awaiting_verification | verified
  | completed | failed
  deriving DecidableEq, Repr

/-- The optional fields of a state. -/
inductive Field where
  | failedReason | executorAddress | acceptedAt | submittedAt | submissionRound | resultData
  | verificationResult | assignTxHash | verifyTxHash | assignError | verifyError | teeAttestation
  | outputRootHash
  deriving DecidableEq, Repr

structure A2ATaskState where
  taskId : Text
  status : Status
  fields : Field → Option Text := fun _ => none

/-- A patch leaves a field, sets it, or clears it. -/
structure Patch where
  status : Option Status := none
  fields : Field → Option (Option Text) := fun _ => none

inductive ExecutorType where
  | human | agent
  deriving DecidableEq, Repr

inductive SubmissionMode where
  | «open»
  deriving DecidableEq, Repr

/-- Wrapped keys by address. -/
abbrev WrappedKeys := Text → Option Text

structure A2ATaskMeta where
  taskId : Text
  targetExecutorType : ExecutorType := .agent
  submissionMode : Option SubmissionMode := none
  posterAddress : Option Text := none
  verifierAddress : Option Text := none
  wrappedKeys : Option WrappedKeys := none

/-- The sets the store keeps. -/
inductive SetKey where
  | «open» | openSubmission
  | executor (addr : Text)
  | poster (addr : Text)
  | verifier (addr : Text)
  deriving DecidableEq, Repr

structure Redis where
  states : Text → Option A2ATaskState
  metas : Text → Option A2ATaskMeta
  sets : SetKey → Finset Text

def KEY.state (taskId : Text) : Text := toLowerCase taskId
def KEY.meta (taskId : Text) : Text := toLowerCase taskId
def KEY.executor (addr : Text) : SetKey := .executor (toLowerCase addr)
def KEY.poster (addr : Text) : SetKey := .poster (toLowerCase addr)
def KEY.verifier (addr : Text) : SetKey := .verifier (toLowerCase addr)

/-- An optional text that is there and not empty. -/
def given : Option Text → Option Text
  | some (c :: t) => some (c :: t)
  | _ => none

@[simp] theorem given_none : given none = none := rfl

@[simp] theorem given_nil : given (some []) = none := rfl

theorem given_some {t : Text} (h : t ≠ []) : given (some t) = some t := by
  cases t with
  | nil => exact absurd rfl h
  | cons c t => rfl

def A2ATaskState.field (s : A2ATaskState) (f : Field) (v : Option Text) : A2ATaskState :=
  { s with fields := Function.update s.fields f v }

def A2ATaskState.patched (s : A2ATaskState) (patch : Patch) (taskId : Text) : A2ATaskState where
  taskId
  status := patch.status.getD s.status
  fields f := (patch.fields f).getD (s.fields f)

/-! ## Commands -/

inductive Write where
  | setState (key : Text) (state : A2ATaskState)
  | setMeta (key : Text) («meta» : A2ATaskMeta)
  | sadd (key : SetKey) (member : Text)
  | srem (key : SetKey) (member : Text)

def Write.apply : Write → Redis → Redis
  | .setState key state, r => { r with states := Function.update r.states key (some state) }
  | .setMeta key m, r => { r with metas := Function.update r.metas key (some m) }
  | .sadd key member, r =>
    { r with sets := Function.update r.sets key (insert member (r.sets key)) }
  | .srem key member, r =>
    { r with sets := Function.update r.sets key ((r.sets key).erase member) }

inductive Reply (α : Type) where
  | missing
  | lost (status : Status)
  | ok (a : α)

/-- The Lua scripts, with their `KEYS` and `ARGV`. -/
inductive Script where
  | tryAccept (stateKey : Text) (executorSetKey : SetKey) (tid executorAddress acceptedAt
      originalTaskId : Text)
  | tryExpire (stateKey tid originalTaskId reason : Text)
  | tryClose (stateKey tid originalTaskId reason : Text) (verifierSetKey : Option SetKey)
  | closeOpen (stateKey winner tid : Text) (executorSetKey verifierSetKey : Option SetKey)
  | tryRelease (stateKey tid originalTaskId expectedExecutor expectedTx : Text) (relist : Bool)
      (executorSetKey : Option SetKey) (expectedStatus : Status)

@[reducible] def Script.Answer : Script → Type
  | .tryAccept .. => Reply A2ATaskState
  | .tryExpire .. => Reply Unit
  | .tryClose .. => Reply Status
  | .closeOpen .. => Bool
  | .tryRelease .. => Reply Unit

def saddGiven (key : Option SetKey) (tid : Text) : List Write :=
  match key with
  | some key => [.sadd key tid]
  | none => []

def sremGiven (key : Option SetKey) (tid : Text) : List Write :=
  match key with
  | some key => [.srem key tid]
  | none => []

/-- The state under its key, or under the key of a task id from before ids were lower-cased. -/
def Redis.findState (r : Redis) (stateKey tid originalTaskId : Text) :
    Option (Text × Text × A2ATaskState) :=
  match r.states stateKey with
  | some s => some (stateKey, tid, s)
  | none =>
    if originalTaskId ≠ tid then (r.states originalTaskId).map (originalTaskId, originalTaskId, ·)
    else none

def Redis.write (r : Redis) : List Write → Redis
  | [] => r
  | w :: ws => (w.apply r).write ws

def dropOpen (tid originalTaskId : Text) : List Write :=
  .srem .open tid :: if tid ≠ originalTaskId then [.srem .open originalTaskId] else []

def Script.run : (script : Script) → Redis → script.Answer × Redis
  | .tryAccept stateKey executorSetKey tid executorAddress acceptedAt originalTaskId, r =>
    match r.findState stateKey tid originalTaskId with
    | none => (.missing, r)
    | some (stateKey, _, s) =>
      if s.status ≠ .open then (.lost s.status, r)
      else
        let s := { ((s.field .executorAddress (some executorAddress)).field .acceptedAt
          (some acceptedAt)) with status := .accepted }
        (.ok s, r.write (.setState stateKey s :: dropOpen tid originalTaskId ++
          [.sadd executorSetKey tid]))
  | .tryExpire stateKey tid originalTaskId reason, r =>
    match r.findState stateKey tid originalTaskId with
    | none => (.missing, r)
    | some (stateKey, _, s) =>
      if s.status ≠ .open then (.lost s.status, r)
      else
        let s := { s.field .failedReason (some reason) with status := .failed }
        (.ok (), r.write (.setState stateKey s :: dropOpen tid originalTaskId))
  | .tryClose stateKey tid originalTaskId reason verifierSetKey, r =>
    match r.findState stateKey tid originalTaskId with
    | none => (.missing, r)
    | some (stateKey, _, s) =>
      let previous := s.status
      if previous = .verified ∨ previous = .completed ∨ previous = .failed then (.lost previous, r)
      else
        let s := { s.field .failedReason (some reason) with status := .failed }
        (.ok previous, r.write (.setState stateKey s :: dropOpen tid originalTaskId ++
          sremGiven verifierSetKey tid))
  | .closeOpen stateKey winner tid executorSetKey verifierSetKey, r =>
    match r.states stateKey with
    | none => (false, r)
    | some s =>
      if s.status ≠ .collecting then (false, r)
      else
        match executorSetKey with
        | some executorSetKey =>
          let s := { s.field .executorAddress (some winner) with status := .completed }
          (true, r.write ([.sadd executorSetKey tid, .setState stateKey s,
            .srem .openSubmission tid] ++ sremGiven verifierSetKey tid))
        | none =>
          let s := { s.field .failedReason (some "voided".toList) with status := .failed }
          (true, r.write ([.setState stateKey s, .srem .openSubmission tid] ++
            sremGiven verifierSetKey tid))
  | .tryRelease stateKey tid originalTaskId expectedExecutor expectedTx relist executorSetKey
      expectedStatus, r =>
    match r.findState stateKey tid originalTaskId with
    | none => (.missing, r)
    | some (stateKey, finalTid, s) =>
      if s.status ≠ expectedStatus then (.lost s.status, r)
      else
        let executor := toLowerCase ((s.fields .executorAddress).getD [])
        let tx := toLowerCase ((s.fields .assignTxHash).getD [])
        if executor ≠ expectedExecutor ∨ tx ≠ expectedTx then (.lost s.status, r)
        else (.ok (), r.write (.setState stateKey { taskId := finalTid, status := .open } ::
          (if relist then [.sadd .open finalTid] else []) ++ sremGiven executorSetKey finalTid))

inductive Cmd where
  | existsState (key : Text)
  | getState (key : Text)
  | getMeta (key : Text)
  | write (w : Write)
  | eval (script : Script)

@[reducible] def Ans : Cmd → Type
  | .existsState _ => Bool
  | .getState _ => Option A2ATaskState
  | .getMeta _ => Option A2ATaskMeta
  | .write _ => Unit
  | .eval script => script.Answer

def respond (r : Redis) : (c : Cmd) → Ans c × Redis
  | .existsState key => ((r.states key).isSome, r)
  | .getState key => (r.states key, r)
  | .getMeta key => (r.metas key, r)
  | .write w => ((), w.apply r)
  | .eval script => script.run r

/-- What a writer may throw. -/
inductive Failure where
  | noState (taskId : Text)
  | noMeta (taskId : Text)
  deriving DecidableEq, Repr

abbrev Store := Prog Ans Failure

def redisExists (key : Text) : Store Bool := call (Cmd.existsState key)
def redisGetState (key : Text) : Store (Option A2ATaskState) := call (Cmd.getState key)
def redisGetMeta (key : Text) : Store (Option A2ATaskMeta) := call (Cmd.getMeta key)
def redisEval (script : Script) : Store script.Answer := call (Cmd.eval script)

/-- The commands of a pipeline go out one after the other. -/
def exec : List Write → Store Unit
  | [] => return ()
  | w :: ws => .await (Cmd.write w) fun _ => exec ws

/-! ## Writers -/

def setMetaWrites («meta» : A2ATaskMeta) (tid : Text) (stateExists : Bool) : List Write :=
  let openSubmission : Bool := meta.submissionMode = some .open
  [.setMeta (KEY.meta tid) { «meta» with taskId := tid }] ++
  (if stateExists then []
    else [.setState (KEY.state tid)
      { taskId := tid, status := if openSubmission then .collecting else .open }]) ++
  (if openSubmission then [.sadd .openSubmission tid]
    else if meta.targetExecutorType = .agent then [.sadd .open tid] else []) ++
  saddGiven ((given meta.posterAddress).map KEY.poster) tid ++
  saddGiven ((given meta.verifierAddress).map KEY.verifier) tid

def setMeta («meta» : A2ATaskMeta) : Store Unit := do
  let tid := toLowerCase meta.taskId
  let mut stateExists ← redisExists (KEY.state tid)
  if !stateExists ∧ tid ≠ meta.taskId then
    stateExists ← redisExists meta.taskId
  exec (setMetaWrites «meta» tid stateExists)

def getMeta (taskId : Text) : Store (Option A2ATaskMeta) := do
  match ← redisGetMeta (KEY.meta taskId) with
  | some m => return some m
  | none => if toLowerCase taskId ≠ taskId then redisGetMeta taskId else return none

/-- Later entries win. -/
def spread (first second : WrappedKeys) : WrappedKeys := fun addr => (second addr).orElse fun _ => first addr

def mergeWrappedKeys (taskId : Text) (additions : List (Text × Text)) :
    Store (Option A2ATaskMeta) := do
  let tid := toLowerCase taskId
  let found ← do
    match ← redisGetMeta (KEY.meta tid) with
    | some m => pure (some (tid, m))
    | none =>
      if tid ≠ taskId then
        match ← redisGetMeta taskId with
        | some m => pure (some (taskId, m))
        | none => pure none
      else pure none
  match found with
  | none => return none
  | some (finalTid, m) => do
    let merged := additions.foldl
      (fun keys entry => Function.update keys (toLowerCase entry.1) (some entry.2))
      (m.wrappedKeys.getD fun _ => none)
    let m := { m with wrappedKeys := some merged }
    exec [.setMeta finalTid m]
    return some m

/-- The state of a task with the key it was found under. -/
def readState (taskId : Text) : Store (Option (Text × A2ATaskState)) := do
  let tid := toLowerCase taskId
  match ← redisGetState (KEY.state tid) with
  | some s => return some (tid, s)
  | none =>
    if tid ≠ taskId then
      match ← redisGetState taskId with
      | some s => return some (taskId, s)
      | none => return none
    else return none

def readMeta (finalTid taskId : Text) : Store (Option A2ATaskMeta) := do
  match ← redisGetMeta (KEY.meta finalTid) with
  | some m => return some m
  | none => redisGetMeta taskId

/-- How the verifier index follows a state into and out of `awaiting_verification`. -/
def verifierWrites (finalTid taskId : Text) (existing updated : A2ATaskState) :
    Store (List Write) := do
  if existing.status = .awaiting_verification ∧ updated.status ≠ .awaiting_verification then
    let m ← readMeta finalTid taskId
    return sremGiven ((m.bind fun m => given m.verifierAddress).map KEY.verifier) finalTid
  else if existing.status ≠ .awaiting_verification ∧ updated.status = .awaiting_verification then
    let m ← readMeta finalTid taskId
    return saddGiven ((m.bind fun m => given m.verifierAddress).map KEY.verifier) finalTid
  else return []

def updateWrites (finalTid : Text) (existing updated : A2ATaskState) : List Write :=
  [.setState finalTid updated] ++
  (if existing.status = .open ∧ updated.status ≠ .open then [.srem .open finalTid] else []) ++
  (if existing.fields .executorAddress ≠ updated.fields .executorAddress then
    sremGiven ((given (existing.fields .executorAddress)).map KEY.executor) finalTid ++
    saddGiven ((given (updated.fields .executorAddress)).map KEY.executor) finalTid
  else [])

def updateState (taskId : Text) (patch : Patch) : Store A2ATaskState := do
  match ← readState taskId with
  | none => throw (.noState taskId)
  | some (finalTid, existing) => do
    let updated := existing.patched patch finalTid
    let verifier ← verifierWrites finalTid taskId existing updated
    exec (updateWrites finalTid existing updated ++ verifier)
    return updated

/-- What a compare-and-set answers its caller; `none` is a status that is missing. -/
inductive Outcome (α : Type) where
  | ok (a : α)
  | refused (currentStatus : Option Status)

def tryAccept (taskId executorAddress acceptedAt : Text) : Store (Outcome A2ATaskState) := do
  let tid := toLowerCase taskId
  match ← redisEval (.tryAccept (KEY.state tid) (KEY.executor executorAddress) tid executorAddress
    acceptedAt taskId) with
  | .ok s => return .ok s
  | .missing => throw (.noState taskId)
  | .lost status => return .refused (some status)

def tryExpire (taskId reason : Text) : Store (Outcome Unit) := do
  let tid := toLowerCase taskId
  match ← redisEval (.tryExpire (KEY.state tid) tid taskId reason) with
  | .ok _ => return .ok ()
  | .missing => return .refused none
  | .lost status => return .refused (some status)

def tryCloseOnChainTerminal (taskId reason : Text) : Store (Outcome Status) := do
  let tid := toLowerCase taskId
  let m ← getMeta taskId
  match ← redisEval (.tryClose (KEY.state tid) tid taskId reason
    ((m.bind fun m => given m.verifierAddress).map KEY.verifier)) with
  | .ok previous => return .ok previous
  | .missing => return .refused none
  | .lost status => return .refused (some status)

/-- `none` is a void round. -/
def closeOpenSubmissionTask (taskId : Text) (winner : Option Text) : Store Bool := do
  let tid := toLowerCase taskId
  let m ← getMeta tid
  let winner := (winner.map toLowerCase).getD []
  redisEval (.closeOpen (KEY.state tid) winner tid ((given (some winner)).map KEY.executor)
    ((m.bind fun m => given m.verifierAddress).map KEY.verifier))

def releaseToOpen (taskId : Text) : Store Unit := do
  match ← readState taskId with
  | none => throw (.noState taskId)
  | some (finalTid, existing) =>
    if existing.status = .open then return ()
    else
      match ← readMeta finalTid taskId with
      | none => throw (.noMeta taskId)
      | some m =>
        exec ([.setState finalTid { taskId := finalTid, status := .open }] ++
          (if m.targetExecutorType = .agent then [.sadd .open finalTid] else []) ++
          sremGiven ((given (existing.fields .executorAddress)).map KEY.executor) finalTid)

/-- The status a release may expect. -/
inductive Held where
  | accepted | in_progress | submitted
  deriving DecidableEq, Repr

def Held.status : Held → Status
  | .accepted => .accepted
  | .in_progress => .in_progress
  | .submitted => .submitted

structure Expected where
  executorAddress : Option Text := none
  assignTxHash : Option Text := none
  status : Held := .accepted
  deriving DecidableEq, Repr

def tryReleaseAccepted (taskId : Text) (expected : Expected) : Store (Outcome Unit) := do
  let tid := toLowerCase taskId
  match ← getMeta taskId with
  | none => throw (.noMeta taskId)
  | some m =>
    match ← redisEval (.tryRelease (KEY.state tid) tid taskId
      ((expected.executorAddress.map toLowerCase).getD [])
      ((expected.assignTxHash.map toLowerCase).getD []) (m.targetExecutorType = .agent)
      ((given expected.executorAddress).map KEY.executor) expected.status.status) with
    | .ok _ => return .ok ()
    | .missing => return .refused none
    | .lost status => return .refused (some status)

/-- The end of a re-index: the listing is written with the keys posted now and the keys already
there, read again just before. -/
def reindex (posted : A2ATaskMeta) : Store Unit := do
  let existingMeta ← getMeta posted.taskId
  let mergedWrappedKeys :=
    match posted.wrappedKeys, existingMeta.bind (·.wrappedKeys) with
    | none, none => none
    | new, old => some (spread (new.getD fun _ => none) (old.getD fun _ => none))
  let latestWrappedKeys ←
    if existingMeta.isSome then do
      let latest ← getMeta posted.taskId
      pure (latest.bind (·.wrappedKeys))
    else pure none
  let finalWrappedKeys :=
    match latestWrappedKeys with
    | some latest => some (spread (mergedWrappedKeys.getD fun _ => none) latest)
    | none => mergedWrappedKeys
  setMeta { posted with wrappedKeys := finalWrappedKeys }

end A2AStore
