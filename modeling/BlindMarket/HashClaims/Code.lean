import BlindMarket.HashClaims.Types

/-!
# Posting and listing

`POST /tasks`, `POST /tasks/batch` and `indexTaskFromEvent`, which lists each
task of the index routes. The checks on a task's criteria, on its listed terms
and on its token are functions of the configuration. Accounting, wrapped keys
and the offers a listing starts are left out.
-/
namespace HashClaims

open Async Prog

structure PostingTarget where
  chain : TaskChain
  token : Option Address
  isNative : Bool
  deriving DecidableEq, Repr

/-- What a backend is started with. `autoRegex` says of criteria with a regex whether it is usable. -/
structure Config where
  posting : Option PostingTarget
  openSubmissionEnabled : Bool
  hasAutoCheck : Option Criteria → Bool
  autoRegex : Option Criteria → Option Bool
  hasPayoutCurrency : TaskChain → Address → Bool
  samePricingUnit : TaskChain → Address → Bool
  onCurrentNetwork : A2ATaskMeta → Bool
  changedTaskTerm : A2ATaskMeta → IndexTaskTerms → Bool
  chainId : TaskChain → Nat

variable (cfg : Config)

/-! ## The checks of a task -/

/-- The amount and the duration the escrow call takes. -/
def checkTaskTerms (data : TaskTerms) : Except Code (Nat × Nat) :=
  if data.verificationMode = some .oracle then .error .verificationModeUnsupported
  else if data.verificationMode = some .auto ∧ cfg.hasAutoCheck data.verificationCriteria = false then
    .error .autoCriteriaRequired
  else if data.verificationMode = some .auto ∧
      cfg.autoRegex data.verificationCriteria = some false then
    .error .regexPatternUnusable
  else
    match data.amount.filter fun n => 0 < n, data.duration.filter fun n => 0 < n with
    | none, _ => .error .invalidAmount
    | _, none => .error .invalidDuration
    | some amount, some duration => .ok (amount, duration)

def MIN_DURATION : Nat := 3600
def MAX_DURATION : Nat := 90 * 86400
def UINT256_LIMIT : Nat := 2 ^ 256

def isAddress (address : Address) : Bool := decide (address < 2 ^ 160)

/-- What would revert the whole batch. -/
def checkBatchedTask (data : TaskTerms) (poster : Address) (amount duration : Nat) :
    Except Code Unit :=
  if data.taskHash = ZERO_HASH then .error .emptyHash
  else if UINT256_LIMIT ≤ amount then .error .invalidAmount
  else if duration < MIN_DURATION ∨ MAX_DURATION < duration then .error .invalidDuration
  else if data.verificationMode = some .agent then
    match data.verifierAddress with
    | none => .error .noVerifier
    | some verifier =>
      if isAddress verifier = false ∨ verifier = poster then .error .invalidVerifier else .ok ()
  else .ok ()

def CREATOR_MIN_SEC : Nat := 3600
def CREATOR_MAX_SEC : Nat := 7 * 86400

def openTerms (data : TaskTerms) (body : OpenBody) (poster : Address) : Except Code OpenTerms :=
  if cfg.openSubmissionEnabled = false then .error .openSubmissionDisabled
  else if data.isPublic = false ∨ data.hasWrappedKeys then .error .openTaskMustBePublic
  else
    match if data.verificationMode = some .agent then data.verifierAddress else none with
    | none => .error .openTaskNeedsVerifier
    | some verifier =>
      if verifier = poster then .error .invalidVerifier
      else if body.mode = .creator then
        if body.creatorWindow < CREATOR_MIN_SEC ∨ CREATOR_MAX_SEC < body.creatorWindow then
          .error .invalidPickWindow
        else .ok ⟨verifier, 1, body.creatorWindow⟩
      else if body.creatorWindow ≠ 0 then .error .invalidPickWindow
      else .ok ⟨verifier, 0, body.creatorWindow⟩

def settlementToken (target : PostingTarget) (requested : Address) : Except Code Address :=
  match target.token with
  | none => .error .tokenNotSettlement
  | some token =>
    if cfg.hasPayoutCurrency target.chain requested = false then .error .tokenNotSettlement
    else .ok token

def committedVerifier (data : TaskTerms) : Option Address :=
  if data.verificationMode = some .agent then data.verifierAddress else none

def refuseUnapprovedDelegation (poster : Address) : Backend Unit := do
  let approved ← call (Cmd.delegationApproved poster)
  if approved = false then throw .delegationDisabled else return ()

/-- The parts of `Promise.all` run side by side; a failed cache lookup finds nothing. -/
def refuseHashInUse (taskHash : Hash) : Backend Unit := do
  let (listed, escrowed) ← par branches (call (Cmd.getMeta taskHash))
    (attempt (call (Cmd.resolveCachedTaskByHash taskHash)))
  match listed, escrowed with
  | .error e, _ => throw e
  | .ok (some _), _ => throw .taskHashInUse
  | .ok none, .ok (.ok (some _)) => throw .taskHashInUse
  | .ok none, _ => return ()

/-- Whether the claim is fresh. -/
def claimNewTaskHash (taskHash : Hash) (poster : Address) (token : Nat) : Backend Bool := do
  refuseHashInUse taskHash
  let claim ← call (Cmd.claimTaskHash taskHash poster token)
  if claim.mine = false then throw .taskHashTaken else return claim.fresh

def refuseUnusableVerifier (data : TaskTerms) (chain : TaskChain) : Backend Unit := do
  match committedVerifier data with
  | none => return ()
  | some verifier => do
    let unsupported ← call (Cmd.verifierChainUnsupported verifier chain)
    if unsupported then throw .verifierChainUnsupported
    else do
      let notOptedIn ← call (Cmd.hostedVerifierNotOptedIn verifier)
      if notOptedIn then throw .verifierNotOptedIn else return ()

/-- The accounting row needs the token's decimals; a failure is logged. -/
def recordPendingLock (token : Address) (chain : TaskChain) : Backend Unit := do
  let _ ← attempt (call (Cmd.getTokenDecimals token chain))
  return ()

/-! ## POST /tasks -/

def checkedOpen (data : TaskTerms) (poster : Address) : Except Code (Option OpenTerms) :=
  match data.open? with
  | none => .ok none
  | some body => (openTerms cfg data body poster).map some

/-- An escrow that takes such tasks, and a judge that does. -/
def refuseUnsupportedOpen (chain : TaskChain) : Option OpenTerms → Backend Unit
  | none => return ()
  | some terms => do
    let supported ← call (Cmd.openCreateSupport chain)
    if supported = false then throw .openSubmissionUnsupported
    else if terms.mode ≠ 0 then return ()
    else do
      let signer ← call (Cmd.verifierSignerFor chain)
      if signer = some terms.verifier then throw .platformJudgePosterPicks else return ()

def createTaskCall (data : TaskTerms) (amount duration : Nat) : Option OpenTerms → EscrowCall
  | none => .createTask ⟨data.taskHash, amount, duration, committedVerifier data⟩
  | some terms => .createTaskOpen ⟨data.taskHash, amount, duration, none⟩ terms

def createTaskTx (target : PostingTarget) (poster token : Address) (data : TaskTerms)
    (amount duration : Nat) (terms : Option OpenTerms) : UnsignedTx where
  chain := target.chain
  sender := poster
  token := token
  call := createTaskCall data amount duration terms
  value := if target.isNative then some amount else none

/-- Past the claim. -/
def buildTask (target : PostingTarget) (poster : Address) (data : CreateTaskBody)
    (amount duration : Nat) (terms : Option OpenTerms) : Backend Answer := do
  match settlementToken cfg target data.token with
  | .error e => throw e
  | .ok token => do
    refuseUnusableVerifier data.toTaskTerms target.chain
    let tx := createTaskTx target poster token data.toTaskTerms amount duration terms
    call (Cmd.buildUnsignedTx tx)
    recordPendingLock token target.chain
    return .built tx

/-- POST /tasks. A body that does not parse is `none`. -/
def createTask (poster : Address) (token : Nat) (body : Option CreateTaskBody) :
    Backend Answer := do
  match body with
  | none => throw .validationError
  | some data => do
    refuseUnapprovedDelegation poster
    match checkTaskTerms cfg data.toTaskTerms, cfg.posting with
    | .error e, _ => throw e
    | .ok _, none => throw .chainNotConfigured
    | .ok (amount, duration), some target =>
      match checkedOpen cfg data.toTaskTerms poster with
      | .error e => throw e
      | .ok terms => do
        refuseUnsupportedOpen target.chain terms
        let _ ← claimNewTaskHash data.taskHash poster token
        buildTask cfg target poster data amount duration terms

/-! ## POST /tasks/batch -/

structure RowError where
  index : Nat
  code : Code
  deriving DecidableEq, Repr

/-- A task that passed the checks on its own terms. -/
structure Checked where
  index : Nat
  data : TaskTerms
  amount : Nat
  duration : Nat
  deriving DecidableEq, Repr

def batchedTerms (poster : Address) (data : TaskTerms) : Except Code (Nat × Nat) := do
  let (amount, duration) ← checkTaskTerms cfg data
  checkBatchedTask data poster amount duration
  return (amount, duration)

/-- The tasks in the order sent; `seen` are the hashes of those before. -/
def checkRows (poster : Address) : List Hash → Nat → List (Option TaskTerms) →
    List RowError × List Checked
  | _, _, [] => ([], [])
  | seen, index, none :: rows =>
    let (errors, checked) := checkRows poster seen (index + 1) rows
    (⟨index, .validationError⟩ :: errors, checked)
  | seen, index, some data :: rows =>
    if data.open?.isSome then
      let (errors, checked) := checkRows poster seen (index + 1) rows
      (⟨index, .openTaskNotBatched⟩ :: errors, checked)
    else if data.taskHash ∈ seen then
      let (errors, checked) := checkRows poster seen (index + 1) rows
      (⟨index, .duplicateTaskHash⟩ :: errors, checked)
    else
      let (errors, checked) := checkRows poster (data.taskHash :: seen) (index + 1) rows
      match batchedTerms cfg poster data with
      | .error e => (⟨index, e⟩ :: errors, checked)
      | .ok (amount, duration) => (errors, ⟨index, data, amount, duration⟩ :: checked)

/-- What is shared, read only. -/
def readRow (poster : Address) (chain : TaskChain) (row : Checked) : Backend Unit := do
  refuseHashInUse row.data.taskHash
  let claimedBy ← call (Cmd.getTaskHashClaim row.data.taskHash)
  if claimedBy.any fun holder => holder ≠ poster then throw .taskHashTaken
  else refuseUnusableVerifier row.data chain

/-- The outcome of each task: the refused ones, or what failed the request. -/
def rowErrors {α : Type} : List Checked → List (Except Code α) → Except Code (List RowError)
  | row :: rows, .error e :: outcomes => do
    let errors ← rowErrors rows outcomes
    if e.isAppError then return ⟨row.index, e⟩ :: errors else .error e
  | _ :: rows, .ok _ :: outcomes => rowErrors rows outcomes
  | _, _ => return []

/-- The hashes whose claim this request took. -/
def claimedFresh : List Checked → List (Except Code Bool) → List Hash
  | row :: rows, .ok true :: outcomes => row.data.taskHash :: claimedFresh rows outcomes
  | _ :: rows, _ :: outcomes => claimedFresh rows outcomes
  | _, _ => []

def releaseClaims (hashes : List Hash) (poster : Address) (token : Nat) : Backend Unit := do
  let _ ← allSettled branches (hashes.map fun taskHash =>
    call (Cmd.releaseTaskHashClaim taskHash poster token))
  return ()

def batchInput (row : Checked) : CreateTaskInput :=
  ⟨row.data.taskHash, row.amount, row.duration, committedVerifier row.data⟩

def createTasksTx (target : PostingTarget) (poster token : Address) (checked : List Checked) :
    UnsignedTx where
  chain := target.chain
  sender := poster
  token := token
  call := .createTasks (checked.map batchInput)

/-- Past the claims. -/
def buildTasks (target : PostingTarget) (poster token : Address) (checked : List Checked)
    (outcomes : List (Except Code Bool)) : Backend Answer := do
  match rowErrors checked outcomes with
  | .error e => throw e
  | .ok (_ :: _) => throw .invalidTasks
  | .ok [] => do
    let tx := createTasksTx target poster token checked
    call (Cmd.buildUnsignedTx tx)
    let _ ← allSettled branches (checked.map fun _ => recordPendingLock token target.chain)
    return .built tx

/-- The claims, and their release when what follows fails. -/
def claimAndBuild (target : PostingTarget) (poster token : Address) (claimToken : Nat)
    (checked : List Checked) : Backend Answer := do
  let outcomes ← allSettled branches (checked.map fun row =>
    claimNewTaskHash row.data.taskHash poster claimToken)
  let result ← attempt (buildTasks target poster token checked outcomes)
  match result with
  | .ok answer => return answer
  | .error e => do
    releaseClaims (claimedFresh checked outcomes) poster claimToken
    throw e

/-- Past the checks of the request as a whole. -/
def createBatch (target : PostingTarget) (poster token : Address) (claimToken : Nat)
    (tasks : List (Option TaskTerms)) : Backend Answer := do
  let (errors, checked) := checkRows cfg poster [] 0 tasks
  let reads ← allSettled branches (checked.map (readRow poster target.chain))
  match rowErrors checked reads with
  | .error e => throw e
  | .ok refused =>
    if errors = [] ∧ refused = [] then claimAndBuild target poster token claimToken checked
    else throw .invalidTasks

/-- POST /tasks/batch. A body that does not parse is `none`. -/
def createTasks (poster : Address) (claimToken : Nat) (body : Option CreateTasksBody) :
    Backend Answer := do
  match body with
  | none => throw .validationError
  | some request => do
    if poster = LEGACY_AGENT then throw .forbidden
    else do
      refuseUnapprovedDelegation poster
      match cfg.posting with
      | none => throw .chainNotConfigured
      | some target =>
        match settlementToken cfg target request.token with
        | .error e => throw e
        | .ok token =>
          if target.isNative then throw .batchUnsupported
          else do
            let support ← call (Cmd.batchCreateSupport target.chain)
            if support.supported = false then throw .batchUnsupported
            else if support.maxBatch < request.tasks.length then throw .batchTooLarge
            else createBatch cfg target poster token claimToken request.tasks

/-! ## Listing -/

def AuthUser.userAddresses (user : AuthUser) : List Address := user.addresses.getD [user.address]

def AuthUser.callerAddresses (user : AuthUser) : List Address := user.address :: user.userAddresses

/-- The listing there is, on its network and chain. -/
def checkExisting (taskChain : TaskChain) : Option A2ATaskMeta → Except Code Unit
  | none => .ok ()
  | some listing =>
    if cfg.onCurrentNetwork listing = false then .error .taskHashInUse
    else if listing.chain.any fun chain => chain ≠ taskChain then .error .chainImmutable
    else .ok ()

/-- The hash of a listing names one escrow task. -/
def refuseOtherTask (data : IndexTaskTerms) (taskChain : TaskChain) (event : TaskCreatedEvent) :
    Option A2ATaskMeta → Backend Unit
  | none => return ()
  | some _ => do
    let indexed ← attempt (call (Cmd.resolveCachedTaskByHash data.taskHash))
    match indexed with
    | .ok (some task) =>
      if task.chain ≠ taskChain ∨ task.taskId ≠ event.taskId then throw .taskHashInUse
      else return ()
    | _ => return ()

/-- The checks before anything is written. -/
def checkListing (data : IndexTaskTerms) (taskChain : TaskChain) (event : TaskCreatedEvent)
    (existing : Option A2ATaskMeta) : Except Code Unit :=
  if existing.any fun listing => cfg.changedTaskTerm listing data then .error .termsImmutable
  else if cfg.hasPayoutCurrency taskChain event.token = false then .error .tokenNotSettlement
  else if event.isOpen ∧ cfg.openSubmissionEnabled = false then .error .openSubmissionDisabled
  else if event.isOpen ∧ data.isPublic = false then .error .openTaskMustBePublic
  else if event.isOpen ∧ (data.verificationMode ≠ some .agent ∨ data.verifierAddress = none) then
    .error .openTaskNeedsVerifier
  else if event.isOpen ∧ (data.targetExecutor.isSome ∨ data.serviceId.isSome) then
    .error .openTaskPinned
  else if existing.any fun listing => listing.isOpen ≠ event.isOpen then .error .termsImmutable
  else if data.verificationMode ≠ some .agent ∧ event.verifier.isSome then
    .error .verifierModeMismatch
  else .ok ()

/-- The designated verifier is not the poster, has the key, and is the escrow's. -/
def checkDesignatedVerifier (user : AuthUser) (data : IndexTaskTerms) (taskChain : TaskChain)
    (event : TaskCreatedEvent) : Backend Unit := do
  if data.verificationMode ≠ some .agent then return ()
  else
    match data.verifierAddress with
    | none => throw .noVerifier
    | some verifier =>
      if verifier = user.address then throw .invalidVerifier
      else if data.isPublic = false ∧ verifier ∉ data.wrappedTo.getD [] then
        throw .verifierNotWrapped
      else do
        let onChainVerifier ← call (Cmd.getTaskVerifierOn taskChain event.taskId)
        if onChainVerifier ≠ some verifier then throw .verifierMismatch else return ()

def checkPrivacy (data : IndexTaskTerms) (existing : Option A2ATaskMeta) : Except Code Unit :=
  if data.isPublic ∧ data.wrappedTo.getD [] ≠ [] then .error .publicTaskHasKeys
  else if data.isPublic ∧ data.hasCustodyBlob then .error .publicTaskHasCustody
  else if data.isPublic = false ∧ data.hasPublicBrief then .error .briefOnPrivateTask
  else if existing.any fun listing => listing.terms.isPublic ≠ data.isPublic then
    .error .privacyImmutable
  else .ok ()

def checkService (data : IndexTaskTerms) (taskChain : TaskChain) (event : TaskCreatedEvent) :
    Backend Unit := do
  match data.serviceId, data.targetExecutor with
  | none, _ => return ()
  | some _, none => throw .serviceNoTarget
  | some id, some target => do
    let svc ← call (Cmd.getActiveService id)
    match svc with
    | none => throw .serviceNotActive
    | some svc =>
      if svc.agentAddress ≠ target then throw .serviceAgentMismatch
      else if cfg.samePricingUnit taskChain event.token = false then throw .serviceTokenMismatch
      else if event.amount < svc.priceRaw then throw .underpaid
      else return ()

def checkTarget (data : IndexTaskTerms) : Backend Unit := do
  match data.targetExecutor with
  | none => return ()
  | some address => do
    let target ← call (Cmd.getAgent address)
    match target with
    | none => return ()
    | some target =>
      if target.supportsChain = false then throw .targetChainUnsupported
      else if data.serviceId = none ∧ target.meetsRewardFloor = false then throw .belowMinReward
      else return ()

def checkVerifierAgent (data : IndexTaskTerms) : Backend Unit := do
  match if data.verificationMode = some .agent then data.verifierAddress else none with
  | none => return ()
  | some address => do
    let verifier ← call (Cmd.getAgent address)
    if verifier.any fun v => v.supportsChain = false then throw .verifierChainUnsupported
    else do
      let notOptedIn ← call (Cmd.hostedVerifierNotOptedIn address)
      if notOptedIn then throw .verifierNotOptedIn else return ()

def newMeta (user : AuthUser) (data : IndexTaskTerms) (taskChain : TaskChain)
    (event : TaskCreatedEvent) : A2ATaskMeta where
  taskId := data.taskHash
  posterAddress := some user.address
  chain := some taskChain
  chainId := cfg.chainId taskChain
  terms := data
  isOpen := event.isOpen

/-- Past the claim check. -/
def listTask (user : AuthUser) (data : IndexTaskTerms) (taskChain : TaskChain)
    (event : TaskCreatedEvent) (existing : Option A2ATaskMeta) : Backend Answer := do
  match checkExisting cfg taskChain existing with
  | .error e => throw e
  | .ok () => do
    refuseOtherTask data taskChain event existing
    match checkListing cfg data taskChain event existing with
    | .error e => throw e
    | .ok () => do
      call (Cmd.seedTaskId taskChain data.taskHash event.taskId)
      checkDesignatedVerifier user data taskChain event
      match checkPrivacy data existing with
      | .error e => throw e
      | .ok () => do
        checkService cfg data taskChain event
        checkTarget data
        checkVerifierAgent data
        if existing.isSome then do
          let _ ← call (Cmd.getMeta data.taskHash)
          call (Cmd.setMeta (newMeta cfg user data taskChain event))
          return .indexed data.taskHash event.taskId
        else do
          call (Cmd.setMeta (newMeta cfg user data taskChain event))
          return .indexed data.taskHash event.taskId

/-- One task of POST /a2a/tasks/index or of POST /a2a/tasks/index-batch. -/
def indexTaskFromEvent (user : AuthUser) (data : IndexTaskTerms) (taskChain : TaskChain)
    (event : TaskCreatedEvent) : Backend Answer := do
  if event.taskHash ≠ data.taskHash then throw .hashMismatch
  else if event.agent ∉ user.userAddresses then throw .notTaskAgent
  else do
    refuseUnapprovedDelegation event.agent
    let existing ← call (Cmd.getMeta data.taskHash)
    if (existing.bind (·.posterAddress)).any fun poster => poster ∉ user.callerAddresses then
      throw .taskHashTaken
    else do
      let claimedBy ← call (Cmd.getTaskHashClaim data.taskHash)
      if claimedBy.any fun holder => holder ∉ user.callerAddresses then throw .taskHashTaken
      else listTask cfg user data taskChain event existing

end HashClaims
