import BlindMarket.Support.Parallel

/-!
# Hash claims: data

The claims of `a2aStore.ts`, the bodies of `POST /tasks`, `POST /tasks/batch`
and the index routes, and what they ask of Redis, of the chain and of the
agents. Addresses and hashes are naturals, so their case is gone.
-/
namespace HashClaims

open Async Prog

abbrev Address := Nat
abbrev Hash := Nat

/-- In seconds. -/
def HASH_CLAIM_TTL_SECONDS : Nat := 24 * 60 * 60

/-- The principal `agent` of the legacy key, which has no wallet. -/
def LEGACY_AGENT : Address := 0

def ZERO_HASH : Hash := 0

inductive TaskChain where
  | og | base | arc
  deriving DecidableEq, Repr

/-! ## Claims -/

/-- The value of a claim key, and when it expires. One from before tokens has none. -/
structure Claim where
  poster : Address
  token : Option Nat
  expires : Nat
  deriving DecidableEq, Repr

/-- What a claim answers. -/
structure ClaimOutcome where
  poster : Address
  mine : Bool
  fresh : Bool
  deriving DecidableEq, Repr

/-! ## Posting -/

inductive VerificationMode where
  | manual | auto | agent | oracle
  deriving DecidableEq, Repr

/-- `verificationCriteria`, as its JSON text. -/
abbrev Criteria := String

inductive OpenMode where
  | agent | creator
  deriving DecidableEq, Repr

structure OpenBody where
  mode : OpenMode
  creatorWindow : Nat
  deriving DecidableEq, Repr

/-- One task. `amount` and `duration` are what `parseWholeNumber` makes of them. -/
structure TaskTerms where
  taskHash : Hash
  amount : Option Nat
  duration : Option Nat
  verificationMode : Option VerificationMode := none
  verificationCriteria : Option Criteria := none
  verifierAddress : Option Address := none
  isPublic : Bool := false
  hasWrappedKeys : Bool := false
  open? : Option OpenBody := none
  deriving DecidableEq, Repr

structure CreateTaskBody extends TaskTerms where
  token : Address
  deriving DecidableEq, Repr

/-- A task that does not parse is `none`. -/
structure CreateTasksBody where
  token : Address
  tasks : List (Option TaskTerms)
  deriving DecidableEq, Repr

structure CreateTaskInput where
  taskHash : Hash
  amount : Nat
  duration : Nat
  verifierAgent : Option Address
  deriving DecidableEq, Repr

structure OpenTerms where
  verifier : Address
  mode : Nat
  creatorWindow : Nat
  deriving DecidableEq, Repr

/-- A call of the escrow. -/
inductive EscrowCall where
  | createTask (input : CreateTaskInput)
  | createTaskOpen (input : CreateTaskInput) (terms : OpenTerms)
  | createTasks (inputs : List CreateTaskInput)
  deriving DecidableEq, Repr

def EscrowCall.taskHashes : EscrowCall → List Hash
  | .createTask input => [input.taskHash]
  | .createTaskOpen input _ => [input.taskHash]
  | .createTasks inputs => inputs.map (·.taskHash)

structure UnsignedTx where
  chain : TaskChain
  sender : Address
  token : Address
  call : EscrowCall
  value : Option Nat := none
  deriving DecidableEq, Repr

structure BatchSupport where
  supported : Bool
  maxBatch : Nat
  deriving DecidableEq, Repr

/-! ## Listing -/

/-- `addresses` are the caller's linked wallets, if it has several. -/
structure AuthUser where
  address : Address
  addresses : Option (List Address) := none
  deriving DecidableEq, Repr

structure IndexTaskTerms where
  taskHash : Hash
  verificationMode : Option VerificationMode := none
  verifierAddress : Option Address := none
  isPublic : Bool := false
  wrappedTo : Option (List Address) := none
  hasCustodyBlob : Bool := false
  hasPublicBrief : Bool := false
  targetExecutor : Option Address := none
  serviceId : Option Nat := none
  deriving DecidableEq, Repr

structure TaskCreatedEvent where
  taskId : Nat
  taskHash : Hash
  agent : Address
  amount : Nat
  token : Address
  isOpen : Bool := false
  verifier : Option Address := none
  deriving DecidableEq, Repr

/-- A listing. -/
structure A2ATaskMeta where
  taskId : Hash
  posterAddress : Option Address
  chain : Option TaskChain
  chainId : Nat
  terms : IndexTaskTerms
  isOpen : Bool
  deriving DecidableEq, Repr

structure ResolvedTask where
  chain : TaskChain
  taskId : Nat
  deriving DecidableEq, Repr

structure Service where
  agentAddress : Address
  priceRaw : Nat
  deriving DecidableEq, Repr

/-- A registered agent, as the checks see it. -/
structure Agent where
  supportsChain : Bool
  meetsRewardFloor : Bool
  deriving DecidableEq, Repr

/-! ## Errors -/

/-- The refusals of the routes, and a failed command. -/
inductive Code where
  | rejected
  | validationError | forbidden | delegationDisabled | verificationModeUnsupported
  | autoCriteriaRequired | regexPatternUnusable | invalidAmount | invalidDuration
  | chainNotConfigured | openSubmissionDisabled | openTaskMustBePublic | openTaskNeedsVerifier
  | invalidVerifier | invalidPickWindow | openSubmissionUnsupported | platformJudgePosterPicks
  | taskHashInUse | taskHashTaken | tokenNotSettlement | verifierChainUnsupported
  | verifierNotOptedIn | batchUnsupported | batchTooLarge | openTaskNotBatched | duplicateTaskHash
  | emptyHash | noVerifier | invalidTasks
  | hashMismatch | notTaskAgent | chainImmutable | termsImmutable | openTaskPinned
  | verifierModeMismatch | verifierNotWrapped | verifierMismatch | publicTaskHasKeys
  | publicTaskHasCustody | briefOnPrivateTask | privacyImmutable | serviceNoTarget
  | serviceNotActive | serviceAgentMismatch | serviceTokenMismatch | underpaid
  | targetChainUnsupported | belowMinReward
  deriving DecidableEq, Repr

/-- Refused, and not failed. -/
def Code.isAppError (code : Code) : Bool := decide (code ≠ .rejected)

/-! ## Commands -/

inductive Cmd where
  | branch
  | getTaskHashClaim (taskHash : Hash)
  | claimTaskHash (taskHash : Hash) (poster : Address) (token : Nat)
  | releaseTaskHashClaim (taskHash : Hash) (poster : Address) (token : Nat)
  | getMeta (taskHash : Hash)
  | setMeta (listing : A2ATaskMeta)
  | resolveCachedTaskByHash (taskHash : Hash)
  | seedTaskId (chain : TaskChain) (taskHash : Hash) (taskId : Nat)
  | delegationApproved (poster : Address)
  | batchCreateSupport (chain : TaskChain)
  | openCreateSupport (chain : TaskChain)
  | verifierSignerFor (chain : TaskChain)
  | verifierChainUnsupported (verifier : Address) (chain : TaskChain)
  | hostedVerifierNotOptedIn (verifier : Address)
  | buildUnsignedTx (tx : UnsignedTx)
  | getTokenDecimals (token : Address) (chain : TaskChain)
  | getTaskVerifierOn (chain : TaskChain) (taskId : Nat)
  | getActiveService (id : Nat)
  | getAgent (agent : Address)
  deriving DecidableEq, Repr

@[reducible] def Ans : Cmd → Type
  | .branch => Bool
  | .getTaskHashClaim _ => Option Address
  | .claimTaskHash _ _ _ => ClaimOutcome
  | .releaseTaskHashClaim _ _ _ => Bool
  | .getMeta _ => Option A2ATaskMeta
  | .setMeta _ => Unit
  | .resolveCachedTaskByHash _ => Option ResolvedTask
  | .seedTaskId _ _ _ => Unit
  | .delegationApproved _ => Bool
  | .batchCreateSupport _ => BatchSupport
  | .openCreateSupport _ => Bool
  | .verifierSignerFor _ => Option Address
  | .verifierChainUnsupported _ _ => Bool
  | .hostedVerifierNotOptedIn _ => Bool
  | .buildUnsignedTx _ => Unit
  | .getTokenDecimals _ _ => Nat
  | .getTaskVerifierOn _ _ => Option Address
  | .getActiveService _ => Option Service
  | .getAgent _ => Option Agent

abbrev Backend := Prog Ans Code

/-- Which of the things a request waits for comes first. -/
def branches : Choice Ans Code where
  pick := .branch
  first x := x.toOption.getD true

/-- What a request answers. -/
inductive Answer where
  | built (tx : UnsignedTx)
  | indexed (taskHash : Hash) (taskId : Nat)
  deriving DecidableEq, Repr

end HashClaims
