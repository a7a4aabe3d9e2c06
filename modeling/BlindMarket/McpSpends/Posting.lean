import BlindMarket.McpSpends.Funding

/-!
# MCP spends: renting and posting

`rent_service`, `post_task` and `post_tasks`: the resume of a key that has
spent before, the quote, the confirm, and the funding that follows it.
-/
namespace McpSpends

open Async Prog

/-- How a task of a list ended. -/
inductive RowStatus where
  | posted | fundedNotListed | failed | notStarted
  deriving DecidableEq, Repr

/-- What a tool answers. -/
inductive Response where
  | refused (code : Code)
  | quoted (quoteId : QuoteId)
  | posted (resumed : Bool) (taskHash : Option TaskHash) (txHash : Option TxHash)
  | list (results : List (Nat × RowStatus)) (stopped : Option Code)
  | refunded (resumed : Bool) (taskId : Option Nat) (outcome : Option Outcome)
  | deployed (resumed : Bool) (agentId : Option AgentId) (feeTxHash : Option TxHash)
  | deployedAll (agents : List (Nat × Bool)) (stopped : Option Code)
  deriving DecidableEq, Repr

def quoteRefused : QuoteCheck → Option Code
  | .ok => none
  | .quoteRequired => some .quoteRequired
  | .quoteMismatch => some .quoteMismatch

/-- A tool's handler: what fails inside becomes its refusal. -/
def handled (p : Mcp Response) : Mcp Response := do
  match ← attempt p with
  | .ok response => return response
  | .error code => return .refused code

/-- The quote step: the quote, and the paying wallet's balance beside it. -/
def quoteStep (kind : SpendKind) (spend : SpendFields) (s : Settlement) (payFrom : Address) :
    Mcp Response := do
  let quoteId ← call (Cmd.createQuote kind spend)
  let _ ← orElse (call (Cmd.balanceOf s.token payFrom)) 0
  return .quoted quoteId

/-! ## Renting -/

structure RentArgs where
  serviceId : Nat
  prompt : Text
  idempotencyKey : Key
  isPublic : Bool := false
  confirm : Bool := false
  quoteId : Option QuoteId := none
  deriving DecidableEq, Repr

def RENTAL_VERIFICATION_CRITERIA : Criteria := ⟨20, none⟩

/-- A brief as it is stored. -/
def sealBrief (text : Text) (isPublic : Bool) : Mcp TaskHash := do
  if isPublic then return .plain text
  let aesKey ← call Cmd.generateAesKey
  return .ciphertext text aesKey

def rentRecord (args : RentArgs) (s : Settlement) (service : Service) (taskHash : TaskHash)
    (rootHash : Nat) : SpendRecord where
  idempotencyKey := args.idempotencyKey
  kind := .rent
  stage := .created
  taskHash := some taskHash
  rootHash := some rootHash
  serviceId := some service.id
  targetExecutor := some service.agentAddress
  isPublic := args.isPublic
  publicBrief := if args.isPublic then some args.prompt else none
  verificationMode := some .auto
  verificationCriteria := some RENTAL_VERIFICATION_CRITERIA
  amountWei := some service.priceRaw
  settlement := some s.mode
  chainId := s.chainId
  token := some s.token
  durationSecs := some 3600

def rentFields (args : RentArgs) (s : Settlement) (payFrom : Address) (service : Service) :
    SpendFields :=
  .rent (settlementFields s payFrom) args.idempotencyKey args.serviceId service.id
    service.agentAddress service.priceRaw args.isPublic args.prompt

/-- Fund a record of this call, or of an earlier one, and answer with it. -/
def finishPosting (cfg : Config) (record : SpendRecord) (resumed : Bool) : Mcp Response := do
  let done ← fundAndIndex cfg record none
  return .posted resumed done.taskHash done.txHash

def finishRent (cfg : Config) (record : SpendRecord) (resumed : Bool) : Mcp Response := do
  let done ← fundAndIndex cfg record none
  call (Cmd.pollPosted done.taskHash)
  return .posted resumed done.taskHash done.txHash

def resumeRent (cfg : Config) (existing : SpendRecord) : Mcp Response := do
  if existing.stage = .indexed then
    call (Cmd.pollPosted existing.taskHash)
    return .posted true existing.taskHash existing.txHash
  handled (finishRent cfg existing true)

/-- The confirmed half: the brief is stored, the spend recorded, and the escrow funded. -/
def rentConfirmed (cfg : Config) (args : RentArgs) (s : Settlement) (service : Service) :
    Mcp Response := do
  let taskHash ← sealBrief args.prompt args.isPublic
  let rootHash ← call (Cmd.upload taskHash)
  let record := rentRecord args s service taskHash rootHash
  call (Cmd.putSpend record)
  finishRent cfg record false

/-- A price far above any listing is one in another token's units. -/
def priceUnitsSuspect (s : Settlement) (priceRaw : Nat) : Bool :=
  s.decimals < 18 && priceRaw > 1000000 * 10 ^ s.decimals

/-- Before a quote or a confirm: where the spend settles, and why it may not. -/
def postingTerms (cfg : Config) : Mcp (Except Code (Settlement × Address)) := do
  match ← requireFunding cfg with
  | .error code => return .error code
  | .ok (s, payFrom) =>
    match ← notPostingChain s with
    | some code => return .error code
    | none =>
      match pinRefusal cfg s with
      | some code => return .error code
      | none => return .ok (s, payFrom)

def rentFresh (cfg : Config) (args : RentArgs) : Mcp Response := do
  match ← postingTerms cfg with
  | .error code => return .refused code
  | .ok (s, payFrom) =>
    let service ← call (Cmd.getService args.serviceId)
    if !args.isPublic && !service.hasPublicKey then return .refused .noAgentPubkey
    if priceUnitsSuspect s service.priceRaw then return .refused .priceUnitsSuspect
    let spend := rentFields args s payFrom service
    if !args.confirm then quoteStep .rent spend s payFrom
    else
      match quoteRefused (← call (Cmd.consumeQuote args.quoteId .rent spend)) with
      | some code => return .refused code
      | none => handled (rentConfirmed cfg args s service)

def rentService (cfg : Config) (args : RentArgs) : Mcp Response := do
  match ← call (Cmd.getSpend args.idempotencyKey) with
  | some existing => resumeRent cfg existing
  | none => rentFresh cfg args

/-! ## A post's record -/

/-- What `createPostRecord` is given. -/
structure PostSpec where
  idempotencyKey : Key
  instructions : Text
  isPublic : Bool
  capabilities : List Capability
  amountWei : Nat
  durationSecs : Nat
  executorsKnown : Bool := false
  routingSummary : Option Text := none
  openTerms : Option OpenTerms := none
  verifierAddress : Option Address := none
  verificationCriteria : Option Criteria := none

def postRecord (o : PostSpec) (s : Settlement) (taskHash : TaskHash) (rootHash : Nat) :
    SpendRecord where
  idempotencyKey := o.idempotencyKey
  kind := .post
  stage := .created
  taskHash := some taskHash
  rootHash := some rootHash
  isPublic := o.isPublic
  publicBrief := if o.isPublic then some o.instructions else none
  routingSummary := o.routingSummary
  verificationMode := if o.openTerms.isSome then some .agent else some .auto
  verificationCriteria := if o.openTerms.isSome then o.verificationCriteria else some ⟨10, some 60⟩
  verifierAddress := if o.openTerms.isSome then o.verifierAddress else none
  openTerms := o.openTerms
  requiredCapabilities := o.capabilities
  amountWei := some o.amountWei
  settlement := some s.mode
  chainId := s.chainId
  token := some s.token
  durationSecs := some o.durationSecs

def createPostRecord (o : PostSpec) (s : Settlement) : Mcp SpendRecord := do
  if !o.isPublic && !o.executorsKnown then
    let _ ← call (Cmd.executors o.capabilities)
  let taskHash ← sealBrief o.instructions o.isPublic
  let rootHash ← call (Cmd.upload taskHash)
  let record := postRecord o s taskHash rootHash
  call (Cmd.putSpend record)
  return record

/-- An amount as it is written, its digits and how many stand after the point. -/
structure Decimal where
  digits : Nat
  places : Nat
  deriving DecidableEq, Repr

def parseUnits (amount : Decimal) (decimals : Nat) : Option Nat :=
  if amount.places ≤ decimals then some (amount.digits * 10 ^ (decimals - amount.places)) else none

/-! ## Posting one task -/

inductive Privacy where
  | «private» | «public»
  deriving DecidableEq, Repr

inductive Pick where
  | verifier | me
  deriving DecidableEq, Repr

structure PostArgs where
  instructions : Text
  amount : Option Decimal
  idempotencyKey : Key
  capabilities : List Capability := []
  durationSeconds : Option Nat := none
  privacy : Option Privacy := none
  openTask : Option Bool := none
  verifierAddress : Option Address := none
  pick : Option Pick := none
  pickWindowSeconds : Option Nat := none
  confirm : Bool := false
  quoteId : Option QuoteId := none
  deriving DecidableEq, Repr

/-- The request insists on many agents submitting. -/
def PostArgs.insist (args : PostArgs) : Bool :=
  args.openTask = some true || args.verifierAddress.isSome || args.pick.isSome ||
    args.pickWindowSeconds.isSome

/-- The judge of a task many agents submit to, and whether that is the platform. -/
structure Judge where
  address : Address
  platform : Bool
  deriving DecidableEq, Repr

/-- Why the request's own terms are refused, before the backend is asked. -/
def PostArgs.termsRefusal (args : PostArgs) (payFrom : Address) : Option Code :=
  if args.openTask = some false ∧ args.privacy = some .public then some .publicTaskIsOpen
  else if args.insist ∧ args.privacy ≠ some .public ∧ args.openTask ≠ some true then
    some .openRequired
  else if args.openTask = some true ∧ args.privacy = some .private then
    some .openTaskMustBePublic
  else if (args.openTask = some true ∨ args.privacy = some .public) ∧
      (args.verifierAddress = some ZERO_TOKEN ∨ args.verifierAddress = some payFrom) then
    some .invalidVerifier
  else if (args.openTask = some true ∨ args.privacy = some .public) ∧
      args.verifierAddress.isSome ∧ args.pick ≠ some .me ∧ args.pickWindowSeconds.isSome then
    some .invalidPickWindow
  else none

/-- Who picks first. -/
def PostArgs.who (args : PostArgs) (platform : Bool) : Pick :=
  args.pick.getD (if platform then .me else .verifier)

def PostArgs.termsOf (args : PostArgs) (who : Pick) : OpenTerms :=
  match who with
  | .me => ⟨.creator, args.pickWindowSeconds.getD 86400⟩
  | .verifier => ⟨.agent, 0⟩

/-- The terms of a public task once the backend has said whether it takes such tasks. -/
def PostArgs.openTermsWith (args : PostArgs) (config : Option OpenConfig) :
    Except Code (Option (OpenTerms × Judge)) :=
  let enabled := (config.map (·.enabled)).getD false
  let posting := (config.map (·.posting)).getD false
  let defaultJudge := config.bind (·.defaultJudge)
  if args.insist ∧ enabled = false then .error .openSubmissionDisabled
  else if args.insist ∧ posting = false then .error .openSubmissionUnsupported
  else
    match args.verifierAddress.orElse fun _ => defaultJudge with
    | some address =>
      if enabled && posting then
        let platform := decide (defaultJudge = some address)
        if platform ∧ args.who platform ≠ .me then .error .platformJudgePosterPicks
        else .ok (some (args.termsOf (args.who platform), ⟨address, platform⟩))
      else .ok none
    | none => if args.insist then .error .openTaskNeedsVerifier else .ok none

/-- Whether a post is for many agents, under which terms and which judge. -/
def openTermsOf (args : PostArgs) (payFrom : Address) :
    Mcp (Except Code (Option (OpenTerms × Judge))) := do
  match args.termsRefusal payFrom with
  | some code => return .error code
  | none =>
    if args.openTask = some true ∨ args.privacy = some .public then
      match ← attempt (call Cmd.openSubmission) with
      | .ok config => return args.openTermsWith (some config)
      | .error code =>
        if args.insist then return .error code
        return args.openTermsWith none
    else return .ok none

def postFields (args : PostArgs) (s : Settlement) (payFrom : Address) (amountWei : Nat)
    (terms : Option (OpenTerms × Judge)) : SpendFields :=
  .post (settlementFields s payFrom) args.idempotencyKey amountWei
    (args.durationSeconds.getD 86400) args.capabilities
    (decide (args.privacy = some .public) || terms.isSome) args.instructions (terms.map (·.1))
    (terms.map (·.2.address))

def postSpec (args : PostArgs) (amountWei : Nat) (terms : Option (OpenTerms × Judge)) :
    PostSpec where
  idempotencyKey := args.idempotencyKey
  instructions := args.instructions
  isPublic := decide (args.privacy = some .public) || terms.isSome
  capabilities := args.capabilities
  amountWei
  durationSecs := args.durationSeconds.getD 86400
  openTerms := terms.map (·.1)
  verifierAddress := terms.map (·.2.address)
  verificationCriteria :=
    terms.bind fun t => if t.2.platform then some ⟨10, some 60⟩ else none

def postConfirmed (cfg : Config) (args : PostArgs) (s : Settlement) (amountWei : Nat)
    (terms : Option (OpenTerms × Judge)) : Mcp Response := do
  let record ← createPostRecord (postSpec args amountWei terms) s
  finishPosting cfg record false

/-- The quote or the confirm of a post whose terms are settled. -/
def quoteOrPost (cfg : Config) (args : PostArgs) (s : Settlement) (payFrom : Address)
    (terms : Option (OpenTerms × Judge)) : Mcp Response := do
  match args.amount with
  | none => return .refused .amountRequired
  | some amount =>
    match parseUnits amount s.decimals with
    | none => return .refused .amountInvalid
    | some amountWei =>
      let spend := postFields args s payFrom amountWei terms
      if !args.confirm then quoteStep .post spend s payFrom
      else
        match quoteRefused (← call (Cmd.consumeQuote args.quoteId .post spend)) with
        | some code => return .refused code
        | none => handled (postConfirmed cfg args s amountWei terms)

def postFresh (cfg : Config) (args : PostArgs) : Mcp Response := do
  match ← postingTerms cfg with
  | .error code => return .refused code
  | .ok (s, payFrom) =>
    match ← openTermsOf args payFrom with
    | .error code => return .refused code
    | .ok terms => quoteOrPost cfg args s payFrom terms

def resumePost (cfg : Config) (existing : SpendRecord) : Mcp Response := do
  if existing.kind = .postBatch then return .refused .idempotencyKeyInUse
  if existing.stage = .indexed then
    return .posted true existing.taskHash existing.txHash
  handled (finishPosting cfg existing true)

def postTask (cfg : Config) (args : PostArgs) : Mcp Response := do
  match ← call (Cmd.getSpend args.idempotencyKey) with
  | some existing => resumePost cfg existing
  | none => postFresh cfg args

end McpSpends
