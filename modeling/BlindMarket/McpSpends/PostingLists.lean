import BlindMarket.McpSpends.Posting
import Mathlib.Data.List.Sort

/-!
# MCP spends: posting a list

`post_tasks`: one quote and one approve for the whole list, then each row as a
spend of its own under `<idempotencyKey>#<fingerprint>`.
-/
namespace McpSpends

open Async Prog

structure TaskRow where
  instructions : Text
  amount : Decimal
  durationSeconds : Option Nat := none
  isPublic : Bool := false
  capabilities : List Capability := []
  routingSummary : Option Text := none
  deriving DecidableEq, Repr

structure PostListArgs where
  tasks : List TaskRow
  idempotencyKey : Key
  confirm : Bool := false
  quoteId : Option QuoteId := none
  deriving DecidableEq, Repr

/-- A row that can be posted. -/
structure Row where
  index : Nat
  instructions : Text
  isPublic : Bool
  capabilities : List Capability
  amountWei : Nat
  durationSecs : Nat
  routingSummary : Option Text
  canonical : Canonical
  copy : Nat
  deriving DecidableEq, Repr

def Row.key (list : Key) (r : Row) : Key := .row list r.canonical r.copy

def sortedCaps (capabilities : List Capability) : List Capability :=
  capabilities.insertionSort (· ≤ ·)

def canonicalOf (t : TaskRow) (amountWei : Nat) : Canonical where
  briefHash := t.instructions
  amountWei
  durationSecs := t.durationSeconds.getD 86400
  isPublic := t.isPublic
  capabilities := sortedCaps t.capabilities
  routingSummary := t.routingSummary

/-- The nth copy of a row has its own key. -/
def rowOf (earlier : List Row) (t : TaskRow) (amountWei : Nat) : Row where
  index := earlier.length
  instructions := t.instructions
  isPublic := t.isPublic
  capabilities := t.capabilities
  amountWei
  durationSecs := t.durationSeconds.getD 86400
  routingSummary := t.routingSummary
  canonical := canonicalOf t amountWei
  copy := earlier.countP fun r => r.canonical = canonicalOf t amountWei

/-- A row of an amount above 0, whose brief, when public, no row before it has. -/
def parseRow (decimals : Nat) (earlier : List Row) (t : TaskRow) : Option Row :=
  match parseUnits t.amount decimals with
  | none => none
  | some amountWei =>
    if amountWei = 0 then none
    else if t.isPublic && earlier.any fun r => r.isPublic && r.instructions = t.instructions then
      none
    else some (rowOf earlier t amountWei)

/-- Every row of a list, or nothing when one of them cannot be posted. -/
def parseRows (decimals : Nat) : List TaskRow → List Row → Option (List Row)
  | [], rows => some rows
  | t :: ts, rows =>
    match parseRow decimals rows t with
    | none => none
    | some row => parseRows decimals ts (rows ++ [row])

/-- What a key has done with each row: the rows, and the stage each one is at. -/
structure Progress where
  posted : List Row
  todo : List Row
  toFund : List Row

def progressOf (rows : List Row) (spends : List (Option SpendRecord)) : Progress :=
  let staged := rows.zip (spends.map fun r => r.map (·.stage))
  let todo := staged.filter fun r => r.2 ≠ some .indexed
  { posted := (staged.filter fun r => r.2 = some .indexed).map (·.1)
    todo := todo.map (·.1)
    toFund := (todo.filter fun r => r.2 ≠ some .funded).map (·.1) }

def toFundRaw (rows : List Row) : Nat := (rows.map (·.amountWei)).sum

/-- A private brief needs an executor to open it; each capability set is asked for once. -/
def checkExecutors (list : Key) : List Row → List (List Capability) → Mcp (Option Code)
  | [], _ => return none
  | r :: rows, asked => do
    if r.isPublic then checkExecutors list rows asked
    else
      match ← call (Cmd.getSpend (r.key list)) with
      | some _ => checkExecutors list rows asked
      | none =>
        let caps := sortedCaps r.capabilities
        if caps ∈ asked then checkExecutors list rows asked
        else
          let executors ← call (Cmd.executors r.capabilities)
          if executors.isEmpty then return some .noExecutors
          checkExecutors list rows (caps :: asked)

def listFields (args : PostListArgs) (s : Settlement) (payFrom : Address) (rows : List Row)
    (progress : Progress) : SpendFields :=
  .postBatch (settlementFields s payFrom) args.idempotencyKey rows.length progress.todo.length
    (toFundRaw progress.toFund) (rows.map (·.key args.idempotencyKey))
    (progress.todo.map (·.key args.idempotencyKey))

def batchRecord (args : PostListArgs) (s : Settlement) (raw : Nat) : SpendRecord where
  idempotencyKey := args.idempotencyKey
  kind := .postBatch
  stage := .created
  amountWei := some raw
  settlement := some s.mode
  chainId := s.chainId
  token := some s.token

def rowSpec (list : Key) (r : Row) : PostSpec where
  idempotencyKey := r.key list
  instructions := r.instructions
  isPublic := r.isPublic
  capabilities := r.capabilities
  amountWei := r.amountWei
  durationSecs := r.durationSecs
  executorsKnown := true
  routingSummary := r.routingSummary

/-- A row goes on from its own record, or gets one. -/
def postRow (cfg : Config) (s : Settlement) (list : Key) (r : Row) (next : Option Nat) :
    Mcp Done := do
  match ← call (Cmd.getSpend (r.key list)) with
  | some record => fundAndIndex cfg record next
  | none =>
    let record ← createPostRecord (rowSpec list r) s
    fundAndIndex cfg record next

def notStarted (rows : List Row) : List (Nat × RowStatus) := rows.map fun r => (r.index, .notStarted)

def stoppedStatus (record : Option SpendRecord) : RowStatus :=
  if record.map (·.stage) = some .funded then .fundedNotListed else .failed

/-- The rows in turn; a problem stops the run. -/
def postRows (cfg : Config) (s : Settlement) (list : Key) :
    List Row → Option Nat → Mcp (List (Nat × RowStatus) × Option Code)
  | [], _ => return ([], none)
  | r :: rows, next => do
    match ← attempt (postRow cfg s list r next) with
    | .ok posted =>
      let rest ← postRows cfg s list rows posted.next
      return ((r.index, .posted) :: rest.1, rest.2)
    | .error code =>
      let record ← call (Cmd.getSpend (r.key list))
      return ((r.index, stoppedStatus record) :: notStarted rows, some code)

/-- One approval for every task still to fund, recorded under the list's key. -/
def approveList (args : PostListArgs) (s : Settlement) (raw : Nat) : Mcp (Option Nat) := do
  call (Cmd.putSpend (batchRecord args s raw))
  match s with
  | .erc20 erc20 =>
    if raw > 0 then ensureAllowance erc20 (batchRecord args s raw) else return none
  | .og _ => return none

def listConfirmed (cfg : Config) (args : PostListArgs) (s : Settlement) (progress : Progress) :
    Mcp Response := do
  match ← attempt (approveList args s (toFundRaw progress.toFund)) with
  | .error code => return .refused code
  | .ok next =>
    let (results, stopped) ← postRows cfg s args.idempotencyKey progress.todo next
    return .list (progress.posted.map (fun r => (r.index, .posted)) ++ results) stopped

def quoteOrPostList (cfg : Config) (args : PostListArgs) (s : Settlement) (payFrom : Address)
    (rows : List Row) (progress : Progress) : Mcp Response := do
  let spend := listFields args s payFrom rows progress
  if !args.confirm then quoteStep .postBatch spend s payFrom
  else
    match quoteRefused (← call (Cmd.consumeQuote args.quoteId .postBatch spend)) with
    | some code => return .refused code
    | none => listConfirmed cfg args s progress

def postList (cfg : Config) (args : PostListArgs) (s : Settlement) (payFrom : Address)
    (rows : List Row) : Mcp Response := do
  let spends ← call (Cmd.getSpends (rows.map (·.key args.idempotencyKey)))
  let progress := progressOf rows spends
  if progress.todo.isEmpty then
    return .list (progress.posted.map fun r => (r.index, .posted)) none
  match ← attempt (checkExecutors args.idempotencyKey progress.toFund []) with
  | .error code => return .refused code
  | .ok (some code) => return .refused code
  | .ok none => quoteOrPostList cfg args s payFrom rows progress

def postTasks (cfg : Config) (args : PostListArgs) : Mcp Response := do
  let existing ← call (Cmd.getSpend args.idempotencyKey)
  if existing.any fun r => r.kind ≠ .postBatch then return .refused .idempotencyKeyInUse
  match ← postingTerms cfg with
  | .error code => return .refused code
  | .ok (s, payFrom) =>
    match parseRows s.decimals args.tasks [] with
    | none => return .refused .invalidRows
    | some rows => postList cfg args s payFrom rows

end McpSpends
