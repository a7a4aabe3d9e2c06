import BlindMarket.Support.Knowledge

/-!
# CCTP transfers: data

The rows of `cctpTransferStore.ts`, the burns of `cctp.ts`, and what the routes
and the poller ask of the table, of the chains and of Iris. Addresses are
naturals, so their case is gone and padding one to 32 bytes leaves it what it
is. A transaction hash is the place of its transaction.
-/
namespace CctpTransfers

open Async Prog

abbrev Address := Nat
abbrev Bytes32 := Nat
abbrev TxHash := Nat
abbrev AgentId := Nat

def addressToBytes32 (address : Address) : Bytes32 := address

inductive CctpChainKey where
  | base | baseSepolia | ethereum | ethereumSepolia | arbitrum | arbitrumSepolia
  | optimismSepolia | polygon | polygonAmoy | arc | arcTestnet
  deriving DecidableEq, Repr

/-- As it stands in messages. -/
def CctpChainKey.name : CctpChainKey → String
  | .base => "base"
  | .baseSepolia => "base-sepolia"
  | .ethereum => "ethereum"
  | .ethereumSepolia => "ethereum-sepolia"
  | .arbitrum => "arbitrum"
  | .arbitrumSepolia => "arbitrum-sepolia"
  | .optimismSepolia => "optimism-sepolia"
  | .polygon => "polygon"
  | .polygonAmoy => "polygon-amoy"
  | .arc => "arc"
  | .arcTestnet => "arc-testnet"

structure CctpChainConfig where
  chainKey : CctpChainKey
  domain : Nat
  tokenMessengerAddress : Address
  usdcAddress : Address
  supportsFastTransfer : Bool
  usdcGasReserveRaw : Nat
  deriving DecidableEq, Repr

structure ChainAA where
  factory : Address
  entrypoint : Address
  deriving DecidableEq, Repr

/-! ## Rows -/

inductive Direction where
  | outbound | inbound
  deriving DecidableEq, Repr

inductive Stage where
  | created | approved | burnSubmitted | burnConfirmed | attestationPending | attestationReady
  | mintSubmitted | mintConfirmed | failed
  deriving DecidableEq, Repr

def TERMINAL_STAGES : List Stage := [.mintConfirmed, .failed]

/-- What a row is created with. -/
structure CreateTransferOpts where
  idempotencyKey : String
  direction : Direction
  agentId : Option AgentId
  ownerAddress : Address
  sourceChain : CctpChainKey
  sourceDomain : Nat
  destChain : CctpChainKey
  destDomain : Nat
  usdcAmountRaw : Nat
  mintRecipient : Address
  maxFeeRaw : Nat
  minFinalityThreshold : Nat
  deriving DecidableEq, Repr

structure CctpTransfer extends CreateTransferOpts where
  id : Nat
  stage : Stage := .created
  approveTxHash : Option TxHash := none
  burnTxHash : Option TxHash := none
  mintTxHash : Option TxHash := none
  errorMessage : Option String := none
  deriving DecidableEq, Repr

/-- The columns an update sets. -/
structure StagePatch where
  stage : Stage
  approveTxHash : Option TxHash := none
  burnTxHash : Option TxHash := none
  mintTxHash : Option TxHash := none
  errorMessage : Option String := none
  deriving DecidableEq, Repr

def StagePatch.apply (patch : StagePatch) (row : CctpTransfer) : CctpTransfer :=
  { row with
    stage := patch.stage
    approveTxHash := patch.approveTxHash.or row.approveTxHash
    burnTxHash := patch.burnTxHash.or row.burnTxHash
    mintTxHash := patch.mintTxHash.or row.mintTxHash
    errorMessage := patch.errorMessage.or row.errorMessage }

/-! ## Burns -/

structure DepositForBurnParams where
  amountRaw : Nat
  destinationDomain : Nat
  mintRecipient : Address
  maxFeeRaw : Nat
  minFinalityThreshold : Nat
  deriving DecidableEq, Repr

/-- The arguments of `depositForBurnWithHook`, less its caller and its hook. -/
structure DecodedDepositForBurn where
  amount : Nat
  destinationDomain : Nat
  mintRecipient : Bytes32
  burnToken : Address
  maxFee : Nat
  minFinalityThreshold : Nat
  deriving DecidableEq, Repr

inductive Calldata where
  | approve (spender : Address) (amount : Nat)
  | depositForBurnWithHook (call : DecodedDepositForBurn)
  | other
  deriving DecidableEq, Repr

/-- A `DepositForBurn` log, and the contract that emitted it. -/
structure BurnLog where
  address : Address
  depositor : Address
  amount : Nat
  mintRecipient : Bytes32
  destinationDomain : Nat
  deriving DecidableEq, Repr

structure Receipt where
  status : Bool
  logs : List BurnLog
  deriving DecidableEq, Repr

structure ExpectedBurn where
  messenger : Address
  depositor : Address
  amount : Nat
  mintRecipient : Bytes32
  destDomain : Nat
  deriving DecidableEq, Repr

/-- What the RPC shows of a transaction. -/
structure TxResponse where
  toAddress : Option Address
  data : Calldata
  deriving DecidableEq, Repr

inductive IrisMessageStatus where
  | complete | pendingConfirmations
  deriving DecidableEq, Repr

structure IrisMessage where
  status : IrisMessageStatus
  forwardTxHash : Option TxHash
  deriving DecidableEq, Repr

/-! ## Errors -/

/-- The refusals of the routes, and a failed command. -/
inductive Code where
  | rejected
  | disabled | unauthorized | idempotencyKeyConflict | agentRunning | noKey | unsupportedChain
  | sameChain | validationError | insufficientGas | insufficientUsdc | insufficientGasHeadroom
  | feeQuoteFailed | burnFailed | approveFailed
  | transferNotFound | noAA | burnNotFound | burnMismatch | chainReadFailed
  deriving DecidableEq, Repr

/-! ## Commands -/

/-- What a route reads of an agent: `wallet` is the address of its raw key. -/
structure Agent where
  id : AgentId
  ownerAddress : Address
  running : Bool
  wallet : Option Address
  deriving DecidableEq, Repr

/-- The commands of a program. A withdrawal's burn names the transfer it is made for, which the
chain never sees. -/
inductive Cmd where
  | isCctpConfigured
  | isSupportedCctpChain (chain : CctpChainKey)
  | getCctpChain (chain : CctpChainKey)
  | authorizeOwner (agent : AgentId)
  | getByIdempotencyKey (key : String)
  | getById (id : Nat)
  | createTransfer (opts : CreateTransferOpts)
  | updateTransfer (id : Nat) (patch : StagePatch)
  | listNonTerminal
  | getBalance (chain : CctpChainKey) (account : Address)
  | balanceOf (chain : CctpChainKey) (token account : Address)
  | allowance (chain : CctpChainKey) (token account spender : Address)
  | estimateMaxFeeRaw (sourceDomain destDomain amountRaw minFinalityThreshold : Nat)
  | approve (chain : CctpChainKey) (wallet token spender : Address) (amount : Nat)
  | wait (chain : CctpChainKey) (tx : TxHash)
  | depositForBurn (chain : CctpChainKey) (wallet messenger : Address)
      (call : DecodedDepositForBurn) (transfer : Nat)
  | getTransaction (chain : CctpChainKey) (tx : TxHash)
  | getTransactionReceipt (chain : CctpChainKey) (tx : TxHash)
  | accounts (chain : CctpChainKey) (factory owner : Address)
  | pollIrisAttestation (sourceDomain : Nat) (tx : TxHash)
  | backgroundWritesAllowed
  | takeFlight
  | leaveFlight
  deriving DecidableEq, Repr

@[reducible] def Ans : Cmd → Type
  | .isCctpConfigured => Bool
  | .isSupportedCctpChain _ => Bool
  | .getCctpChain _ => Option CctpChainConfig
  | .authorizeOwner _ => Option Agent
  | .getByIdempotencyKey _ => Option CctpTransfer
  | .getById _ => Option CctpTransfer
  | .createTransfer _ => CctpTransfer
  | .updateTransfer _ _ => Option CctpTransfer
  | .listNonTerminal => List CctpTransfer
  | .getBalance _ _ => Nat
  | .balanceOf _ _ _ => Nat
  | .allowance _ _ _ _ => Nat
  | .estimateMaxFeeRaw _ _ _ _ => Nat
  | .approve _ _ _ _ _ => TxHash
  | .wait _ _ => Bool
  | .depositForBurn _ _ _ _ _ => TxHash
  | .getTransaction _ _ => Option TxResponse
  | .getTransactionReceipt _ _ => Option Receipt
  | .accounts _ _ _ => Address
  | .pollIrisAttestation _ _ => Option IrisMessage
  | .backgroundWritesAllowed => Bool
  | .takeFlight => Bool
  | .leaveFlight => Unit

abbrev Backend := Prog Ans Code

end CctpTransfers
