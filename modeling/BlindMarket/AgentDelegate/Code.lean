import BlindMarket.Escrow.Types

/-!
# BlindAgentDelegate: data and functions

The delegate of `BlindAgentDelegate.sol`, run as the code of a wallet. Hashing
and key recovery are parameters. What is hashed is kept as it was encoded, a
text, a row of 32-byte words or two words behind the typed-data prefix, and a
call's data is its function's signature with the encoded arguments.
-/
namespace BlindAgentDelegate

open BlindEscrow (Address Bytes32 Bytes word)
open Checked

inductive Kind where
  | submitEvidence | releaseUnjudgedWork | submitOpen
  deriving DecidableEq, Repr

/-- The enumeration as the ABI encodes it. -/
def Kind.toWord : Kind → Bytes32
  | .submitEvidence => 0
  | .releaseUnjudgedWork => 1
  | .submitOpen => 2

structure Call where
  kind : Kind
  taskId : Nat
  evidenceHash : Bytes32
  nonce : Nat
  deadline : Nat
  deriving DecidableEq, Repr

inductive Version where
  | one | two
  deriving DecidableEq, Repr

/-- A deployed delegate; its constructor rejects the zero address. -/
structure Delegate where
  version : Version
  ESCROW : Address
  bound : ESCROW ≠ 0
  deriving DecidableEq

inductive Revert where
  | undecodable | expired | unexpectedEvidenceHash | invalidNonce (current : Nat)
  | invalidSignature | overflow | escrow (ret : Bytes)
  deriving DecidableEq, Repr

inductive Preimage where
  | text (s : String)
  | words (ws : List Bytes32)
  | typed (domainSeparator structHash : Bytes32)
  deriving DecidableEq, Repr

/-- The chain, the wallet the code runs as, and the two primitives. -/
structure Env where
  chainId : Nat
  wallet : Address
  keccak256 : Preimage → Bytes32
  tryRecover : Bytes32 → Bytes → Option Address

abbrev Storage := Bytes32 → Nat

/-- The one slot every version keeps its nonce in. -/
def STORAGE_LOCATION : Bytes32 :=
  0x2cb27ebb7a362eb42f6c76e9e3e85fc880d054822147695d5abee89e7aef5f00

def nonce (s : Storage) : Nat := s STORAGE_LOCATION

def callType : String :=
  "Call(uint8 kind,address escrow,uint256 taskId,bytes32 evidenceHash,uint256 nonce,uint256 deadline)"

def domainType : String :=
  "EIP712Domain(string name,string version,uint256 chainId,address verifyingContract)"

variable (E : Env)

def domainWords (chainId : Nat) (wallet : Address) : List Bytes32 :=
  [E.keccak256 (.text domainType), E.keccak256 (.text "BlindAgentDelegate"),
    E.keccak256 (.text "1"), chainId, wallet]

def structWords (escrow : Address) (c : Call) : List Bytes32 :=
  [E.keccak256 (.text callType), c.kind.toWord, escrow, c.taskId, c.evidenceHash, c.nonce, c.deadline]

/-- The typed message of a call for a chain, a wallet and an escrow. -/
def callMessage (chainId : Nat) (wallet escrow : Address) (c : Call) : Preimage :=
  .typed (E.keccak256 (.words (domainWords E chainId wallet)))
    (E.keccak256 (.words (structWords E escrow c)))

def signedByWallet (digest : Bytes32) (signature : Bytes) : Bool :=
  match E.tryRecover digest signature with
  | some signer => decide (signer = E.wallet)
  | none => false

structure Calldata where
  function : String
  args : List Bytes32
  deriving DecidableEq, Repr

/-- A call the wallet makes. -/
structure ExternalCall where
  target : Address
  value : Nat
  data : Calldata
  deriving DecidableEq, Repr

def encodeCall (c : Call) : Calldata :=
  if c.kind = .submitEvidence then ⟨"submitEvidence(uint256,bytes32)", [c.taskId, c.evidenceHash]⟩
  else if c.kind = .submitOpen then ⟨"submitOpen(uint256,bytes32)", [c.taskId, c.evidenceHash]⟩
  else ⟨"releaseUnjudgedWork(uint256)", [c.taskId]⟩

/-- `execute` up to its external call; version 1 cannot decode the last kind. -/
def execute (d : Delegate) (c : Call) (signature : Bytes) (timestamp : Nat) (s : Storage) :
    Except Revert (Storage × ExternalCall) := do
  require (d.version = .two ∨ c.kind ≠ .submitOpen) .undecodable
  require (timestamp ≤ c.deadline) .expired
  require (¬ (c.kind = .releaseUnjudgedWork ∧ c.evidenceHash ≠ 0)) .unexpectedEvidenceHash
  let current := nonce s
  require (c.nonce = current) (.invalidNonce current)
  let structHash := E.keccak256 (.words (structWords E d.ESCROW c))
  let digest := E.keccak256 (.typed
    (E.keccak256 (.words (domainWords E E.chainId E.wallet))) structHash)
  require (signedByWallet E digest signature = true) .invalidSignature
  let next ← add word .overflow current 1
  return (Function.update s STORAGE_LOCATION next, ⟨d.ESCROW, 0, encodeCall c⟩)

structure SponsoredCall where
  kind : Kind
  taskId : Nat
  nonce : Nat
  deriving DecidableEq, Repr

/-- The rest of `execute`, once the escrow has answered. -/
def conclude (c : Call) (current : Nat) (ok : Bool) (ret : Bytes) : Except Revert SponsoredCall :=
  if ok = false then .error (.escrow ret) else .ok ⟨c.kind, c.taskId, current⟩

/-! ## What a successful start says -/

theorem Kind.toWord_injective : Function.Injective Kind.toWord := by
  intro a b h
  cases a <;> cases b <;> first | rfl | cases h

/-- A typed message determines everything that was signed. -/
theorem callMessage_injective (h : Function.Injective E.keccak256) {chainId chainId' : Nat}
    {wallet wallet' escrow escrow' : Address} {c c' : Call}
    (heq : callMessage E chainId wallet escrow c = callMessage E chainId' wallet' escrow' c') :
    chainId = chainId' ∧ wallet = wallet' ∧ escrow = escrow' ∧ c = c' := by
  simp only [callMessage, Preimage.typed.injEq] at heq
  obtain ⟨hdomain, hstruct⟩ := heq
  have hdomain := Preimage.words.inj (h hdomain)
  have hstruct := Preimage.words.inj (h hstruct)
  simp only [domainWords, structWords, List.cons.injEq, true_and, and_true] at hdomain hstruct
  obtain ⟨hchain, hwallet⟩ := hdomain
  obtain ⟨hkind, hescrow, htask, hevidence, hnonce, hdeadline⟩ := hstruct
  obtain ⟨kind, taskId, evidenceHash, n, deadline⟩ := c
  obtain ⟨kind', taskId', evidenceHash', n', deadline'⟩ := c'
  obtain rfl := Kind.toWord_injective hkind
  simp only at htask hevidence hnonce hdeadline
  subst htask hevidence hnonce hdeadline
  exact ⟨hchain, hwallet, hescrow, rfl⟩

theorem execute_eq_ok {d : Delegate} {c : Call} {signature : Bytes} {timestamp : Nat}
    {s s' : Storage} {made : ExternalCall} :
    execute E d c signature timestamp s = .ok (s', made) ↔
      (d.version = .two ∨ c.kind ≠ .submitOpen) ∧ timestamp ≤ c.deadline ∧
      ¬ (c.kind = .releaseUnjudgedWork ∧ c.evidenceHash ≠ 0) ∧ c.nonce = nonce s ∧
      signedByWallet E (E.keccak256 (callMessage E E.chainId E.wallet d.ESCROW c)) signature = true ∧
      nonce s + 1 < word ∧ s' = Function.update s STORAGE_LOCATION (nonce s + 1) ∧
      made = ⟨d.ESCROW, 0, encodeCall c⟩ := by
  simp only [execute, callMessage, seq_eq_ok, require_eq_ok, exists_const, add_eq_ok, pure_eq,
    Except.ok.injEq, Prod.mk.injEq]
  constructor
  · rintro ⟨hversion, htime, hevidence, hnonce, hsigned, next, ⟨hnext, rfl⟩, rfl, rfl⟩
    exact ⟨hversion, htime, hevidence, hnonce, hsigned, hnext, rfl, rfl⟩
  · rintro ⟨hversion, htime, hevidence, hnonce, hsigned, hnext, rfl, rfl⟩
    exact ⟨hversion, htime, hevidence, hnonce, hsigned, _, ⟨hnext, rfl⟩, rfl, rfl⟩

@[simp] theorem nonce_update (s : Storage) (n : Nat) :
    nonce (Function.update s STORAGE_LOCATION n) = n := Function.update_self _ _ _

end BlindAgentDelegate
