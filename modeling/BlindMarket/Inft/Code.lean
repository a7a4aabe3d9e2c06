import BlindMarket.Support.Checked
import BlindMarket.Escrow.Types

/-!
# INFT: data and functions

Storage and functions of `INFT.sol`. Of the ERC-721 contract it inherits from,
the owners are kept; who is approved for what is left to that contract, and
every change of an owner goes through `update`. A safe mint or a safe transfer
to a contract stops at the receiver, and the rest of the function is a frame.
-/
namespace Inft

open BlindEscrow (Address)
open Checked

abbrev TokenId := Nat
abbrev Hash := Nat
abbrev Uri := String
abbrev Bytes := List UInt8

/-- The approvals of the inherited contract, and the decoding of a proof. -/
structure Deployment (Approvals : Type) where
  isApprovedForAll : Approvals → Address → Address → Bool
  getApproved : Approvals → TokenId → Address
  /-- What a change of owner leaves of the approvals. -/
  cleared : Approvals → TokenId → Approvals
  decode : Bytes → Option (Hash × Uri)

structure State (Approvals : Type) where
  admin : Address
  oracle : Address
  approvals : Approvals
  owners : TokenId → Address := fun _ => 0
  encryptedURIs : TokenId → Uri := fun _ => ""
  metadataHashes : TokenId → Hash := fun _ => 0
  authorizations : TokenId → Address → Bytes := fun _ _ => []
  tokenAuthNonce : TokenId → Nat := fun _ => 0
  authNonceAt : TokenId → Address → Nat := fun _ _ => 0
  nextTokenId : TokenId := 1
  entered : Bool := false

inductive Revert where
  | unauthorizedAccount | invalidOwner | nonexistentToken | invalidReceiver | invalidSender
  | incorrectOwner | insufficientApproval | notOwner | invalidRecipient | notApproved
  | invalidOracleProof | invalidProofData | invalidExecutor | oracleRequired | reentrantCall
  deriving DecidableEq, Repr

variable {Approvals : Type}

/-- Storage, and what other accounts are and say. -/
structure World (Approvals : Type) where
  inft : State Approvals
  hasCode : Address → Bool
  verifyProof : Address → Bytes → Bool

/-- What is left to do when the receiver returns. -/
inductive Frame where
  | mint (tokenId : TokenId) (uri : Uri) (hash : Hash)
  | clone (tokenId : TokenId) (uri : Uri) (hash : Hash)
  | transfer
  deriving DecidableEq, Repr

variable (D : Deployment Approvals)

/-! ## ERC-721 -/

def ownerOf (tokenId : TokenId) (s : State Approvals) : Except Revert Address := do
  require (s.owners tokenId ≠ 0) .nonexistentToken
  return s.owners tokenId

/-- `_update` with the override: the owner before, and the storage after. -/
def update (receiver : Address) (tokenId : TokenId) (s : State Approvals) :
    Address × State Approvals :=
  let sender := s.owners tokenId
  let s := { s with
    owners := Function.update s.owners tokenId receiver
    approvals := if sender ≠ 0 then D.cleared s.approvals tokenId else s.approvals }
  if sender ≠ 0 then
    (sender, { s with
      tokenAuthNonce := Function.update s.tokenAuthNonce tokenId (s.tokenAuthNonce tokenId + 1) })
  else (sender, s)

/-- `_safeMint` up to the receiver. -/
def mintToken (receiver : Address) (tokenId : TokenId) (s : State Approvals) :
    Except Revert (State Approvals) := do
  require (receiver ≠ 0) .invalidReceiver
  let (previousOwner, s) := update D receiver tokenId s
  require (previousOwner = 0) .invalidSender
  return s

def transfer (owner receiver : Address) (tokenId : TokenId) (s : State Approvals) :
    Except Revert (State Approvals) := do
  require (receiver ≠ 0) .invalidReceiver
  let (previousOwner, s) := update D receiver tokenId s
  require (previousOwner ≠ 0) .nonexistentToken
  require (previousOwner = owner) .incorrectOwner
  return s

/-- The spender owns the token or is approved for it. -/
def Authorized (s : State Approvals) (spender : Address) (tokenId : TokenId) : Prop :=
  spender ≠ 0 ∧ (spender = s.owners tokenId ∨
    D.isApprovedForAll s.approvals (s.owners tokenId) spender = true ∨
    D.getApproved s.approvals tokenId = spender)

instance {s : State Approvals} {spender : Address} {tokenId : TokenId} :
    Decidable (Authorized D s spender tokenId) := inferInstanceAs (Decidable (_ ∧ _))

def transferFrom (sender owner receiver : Address) (tokenId : TokenId) (s : State Approvals) :
    Except Revert (State Approvals) := do
  require (receiver ≠ 0) .invalidReceiver
  let _ ← ownerOf tokenId s
  require (Authorized D s sender tokenId) .insufficientApproval
  let (previousOwner, s) := update D receiver tokenId s
  require (previousOwner = owner) .incorrectOwner
  return s

/-! ## INFT -/

def onlyOwner (sender : Address) (s : State Approvals) : Except Revert Unit :=
  require (sender = s.admin) .unauthorizedAccount

def nonReentrant (s : State Approvals) : Except Revert Unit :=
  require (s.entered = false) .reentrantCall

def setMetadata (tokenId : TokenId) (uri : Uri) (hash : Hash) (s : State Approvals) :
    State Approvals :=
  { s with
    encryptedURIs := Function.update s.encryptedURIs tokenId uri
    metadataHashes := Function.update s.metadataHashes tokenId hash }

def mint (sender receiver : Address) (uri : Uri) (hash : Hash) (s : State Approvals) :
    Except Revert (State Approvals × Frame) := do
  onlyOwner sender s
  let tokenId := s.nextTokenId
  let s ← mintToken D receiver tokenId { s with nextTokenId := tokenId + 1 }
  return (s, .mint tokenId uri hash)

/-- The oracle is asked by a static call, so nothing happens under the guard. -/
def transferWithProof (sender owner receiver : Address) (tokenId : TokenId) (proof : Bytes)
    (w : World Approvals) : Except Revert (State Approvals) := do
  let s := w.inft
  nonReentrant s
  let current ← ownerOf tokenId s
  require (current = owner) .notOwner
  require (receiver ≠ 0) .invalidRecipient
  require (sender = owner ∨ D.isApprovedForAll s.approvals owner sender = true ∨
    D.getApproved s.approvals tokenId = sender) .notApproved
  require (w.verifyProof s.oracle proof = true) .invalidOracleProof
  let (newHash, newURI) ← orElse .invalidProofData (D.decode proof)
  transfer D owner receiver tokenId (setMetadata tokenId newURI newHash s)

def clone (sender receiver : Address) (tokenId : TokenId) (proof : Bytes) (w : World Approvals) :
    Except Revert (State Approvals × Frame) := do
  let s := w.inft
  nonReentrant s
  let current ← ownerOf tokenId s
  require (current = sender) .notOwner
  require (w.verifyProof s.oracle proof = true) .invalidOracleProof
  let (newHash, newURI) ← orElse .invalidProofData (D.decode proof)
  let newTokenId := s.nextTokenId
  let s ← mintToken D receiver newTokenId
    { s with
      nextTokenId := newTokenId + 1
      entered := true }
  return (s, .clone newTokenId newURI newHash)

def authorizeUsage (sender : Address) (tokenId : TokenId) (executor : Address)
    (permissions : Bytes) (s : State Approvals) : Except Revert (State Approvals) := do
  let owner ← ownerOf tokenId s
  require (owner = sender) .notOwner
  require (executor ≠ 0) .invalidExecutor
  return { s with
    authorizations := Function.update s.authorizations tokenId
      (Function.update (s.authorizations tokenId) executor permissions)
    authNonceAt := Function.update s.authNonceAt tokenId
      (Function.update (s.authNonceAt tokenId) executor (s.tokenAuthNonce tokenId)) }

def revokeUsage (sender : Address) (tokenId : TokenId) (executor : Address)
    (s : State Approvals) : Except Revert (State Approvals) := do
  let owner ← ownerOf tokenId s
  require (owner = sender) .notOwner
  return { s with
    authorizations := Function.update s.authorizations tokenId
      (Function.update (s.authorizations tokenId) executor []) }

/-- The rest of a function after its receiver has returned. -/
def Frame.finish (f : Frame) (s : State Approvals) : State Approvals :=
  match f with
  | .mint tokenId uri hash => setMetadata tokenId uri hash s
  | .clone tokenId uri hash => { setMetadata tokenId uri hash s with entered := false }
  | .transfer => s

/-! ## Views -/

def getEncryptedURI (tokenId : TokenId) (s : State Approvals) : Except Revert Uri := do
  let _ ← ownerOf tokenId s
  return s.encryptedURIs tokenId

def getMetadataHash (tokenId : TokenId) (s : State Approvals) : Except Revert Hash := do
  let _ ← ownerOf tokenId s
  return s.metadataHashes tokenId

def getAuthorization (tokenId : TokenId) (executor : Address) (s : State Approvals) : Bytes :=
  if s.authNonceAt tokenId executor ≠ s.tokenAuthNonce tokenId then []
  else s.authorizations tokenId executor

def isAuthorized (tokenId : TokenId) (executor : Address) (s : State Approvals) : Bool :=
  0 < (s.authorizations tokenId executor).length &&
    s.authNonceAt tokenId executor = s.tokenAuthNonce tokenId

end Inft
