import BlindMarket.AgentDelegate.Code
import BlindMarket.Support.Runs

/-!
# One wallet and its delegates

Anybody calls `execute` on the wallet, under whatever delegate it points to.
Calls nest: an escrow may call back before it returns, other contracts may call
the wallet from anywhere, and a call that fails takes back everything that
happened inside it. The journal lists the calls made as the wallet that have
not been taken back.
-/
namespace BlindAgentDelegate

open BlindEscrow (Address Bytes32 Bytes word)
open Checked Runs

variable (E : Env)

structure Made where
  delegate : Delegate
  call : Call
  made : ExternalCall
  deriving DecidableEq

/-- The wallet: its storage, its money, and what was done as the wallet, newest first. -/
structure Wallet where
  storage : Storage
  balance : Nat
  journal : List Made

/-- A call in progress, with the wallet as it was before. -/
structure Frame where
  id : Nat
  body : Option Call
  saved : Wallet

/-- `signed` is what the wallet's key has signed so far. -/
structure Config where
  wallet : Wallet
  stack : List Frame
  code : Option Delegate
  timestamp : Nat
  signed : List Preimage
  calls : Nat

inductive Label where
  | sign (p : Preimage)
  | delegate (d : Option Delegate)
  | tick (dt : Nat)
  | receive (amount : Nat)
  | other
  | enter (id : Nat)
  | execute (id : Nat) (made : Made) (signature : Bytes)
  | back (id : Nat) (ok : Bool)

structure Event where
  kind : Label
  pre : Config
  post : Config

/-- What is left when the innermost call ends. -/
def Frame.after (f : Frame) (ok : Bool) (ret : Bytes) (w : Wallet) : Wallet :=
  match f.body with
  | some c =>
    match conclude c c.nonce ok ret with
    | .ok _ => w
    | .error _ => f.saved
  | none => if ok then w else f.saved

inductive Step : Config → Event → Config → Prop where
  | sign {c c' : Config} (p : Preimage) (h : c' = { c with signed := p :: c.signed }) :
      Step c ⟨.sign p, c, c'⟩ c'
  | delegate {c c' : Config} (d : Option Delegate) (h : c' = { c with code := d }) :
      Step c ⟨.delegate d, c, c'⟩ c'
  | tick {c c' : Config} (dt : Nat) (h : c' = { c with timestamp := c.timestamp + dt }) :
      Step c ⟨.tick dt, c, c'⟩ c'
  | receive {c c' : Config} (amount : Nat)
      (h : c' = { c with wallet := { c.wallet with balance := c.wallet.balance + amount } }) :
      Step c ⟨.receive amount, c, c'⟩ c'
  -- Code of another kind, which keeps off the namespaced slot.
  | other {c c' : Config} (storage : Storage) (balance : Nat)
      (hs : storage STORAGE_LOCATION = c.wallet.storage STORAGE_LOCATION)
      (h : c' = { c with wallet := { c.wallet with storage, balance } }) :
      Step c ⟨.other, c, c'⟩ c'
  | enter {c c' : Config}
      (h : c' = { c with stack := ⟨c.calls, none, c.wallet⟩ :: c.stack, calls := c.calls + 1 }) :
      Step c ⟨.enter c.calls, c, c'⟩ c'
  | execute {c c' : Config} (d : Delegate) (call : Call) (signature : Bytes) (storage : Storage)
      (made : ExternalCall) (hcode : c.code = some d)
      (hx : execute E d call signature c.timestamp c.wallet.storage = .ok (storage, made))
      (h : c' = { c with
        wallet := { c.wallet with storage, journal := ⟨d, call, made⟩ :: c.wallet.journal }
        stack := ⟨c.calls, some call, c.wallet⟩ :: c.stack
        calls := c.calls + 1 }) :
      Step c ⟨.execute c.calls ⟨d, call, made⟩ signature, c, c'⟩ c'
  | back {c c' : Config} (f : Frame) (stack : List Frame) (ok : Bool) (ret : Bytes)
      (hstack : c.stack = f :: stack)
      (h : c' = { c with wallet := f.after ok ret c.wallet, stack }) :
      Step c ⟨.back f.id ok, c, c'⟩ c'

/-- Traces are newest first. -/
abbrev Trace := List Event

abbrev WalletRun : Config → Trace → Config → Prop := Run (Step E)

/-- A wallet no delegate has run for. -/
structure Initial (c : Config) : Prop where
  nonce : nonce c.wallet.storage = 0
  journal : c.wallet.journal = []
  stack : c.stack = []

/-- Nobody presents a signature of the wallet on a hash whose preimage it did not sign. -/
def Unforgeable (tr : Trace) : Prop :=
  ∀ e ∈ tr, ∀ (id : Nat) (made : Made) (signature : Bytes), e.kind = .execute id made signature →
    ∀ p : Preimage, E.tryRecover (E.keccak256 p) signature = some E.wallet →
      ∃ q ∈ e.pre.signed, E.keccak256 q = E.keccak256 p

end BlindAgentDelegate
