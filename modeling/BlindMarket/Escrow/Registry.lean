import BlindMarket.Escrow.Types

/-!
# TaskRegistry

The index of task listings that the escrow publishes to and closes.
-/
namespace TaskRegistry

open BlindEscrow (Address)
open Checked

structure TaskMeta where
  taskId : Nat
  agent : Address
  category : String
  locationZone : String
  reward : Nat
  createdAt : Nat
  isOpen : Bool
  deriving DecidableEq, Repr

inductive Revert where
  | notAdmin | notPendingAdmin | notAuthorized | zeroAddress | taskNotFound | taskAlreadyExists
  | taskAlreadyClosed | panic | enforcedPause | expectedPause
  deriving DecidableEq, Repr

structure State where
  taskList : List TaskMeta := []
  taskIdToIndex : Nat → Nat := fun _ => 0
  taskExists : Nat → Bool := fun _ => false
  authorizedPublishers : Address → Bool := fun _ => false
  openTaskCount : Nat := 0
  admin : Address := 0
  pendingAdmin : Address := 0
  paused : Bool := false

abbrev Outcome := Except Revert State

def onlyAdmin (sender : Address) (s : State) : Except Revert Unit :=
  require (sender = s.admin) .notAdmin

def onlyAuthorized (sender : Address) (s : State) : Except Revert Unit :=
  require (s.authorizedPublishers sender = true) .notAuthorized

def whenNotPaused (s : State) : Except Revert Unit := require (s.paused = false) .enforcedPause

def publishTask (sender : Address) (now : Nat) (taskId : Nat) (agent : Address)
    (category locationZone : String) (reward : Nat) (s : State) : Outcome := do
  onlyAuthorized sender s
  whenNotPaused s
  require (s.taskExists taskId = false) .taskAlreadyExists
  return { s with
    taskIdToIndex := Function.update s.taskIdToIndex taskId s.taskList.length
    taskExists := Function.update s.taskExists taskId true
    taskList := s.taskList ++ [⟨taskId, agent, category, locationZone, reward, now, true⟩]
    openTaskCount := s.openTaskCount + 1 }

def closeTask (sender : Address) (taskId : Nat) (s : State) : Outcome := do
  onlyAuthorized sender s
  whenNotPaused s
  require (s.taskExists taskId = true) .taskNotFound
  let index := s.taskIdToIndex taskId
  let listing ← orElse .panic s.taskList[index]?
  require (listing.isOpen = true) .taskAlreadyClosed
  let count ← sub .panic s.openTaskCount 1
  return { s with
    taskList := s.taskList.set index { listing with isOpen := false }
    openTaskCount := count }

inductive Op where
  | publishTask (taskId : Nat) (agent : Address) (category locationZone : String) (reward : Nat)
  | closeTask (taskId : Nat)
  | proposeAdmin (newAdmin : Address)
  | acceptAdmin
  | authorizePublisher (publisher : Address)
  | revokePublisher (publisher : Address)
  | pause
  | unpause
  deriving DecidableEq, Repr

def enter (sender : Address) (now : Nat) : Op → State → Outcome
  | .publishTask taskId agent category locationZone reward, s =>
    publishTask sender now taskId agent category locationZone reward s
  | .closeTask taskId, s => closeTask sender taskId s
  | .proposeAdmin newAdmin, s => do
    onlyAdmin sender s
    require (newAdmin ≠ 0) .zeroAddress
    return { s with pendingAdmin := newAdmin }
  | .acceptAdmin, s => do
    require (sender = s.pendingAdmin) .notPendingAdmin
    return { s with admin := s.pendingAdmin, pendingAdmin := 0 }
  | .authorizePublisher publisher, s => do
    onlyAdmin sender s
    require (publisher ≠ 0) .zeroAddress
    return { s with authorizedPublishers := Function.update s.authorizedPublishers publisher true }
  | .revokePublisher publisher, s => do
    onlyAdmin sender s
    return { s with authorizedPublishers := Function.update s.authorizedPublishers publisher false }
  | .pause, s => do
    onlyAdmin sender s
    whenNotPaused s
    return { s with paused := true }
  | .unpause, s => do
    onlyAdmin sender s
    require (s.paused = true) .expectedPause
    return { s with paused := false }

end TaskRegistry
