import BlindMarket.ArcEvents.Code

/-!
# Ticks of the listener

Ticks overlap: each starts when its time comes, whatever the ones before it
are at. A command may fail, and a checkpoint it was to set may be set or not;
a node may answer with any head. The process may die at any command.
-/
namespace ArcEvents

open Async Prog Runs

inductive Op where
  | pollArcEscrowOnce | forceArcTick
  deriving DecidableEq, Repr

/-- A call and its number. -/
structure Call where
  id : Nat
  op : Op
  deriving DecidableEq, Repr

def Op.prog (cfg : Config) : Op → Listener Unit
  | .pollArcEscrowOnce => ArcEvents.pollArcEscrowOnce cfg
  | .forceArcTick => ArcEvents.forceArcTick cfg

/-- The keys in Redis, and what the process keeps: whether the rulings' checkpoint was seeded, and
which tick is at its follow-ups. -/
structure State where
  checkpoints : Key → Option Int := fun _ => none
  hash2id : Text → Option Nat := fun _ => none
  id2hash : Nat → Option Text := fun _ => none
  seeded : Bool := false
  followUps : Option Call := none
  calls : Nat := 0

def toLowerCase (t : Text) : Text := t.map Char.toLower

def State.setCheckpoint (s : State) (key : Key) (block : Int) : State :=
  { s with checkpoints := Function.update s.checkpoints key (some block) }

/-- The first task of a hash keeps it. -/
def State.indexHash (s : State) (pair : Text × Nat) : State :=
  let hash := toLowerCase pair.1
  { s with
    hash2id := if s.hash2id hash = none then Function.update s.hash2id hash (some pair.2)
      else s.hash2id
    id2hash := Function.update s.id2hash pair.2 (some hash) }

def State.indexHashes (s : State) (pairs : List (Text × Nat)) : State :=
  pairs.foldl State.indexHash s

variable (cfg : Config) (chain : Chain)

def exec (t : Call) (s : State) : (c : Cmd) → Except Failure (Ans c) → State → Prop
  | .backgroundWritesAllowed, r, s' => (∃ b, r = .ok b) ∧ s' = s
  | .checkEscrowFingerprint, r, s' => r = .ok () ∧ s' = s
  | .getBlockNumber, _, s' => s' = s
  | .get key, r, s' => (r = .ok (s.checkpoints key) ∨ ∃ e, r = .error e) ∧ s' = s
  | .set key block, r, s' =>
    (r = .ok () ∧ s' = s.setCheckpoint key block) ∨
      (∃ e, r = .error e) ∧ (s' = s ∨ s' = s.setCheckpoint key block)
  | .setNx key block, r, s' =>
    let set := if s.checkpoints key = none then s.setCheckpoint key block else s
    (r = .ok () ∧ s' = set) ∨ (∃ e, r = .error e) ∧ (s' = s ∨ s' = set)
  | .disputeCheckpointSeeded, r, s' => r = .ok s.seeded ∧ s' = s
  | .seedDisputeCheckpoint, r, s' => r = .ok () ∧ s' = { s with seeded := true }
  | .queryFilter _ filter fromBlock toBlock, r, s' =>
    (r = .ok (chain.queryFilter filter fromBlock toBlock) ∨ ∃ e, r = .error e) ∧ s' = s
  | .indexHashes pairs, r, s' =>
    (r = .ok () ∧ s' = s.indexHashes pairs) ∨
      (∃ e, r = .error e) ∧ ∃ n, s' = s.indexHashes (pairs.take n)
  | .enterFollowUps, r, s' =>
    if s.followUps = none then r = .ok true ∧ s' = { s with followUps := some t }
    else r = .ok false ∧ s' = s
  | .leaveFollowUps, r, s' => r = .ok () ∧ s' = { s with followUps := none }
  | .indexDisputes _, r, s' =>
    r = .ok () ∧ (s' = s ∨ ∃ block, s' = s.setCheckpoint .dispute block)
  | .retryParkedDisputes, r, s' => r = .ok () ∧ s' = s
  | .handleTaskCancelled _, _, s' => s' = s
  | .handleOpenEvent _, _, s' => s' = s
  | .now, r, s' => (∃ n, r = .ok n) ∧ s' = s

def arc : System Ans Failure Unit Call State where
  exec := exec chain
  start _ s t p s' := t.id = s.calls ∧ p = t.op.prog cfg ∧ s' = { s with calls := s.calls + 1 }
  env _ _ := False
  die t s s' :=
    s' = { s with
      seeded := false
      followUps := if s.followUps = some t then none else s.followUps }

abbrev Ev := Event Ans Failure Unit Call State

variable {cfg chain}

@[simp] theorem setCheckpoint_checkpoints (s : State) (key k : Key) (block : Int) :
    (s.setCheckpoint key block).checkpoints k =
      if k = key then some block else s.checkpoints k := by
  simp [State.setCheckpoint, Function.update_apply]

@[simp] theorem setCheckpoint_followUps (s : State) (key : Key) (block : Int) :
    (s.setCheckpoint key block).followUps = s.followUps := rfl

@[simp] theorem setCheckpoint_calls (s : State) (key : Key) (block : Int) :
    (s.setCheckpoint key block).calls = s.calls := rfl

theorem indexHashes_keeps (pairs : List (Text × Nat)) (s : State) :
    (s.indexHashes pairs).checkpoints = s.checkpoints ∧
      (s.indexHashes pairs).followUps = s.followUps ∧ (s.indexHashes pairs).calls = s.calls := by
  induction pairs generalizing s with
  | nil => exact ⟨rfl, rfl, rfl⟩
  | cons pair pairs ih => exact ih (s.indexHash pair)

/-- What a command leaves alone. -/
structure Keeps (c : Cmd) (s s' : State) : Prop where
  calls : s'.calls = s.calls
  followUps : c ≠ .enterFollowUps → c ≠ .leaveFollowUps → s'.followUps = s.followUps
  checkpoints : ∀ key, key ≠ .dispute → (∀ block, c ≠ .set key block) →
    (∀ block, c ≠ .setNx key block) → s'.checkpoints key = s.checkpoints key

theorem Keeps.self (c : Cmd) (s : State) : Keeps c s s := ⟨rfl, fun _ _ => rfl, fun _ _ _ _ => rfl⟩

theorem keeps_setCheckpoint {c : Cmd} (s : State) {key : Key} {block : Int}
    (hc : c = .set key block ∨ c = .setNx key block ∨ key = .dispute) :
    Keeps c s (s.setCheckpoint key block) := by
  refine ⟨rfl, fun _ _ => rfl, fun k hk hset hnx => ?_⟩
  have hne : k ≠ key := by
    rintro rfl
    rcases hc with rfl | rfl | rfl
    · exact hset block rfl
    · exact hnx block rfl
    · exact hk rfl
  simp [hne]

theorem exec_keeps {t : Call} {s s' : State} {c : Cmd} {r : Except Failure (Ans c)}
    (h : exec chain t s c r s') : Keeps c s s' := by
  cases c with
  | getBlockNumber | handleTaskCancelled | handleOpenEvent =>
    cases h
    exact .self _ _
  | set key block =>
    obtain ⟨-, rfl⟩ | ⟨-, rfl | rfl⟩ := h
    · exact keeps_setCheckpoint s (.inl rfl)
    · exact .self _ _
    · exact keeps_setCheckpoint s (.inl rfl)
  | setNx key block =>
    have hset : Keeps (.setNx key block) s
        (if s.checkpoints key = none then s.setCheckpoint key block else s) := by
      split
      · exact keeps_setCheckpoint s (.inr (.inl rfl))
      · exact .self _ _
    obtain ⟨-, rfl⟩ | ⟨-, rfl | rfl⟩ := h
    · exact hset
    · exact .self _ _
    · exact hset
  | seedDisputeCheckpoint =>
    obtain ⟨-, rfl⟩ := h
    exact ⟨rfl, fun _ _ => rfl, fun _ _ _ _ => rfl⟩
  | indexHashes pairs =>
    have hindex : ∀ pairs, Keeps (.indexHashes pairs) s (s.indexHashes pairs) := fun pairs =>
      have h := indexHashes_keeps pairs s
      ⟨h.2.2, fun _ _ => h.2.1, fun key _ _ _ => congrFun h.1 key⟩
    obtain ⟨-, rfl⟩ | ⟨-, n, rfl⟩ := h
    · exact hindex pairs
    · exact ⟨(hindex _).calls, fun _ _ => (hindex _).followUps nofun nofun,
        fun key hkey _ _ => (hindex _).checkpoints key hkey nofun nofun⟩
  | enterFollowUps =>
    simp only [exec] at h
    split at h <;> obtain ⟨-, rfl⟩ := h
    · exact ⟨rfl, fun hc => absurd rfl hc, fun _ _ _ _ => rfl⟩
    · exact .self _ _
  | leaveFollowUps =>
    obtain ⟨-, rfl⟩ := h
    exact ⟨rfl, fun _ hc => absurd rfl hc, fun _ _ _ _ => rfl⟩
  | indexDisputes indexedTo =>
    obtain ⟨-, rfl | ⟨block, rfl⟩⟩ := h
    · exact .self _ _
    · exact keeps_setCheckpoint s (.inr (.inr rfl))
  | _ =>
    obtain ⟨-, rfl⟩ := h
    exact .self _ _

theorem arc_numbered : Numbered (arc cfg chain) Call.id State.calls where
  exec t s c r s' h := (exec_keeps h).calls
  start := by
    rintro tags s t p s' ⟨hid, -, rfl⟩
    exact ⟨hid, rfl⟩
  env _ _ h := h.elim
  die := by
    rintro t s s' rfl
    rfl

end ArcEvents
