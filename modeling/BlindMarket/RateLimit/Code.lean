import Mathlib

/-!
# createTokenBucket

The limiter of the posting routes, over exact rationals. A JavaScript map keeps
the order of insertion, and is a list of entries here, each key once.
-/
namespace RateLimit

variable {K : Type} [DecidableEq K]

structure Limiter (K : Type) where
  perMinute : ℚ
  maxBuckets : Nat
  /-- The 429 message. -/
  refusal : ℤ → K → String
  one_le : 1 ≤ perMinute

namespace Limiter

variable (L : Limiter K)

def capacity : ℚ := L.perMinute

def refillPerMs : ℚ := L.perMinute / 60000

end Limiter

structure Bucket where
  tokens : ℚ
  usedAt : ℚ
  deriving DecidableEq

structure State (K : Type) where
  buckets : List (K × Bucket)
  lastSweep : ℚ
  nodup : (buckets.map (·.1)).Nodup

/-- What a limiter reads of a request: its key, and its weight if that is a finite number. -/
structure Call (K : Type) where
  now : ℚ
  id : K
  raw : Option ℚ
  deriving DecidableEq

inductive Response where
  | next (limit : ℚ) (remaining : ℤ)
  | rateLimit (limit : ℚ) (remaining retryAfter : ℤ) (message : String)
  deriving DecidableEq

def Response.admitted : Response → Bool
  | .next .. => true
  | .rateLimit .. => false

variable (L : Limiter K)

def State.get (s : State K) (id : K) : Option Bucket :=
  (s.buckets.find? fun entry => entry.1 = id).map (·.2)

/-- A key used last, before the least recently used are dropped. -/
def State.inserted (s : State K) (id : K) (bucket : Bucket) : List (K × Bucket) :=
  s.buckets.filter (fun entry => entry.1 ≠ id) ++ [(id, bucket)]

theorem State.nodup_inserted (s : State K) (id : K) (bucket : Bucket) :
    ((s.inserted id bucket).map (·.1)).Nodup := by
  have hold : ((s.buckets.filter fun entry => entry.1 ≠ id).map (·.1)).Nodup :=
    s.nodup.sublist (List.filter_sublist.map _)
  rw [State.inserted, List.map_append]
  refine hold.append (List.nodup_singleton _) ?_
  rintro x hx hid
  obtain ⟨entry, hentry, rfl⟩ := List.mem_map.1 hx
  have hne := (List.mem_filter.1 hentry).2
  simp only [List.map_cons, List.map_nil, List.mem_singleton] at hid
  simp [hid] at hne

def put (id : K) (bucket : Bucket) (s : State K) : State K where
  buckets := (s.inserted id bucket).drop ((s.inserted id bucket).length - L.maxBuckets)
  lastSweep := s.lastSweep
  nodup := (s.nodup_inserted id bucket).sublist ((List.drop_sublist _ _).map _)

def sweep (now : ℚ) (s : State K) : State K :=
  if now - s.lastSweep > 60000 then
    { buckets := s.buckets.filter fun entry =>
        ¬ entry.2.tokens + (now - entry.2.usedAt) * L.refillPerMs ≥ L.capacity
      lastSweep := now
      nodup := s.nodup.sublist (List.filter_sublist.map _) }
  else s

/-- A minute sweep that drops no bucket. -/
def keepAll (now : ℚ) (s : State K) : State K :=
  if now - s.lastSweep > 60000 then { s with lastSweep := now } else s

def cost (raw : Option ℚ) : ℚ :=
  min L.capacity (max 1 (match raw with | some weight => ⌊weight⌋ | none => 1))

/-- What a key's bucket holds at `now`. -/
def tokens (s : State K) (id : K) (now : ℚ) : ℚ :=
  match s.get id with
  | some bucket => min L.capacity (bucket.tokens + (now - bucket.usedAt) * L.refillPerMs)
  | none => L.capacity

def retryAfter (cost tokens : ℚ) : ℤ := max 1 ⌈(cost - tokens) / L.refillPerMs / 1000⌉

/-- A request once the sweep is done. -/
def respond (c : Call K) (s : State K) : Response × State K :=
  let cost := cost L c.raw
  let tokens := tokens L s c.id c.now
  if tokens < cost then
    let after := retryAfter L cost tokens
    (.rateLimit L.capacity ⌊tokens⌋ after (L.refusal after c.id),
      put L c.id ⟨tokens, c.now⟩ s)
  else (.next L.capacity ⌊tokens - cost⌋, put L c.id ⟨tokens - cost, c.now⟩ s)

/-- A limiter at its creation. -/
def start (created : ℚ) : State K := ⟨[], created, List.nodup_nil⟩

/-- The handler of the limiter with a minute sweep of its own. -/
def handleWith (sweep : ℚ → State K → State K) (c : Call K) (s : State K) : Response × State K :=
  respond L c (sweep c.now s)

/-- The decisions on a sequence of requests: `sweep L` is the limiter's own minute sweep. -/
def outcomes (sweep : ℚ → State K → State K) :
    State K → List (Call K) → List (Call K × Response)
  | _, [] => []
  | s, c :: calls =>
    (c, (handleWith L sweep c s).1) :: outcomes sweep (handleWith L sweep c s).2 calls

/-- At no request of the sequence does the bound on the buckets drop one. -/
def EvictsNothing (sweep : ℚ → State K → State K) : State K → List (Call K) → Prop
  | _, [] => True
  | s, c :: calls =>
    ((sweep c.now s).buckets.filter fun entry => entry.1 ≠ c.id).length + 1 ≤ L.maxBuckets ∧
      EvictsNothing sweep (handleWith L sweep c s).2 calls

instance (sweep : ℚ → State K → State K) (s : State K) (calls : List (Call K)) :
    Decidable (EvictsNothing L sweep s calls) := by
  induction calls generalizing s with
  | nil => exact isTrue trivial
  | cons c calls ih => exact @instDecidableAnd _ _ _ (ih _)

/-- Requests at non-decreasing clock times. -/
def InOrder (calls : List (Call K)) : Prop := calls.Pairwise fun c c' => c.now ≤ c'.now

instance (calls : List (Call K)) : Decidable (InOrder calls) :=
  inferInstanceAs (Decidable (calls.Pairwise _))

/-- What a key is admitted for from one time to another. -/
def admittedCost (id : K) (since till : ℚ) (decisions : List (Call K × Response)) : ℚ :=
  ((decisions.filter fun d =>
    d.1.id = id ∧ since ≤ d.1.now ∧ d.1.now ≤ till ∧ d.2.admitted).map
      fun d => cost L d.1.raw).sum

end RateLimit
