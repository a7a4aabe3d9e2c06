import BlindMarket.Support.Refill
import BlindMarket.RateLimit.Code

/-!
# The ideal bucket

One level a key that refills all the time, with no map behind it. As long as the
bound on the buckets drops none, the limiter decides as the ideal buckets do,
whether or not its sweep drops the full ones.
-/
namespace RateLimit

open Refill

section Levels

variable {K : Type} {t t' : ℚ}

theorem Limiter.refillPerMs_pos (L : Limiter K) : 0 < L.refillPerMs := by
  have hL := L.one_le
  rw [Limiter.refillPerMs]
  linarith

theorem Limiter.capacity_nonneg (L : Limiter K) : 0 ≤ L.capacity := by
  have hL := L.one_le
  rw [Limiter.capacity]
  linarith

theorem cost_le (L : Limiter K) (raw : Option ℚ) : cost L raw ≤ L.capacity := min_le_left _ _

theorem cost_nonneg (L : Limiter K) (raw : Option ℚ) : 0 ≤ cost L raw :=
  le_min L.capacity_nonneg (le_trans zero_le_one (le_max_left _ _))

/-! ### What a bucket holds -/

def held (L : Limiter K) (bucket : Option Bucket) (t : ℚ) : ℚ :=
  match bucket with
  | some bucket => refill L.capacity L.refillPerMs bucket.tokens (t - bucket.usedAt)
  | none => L.capacity

/-- A bucket read later holds what it held before and what it gained since. -/
theorem held_later (L : Limiter K) (bucket : Option Bucket) (h : t ≤ t') :
    held L bucket t' = refill L.capacity L.refillPerMs (held L bucket t) (t' - t) := by
  have hd : 0 ≤ t' - t := sub_nonneg.2 h
  cases bucket with
  | none =>
    have hgrow : 0 ≤ (t' - t) * L.refillPerMs := mul_nonneg hd L.refillPerMs_pos.le
    have hfull : L.capacity ≤ L.capacity + (t' - t) * L.refillPerMs := by linarith
    exact (refill_of_full hfull).symm
  | some bucket =>
    simp only [held]
    rw [refill_refill L.refillPerMs_pos.le hd]
    congr 1
    ring

end Levels

variable {K : Type} [DecidableEq K] {L : Limiter K} {s : State K} {id k : K} {now t t' : ℚ}
  {bucket : Bucket}

theorem tokens_eq (L : Limiter K) (s : State K) (id : K) (t : ℚ) :
    tokens L s id t = held L (s.get id) t := by
  rw [tokens]
  cases s.get id <;> rfl

/-- A key's entry in a part of a map. -/
theorem find_filter {buckets : List (K × Bucket)} (h : (buckets.map (·.1)).Nodup)
    (p : K × Bucket → Bool) (id : K) :
    ((buckets.filter p).find? fun entry => entry.1 = id) =
      (buckets.find? fun entry => entry.1 = id).filter p := by
  induction buckets with
  | nil => rfl
  | cons entry buckets ih =>
    rw [List.map_cons, List.nodup_cons] at h
    have ih := ih h.2
    by_cases hid : entry.1 = id
    · have hnone : (buckets.find? fun entry => entry.1 = id) = none := by
        refine List.find?_eq_none.2 fun other hother => ?_
        have hne : other.1 ≠ entry.1 := fun heq => h.1 (heq ▸ List.mem_map_of_mem hother)
        simpa [← hid] using hne
      rw [List.find?_cons_of_pos (by simpa using hid)]
      cases hp : p entry with
      | true =>
        rw [List.filter_cons_of_pos hp, List.find?_cons_of_pos (by simpa using hid),
          Option.filter_some_pos hp]
      | false =>
        rw [List.filter_cons_of_neg (by simp [hp]), ih, hnone, Option.filter_some_neg (by simp [hp])]
        rfl
    · rw [List.find?_cons_of_neg (by simpa using hid), ← ih]
      cases hp : p entry with
      | true =>
        rw [List.filter_cons_of_pos hp, List.find?_cons_of_neg (by simpa using hid)]
      | false => rw [List.filter_cons_of_neg (by simp [hp])]

/-- A bucket that the sweep drops is full, and so is an absent one. -/
theorem held_sweep (L : Limiter K) (s : State K) (id : K) (h : now ≤ t) :
    held L ((sweep L now s).get id) t = held L (s.get id) t := by
  rw [sweep]
  split
  · rw [State.get, find_filter s.nodup, State.get]
    cases s.buckets.find? fun entry => entry.1 = id with
    | none => rfl
    | some entry =>
      by_cases hfull : entry.2.tokens + (now - entry.2.usedAt) * L.refillPerMs ≥ L.capacity
      · rw [Option.filter_some_neg (by simpa using hfull)]
        have hgrow : (now - entry.2.usedAt) * L.refillPerMs ≤
            (t - entry.2.usedAt) * L.refillPerMs :=
          mul_le_mul_of_nonneg_right (by linarith) L.refillPerMs_pos.le
        have hlater : L.capacity ≤ entry.2.tokens + (t - entry.2.usedAt) * L.refillPerMs := by
          linarith
        exact (refill_of_full hlater).symm
      · rw [Option.filter_some_pos (by simpa using hfull)]
  · rfl

theorem get_put (h : (s.inserted id bucket).length ≤ L.maxBuckets) :
    (put L id bucket s).get k = if k = id then some bucket else s.get k := by
  have hall : (put L id bucket s).buckets = s.inserted id bucket := by
    simp only [put, Nat.sub_eq_zero_of_le h, List.drop_zero]
  rw [State.get, hall, State.inserted, List.find?_append, find_filter s.nodup, State.get]
  by_cases hk : k = id
  · have hnone : ((s.buckets.find? fun entry => entry.1 = k).filter fun entry => entry.1 ≠ id) =
        none := by
      cases hfind : s.buckets.find? fun entry => entry.1 = k with
      | none => rfl
      | some entry =>
        have hentry : entry.1 = k := by simpa using List.find?_some hfind
        simp [hentry, hk]
    rw [hnone, if_pos hk]
    simp [hk]
  · rw [if_neg hk]
    cases hfind : s.buckets.find? fun entry => entry.1 = k with
    | none => simp [Ne.symm hk]
    | some entry =>
      have hentry : entry.1 = k := by simpa using List.find?_some hfind
      rw [Option.filter_some_pos (by simpa [hentry] using hk), Option.some_or]

/-- A minute sweep that leaves every key what it holds. -/
def Faithful (L : Limiter K) (sweep : ℚ → State K → State K) : Prop :=
  ∀ s id now t, now ≤ t → held L ((sweep now s).get id) t = held L (s.get id) t

theorem faithful_sweep : Faithful L (sweep L) := fun s id _ _ h => held_sweep L s id h

theorem faithful_keepAll : Faithful L keepAll := by
  intro s id now t _
  rw [keepAll]
  split <;> rfl

/-! ### The ideal buckets -/

/-- What every key holds at a time. -/
structure Ideal (K : Type) where
  time : ℚ
  level : K → ℚ

variable {i : Ideal K} {c : Call K} {calls : List (Call K)}

def Ideal.advance (L : Limiter K) (now : ℚ) (i : Ideal K) : Ideal K where
  time := now
  level := fun k => refill L.capacity L.refillPerMs (i.level k) (now - i.time)

/-- The decision on a request whose key holds `tokens`. -/
def decision (L : Limiter K) (c : Call K) (tokens : ℚ) : Response :=
  if tokens < cost L c.raw then
    .rateLimit L.capacity ⌊tokens⌋ (retryAfter L (cost L c.raw) tokens)
      (L.refusal (retryAfter L (cost L c.raw) tokens) c.id)
  else .next L.capacity ⌊tokens - cost L c.raw⌋

/-- What a request leaves its key. -/
def left (L : Limiter K) (c : Call K) (tokens : ℚ) : ℚ :=
  if tokens < cost L c.raw then tokens else tokens - cost L c.raw

def Ideal.respond (L : Limiter K) (c : Call K) (i : Ideal K) : Response × Ideal K :=
  let i := i.advance L c.now
  (decision L c (i.level c.id), { i with
    level := Function.update i.level c.id (left L c (i.level c.id)) })

def Ideal.outcomes (L : Limiter K) : Ideal K → List (Call K) → List (Call K × Response)
  | _, [] => []
  | i, c :: calls => (c, (i.respond L c).1) :: outcomes L (i.respond L c).2 calls

/-- Every key holds its ideal level. -/
def Tracks (L : Limiter K) (s : State K) (i : Ideal K) : Prop :=
  ∀ k t, i.time ≤ t →
    held L (s.get k) t = refill L.capacity L.refillPerMs (i.level k) (t - i.time)

theorem tracks_start (created time : ℚ) :
    Tracks L (start created) ⟨time, fun _ => L.capacity⟩ := by
  intro k t ht
  exact held_later L none ht

theorem respond_eq (L : Limiter K) (c : Call K) (s : State K) :
    respond L c s = (decision L c (tokens L s c.id c.now),
      put L c.id ⟨left L c (tokens L s c.id c.now), c.now⟩ s) := by
  by_cases h : tokens L s c.id c.now < cost L c.raw <;> simp [respond, decision, left, h]

/-- A request is decided alike, and leaves every key its ideal level. -/
theorem Tracks.handle {sweep : ℚ → State K → State K} (hsweep : Faithful L sweep)
    (h : Tracks L s i) (hnow : i.time ≤ c.now)
    (hroom : ((sweep c.now s).buckets.filter fun entry => entry.1 ≠ c.id).length + 1 ≤
      L.maxBuckets) :
    (handleWith L sweep c s).1 = (i.respond L c).1 ∧
      Tracks L (handleWith L sweep c s).2 (i.respond L c).2 := by
  have htokens : tokens L (sweep c.now s) c.id c.now = (i.advance L c.now).level c.id := by
    rw [tokens_eq, hsweep s c.id c.now c.now le_rfl, h c.id c.now hnow]
    rfl
  rw [handleWith, respond_eq, htokens]
  refine ⟨rfl, fun k t ht => ?_⟩
  have ht : c.now ≤ t := ht
  rw [get_put (by simpa [State.inserted] using hroom)]
  by_cases hk : k = c.id
  · subst hk
    simp [Ideal.respond, Ideal.advance, held]
  · rw [if_neg hk, hsweep s k c.now t ht, held_later L _ ht, h k c.now hnow]
    simp [Ideal.respond, Ideal.advance, hk]

/-- The limiter decides as the ideal buckets do. -/
theorem outcomes_eq_ideal {sweep : ℚ → State K → State K} (hsweep : Faithful L sweep)
    (h : Tracks L s i) (horder : InOrder calls) (hnow : ∀ c ∈ calls, i.time ≤ c.now)
    (hroom : EvictsNothing L sweep s calls) :
    outcomes L sweep s calls = i.outcomes L calls := by
  induction calls generalizing s i with
  | nil => rfl
  | cons c calls ih =>
    obtain ⟨hsame, htracks⟩ := h.handle hsweep (hnow c (by simp)) hroom.1
    have hcalls := List.pairwise_cons.1 horder
    rw [outcomes, Ideal.outcomes, hsame, ih htracks hcalls.2 hcalls.1 hroom.2]

end RateLimit
