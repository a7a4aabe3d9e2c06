import BlindMarket.RateLimit.Ideal

/-!
# The budget of a key

What the ideal buckets admit over an interval, and that a refused request is the
same as one that was never made.
-/
namespace RateLimit

open Refill

section Levels

variable {K : Type} {L : Limiter K} {i : Ideal K} {c : Call K} {t : ℚ}

theorem Ideal.level_advance (k : K) :
    (i.advance L t).level k = refill L.capacity L.refillPerMs (i.level k) (t - i.time) := rfl

/-- No level is below zero or above the capacity. -/
def Ideal.Bounded (L : Limiter K) (i : Ideal K) : Prop :=
  ∀ k, 0 ≤ i.level k ∧ i.level k ≤ L.capacity

theorem Ideal.bounded_full (L : Limiter K) (t : ℚ) :
    Ideal.Bounded L ⟨t, fun _ => L.capacity⟩ := fun _ => ⟨L.capacity_nonneg, le_rfl⟩

theorem Ideal.Bounded.advance (h : i.Bounded L) (ht : i.time ≤ t) : (i.advance L t).Bounded L :=
  fun k => ⟨refill_nonneg L.refillPerMs_pos.le L.capacity_nonneg (h k).1 (sub_nonneg.2 ht),
    refill_le_capacity⟩

theorem decision_admitted (tokens : ℚ) :
    (decision L c tokens).admitted = true ↔ cost L c.raw ≤ tokens := by
  rw [decision]
  split
  · rename_i h
    simp [Response.admitted, h]
  · rename_i h
    simp [Response.admitted, not_lt.1 h]

theorem retryAfter_enough (need tokens : ℚ) :
    need ≤ tokens + (retryAfter L need tokens : ℚ) * 1000 * L.refillPerMs := by
  have hpos := L.refillPerMs_pos
  have hceil : (need - tokens) / L.refillPerMs / 1000 ≤ (retryAfter L need tokens : ℚ) := by
    have hle : ⌈(need - tokens) / L.refillPerMs / 1000⌉ ≤ retryAfter L need tokens :=
      le_max_right _ _
    exact (Int.le_ceil _).trans (by exact_mod_cast hle)
  rw [div_le_iff₀ (by norm_num), div_le_iff₀ hpos] at hceil
  linarith

end Levels

variable {K : Type} [DecidableEq K] {L : Limiter K} {i : Ideal K} {c : Call K}
  {calls : List (Call K)} {id : K} {t since till : ℚ}

/-! ### One request -/

@[simp] theorem Ideal.time_respond : (i.respond L c).2.time = c.now := rfl

theorem Ideal.admitted_respond :
    (i.respond L c).1.admitted = true ↔ cost L c.raw ≤ (i.advance L c.now).level c.id :=
  decision_admitted _

/-- A refused request leaves every key what it holds. -/
theorem Ideal.respond_refused (h : (i.respond L c).1.admitted = false) :
    (i.respond L c).2 = i.advance L c.now := by
  have hlt : (i.advance L c.now).level c.id < cost L c.raw := by
    rw [← not_le, ← Ideal.admitted_respond, h]
    simp
  simp [Ideal.respond, left, hlt]

theorem Ideal.level_respond_ne {k : K} (h : k ≠ c.id) :
    (i.respond L c).2.level k = (i.advance L c.now).level k := by
  simp [Ideal.respond, h]

/-- A key that a request spends nothing of only refills. -/
theorem Ideal.level_respond_unspent (id : K) (h : c.id = id → (i.respond L c).1.admitted = false) :
    (i.respond L c).2.level id = (i.advance L c.now).level id := by
  by_cases hid : c.id = id
  · rw [Ideal.respond_refused (h hid)]
  · exact Ideal.level_respond_ne (Ne.symm hid)

theorem Ideal.level_respond_admitted (h : (i.respond L c).1.admitted = true) :
    (i.respond L c).2.level c.id = (i.advance L c.now).level c.id - cost L c.raw := by
  have hle := Ideal.admitted_respond.1 h
  simp [Ideal.respond, left, not_lt.2 hle]

/-- The levels may be brought up to date at any time before the next request. -/
theorem Ideal.outcomes_advance (hnow : ∀ c ∈ calls, t ≤ c.now) :
    (i.advance L t).outcomes L calls = i.outcomes L calls := by
  cases calls with
  | nil => rfl
  | cons c calls =>
    have hc : t ≤ c.now := hnow c (by simp)
    have hadvance : (i.advance L t).advance L c.now = i.advance L c.now := by
      simp only [Ideal.advance, Ideal.mk.injEq, true_and]
      funext k
      rw [refill_refill L.refillPerMs_pos.le (sub_nonneg.2 hc)]
      congr 1
      ring
    have hrespond : (i.advance L t).respond L c = i.respond L c := by
      simp only [Ideal.respond, hadvance]
    rw [Ideal.outcomes, Ideal.outcomes, hrespond]

/-! ### Over an interval -/

theorem Ideal.Bounded.respond (h : i.Bounded L) (ht : i.time ≤ c.now) :
    (i.respond L c).2.Bounded L := by
  have hnew := h.advance ht
  intro k
  by_cases hk : k = c.id
  · subst hk
    cases hadm : (i.respond L c).1.admitted with
    | false =>
      rw [Ideal.respond_refused hadm]
      exact hnew _
    | true =>
      have hle := Ideal.admitted_respond.1 hadm
      have hcost := cost_nonneg L c.raw
      rw [Ideal.level_respond_admitted hadm]
      exact ⟨sub_nonneg.2 hle, by linarith [(hnew c.id).2]⟩
  · rw [Ideal.level_respond_ne hk]
    exact hnew k

theorem admittedCost_cons (d : Call K × Response) (decisions : List (Call K × Response)) :
    admittedCost L id since till (d :: decisions) =
      (if d.1.id = id ∧ since ≤ d.1.now ∧ d.1.now ≤ till ∧ d.2.admitted then cost L d.1.raw else 0) +
        admittedCost L id since till decisions := by
  by_cases h : d.1.id = id ∧ since ≤ d.1.now ∧ d.1.now ≤ till ∧ d.2.admitted <;>
    simp [admittedCost, h]

theorem admittedCost_late (h : ∀ c ∈ calls, till < c.now) :
    admittedCost L id since till (i.outcomes L calls) = 0 := by
  induction calls generalizing i with
  | nil => rfl
  | cons c calls ih =>
    have hc : ¬c.now ≤ till := not_le.2 (h c (by simp))
    rw [Ideal.outcomes, admittedCost_cons, ih fun c' hc' => h c' (by simp [hc'])]
    simp [hc]

/-- From now on a key is admitted for what it holds and what it gains. -/
theorem admittedCost_le_level (id : K) (since : ℚ) (hb : i.Bounded L) (horder : InOrder calls)
    (hnow : ∀ c ∈ calls, i.time ≤ c.now) (ht : i.time ≤ till) :
    admittedCost L id since till (i.outcomes L calls) ≤
      i.level id + (till - i.time) * L.refillPerMs := by
  induction calls generalizing i with
  | nil =>
    have hgain : 0 ≤ (till - i.time) * L.refillPerMs :=
      mul_nonneg (sub_nonneg.2 ht) L.refillPerMs_pos.le
    simpa [Ideal.outcomes, admittedCost] using add_nonneg (hb id).1 hgain
  | cons c calls ih =>
    have hcalls := List.pairwise_cons.1 horder
    have hc : i.time ≤ c.now := hnow c (by simp)
    by_cases hlate : till < c.now
    · have hall : ∀ c' ∈ c :: calls, till < c'.now := by
        intro c' hc'
        rcases List.mem_cons.1 hc' with rfl | hc'
        · exact hlate
        · exact lt_of_lt_of_le hlate (hcalls.1 c' hc')
      have hgain : 0 ≤ (till - i.time) * L.refillPerMs :=
        mul_nonneg (sub_nonneg.2 ht) L.refillPerMs_pos.le
      rw [admittedCost_late hall]
      exact add_nonneg (hb id).1 hgain
    · have hrest := ih (hb.respond hc) hcalls.2 hcalls.1 (not_lt.1 hlate)
      have hgain : (i.advance L c.now).level id ≤ i.level id + (c.now - i.time) * L.refillPerMs :=
        refill_le
      have hspent : (if c.id = id ∧ since ≤ c.now ∧ c.now ≤ till ∧ (i.respond L c).1.admitted = true
          then cost L c.raw else 0) + (i.respond L c).2.level id ≤
            (i.advance L c.now).level id := by
        have hcost := cost_nonneg L c.raw
        by_cases hadm : c.id = id ∧ (i.respond L c).1.admitted = true
        · obtain ⟨rfl, hadm⟩ := hadm
          rw [Ideal.level_respond_admitted hadm]
          split <;> linarith
        · rw [Ideal.level_respond_unspent id fun hid => by simpa [hid] using hadm,
            if_neg fun h => hadm ⟨h.1, h.2.2.2⟩, zero_add]
      rw [Ideal.outcomes, admittedCost_cons]
      rw [Ideal.time_respond] at hrest
      have hsplit : (till - i.time) * L.refillPerMs =
          (till - c.now) * L.refillPerMs + (c.now - i.time) * L.refillPerMs := by ring
      linarith

/-- Over an interval a key is admitted for a full bucket and what it gains. -/
theorem admittedCost_le (hb : i.Bounded L) (horder : InOrder calls)
    (hnow : ∀ c ∈ calls, i.time ≤ c.now) (ht : since ≤ till) :
    admittedCost L id since till (i.outcomes L calls) ≤
      L.capacity + (till - since) * L.refillPerMs := by
  induction calls generalizing i with
  | nil =>
    have hgain : 0 ≤ (till - since) * L.refillPerMs :=
      mul_nonneg (sub_nonneg.2 ht) L.refillPerMs_pos.le
    simpa [Ideal.outcomes, admittedCost] using add_nonneg L.capacity_nonneg hgain
  | cons c calls ih =>
    have hcalls := List.pairwise_cons.1 horder
    have hc : i.time ≤ c.now := hnow c (by simp)
    by_cases hearly : c.now < since
    · have hrest := ih (hb.respond hc) hcalls.2 hcalls.1
      rw [Ideal.outcomes, admittedCost_cons, if_neg fun h => absurd h.2.1 (not_le.2 hearly), zero_add]
      exact hrest
    · by_cases hlate : till < c.now
      · have hall : ∀ c' ∈ c :: calls, till < c'.now := by
          intro c' hc'
          rcases List.mem_cons.1 hc' with rfl | hc'
          · exact hlate
          · exact lt_of_lt_of_le hlate (hcalls.1 c' hc')
        have hgain : 0 ≤ (till - since) * L.refillPerMs :=
          mul_nonneg (sub_nonneg.2 ht) L.refillPerMs_pos.le
        rw [admittedCost_late hall]
        exact add_nonneg L.capacity_nonneg hgain
      · have hsame : (i.advance L c.now).outcomes L (c :: calls) = i.outcomes L (c :: calls) := by
          refine Ideal.outcomes_advance fun c' hc' => ?_
          rcases List.mem_cons.1 hc' with rfl | hc'
          · exact le_rfl
          · exact hcalls.1 c' hc'
        have hbound := admittedCost_le_level id since (hb.advance hc) horder
          (by
            intro c' hc'
            rcases List.mem_cons.1 hc' with rfl | hc'
            · exact le_rfl
            · exact hcalls.1 c' hc') (not_lt.1 hlate)
        rw [hsame] at hbound
        have hlevel : (i.advance L c.now).level id ≤ L.capacity := refill_le_capacity
        have hgain : (till - (i.advance L c.now).time) * L.refillPerMs ≤
            (till - since) * L.refillPerMs :=
          mul_le_mul_of_nonneg_right (sub_le_sub_left (not_lt.1 hearly) till) L.refillPerMs_pos.le
        linarith

/-! ### Refused requests -/

/-- The decisions without a refused request are the other ones. -/
theorem Ideal.outcomes_eraseIdx (horder : InOrder calls) (hnow : ∀ c ∈ calls, i.time ≤ c.now)
    {n : Nat} {d : Call K × Response} (hd : (i.outcomes L calls)[n]? = some d)
    (hrefused : d.2.admitted = false) :
    i.outcomes L (calls.eraseIdx n) = (i.outcomes L calls).eraseIdx n := by
  induction calls generalizing i n with
  | nil => simp [Ideal.outcomes] at hd
  | cons c calls ih =>
    have hcalls := List.pairwise_cons.1 horder
    cases n with
    | zero =>
      obtain rfl : (c, (i.respond L c).1) = d := by simpa [Ideal.outcomes] using hd
      rw [Ideal.outcomes, List.eraseIdx_zero, List.eraseIdx_zero, List.tail_cons, List.tail_cons,
        Ideal.respond_refused hrefused, Ideal.outcomes_advance hcalls.1]
    | succ n =>
      rw [List.eraseIdx_cons_succ, Ideal.outcomes, Ideal.outcomes, List.eraseIdx_cons_succ,
        ih hcalls.2 hcalls.1 (by simpa [Ideal.outcomes] using hd)]

/-- The ideal buckets after a sequence of requests. -/
def Ideal.after (L : Limiter K) (i : Ideal K) (calls : List (Call K)) : Ideal K :=
  calls.foldl (fun i c => (i.respond L c).2) i

theorem Ideal.outcomes_split {earlier later : List (Call K × Response)}
    (h : i.outcomes L calls = earlier ++ later) :
    ∃ a b, calls = a ++ b ∧ i.outcomes L a = earlier ∧ (i.after L a).outcomes L b = later := by
  induction earlier generalizing i calls with
  | nil => exact ⟨[], calls, rfl, rfl, h⟩
  | cons d earlier ih =>
    cases calls with
    | nil => simp [Ideal.outcomes] at h
    | cons c calls =>
      rw [Ideal.outcomes, List.cons_append, List.cons.injEq] at h
      obtain ⟨a, b, rfl, ha, hb⟩ := ih h.2
      exact ⟨c :: a, b, rfl, by rw [Ideal.outcomes, h.1, ha], hb⟩

theorem Ideal.time_after {a b : List (Call K)} (horder : InOrder (a ++ b))
    (hnow : ∀ c ∈ a ++ b, i.time ≤ c.now) : ∀ c ∈ b, (i.after L a).time ≤ c.now := by
  induction a generalizing i with
  | nil => exact hnow
  | cons c a ih =>
    have hcalls := List.pairwise_cons.1 horder
    exact ih hcalls.2 hcalls.1

/-- A key that is spent nothing of only refills until a later request. -/
theorem Ideal.level_unspent {between : List (Call K)} (horder : InOrder between)
    (hnow : ∀ c ∈ between, i.time ≤ c.now) (hlate : ∀ c ∈ between, c.now ≤ t)
    (hunspent : ∀ d ∈ i.outcomes L between, d.1.id = id → d.2.admitted = false) :
    ((i.after L between).advance L t).level id = (i.advance L t).level id := by
  induction between generalizing i with
  | nil => rfl
  | cons c between ih =>
    have hcalls := List.pairwise_cons.1 horder
    have hrest := ih (i := (i.respond L c).2) hcalls.2 hcalls.1
      (fun c' hc' => hlate c' (by simp [hc'])) fun d hd => hunspent d (by simp [Ideal.outcomes, hd])
    have hkept : (i.respond L c).2.level id = (i.advance L c.now).level id :=
      Ideal.level_respond_unspent id (hunspent (c, (i.respond L c).1) (by simp [Ideal.outcomes]))
    refine hrest.trans ?_
    rw [Ideal.level_advance, hkept, Ideal.level_advance, Ideal.level_advance, Ideal.time_respond,
      refill_refill L.refillPerMs_pos.le (sub_nonneg.2 (hlate c (by simp)))]
    congr 1
    ring

/-- After the seconds that its refusal gives, a request of a key that was spent nothing of fits. -/
theorem Ideal.admitted_after {before between later : List (Call K × Response)} {c' : Call K}
    {limit : ℚ} {remaining after : ℤ} {message : String} {answer : Response}
    (horder : InOrder calls) (hnow : ∀ c ∈ calls, i.time ≤ c.now)
    (h : i.outcomes L calls =
      before ++ (c, .rateLimit limit remaining after message) :: (between ++ (c', answer) :: later))
    (hid : c'.id = c.id) (hraw : c'.raw = c.raw) (hwait : c.now + after * 1000 ≤ c'.now)
    (hunspent : ∀ d ∈ between, d.1.id = c.id → d.2.admitted = false) :
    answer.admitted = true := by
  obtain ⟨a, rest, rfl, -, hrest⟩ := Ideal.outcomes_split h
  have htime := Ideal.time_after (L := L) horder hnow
  generalize i.after L a = j at hrest htime
  cases rest with
  | nil => simp [Ideal.outcomes] at hrest
  | cons c₀ rest =>
    simp only [Ideal.outcomes, List.cons.injEq, Prod.mk.injEq] at hrest
    obtain ⟨⟨rfl, hrefused⟩, hlater⟩ := hrest
    obtain ⟨b, rest, rfl, rfl, hlast⟩ := Ideal.outcomes_split hlater
    cases rest with
    | nil => simp [Ideal.outcomes] at hlast
    | cons c₁ rest =>
      simp only [Ideal.outcomes, List.cons.injEq, Prod.mk.injEq] at hlast
      obtain ⟨⟨rfl, rfl⟩, -⟩ := hlast
      have hcalls := List.pairwise_cons.1 (List.pairwise_append.1 horder).2.1
      have hb := List.pairwise_append.1 hcalls.2
      have hadm : (j.respond L c₀).1.admitted = false := by rw [hrefused]; rfl
      have hlevel : (((j.respond L c₀).2.after L b).advance L c₁.now).level c₀.id =
          ((j.respond L c₀).2.advance L c₁.now).level c₀.id :=
        Ideal.level_unspent hb.1 (fun c hc => hcalls.1 c (by simp [hc]))
          (fun c hc => hb.2.2 c hc c₁ (by simp)) hunspent
      have hafter : after = retryAfter L (cost L c₀.raw) ((j.advance L c₀.now).level c₀.id) := by
        have hlt : (j.advance L c₀.now).level c₀.id < cost L c₀.raw := by
          rw [← not_le, ← Ideal.admitted_respond, hadm]
          simp
        have hdecision : (j.respond L c₀).1 = decision L c₀ ((j.advance L c₀.now).level c₀.id) := rfl
        rw [hdecision, decision, if_pos hlt] at hrefused
        simp only [Response.rateLimit.injEq] at hrefused
        exact hrefused.2.2.1.symm
      rw [Ideal.admitted_respond, hid, hraw, hlevel, Ideal.respond_refused hadm, Ideal.level_advance]
      have henough := retryAfter_enough (L := L) (cost L c₀.raw) ((j.advance L c₀.now).level c₀.id)
      rw [← hafter] at henough
      have hgain : (after : ℚ) * 1000 * L.refillPerMs ≤
          (c₁.now - (j.advance L c₀.now).time) * L.refillPerMs :=
        mul_le_mul_of_nonneg_right (le_sub_iff_add_le'.2 hwait) L.refillPerMs_pos.le
      exact le_refill (cost_le L _) (by linarith)

/-! ### The limiter -/

/-- The limiter is a true token bucket as long as the bound on the buckets drops none, in the run
and in the one that it is compared with. -/
theorem true_bucket (L : Limiter K) (created : ℚ) (calls : List (Call K)) (horder : InOrder calls)
    (hroom : EvictsNothing L (sweep L) (start created) calls) :
    (∀ id since till, since ≤ till →
      admittedCost L id since till (outcomes L (sweep L) (start created) calls) ≤
        L.perMinute + L.perMinute * (till - since) / 60000) ∧
    (∀ n d, (outcomes L (sweep L) (start created) calls)[n]? = some d → d.2.admitted = false →
      EvictsNothing L (sweep L) (start created) (calls.eraseIdx n) →
      outcomes L (sweep L) (start created) (calls.eraseIdx n) =
        (outcomes L (sweep L) (start created) calls).eraseIdx n) ∧
    (EvictsNothing L keepAll (start created) calls →
      outcomes L keepAll (start created) calls = outcomes L (sweep L) (start created) calls) ∧
    ∀ before between later c c' limit remaining (after : ℤ) message answer,
      outcomes L (sweep L) (start created) calls =
        before ++ (c, .rateLimit limit remaining after message) ::
          (between ++ (c', answer) :: later) →
      c'.id = c.id → c'.raw = c.raw → c.now + (after : ℚ) * 1000 ≤ c'.now →
      (∀ d ∈ between, d.1.id = c.id → d.2.admitted = false) → answer.admitted = true := by
  obtain ⟨time, htime⟩ : ∃ time, ∀ c ∈ calls, time ≤ c.now := by
    cases calls with
    | nil => exact ⟨0, by simp⟩
    | cons c calls =>
      refine ⟨c.now, fun c' hc' => ?_⟩
      rcases List.mem_cons.1 hc' with rfl | hc'
      · exact le_rfl
      · exact (List.pairwise_cons.1 horder).1 c' hc'
  have hideal := outcomes_eq_ideal faithful_sweep (tracks_start created time) horder htime hroom
  rw [hideal]
  refine ⟨fun id since till ht => ?_, fun n d hd hrefused hroom' => ?_, fun hkeep => ?_, ?_⟩
  · refine (admittedCost_le (Ideal.bounded_full L time) horder htime ht).trans (le_of_eq ?_)
    rw [Limiter.capacity, Limiter.refillPerMs]
    ring
  · have horder' : InOrder (calls.eraseIdx n) := horder.sublist (List.eraseIdx_sublist _ _)
    rw [outcomes_eq_ideal faithful_sweep (tracks_start created time) horder'
      (fun c hc => htime c ((List.eraseIdx_sublist _ _).subset hc)) hroom']
    exact Ideal.outcomes_eraseIdx horder htime hd hrefused
  · exact outcomes_eq_ideal faithful_keepAll (tracks_start created time) horder htime hkeep
  · intro before between later c c' limit remaining after message answer h hid hraw hwait hunspent
    exact Ideal.admitted_after horder htime h hid hraw hwait hunspent

/-- A limiter of 100 a minute that keeps two buckets. -/
def small : Limiter Nat := ⟨100, 2, fun _ _ => "", by norm_num⟩

/-- The second request is refused, and sweeps. -/
def smallCalls : List (Call Nat) :=
  [⟨60000, 0, some 100⟩, ⟨60001, 0, some 100⟩, ⟨80000, 1, some 100⟩, ⟨90000, 0, some 1⟩,
    ⟨121000, 2, some 1⟩, ⟨121000, 1, some 100⟩]

theorem true_bucket_small :
    outcomes small keepAll (start 0) (smallCalls.take 2) =
      outcomes small (sweep small) (start 0) (smallCalls.take 2) :=
  (true_bucket small 0 (smallCalls.take 2) (by decide +kernel) (by decide +kernel)).2.2.1
    (by decide +kernel)

/-- Without the refused request the bound drops a bucket that is not full, and the last request,
refused before, is admitted. -/
theorem true_bucket_fails :
    ¬∀ (L : Limiter Nat) (created : ℚ) (calls : List (Call Nat)), InOrder calls →
      EvictsNothing L (sweep L) (start created) calls →
      ∀ n d, (outcomes L (sweep L) (start created) calls)[n]? = some d → d.2.admitted = false →
        outcomes L (sweep L) (start created) (calls.eraseIdx n) =
          (outcomes L (sweep L) (start created) calls).eraseIdx n := by
  intro h
  have hsame := h small 0 smallCalls (by decide +kernel) (by decide +kernel) 1
    (⟨60001, 0, some 100⟩, .rateLimit 100 0 60 "") (by decide +kernel) (by rfl)
  have hlast := congrArg (fun ds => (ds.map fun d => d.2.admitted)[4]?) hsame
  exact absurd hlast (by decide +kernel)

end RateLimit
