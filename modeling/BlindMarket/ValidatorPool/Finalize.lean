import BlindMarket.ValidatorPool.System

/-!
# What a finalisation does

The loops run over a panel without duplicates, so each of them changes every
panel member once, from what it was before the loop. A finalisation is then one
function of the storage, together with the exact conditions under which it goes
through.
-/
namespace ValidatorPool

open BlindEscrow (Address word)
open Checked TokenLedger

variable {d : Dispute} {winning : Vote} {l : List Address} {locks locks' : Address → Nat}
  {validators validators' : Address → Validator} {n n' reward : Nat} {w w' : World}
  {id : Nat} {calls : Bool}

/-! ## The loops -/

/-- One lock less for every member. -/
def released (l : List Address) (locks : Address → Nat) (a : Address) : Nat :=
  if a ∈ l then locks a - 1 else locks a

@[simp] theorem released_nil (locks : Address → Nat) : released [] locks = locks := by
  funext a
  simp [released]

theorem released_cons {v : Address} (hv : v ∉ l) :
    released l (Function.update locks v (locks v - 1)) = released (v :: l) locks := by
  funext a
  by_cases ha : a = v
  · subst ha
    simp [released, hv]
  · simp [released, ha]

theorem releaseLoop_eq_ok (hl : l.Nodup) : releaseLoop l locks = .ok locks' ↔
    (∀ v ∈ l, 1 ≤ locks v) ∧ locks' = released l locks := by
  induction l generalizing locks with
  | nil => simp [releaseLoop, eq_comm]
  | cons v l ih =>
    obtain ⟨hv, hl⟩ := List.nodup_cons.mp hl
    have hrest : (∀ u ∈ l, 1 ≤ Function.update locks v (locks v - 1) u) ↔ ∀ u ∈ l, 1 ≤ locks u :=
      forall₂_congr fun u hu => by rw [Function.update_of_ne (ne_of_mem_of_not_mem hu hv)]
    simp only [releaseLoop, seq_eq_ok, sub_eq_ok, List.forall_mem_cons]
    constructor
    · rintro ⟨lock, ⟨hpos, rfl⟩, h⟩
      obtain ⟨hall, rfl⟩ := (ih hl).mp h
      exact ⟨⟨hpos, hrest.mp hall⟩, released_cons hv⟩
    · rintro ⟨⟨hpos, hall⟩, rfl⟩
      exact ⟨_, ⟨hpos, rfl⟩, (ih hl).mpr ⟨hrest.mpr hall, (released_cons hv).symm⟩⟩

/-- What a losing validator loses. -/
def Validator.cut (v : Validator) : Nat := v.stake * SLASH_BPS / 10000

theorem Validator.cut_le (v : Validator) : v.cut ≤ v.stake := by
  unfold Validator.cut
  apply Nat.div_le_of_le_mul
  rw [Nat.mul_comm]
  exact Nat.mul_le_mul_right _ (by decide)

/-- The members that did not cast the winning vote lose their cut. -/
def slashed (d : Dispute) (winning : Vote) (l : List Address)
    (validators : Address → Validator) (a : Address) : Validator :=
  if a ∈ l ∧ d.votes a ≠ winning then
    { validators a with stake := (validators a).stake - (validators a).cut }
  else validators a

@[simp] theorem slashed_nil (validators : Address → Validator) :
    slashed d winning [] validators = validators := by
  funext a
  simp [slashed]

/-- The sum of the cuts. -/
def lost (d : Dispute) (winning : Vote) (l : List Address)
    (validators : Address → Validator) : Nat :=
  ((l.filter fun a => d.votes a ≠ winning).map fun a => (validators a).cut).sum

theorem lost_congr (h : ∀ a ∈ l, validators a = validators' a) :
    lost d winning l validators = lost d winning l validators' := by
  have hcuts : ∀ a ∈ l.filter fun a => d.votes a ≠ winning,
      (validators a).cut = (validators' a).cut :=
    fun a ha => congrArg Validator.cut (h a (List.mem_filter.mp ha).1)
  exact congrArg List.sum (List.map_congr_left hcuts)

theorem slashLoop_eq_ok (hl : l.Nodup) (hn : n < word) :
    slashLoop d winning l n validators = .ok (n', validators') ↔
      (∀ v ∈ l, d.votes v ≠ winning → (validators v).stake * SLASH_BPS < word) ∧
      n + lost d winning l validators < word ∧
      n' = n + lost d winning l validators ∧
      validators' = slashed d winning l validators := by
  induction l generalizing n validators with
  | nil =>
    simp only [slashLoop, pure_eq, Except.ok.injEq, Prod.mk.injEq, slashed_nil]
    simp [lost, hn, eq_comm]
  | cons v l ih =>
    obtain ⟨hv, hl⟩ := List.nodup_cons.mp hl
    by_cases hwon : d.votes v = winning
    · -- a winner is left alone
      have hlost : lost d winning (v :: l) validators = lost d winning l validators := by
        simp [lost, hwon]
      have hslashed : slashed d winning (v :: l) validators =
          slashed d winning l validators := by
        funext a
        by_cases ha : a = v
        · subst ha
          simp [slashed, hwon]
        · simp [slashed, ha]
      rw [hlost, hslashed]
      simp only [slashLoop, hwon, ne_eq, not_true_eq_false, ↓reduceIte, ih hl hn]
      simp [hwon]
    · -- a loser is slashed, the others are as before
      let vs := Function.update validators v
        { validators v with stake := (validators v).stake - (validators v).cut }
      have hsame : ∀ u ∈ l, vs u = validators u :=
        fun u hu => Function.update_of_ne (ne_of_mem_of_not_mem hu hv) _ _
      have hlost : lost d winning (v :: l) validators =
          (validators v).cut + lost d winning l validators := by
        simp [lost, hwon]
      have hslashed : slashed d winning l vs = slashed d winning (v :: l) validators := by
        funext a
        by_cases ha : a = v
        · subst ha
          simp [slashed, hv, hwon, vs]
        · simp [slashed, ha, vs]
      have hbound : (∀ u ∈ l, d.votes u ≠ winning → (vs u).stake * SLASH_BPS < word) ↔
          ∀ u ∈ l, d.votes u ≠ winning → (validators u).stake * SLASH_BPS < word :=
        forall₂_congr fun u hu => by rw [hsame u hu]
      rw [hlost, ← hslashed, ← lost_congr hsame]
      simp only [slashLoop, hwon, ne_eq, not_false_eq_true, ↓reduceIte, seq_eq_ok, mul_eq_ok,
        sub_eq_ok, add_eq_ok, List.forall_mem_cons, forall_const]
      constructor
      · rintro ⟨product, ⟨hproduct, rfl⟩, stake, ⟨-, rfl⟩, pool, ⟨hpool, rfl⟩, h⟩
        obtain ⟨hall, hsum, rfl, rfl⟩ := (ih hl hpool).mp h
        have hassoc : n + (validators v).stake * SLASH_BPS / 10000 + lost d winning l vs =
            n + ((validators v).cut + lost d winning l vs) := Nat.add_assoc _ _ _
        exact ⟨⟨hproduct, hbound.mp hall⟩, hassoc ▸ hsum, hassoc, rfl⟩
      · rintro ⟨⟨hproduct, hall⟩, hsum, rfl, rfl⟩
        have hpool : n + (validators v).cut < word := by omega
        refine ⟨_, ⟨hproduct, rfl⟩, _, ⟨(validators v).cut_le, rfl⟩, _, ⟨hpool, rfl⟩, ?_⟩
        exact (ih hl hpool).mpr ⟨hbound.mpr hall, by rw [Nat.add_assoc]; exact hsum,
          (Nat.add_assoc _ _ _).symm, rfl⟩

/-- Every member's participation is counted, and the winners get the reward. -/
def rewarded (d : Dispute) (winning : Vote) (reward : Nat) (l : List Address)
    (validators : Address → Validator) (a : Address) : Validator :=
  if a ∈ l then
    if d.votes a = winning then
      { validators a with
        stake := (validators a).stake + reward
        totalVotes := (validators a).totalVotes + 1
        correctVotes := (validators a).correctVotes + 1 }
    else { validators a with totalVotes := (validators a).totalVotes + 1 }
  else validators a

@[simp] theorem rewarded_nil (validators : Address → Validator) :
    rewarded d winning reward [] validators = validators := by
  funext a
  simp [rewarded]

theorem rewarded_cons {v : Address} (hv : v ∉ l) :
    rewarded d winning reward l (Function.update validators v
        (rewarded d winning reward [v] validators v)) =
      rewarded d winning reward (v :: l) validators := by
  funext a
  by_cases ha : a = v
  · subst ha
    simp [rewarded, hv]
  · simp [rewarded, ha]

theorem rewardLoop_eq_ok (hl : l.Nodup) :
    rewardLoop d winning reward l validators locks = .ok (validators', locks') ↔
      (∀ v ∈ l, d.votes v = winning → 0 < reward →
        (validators v).stake + reward < word) ∧
      (∀ v ∈ l, 1 ≤ locks v) ∧
      validators' = rewarded d winning reward l validators ∧
      locks' = released l locks := by
  induction l generalizing validators locks with
  | nil =>
    simp only [rewardLoop, pure_eq, Except.ok.injEq, Prod.mk.injEq, rewarded_nil, released_nil]
    simp [eq_comm]
  | cons v l ih =>
    obtain ⟨hv, hl⟩ := List.nodup_cons.mp hl
    let vs := Function.update validators v (rewarded d winning reward [v] validators v)
    let ls := Function.update locks v (locks v - 1)
    have hsame : ∀ u ∈ l, vs u = validators u ∧ ls u = locks u := fun u hu =>
      have hne : u ≠ v := ne_of_mem_of_not_mem hu hv
      ⟨Function.update_of_ne hne _ _, Function.update_of_ne hne _ _⟩
    have hbound : (∀ u ∈ l, d.votes u = winning → 0 < reward →
          (vs u).stake + reward < word) ↔ ∀ u ∈ l, d.votes u = winning → 0 < reward →
          (validators u).stake + reward < word :=
      forall₂_congr fun u hu => by rw [(hsame u hu).1]
    have hlocks : (∀ u ∈ l, 1 ≤ ls u) ↔ ∀ u ∈ l, 1 ≤ locks u :=
      forall₂_congr fun u hu => by rw [(hsame u hu).2]
    rw [← rewarded_cons hv, ← released_cons hv]
    have hstep : rewardLoop d winning reward (v :: l) validators locks =
          .ok (validators', locks') ↔
        (d.votes v = winning → 0 < reward → (validators v).stake + reward < word) ∧
        1 ≤ locks v ∧ rewardLoop d winning reward l vs ls = .ok (validators', locks') := by
      by_cases hwon : d.votes v = winning
      · by_cases hr : 0 < reward
        · simp only [rewardLoop, hwon, hr, ↓reduceIte, seq_eq_ok, add_eq_ok, sub_eq_ok, pure_eq,
            Except.ok.injEq, forall_const, vs, ls, rewarded, List.mem_singleton]
          constructor
          · rintro ⟨_, ⟨hsum, rfl⟩, _, rfl, _, ⟨hpos, rfl⟩, h⟩
            exact ⟨hsum, hpos, h⟩
          · rintro ⟨hsum, hpos, h⟩
            exact ⟨_, ⟨hsum, rfl⟩, _, rfl, _, ⟨hpos, rfl⟩, h⟩
        · obtain rfl : reward = 0 := by omega
          simp only [rewardLoop, hwon, lt_irrefl, ↓reduceIte, seq_eq_ok, sub_eq_ok, pure_eq,
            Except.ok.injEq, false_imp_iff, imp_true_iff, true_and, vs, ls, rewarded,
            List.mem_singleton, exists_eq_left', Nat.add_zero]
          constructor
          · rintro ⟨_, ⟨hpos, rfl⟩, h⟩
            exact ⟨hpos, h⟩
          · rintro ⟨hpos, h⟩
            exact ⟨_, ⟨hpos, rfl⟩, h⟩
      · simp only [rewardLoop, hwon, ↓reduceIte, seq_eq_ok, sub_eq_ok, pure_eq, Except.ok.injEq,
          false_imp_iff, true_and, vs, ls, rewarded, List.mem_singleton, exists_eq_left']
        constructor
        · rintro ⟨_, ⟨hpos, rfl⟩, h⟩
          exact ⟨hpos, h⟩
        · rintro ⟨hpos, h⟩
          exact ⟨_, ⟨hpos, rfl⟩, h⟩
    rw [hstep, ih hl, hbound, hlocks, List.forall_mem_cons, List.forall_mem_cons]
    tauto

/-! ## The whole finalisation -/

/-- Enough votes for a decision. -/
def Dispute.Decided (d : Dispute) : Prop := MIN_VOTES ≤ d.workerVotes + d.agentVotes

instance (d : Dispute) : Decidable d.Decided := inferInstanceAs (Decidable (_ ≤ _))

def Dispute.winningVote (d : Dispute) : Vote := if d.agentVotes ≤ d.workerVotes then .worker else .agent

/-- How many cast the winning vote. -/
def Dispute.correctCount (d : Dispute) : Nat :=
  if d.agentVotes ≤ d.workerVotes then d.workerVotes else d.agentVotes

def slashPool (p : Pool) (d : Dispute) : Nat := lost d d.winningVote d.voters p.validators

def Pool.rewardEach (p : Pool) (d : Dispute) : Nat := slashPool p d / d.correctCount

/-- The validators after a decision: the losers slashed, then the winners rewarded. -/
def settled (p : Pool) (d : Dispute) : Address → Validator :=
  rewarded d d.winningVote (p.rewardEach d) d.voters
    (slashed d d.winningVote d.voters p.validators)

/-- The arithmetic of a decision stays in range. -/
structure InRange (p : Pool) (d : Dispute) : Prop where
  cuts : ∀ v ∈ d.voters, d.votes v ≠ d.winningVote → (p.validators v).stake * SLASH_BPS < word
  pool : slashPool p d < word
  rewards : ∀ v ∈ d.voters, d.votes v = d.winningVote → 0 < p.rewardEach d →
    (p.validators v).stake + p.rewardEach d < word

/-- The storage after a finalisation. -/
def finalized (p : Pool) (id : Nat) : Pool :=
  let d := p.disputes id
  if d.Decided then
    { p with
      validators := settled p d
      disputes := Function.update p.disputes id
        { d with finalized := true, workerFavored := decide (d.agentVotes ≤ d.workerVotes) }
      lockedInDisputes := released d.voters p.lockedInDisputes }
  else
    { p with
      disputes := Function.update p.disputes id { d with finalized := true }
      lockedInDisputes := released d.voters p.lockedInDisputes }

theorem Dispute.correctCount_pos (h : d.Decided) : 0 < d.correctCount := by
  unfold Dispute.Decided MIN_VOTES at h
  unfold Dispute.correctCount
  split <;> omega

theorem slashed_winner {v : Address} (h : d.votes v = winning) :
    slashed d winning l validators v = validators v := if_neg fun hl => hl.2 h

/-- When a dispute with a duplicate-free panel can be finalised, and what that does. -/
theorem finalizeDispute_eq_ok (hl : (w.pool.disputes id).voters.Nodup) :
    finalizeDispute id w = .ok (w', calls) ↔
      w.locked = false ∧ (w.pool.disputes id).openedAt ≠ 0 ∧
      (w.pool.disputes id).finalized = false ∧
      (w.pool.disputes id).openedAt + VOTE_WINDOW < w.timestamp ∧
      (∀ v ∈ (w.pool.disputes id).voters, 1 ≤ w.pool.lockedInDisputes v) ∧
      ((w.pool.disputes id).Decided → InRange w.pool (w.pool.disputes id) ∧
        w.hasCode (w.pool.disputes id).escrow = true) ∧
      w' = { w with pool := finalized w.pool id } ∧
      calls = decide (w.pool.disputes id).Decided := by
  generalize hd : w.pool.disputes id = d at *
  simp only [finalizeDispute, nonReentrant, seq_eq_ok, require_eq_ok, exists_const, hd]
  refine and_congr_right fun _ => and_congr_right fun _ => and_congr_right fun _ =>
    and_congr_right fun _ => ?_
  by_cases hdec : d.Decided
  · have hfew : ¬ d.workerVotes + d.agentVotes < MIN_VOTES := not_lt.mpr hdec
    have hpos := Dispute.correctCount_pos hdec
    -- the guarded quotient of the code is the plain one
    have hreward : ∀ n (next : Nat → Except Revert (World × Bool)),
        (if 0 < d.correctCount ∧ 0 < n then
          div Revert.divisionByZero n d.correctCount >>= next else .ok 0 >>= next) =
        next (n / d.correctCount) := by
      intro n next
      by_cases hn : 0 < n
      · rw [if_pos ⟨hpos, hn⟩, div, if_pos hpos.ne', ok_bind]
      · obtain rfl : n = 0 := by omega
        simp
    have hwin : (if decide (d.agentVotes ≤ d.workerVotes) then Vote.worker else Vote.agent) =
        d.winningVote := by simp [Dispute.winningVote]
    have hcorrect : (if decide (d.agentVotes ≤ d.workerVotes) then d.workerVotes
        else d.agentVotes) = d.correctCount := by simp [Dispute.correctCount]
    rw [if_neg hfew]
    simp only [hwin, hcorrect, seq_eq_ok, Prod.exists, hreward,
      slashLoop_eq_ok hl (show 0 < word by decide), rewardLoop_eq_ok hl, require_eq_ok,
      exists_const, pure_eq, Except.ok.injEq, Prod.mk.injEq, Nat.zero_add]
    constructor
    · rintro ⟨n, vs, ⟨hcuts, hpool, rfl, rfl⟩, vs', locks, ⟨hrewards, hlocks, rfl, rfl⟩,
        hcode, rfl, rfl⟩
      refine ⟨hlocks, fun _ => ⟨⟨hcuts, hpool, fun v hv hwon hr => ?_⟩, hcode⟩, ?_, by simp [hdec]⟩
      · have := hrewards v hv hwon hr
        rwa [slashed_winner hwon] at this
      · simp only [finalized, hd, if_pos hdec]
        rfl
    · rintro ⟨hlocks, hrange, rfl, rfl⟩
      obtain ⟨⟨hcuts, hpool, hrewards⟩, hcode⟩ := hrange hdec
      refine ⟨_, _, ⟨hcuts, hpool, rfl, rfl⟩, _, _,
        ⟨fun v hv hwon hr => ?_, hlocks, rfl, rfl⟩, hcode, ?_, by simp [hdec]⟩
      · rw [slashed_winner hwon]
        exact hrewards v hv hwon hr
      · simp only [finalized, hd, if_pos hdec]
        rfl
  · have hfew : d.workerVotes + d.agentVotes < MIN_VOTES := not_le.mp hdec
    rw [if_pos hfew]
    simp only [seq_eq_ok, releaseLoop_eq_ok hl, pure_eq, Except.ok.injEq, Prod.mk.injEq]
    constructor
    · rintro ⟨locks, ⟨hlocks, rfl⟩, rfl, rfl⟩
      exact ⟨hlocks, fun h => absurd h hdec, by simp only [finalized, hd, if_neg hdec],
        by simp [hdec]⟩
    · rintro ⟨hlocks, -, rfl, rfl⟩
      exact ⟨_, ⟨hlocks, rfl⟩, by simp only [finalized, hd, if_neg hdec], by simp [hdec]⟩

end ValidatorPool
