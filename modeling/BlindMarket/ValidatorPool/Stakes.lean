import BlindMarket.ValidatorPool.Panels
import BlindMarket.ValidatorPool.Script

/-!
# Stake conservation

A decision moves stake from the losing members of a panel to the winning ones
and drops the remainder of a division; no token moves. So the pool always holds
the stakes, the remainders dropped so far, and whatever others sent to it.
-/
namespace ValidatorPool

open BlindEscrow (Address word)
open Checked Runs TokenLedger Finset

variable {D : Deployment} {c c' c₀ : Config} {e : Event} {tr : Trace} {w w' : World} {p : Pool}
  {d : Dispute} {m : Msg} {id : Nat} {a : Address} {calls : Bool} {s : Finset Address}

/-! ## One decision -/

def losers (d : Dispute) : Finset Address := d.voters.toFinset.filter fun a => d.votes a ≠ d.winningVote

def winners (d : Dispute) : Finset Address := d.voters.toFinset.filter fun a => d.votes a = d.winningVote

theorem slashPool_eq (h : PanelOk d) : slashPool p d = ∑ a ∈ losers d, (p.validators a).cut := by
  have hnodup := h.distinct.filter fun a => decide (d.votes a ≠ d.winningVote)
  rw [slashPool, lost, ← List.sum_toFinset _ hnodup, List.toFinset_filter]
  simp [losers]

theorem correctCount_eq (h : PanelOk d) : d.correctCount = (winners d).card := by
  have hcount : d.correctCount = d.voters.countP fun a => d.votes a = d.winningVote := by
    unfold Dispute.correctCount Dispute.winningVote
    split
    · exact h.worker
    · exact h.agent
  have hnodup := h.distinct.filter fun a => decide (d.votes a = d.winningVote)
  rw [hcount, List.countP_eq_length_filter, ← List.toFinset_card_of_nodup hnodup,
    List.toFinset_filter]
  simp [winners]

/-- What one account gains and loses by a decision. -/
theorem settled_stake (p : Pool) (d : Dispute) (a : Address) :
    (settled p d a).stake + (if a ∈ losers d then (p.validators a).cut else 0) =
      (p.validators a).stake + if a ∈ winners d then p.rewardEach d else 0 := by
  have hcut := (p.validators a).cut_le
  by_cases hmem : a ∈ d.voters
  · by_cases hwon : d.votes a = d.winningVote
    · simp [settled, rewarded, slashed, losers, winners, hmem, hwon]
    · simp only [settled, rewarded, slashed, losers, winners, mem_filter, List.mem_toFinset, hmem,
        hwon, ne_eq, not_false_eq_true, and_self, and_false, ↓reduceIte]
      omega
  · simp [settled, rewarded, slashed, losers, winners, hmem]

/-- A decision keeps the sum of the stakes, up to the remainder of the division. -/
theorem settled_total (h : PanelOk d) (hs : ∀ a ∈ d.voters, a ∈ s) :
    ∑ a ∈ s, (settled p d a).stake + slashPool p d % d.correctCount =
      ∑ a ∈ s, (p.validators a).stake := by
  have hlosers : s ∩ losers d = losers d := inter_eq_right.mpr fun a ha =>
    hs a (List.mem_toFinset.mp (mem_filter.mp ha).1)
  have hwinners : s ∩ winners d = winners d := inter_eq_right.mpr fun a ha =>
    hs a (List.mem_toFinset.mp (mem_filter.mp ha).1)
  have hsum := sum_congr (rfl : s = s) fun a _ => settled_stake p d a
  rw [sum_add_distrib, sum_add_distrib, sum_ite_mem, sum_ite_mem, hlosers, hwinners,
    ← slashPool_eq h, sum_const, smul_eq_mul, ← correctCount_eq h] at hsum
  have hdiv := Nat.div_add_mod (slashPool p d) d.correctCount
  unfold Pool.rewardEach at hsum
  omega

/-! ## The books -/

/-- All the stakes there are; accounts off the list have none. -/
def Pool.totalStake (p : Pool) : Nat := ∑ a ∈ p.validatorList.toFinset, (p.validators a).stake

theorem Sound.unlisted (h : Sound p) (ha : a ∉ p.validatorList) : (p.validators a).stake = 0 := by
  apply h.idle
  by_contra hactive
  exact ha (h.listed a (by simpa using hactive))

/-- One finalisation, decided or not: the stakes lose the dropped remainder. -/
def remainderOf (p : Pool) (id : Nat) : Nat :=
  if (p.disputes id).Decided then slashPool p (p.disputes id) % (p.disputes id).correctCount else 0

theorem finalized_total (h : Sound p) (hnot : (p.disputes id).finalized = false) :
    (finalized p id).totalStake + remainderOf p id = p.totalStake := by
  have hlisted : ∀ a ∈ (p.disputes id).voters, a ∈ p.validatorList.toFinset := fun a ha =>
    List.mem_toFinset.mpr (h.listed a (h.active id a ⟨hnot, ha⟩))
  unfold Pool.totalStake remainderOf
  rw [finalized_list]
  unfold finalized
  by_cases hdec : (p.disputes id).Decided
  · simp only [hdec, ↓reduceIte]
    exact settled_total (h.panel id) hlisted
  · simp only [hdec, ↓reduceIte, Nat.add_zero]

theorem register_total (amount : Nat) (h : Sound p) (hv : (p.validators a).active = false) :
    ({ p with
      validators := Function.update p.validators a ⟨amount, true, 0, 0⟩
      validatorList := p.validatorList ++ [a] } : Pool).totalStake = p.totalStake + amount := by
  have hset : (p.validatorList ++ [a]).toFinset = insert a p.validatorList.toFinset := by
    rw [List.toFinset_append, union_comm]
    rfl
  have hgrow : ∑ b ∈ insert a p.validatorList.toFinset, (p.validators b).stake =
      ∑ b ∈ p.validatorList.toFinset, (p.validators b).stake := by
    refine sum_subset (subset_insert _ _) (fun b hb hout => ?_) |>.symm
    exact h.unlisted fun hmem => hout (List.mem_toFinset.mpr hmem)
  have hupdate := Ledger.sum_update_add (fun b => (p.validators b).stake)
    (insert a p.validatorList.toFinset) (mem_insert_self _ _) amount
  rw [hgrow, h.idle a hv, Nat.add_zero] at hupdate
  unfold Pool.totalStake
  rw [hset, ← hupdate]
  refine sum_congr rfl fun b _ => ?_
  by_cases hba : b = a
  · subst hba
    simp
  · simp [hba]

theorem unstake_total (h : Sound p) (hv : (p.validators a).active = true) :
    ({ p with
      validators := Function.update p.validators a
        { p.validators a with stake := 0, active := false } } : Pool).totalStake +
      (p.validators a).stake = p.totalStake := by
  have hupdate := Ledger.sum_update_add (fun b => (p.validators b).stake)
    p.validatorList.toFinset (List.mem_toFinset.mpr (h.listed a hv)) 0
  unfold Pool.totalStake
  rw [Nat.add_zero] at hupdate
  rw [← hupdate]
  congr 1
  refine sum_congr rfl fun b _ => ?_
  by_cases hba : b = a
  · subst hba
    simp
  · simp [hba]

/-- The stake tokens in the pool. -/
def Deployment.holdings (D : Deployment) (w : World) : Nat := w.ledger.bal D.stakeToken D.self

/-- What a finalisation dropped. -/
def Event.remainder (e : Event) : Nat :=
  match e.kind with
  | .called ⟨_, .finalizeDispute id⟩ => remainderOf e.pre.pool id
  | _ => 0

/-- What others sent to the pool on their own account. -/
def Event.gift (D : Deployment) (e : Event) : Nat :=
  match e.kind with
  | .outside => D.holdings e.post - D.holdings e.pre
  | _ => 0

def remainders (tr : Trace) : Nat := (tr.map Event.remainder).sum

def gifts (D : Deployment) (tr : Trace) : Nat := (tr.map (Event.gift D)).sum

/-- A call changes the holdings as it changes the stakes. -/
theorem Effect.books (h : PoolOk w) (he : Effect D w m w') (hs : Sender D m.sender) :
    D.holdings w' + w.pool.totalStake =
      D.holdings w + w'.pool.totalStake + (Event.mk (.called m) w w').remainder := by
  cases he with
  | register sender amount ledger hl hv hmin hpay =>
    obtain ⟨-, -, hbal, -⟩ := Ledger.transferFrom_eq_some.mp hpay
    have hheld : ledger.bal D.stakeToken D.self = w.ledger.bal D.stakeToken D.self + amount := by
      rw [hbal, Function.update_self, Ledger.shifted_dst _ _ hs.2]
    have htotal := register_total amount h.sound hv
    simp only [Deployment.holdings, Event.remainder, hheld, htotal]
    omega
  | unstake sender ledger hl hv hfree hpay =>
    have hle := (Ledger.move_eq_some.mp hpay).1
    have hheld : ledger.bal D.stakeToken D.self =
        w.ledger.bal D.stakeToken D.self - (w.pool.validators sender).stake := by
      rw [Ledger.move_token hpay, Ledger.shifted_src _ _ (Ne.symm hs.2)]
    have htotal := unstake_total h.sound hv
    dsimp only [Deployment.holdings, Event.remainder] at htotal ⊢
    omega
  | authorize sender escrow allowed => rfl
  | «open» sender taskId token amount => rfl
  | vote sender id voteFor => rfl
  | finalize sender id hl hopen hnot =>
    have htotal := finalized_total h.sound hnot
    simp only [Deployment.holdings, Event.remainder]
    omega

/-- The holdings are the stakes, the remainders and the gifts. -/
def Balanced (D : Deployment) (tr : Trace) (w : World) : Prop :=
  D.holdings w = w.pool.totalStake + remainders tr + gifts D tr

theorem Balanced.step (h : Balanced D tr c.world) (hok : PoolOk c.world) (hs : Step D c e c') :
    Balanced D (e :: tr) c'.world := by
  unfold Balanced remainders gifts at h ⊢
  rw [List.map_cons, List.map_cons, List.sum_cons, List.sum_cons]
  cases hs with
  | call m w calls hsender hb =>
    have hbooks := (hok.called hb).1.books hok hsender
    have hgift : (Event.mk (.called m) c.world w).gift D = 0 := rfl
    dsimp only
    omega
  | ret disputeId waiting => simpa [Event.remainder, Event.gift, Deployment.holdings] using h
  | tick dt => simpa [Event.remainder, Event.gift, Deployment.holdings] using h
  | outside ledger hasCode hle =>
    simp only [Deployment.holdings, Event.remainder, Event.gift] at h ⊢
    omega

theorem PoolRun.balanced (h0 : Initial D c₀) (h : PoolRun D c₀ tr c) :
    PoolOk c.world ∧ Balanced D tr c.world := by
  refine Run.invariant (I := fun tr c => PoolOk c.world ∧ Balanced D tr c.world) h
    ⟨h0.poolOk, ?_⟩ fun tr b e c _ hI hs => ⟨hI.1.step hs, hI.2.step hI.1 hs⟩
  obtain ⟨admin, hpool⟩ := h0.pool
  simp [Balanced, Deployment.holdings, h0.balance, hpool, Pool.totalStake, remainders, gifts]

/-! ## Arithmetic that cannot fail -/

variable {r : Revert} {winning : Vote} {l : List Address} {n reward : Nat}
  {locks : Address → Nat} {validators : Address → Validator}

/-- A cut never exceeds the stake, so the first loop can only overflow. -/
theorem slashLoop_error (h : slashLoop d winning l n validators = .error r) : r = .overflow := by
  induction l generalizing n validators with
  | nil => cases h
  | cons v l ih =>
    unfold slashLoop at h
    split at h
    · simp only [seq_eq_error, mul_eq_error, mul_eq_ok, sub_eq_error, sub_eq_ok, add_eq_error,
        add_eq_ok] at h
      obtain ⟨-, rfl⟩ | ⟨_, ⟨-, rfl⟩, ⟨hlt, -⟩ | ⟨_, -, ⟨-, rfl⟩ | ⟨_, -, h⟩⟩⟩ := h
      · rfl
      · exact absurd (validators v).cut_le (not_le.mpr hlt)
      · rfl
      · exact ih h
    · exact ih h

/-- With a lock for every member, the second loop can only overflow. -/
theorem rewardLoop_error (hl : l.Nodup) (hlocks : ∀ v ∈ l, 1 ≤ locks v)
    (h : rewardLoop d winning reward l validators locks = .error r) : r = .overflow := by
  induction l generalizing validators locks with
  | nil => cases h
  | cons v l ih =>
    obtain ⟨hv, hl⟩ := List.nodup_cons.mp hl
    have hrest : ∀ u ∈ l, 1 ≤ Function.update locks v (locks v - 1) u := fun u hu => by
      rw [Function.update_of_ne (ne_of_mem_of_not_mem hu hv)]
      exact hlocks u (List.mem_cons_of_mem _ hu)
    have hlast : ∀ validator : Validator, (do
        let lock ← sub Revert.underflow (locks v) 1
        rewardLoop d winning reward l
          (Function.update validators v { validator with totalVotes := validator.totalVotes + 1 })
          (Function.update locks v lock)) = .error r → r = .overflow := by
      intro validator h
      rw [seq_eq_error, sub_eq_error] at h
      obtain ⟨hlt, -⟩ | ⟨lock, hlock, h⟩ := h
      · exact absurd (hlocks v List.mem_cons_self) (not_le.mpr hlt)
      · rw [(sub_eq_ok.mp hlock).2] at h
        exact ih hl hrest h
    unfold rewardLoop at h
    split at h
    · split at h
      · obtain h | ⟨stake, -, h⟩ := seq_eq_error.mp h
        · exact (add_eq_error.mp h).2.symm
        · exact hlast _ h
      · exact hlast _ h
    · exact hlast _ h

/-- The shares are added and the locks released without an underflow. -/
theorem finishDispute_error {winning : Vote} {favored : Bool} {n : Nat}
    {validators : Address → Validator} (hl : (w.pool.disputes id).voters.Nodup)
    (hlocks : ∀ v ∈ (w.pool.disputes id).voters, 1 ≤ w.pool.lockedInDisputes v)
    (h : (do
      let (validators, locks) ← rewardLoop (w.pool.disputes id) winning n
        (w.pool.disputes id).voters validators w.pool.lockedInDisputes
      require (w.hasCode (w.pool.disputes id).escrow = true) Revert.noCode
      return ({ w with pool := { w.pool with
        validators
        disputes := Function.update w.pool.disputes id { w.pool.disputes id with
          finalized := true
          workerFavored := favored }
        lockedInDisputes := locks } }, true)) = .error r) :
    r ≠ .underflow ∧ r ≠ .divisionByZero := by
  obtain h | ⟨⟨validators, locks⟩, -, h⟩ := seq_eq_error.mp h
  · simp [rewardLoop_error hl hlocks h]
  · obtain h | ⟨-, -, h⟩ := seq_eq_error.mp h
    · simp [← (require_eq_error.mp h).2]
    · cases h

theorem finalizeDispute_error (hs : Sound w.pool) (h : finalizeDispute id w = .error r) :
    r ≠ .underflow ∧ r ≠ .divisionByZero := by
  have hl := (hs.panel id).distinct
  unfold finalizeDispute nonReentrant at h
  obtain h | ⟨-, -, h⟩ := seq_eq_error.mp h
  · simp [← (require_eq_error.mp h).2]
  dsimp only at h
  obtain h | ⟨-, -, h⟩ := seq_eq_error.mp h
  · simp [← (require_eq_error.mp h).2]
  obtain h | ⟨_, hnot, h⟩ := seq_eq_error.mp h
  · simp [← (require_eq_error.mp h).2]
  obtain h | ⟨-, -, h⟩ := seq_eq_error.mp h
  · simp [← (require_eq_error.mp h).2]
  -- every member of an open panel holds a lock
  have hlocks : ∀ v ∈ (w.pool.disputes id).voters, 1 ≤ w.pool.lockedInDisputes v :=
    fun v hv => hs.locked_pos ⟨require_eq_ok.mp hnot, hv⟩
  split at h
  · obtain h | ⟨locks, -, h⟩ := seq_eq_error.mp h
    · rw [(releaseLoop_eq_ok hl).mpr ⟨hlocks, rfl⟩] at h
      cases h
    · cases h
  · generalize (if decide ((w.pool.disputes id).agentVotes ≤ (w.pool.disputes id).workerVotes)
      then Vote.worker else Vote.agent) = winning at h
    generalize (if decide ((w.pool.disputes id).agentVotes ≤ (w.pool.disputes id).workerVotes)
      then (w.pool.disputes id).workerVotes else (w.pool.disputes id).agentVotes) = count at h
    obtain h | ⟨⟨n, validators⟩, -, h⟩ := seq_eq_error.mp h
    · simp [slashLoop_error h]
    dsimp only at h
    split at h
    · rename_i hpos
      obtain h | ⟨n, -, h⟩ := seq_eq_error.mp h
      · exact absurd (div_eq_error.mp h).1 hpos.1.ne'
      · exact finishDispute_error hl hlocks h
    · exact finishDispute_error hl hlocks h

/-- No call fails by an underflow or a division by zero. -/
theorem PoolOk.no_underflow (h : PoolOk w) (hb : begin D m w = .error r) :
    r ≠ .underflow ∧ r ≠ .divisionByZero := by
  obtain ⟨sender, op⟩ := m
  cases op with
  | finalizeDispute id =>
    obtain hb | ⟨⟨w', calls⟩, -, hb⟩ := seq_eq_error.mp hb
    · exact finalizeDispute_error h.sound hb
    · cases hb
  | _ =>
    simp only [begin, register, unstake, setAuthorizedEscrow, openDispute, vote, nonReentrant,
      seq_eq_error, require_eq_error, orElse_eq_error, pure_eq, reduceCtorEq, and_false,
      exists_false, or_false] at hb
    grind

/-- Whoever holds no lock gets its whole stake back. -/
theorem PoolOk.unstake_paid {v : Address} (h : PoolOk w) (hle : w.pool.totalStake ≤ D.holdings w)
    (hs : v ≠ D.self) (hunlocked : w.locked = false)
    (hv : (w.pool.validators v).active = true) (hfree : w.pool.lockedInDisputes v = 0) :
    ∃ w', begin D ⟨v, .unstake⟩ w = .ok (w', false) ∧
      w'.ledger.bal D.stakeToken v = w.ledger.bal D.stakeToken v + (w.pool.validators v).stake := by
  have hstake : (w.pool.validators v).stake ≤ D.holdings w :=
    (single_le_sum (f := fun a => (w.pool.validators a).stake) (fun _ _ => Nat.zero_le _)
      (List.mem_toFinset.mpr (h.sound.listed v hv))).trans hle
  obtain ⟨ledger, hpay⟩ := Ledger.move_isSome w.ledger D.stakeToken v hstake
  let w' : World := { w with
    ledger
    pool := { w.pool with
      validators := Function.update w.pool.validators v
        { w.pool.validators v with stake := 0, active := false } } }
  have hcall : unstake D v w = .ok w' := by
    unfold unstake nonReentrant
    rw [require_pos hunlocked, ok_bind]
    dsimp only
    rw [require_pos hv, ok_bind, require_pos hfree, ok_bind, hpay]
    rfl
  refine ⟨w', ?_, ?_⟩
  · simp only [begin, hcall]
    rfl
  · show ledger.bal D.stakeToken v = _
    rw [Ledger.move_token hpay, Ledger.shifted_dst _ _ hs.symm]

/-! ## Conservation -/

theorem Effect.finalized {sender : Address} (he : Effect D w ⟨sender, .finalizeDispute id⟩ w') :
    w' = { w with pool := finalized w.pool id, locked := decide (w.pool.disputes id).Decided } := by
  cases he
  rfl

/-- Over every run from deployment the pool holds the stakes and the remainders that decided
finalisations dropped (and what others sent it unasked), so every validator can be paid. -/
theorem stake_conserved {c₀ c : Config} {tr : Trace} (h0 : Initial D c₀) (h : PoolRun D c₀ tr c) :
    D.holdings c.world = c.world.pool.totalStake + remainders tr + gifts D tr ∧
    (∀ a : Address, a ∉ c.world.pool.validatorList → (c.world.pool.validators a).stake = 0) ∧
    (∀ e ∈ tr, ∀ (sender : Address) (id : Nat), e.kind = .called ⟨sender, .finalizeDispute id⟩ →
      e.post.ledger = e.pre.ledger ∧
      e.remainder = if (e.pre.pool.disputes id).Decided then
        slashPool e.pre.pool (e.pre.pool.disputes id) % (winners (e.pre.pool.disputes id)).card
        else 0) ∧
    (∀ id : Nat, (c.world.pool.disputes id).Decided →
      (c.world.pool.disputes id).correctCount = (winners (c.world.pool.disputes id)).card ∧
      0 < (c.world.pool.disputes id).correctCount) ∧
    (∀ (m : Msg) (r : Revert), begin D m c.world = .error r →
      r ≠ .underflow ∧ r ≠ .divisionByZero) ∧
    ∀ v : Address, v ≠ D.self → c.world.locked = false →
      (c.world.pool.validators v).active = true → c.world.pool.lockedInDisputes v = 0 →
      ∃ w : World, begin D ⟨v, .unstake⟩ c.world = .ok (w, false) ∧
        w.ledger.bal D.stakeToken v =
          c.world.ledger.bal D.stakeToken v + (c.world.pool.validators v).stake := by
  obtain ⟨hok, hbal⟩ := h.balanced h0
  refine ⟨hbal, fun a ha => hok.sound.unlisted ha, ?_, ?_, fun m r hb => hok.no_underflow hb, ?_⟩
  · intro e he sender id hkind
    obtain ⟨later, earlier, b, b', -, hrun, hstep, -⟩ := Run.split_mem h he
    have hb := (PoolRun.balanced h0 hrun).1
    cases hstep with
    | call m w calls hs hcall =>
      cases hkind
      have hw := (hb.called hcall).1.finalized
      refine ⟨by rw [hw], ?_⟩
      simp only [Event.remainder, remainderOf, correctCount_eq (hb.sound.panel id)]
    | _ => cases hkind
  · intro id hdec
    exact ⟨correctCount_eq (hok.sound.panel id), Dispute.correctCount_pos hdec⟩
  · intro v hv hunlocked hactive hfree
    unfold Balanced at hbal
    exact hok.unstake_paid (by omega) hv hunlocked hactive hfree

/-- Two against one, and a stake whose tenth is odd. -/
def oneSlashed : List Cue :=
  [.send ⟨9, .setAuthorizedEscrow 50 true⟩, .send ⟨1, .register (10 ^ 8)⟩,
    .send ⟨2, .register (10 ^ 8)⟩, .send ⟨3, .register (10 ^ 8 + 10)⟩,
    .send ⟨50, .openDispute 5 8 700⟩, .send ⟨1, .vote 1 .worker⟩, .send ⟨2, .vote 1 .worker⟩,
    .send ⟨3, .vote 1 .agent⟩, .wait 172801, .send ⟨4, .finalizeDispute 1⟩, .resume]

theorem stake_conserved_oneSlashed :
    demo.holdings (demoPlay (10 ^ 9) (by decide) oneSlashed).1.world =
      (demoPlay (10 ^ 9) (by decide) oneSlashed).1.world.pool.totalStake + 1 ∧
    ∃ w : World, begin demo ⟨3, .unstake⟩ (demoPlay (10 ^ 9) (by decide) oneSlashed).1.world =
        .ok (w, false) ∧
      w.ledger.bal 7 3 = (10 ^ 9 - (10 ^ 8 + 10)) + (9 * 10 ^ 7 + 9) := by
  obtain ⟨hbal, -, -, -, -, hpaid⟩ := stake_conserved (demoStart_initial (by decide))
    (@demoPlay_run (10 ^ 9) (by decide) oneSlashed)
  refine ⟨hbal.trans (by decide), ?_⟩
  obtain ⟨w, hw, hheld⟩ := hpaid 3 (by decide) (by decide) (by decide) (by decide)
  exact ⟨w, hw, hheld.trans (by decide)⟩

end ValidatorPool
