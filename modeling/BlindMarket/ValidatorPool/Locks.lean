import BlindMarket.ValidatorPool.Stakes

/-!
# Locks and slashes

A voter stays until its disputes are finalised, and between its vote and that
finalisation only other finalisations touch its stake. A finalisation after the
window goes through unless the product in a loser's slash leaves the word.
-/
namespace ValidatorPool

open BlindEscrow (Address word)
open Checked Runs TokenLedger Finset

variable {D : Deployment} {c c' c₀ : Config} {e : Event} {tr later : Trace} {w w' : World}
  {p : Pool} {d : Dispute} {m : Msg} {id : Nat} {a v : Address} {calls : Bool}

/-! ## When a finalisation goes through -/

/-- Every cut of a decision can be computed. -/
def SlashFits (p : Pool) (d : Dispute) : Prop :=
  d.Decided → ∀ v ∈ d.voters, d.votes v ≠ d.winningVote →
    (p.validators v).stake * SLASH_BPS < word

instance (p : Pool) (d : Dispute) : Decidable (SlashFits p d) :=
  inferInstanceAs (Decidable (_ → _))

/-- Between transactions, past the window of an open dispute whose escrow has code. -/
structure Due (w : World) (id : Nat) : Prop where
  unlocked : w.locked = false
  opened : (w.pool.disputes id).openedAt ≠ 0
  unfinalized : (w.pool.disputes id).finalized = false
  window : (w.pool.disputes id).openedAt + VOTE_WINDOW < w.timestamp
  code : w.hasCode (w.pool.disputes id).escrow = true

theorem Sound.voter_listed (h : Sound p) (hnot : (p.disputes id).finalized = false) :
    ∀ a ∈ (p.disputes id).voters, a ∈ p.validatorList.toFinset := fun a ha =>
  List.mem_toFinset.mpr (h.listed a (h.active id a ⟨hnot, ha⟩))

/-- The stakes fit in a word together, so only the products of the cuts can overflow. -/
theorem Sound.inRange (h : Sound p) (hnot : (p.disputes id).finalized = false)
    (htotal : p.totalStake < word) (hdec : (p.disputes id).Decided)
    (hfits : SlashFits p (p.disputes id)) : InRange p (p.disputes id) := by
  have hlisted := h.voter_listed hnot
  have hpanel := h.panel id
  have hsum := settled_total (p := p) hpanel hlisted
  unfold Pool.totalStake at htotal
  constructor
  case cuts => exact hfits hdec
  case pool =>
    have hsubset : losers (p.disputes id) ⊆ p.validatorList.toFinset := fun a ha =>
      hlisted a (List.mem_toFinset.mp (mem_filter.mp ha).1)
    have hle : slashPool p (p.disputes id) ≤
        ∑ a ∈ p.validatorList.toFinset, (p.validators a).stake := by
      rw [slashPool_eq hpanel]
      exact (sum_le_sum fun a _ => (p.validators a).cut_le).trans (sum_le_sum_of_subset hsubset)
    exact hle.trans_lt htotal
  case rewards =>
    intro v hv hwon _
    have hstake : (settled p (p.disputes id) v).stake =
        (p.validators v).stake + p.rewardEach (p.disputes id) := by
      simp [settled, rewarded, slashed, hv, hwon]
    have hle : (settled p (p.disputes id) v).stake ≤
        ∑ a ∈ p.validatorList.toFinset, (settled p (p.disputes id) a).stake :=
      single_le_sum (f := fun a => (settled p (p.disputes id) a).stake)
        (fun _ _ => Nat.zero_le _) (hlisted v hv)
    omega

theorem finalize_begin {sender : Address} (hs : Sound w.pool) :
    begin D ⟨sender, .finalizeDispute id⟩ w = .ok (w', calls) ↔
      w.locked = false ∧ (w.pool.disputes id).openedAt ≠ 0 ∧
      (w.pool.disputes id).finalized = false ∧
      (w.pool.disputes id).openedAt + VOTE_WINDOW < w.timestamp ∧
      ((w.pool.disputes id).Decided → InRange w.pool (w.pool.disputes id) ∧
        w.hasCode (w.pool.disputes id).escrow = true) ∧
      w' = { w with
        pool := finalized w.pool id, locked := decide (w.pool.disputes id).Decided } ∧
      calls = decide (w.pool.disputes id).Decided := by
  simp only [begin, seq_eq_ok, Prod.exists, finalizeDispute_eq_ok (hs.panel id).distinct, pure_eq,
    Except.ok.injEq, Prod.mk.injEq]
  constructor
  · rintro ⟨_, _, ⟨hl, hopen, hnot, htime, -, hrange, rfl, rfl⟩, rfl, rfl⟩
    exact ⟨hl, hopen, hnot, htime, hrange, rfl, rfl⟩
  · rintro ⟨hl, hopen, hnot, htime, hrange, rfl, rfl⟩
    exact ⟨_, _, ⟨hl, hopen, hnot, htime, fun v hv => hs.locked_pos ⟨hnot, hv⟩, hrange, rfl, rfl⟩,
      rfl, rfl⟩

/-- A due finalisation goes through exactly when every cut can be computed. -/
theorem Due.finalize {sender : Address} (h : Due w id) (hs : Sound w.pool)
    (htotal : w.pool.totalStake < word) :
    (∃ w' calls, begin D ⟨sender, .finalizeDispute id⟩ w = .ok (w', calls)) ↔
      SlashFits w.pool (w.pool.disputes id) := by
  constructor
  · rintro ⟨w', calls, hb⟩ hdec
    obtain ⟨-, -, -, -, hrange, -, -⟩ := (finalize_begin hs).mp hb
    exact (hrange hdec).1.cuts
  · intro hfits
    exact ⟨_, _, (finalize_begin hs).mpr ⟨h.unlocked, h.opened, h.unfinalized, h.window,
      fun hdec => ⟨hs.inRange h.unfinalized htotal hdec hfits, h.code⟩, rfl, rfl⟩⟩

theorem finalized_loser (hdec : (p.disputes id).Decided) (hv : v ∈ (p.disputes id).voters)
    (hlost : (p.disputes id).votes v ≠ (p.disputes id).winningVote) :
    ((finalized p id).validators v).stake =
      (p.validators v).stake - (p.validators v).stake * SLASH_BPS / 10000 := by
  unfold finalized
  simp only [hdec, ↓reduceIte]
  simp [settled, rewarded, slashed, hv, hlost, Validator.cut]

/-! ## From the vote to the finalisation -/

/-- `e` leaves the stake of `v` alone, or finalises another dispute than `id`. -/
def Spares (id : Nat) (v : Address) (e : Event) : Prop :=
  (e.post.pool.validators v).stake = (e.pre.pool.validators v).stake ∨
    ∃ (sender : Address) (id' : Nat), id' ≠ id ∧ e.kind = .called ⟨sender, .finalizeDispute id'⟩

/-- The ballot of `v` on `id` is in the trace, and its stake was spared since. -/
def Voted (tr : Trace) (id : Nat) (v : Address) : Prop :=
  ∃ (later earlier : Trace) (e : Event) (voteFor : Vote), tr = later ++ e :: earlier ∧
    e.kind = .called ⟨v, .vote id voteFor⟩ ∧ ∀ e' ∈ later, Spares id v e'

theorem Voted.cons (h : Voted tr id v) (he : Spares id v e) : Voted (e :: tr) id v := by
  obtain ⟨later, earlier, e₀, voteFor, rfl, hkind, hlater⟩ := h
  refine ⟨e :: later, earlier, e₀, voteFor, rfl, hkind, fun e' he' => ?_⟩
  rcases List.mem_cons.mp he' with rfl | he'
  · exact he
  · exact hlater e' he'

/-- A call that leaves `v` on the open panel of `id` spares its stake, or is its ballot. -/
theorem Effect.spares (h : PoolOk w) (he : Effect D w m w') (hp : Pending w'.pool v id) :
    (Pending w.pool v id ∧ Spares id v ⟨.called m, w, w'⟩) ∨
      ∃ voteFor, m = ⟨v, .vote id voteFor⟩ := by
  cases he with
  | register sender amount ledger _ hv =>
    have hp' : Pending w.pool v id := hp
    have hne : v ≠ sender := by
      rintro rfl
      have := h.sound.active id v hp'
      rw [hv] at this
      cases this
    refine .inl ⟨hp', .inl ?_⟩
    simp [hne]
  | unstake sender ledger _ _ hfree =>
    have hp' : Pending w.pool v id := hp
    have hne : v ≠ sender := by
      rintro rfl
      have := h.sound.locked_pos hp'
      omega
    refine .inl ⟨hp', .inl ?_⟩
    simp [hne]
  | authorize sender escrow allowed => exact .inl ⟨hp, .inl rfl⟩
  | «open» sender taskId token amount =>
    refine .inl ⟨?_, .inl rfl⟩
    by_cases hid : id = w.pool.nextDisputeId
    · subst hid
      have hblank := h.sound.blank _ (Or.inr le_rfl)
      simp [Pending, hblank] at hp
    · simpa [Pending, hid] using hp
  | vote sender id' voteFor =>
    by_cases hid : id = id'
    · subst hid
      by_cases hv : v = sender
      · exact .inr ⟨voteFor, by rw [hv]⟩
      · exact .inl ⟨by simpa [Pending, hv] using hp, .inl rfl⟩
    · exact .inl ⟨by simpa [Pending, hid] using hp, .inl rfl⟩
  | finalize sender id' =>
    have hid : id ≠ id' := by
      rintro rfl
      simp [Pending] at hp
    have hp' : Pending w.pool v id := by
      simpa only [Pending, finalized_other hid] using hp
    exact .inl ⟨hp', .inr ⟨sender, id', hid.symm, rfl⟩⟩

theorem PoolRun.voted (h0 : Initial D c₀) (h : PoolRun D c₀ tr c) (hp : Pending c.world.pool v id) :
    Voted tr id v := by
  refine (Run.invariant (I := fun tr c => PoolOk c.world ∧
    ∀ id v, Pending c.world.pool v id → Voted tr id v) h ⟨h0.poolOk, ?_⟩ ?_).2 id v hp
  · intro id v hp
    obtain ⟨admin, hpool⟩ := h0.pool
    rw [hpool] at hp
    cases hp.2
  · rintro tr b e c - ⟨hok, hI⟩ hs
    refine ⟨hok.step hs, fun id v hp => ?_⟩
    cases hs with
    | call m w calls _ hb =>
      obtain ⟨hp', hspare⟩ | ⟨voteFor, rfl⟩ := (hok.called hb).1.spares hok hp
      · exact (hI id v hp').cons hspare
      · exact ⟨[], tr, _, voteFor, rfl, rfl, fun _ he => by cases he⟩
    | ret disputeId waiting => exact (hI id v hp).cons (.inl rfl)
    | tick dt => exact (hI id v hp).cons (.inl rfl)
    | outside ledger hasCode => exact (hI id v hp).cons (.inl rfl)

/-! ## Locks over runs -/

theorem PanelOk.tally (h : PanelOk d) : d.workerVotes + d.agentVotes = d.voters.length := by
  have hall : ∀ l : List Address, (∀ a ∈ l, d.votes a ≠ .none) →
      (l.countP fun a => d.votes a = .worker) + (l.countP fun a => d.votes a = .agent) =
        l.length := by
    intro l hl
    induction l with
    | nil => rfl
    | cons a l ih =>
      have ih := ih fun b hb => hl b (List.mem_cons_of_mem _ hb)
      have ha := hl a List.mem_cons_self
      cases hvote : d.votes a with
      | none => exact absurd hvote ha
      | worker => simp [hvote]; omega
      | agent => simp [hvote]; omega
  rw [h.worker, h.agent]
  exact hall _ fun a ha => (h.member a).mp ha

/-- Over every run from deployment the three records of who voted agree, no voter leaves or is
touched but by other finalisations, and a due finalisation goes through exactly when every cut can
be computed; one that goes through takes its cut of every loser and one lock of every voter. -/
theorem locks_exact {c₀ c : Config} {tr : Trace} (h0 : Initial D c₀) (h : PoolRun D c₀ tr c) :
    (∀ v : Address, c.world.pool.lockedInDisputes v = (pending c.world.pool v).card ∧
      ∀ id : Nat, id ∈ pending c.world.pool v ↔
        (c.world.pool.disputes id).finalized = false ∧ v ∈ (c.world.pool.disputes id).voters) ∧
    (∀ id : Nat, (c.world.pool.disputes id).voters.Nodup ∧
      (c.world.pool.disputes id).voters.length ≤ MAX_VOTERS ∧
      (∀ a : Address, a ∈ (c.world.pool.disputes id).voters ↔
        (c.world.pool.disputes id).votes a ≠ .none) ∧
      (c.world.pool.disputes id).workerVotes + (c.world.pool.disputes id).agentVotes =
        (c.world.pool.disputes id).voters.length) ∧
    (∀ (id : Nat) (v : Address), (c.world.pool.disputes id).finalized = false →
      v ∈ (c.world.pool.disputes id).voters →
      (c.world.pool.validators v).active = true ∧ Voted tr id v) ∧
    (∀ (sender : Address) (id : Nat), Due c.world id →
      ((∃ (w : World) (calls : Bool),
          begin D ⟨sender, .finalizeDispute id⟩ c.world = .ok (w, calls)) ↔
        SlashFits c.world.pool (c.world.pool.disputes id))) ∧
    (∀ (sender : Address) (id : Nat) (w : World) (calls : Bool),
      begin D ⟨sender, .finalizeDispute id⟩ c.world = .ok (w, calls) →
      ((c.world.pool.disputes id).Decided → ∀ v ∈ (c.world.pool.disputes id).voters,
        (c.world.pool.disputes id).votes v ≠ (c.world.pool.disputes id).winningVote →
        (w.pool.validators v).stake = (c.world.pool.validators v).stake -
          (c.world.pool.validators v).stake * SLASH_BPS / 10000) ∧
      ∀ v : Address, w.pool.lockedInDisputes v +
        (if v ∈ (c.world.pool.disputes id).voters then 1 else 0) =
          c.world.pool.lockedInDisputes v) ∧
    ∀ v : Address, v ≠ D.self → c.world.locked = false →
      (c.world.pool.validators v).active = true →
      (∀ id : Nat, v ∈ (c.world.pool.disputes id).voters →
        (c.world.pool.disputes id).finalized = true) →
      ∃ w : World, begin D ⟨v, .unstake⟩ c.world = .ok (w, false) := by
  obtain ⟨hok, hbal⟩ := h.balanced h0
  have hs := hok.sound
  have hle : c.world.pool.totalStake ≤ D.holdings c.world := by
    unfold Balanced at hbal
    omega
  have htotal := hle.trans_lt (c.world.ledger.bal_lt D.stakeToken D.self)
  refine ⟨fun v => ⟨hs.locks v, fun id => mem_pending hs.blank⟩, fun id => ?_,
    fun id v hnot hv => ⟨hs.active id v ⟨hnot, hv⟩, h.voted h0 ⟨hnot, hv⟩⟩,
    fun sender id hdue => hdue.finalize hs htotal, fun sender id w calls hb => ?_, ?_⟩
  · have hpanel := hs.panel id
    exact ⟨hpanel.distinct, hpanel.size, hpanel.member, hpanel.tally⟩
  · obtain ⟨-, -, hnot, -, -, rfl, -⟩ := (finalize_begin hs).mp hb
    refine ⟨fun hdec v hv hlost => finalized_loser hdec hv hlost, fun v => ?_⟩
    rw [finalized_locks]
    by_cases hv : v ∈ (c.world.pool.disputes id).voters
    · have := hs.locked_pos ⟨hnot, hv⟩
      simp only [released, hv, ↓reduceIte]
      omega
    · simp [released, hv]
  · intro v hv hunlocked hactive hdone
    have hfree : c.world.pool.lockedInDisputes v = 0 := by
      rw [hs.locks, card_eq_zero, eq_empty_iff_forall_notMem]
      intro id hid
      obtain ⟨hnot, hmem⟩ := (mem_pending hs.blank).mp hid
      rw [hdone id hmem] at hnot
      cases hnot
    obtain ⟨w, hw, -⟩ := hok.unstake_paid hle hv hunlocked hactive hfree
    exact ⟨w, hw⟩

/-- Two against one, the one with `stake`, and the window over. -/
def twoAgainstOne (stake : Nat) : List Cue :=
  [.send ⟨9, .setAuthorizedEscrow 50 true⟩, .send ⟨1, .register (10 ^ 8)⟩,
    .send ⟨2, .register (10 ^ 8)⟩, .send ⟨3, .register stake⟩,
    .send ⟨50, .openDispute 5 8 700⟩, .send ⟨1, .vote 1 .worker⟩, .send ⟨2, .vote 1 .worker⟩,
    .send ⟨3, .vote 1 .agent⟩, .wait 172801]

instance (w : World) (id : Nat) : Decidable (Due w id) :=
  decidable_of_iff (w.locked = false ∧ (w.pool.disputes id).openedAt ≠ 0 ∧
      (w.pool.disputes id).finalized = false ∧
      (w.pool.disputes id).openedAt + VOTE_WINDOW < w.timestamp ∧
      w.hasCode (w.pool.disputes id).escrow = true)
    ⟨fun h => ⟨h.1, h.2.1, h.2.2.1, h.2.2.2.1, h.2.2.2.2⟩,
      fun h => ⟨h.unlocked, h.opened, h.unfinalized, h.window, h.code⟩⟩

theorem locks_exact_twoAgainstOne : ∃ (w : World) (calls : Bool),
    begin demo ⟨4, .finalizeDispute 1⟩
        (demoPlay (10 ^ 9) (by decide) (twoAgainstOne (10 ^ 9))).1.world = .ok (w, calls) ∧
      (w.pool.validators 3).stake = 10 ^ 9 - 10 ^ 8 ∧ w.pool.lockedInDisputes 3 + 1 = 1 := by
  obtain ⟨-, -, -, hgoes, hdoes, -⟩ := locks_exact (demoStart_initial (by decide))
    (@demoPlay_run (10 ^ 9) (by decide) (twoAgainstOne (10 ^ 9)))
  obtain ⟨w, calls, hb⟩ := (hgoes 4 1 (by decide)).mpr (by decide)
  obtain ⟨hcuts, hlocks⟩ := hdoes 4 1 w calls hb
  exact ⟨w, calls, hb, (hcuts (by decide) 3 (by decide) (by decide)).trans (by decide),
    (hlocks 3).trans (by decide)⟩

/-- A stake so large that a thousand times it leaves the word freezes a whole panel. -/
theorem large_stake_frozen :
    ∃ (c : Config) (tr : Trace), PoolRun demo (demoStart (2 ^ 252) (by decide)) tr c ∧
      Initial demo (demoStart (2 ^ 252) (by decide)) ∧ Due c.world 1 ∧
      begin demo ⟨4, .finalizeDispute 1⟩ c.world = .error .overflow ∧
      begin demo ⟨1, .unstake⟩ c.world = .error .stakeLocked := by
  refine ⟨_, _, demoPlay_run (by decide) (twoAgainstOne (2 ^ 252)), demoStart_initial (by decide),
    by decide, ?_, ?_⟩
  · rfl
  · rfl

end ValidatorPool
