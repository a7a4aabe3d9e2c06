import BlindMarket.DeployPayments.NoneDropped

/-!
# Credits over runs

A checkpoint is behind every event a tick is done with, and a credit that is in
Redis without a row can be claimed.
-/
namespace DeployPayments

open Async Prog Runs

variable {cfg : Config} {chain : Chain} {tr : List Ev} {e : Ev} {s s' : State} {t : Call}
  {a : Answers Ans Failure} {c : Cmd} {r : Except Failure (Ans c)} {x : Turn}
  {credit : AgentDeployCredit} {block : Nat}

/-! ## Checkpoints -/

/-- The events up to a block are done with. -/
def Passed (cfg : Config) (chain : Chain) (tr : List Ev) (block : Nat) : Prop :=
  ∀ credit ∈ chain.credits, floorBlock cfg ≤ credit.block → credit.block ≤ block →
    Scanned cfg tr credit

theorem Passed.cons (h : Passed cfg chain tr block) : Passed cfg chain (e :: tr) block :=
  fun credit hc hfloor hblock => (h credit hc hfloor hblock).mono

/-- Every checkpoint that is stored, or that a tick has in its hands, has been passed. -/
structure Checked (cfg : Config) (chain : Chain) (tr : List Ev) (s : State) : Prop where
  stored : ∀ block, s.redis.checkpoint = some block → Passed cfg chain tr block
  got : ∀ t a block, known tr t = some a → ⟨.getCheckpoint, .ok (some block)⟩ ∈ a →
    Passed cfg chain tr block
  set : ∀ t a block, known tr t = some a → ⟨.setCheckpoint block, .ok ()⟩ ∈ a →
    Passed cfg chain tr block
  addr : ∀ t a addr, known tr t = some a → ⟨.contract, .ok (some addr)⟩ ∈ a →
    addr = cfg.arcAgentFactoryAddress
  events : ∀ t a fromBlock toBlock events, known tr t = some a →
    ⟨.queryFilter fromBlock toBlock, .ok events⟩ ∈ a →
    events = chain.queryFilter fromBlock toBlock

/-- What a tick has recorded is scanned. -/
theorem RecordedIn.scanned (h : RecordedIn cfg a credit) (hknown : known tr t = some a)
    (htick : t.op = .tick) : Scanned cfg tr credit := by
  obtain hmem | hmem := h
  · obtain ⟨e, he, hlabel⟩ := known_mem hknown hmem
    exact ⟨e, he, t, htick, .inl hlabel⟩
  · obtain ⟨e, he, hlabel⟩ := known_mem hknown hmem
    exact ⟨e, he, t, htick, .inr hlabel⟩

theorem block_of_credit {event : EventLog} (h : event.credit? = some credit) :
    event.blockNumber = credit.block := by
  simp only [EventLog.credit?, Option.bind_eq_bind, Option.bind_eq_some_iff] at h
  obtain ⟨args, -, user, -, nonce, -, h⟩ := h
  cases h
  rfl

/-- A checkpoint is set to a block once the events up to it are done with. -/
theorem Checked.passes (h : Checked cfg chain tr s) (hknown : known tr t = some a)
    (hwrites : Writes cfg (t.op = .tick) a (.setCheckpoint block))
    (hfirst : ∀ b, a = ⟨.getCheckpoint, .ok none⟩ :: b → ∀ credit ∈ chain.credits,
      floorBlock cfg ≤ credit.block → block < credit.block) : Passed cfg chain tr block := by
  obtain ⟨htick, ⟨b, hb⟩ | ⟨fromBlock, events, hquery, hstarts, hrecorded⟩⟩ := hwrites
  · intro credit hc hfloor hblock
    have := hfirst b hb credit hc hfloor
    omega
  · intro credit hc hfloor hblock
    by_cases hfrom : fromBlock ≤ credit.block
    · obtain ⟨event, hevent, hcredit⟩ := List.mem_filterMap.mp hc
      have hnumber := block_of_credit hcredit
      have hin : event ∈ events := by
        rw [h.events t a fromBlock block events hknown hquery]
        refine List.mem_filter.mpr ⟨hevent, ?_⟩
        simp only [decide_eq_true_eq]
        omega
      exact (hrecorded event hin credit hcredit).scanned hknown htick
    · obtain ⟨checkpoint, addr, hgot, haddr, hmax⟩ | hset := hstarts
      · have haddr := h.addr t a addr hknown haddr
        rw [haddr] at hmax
        refine h.got t a checkpoint hknown hgot credit hc hfloor ?_
        have hfloor' : factoryDeploymentBlock cfg cfg.arcAgentFactoryAddress ≤ credit.block := hfloor
        omega
      · exact h.set t a fromBlock hknown hset credit hc hfloor (by omega)

theorem effect_checkpoint (cfg : Config) (chain : Chain) (t : Call) (x : Turn) (s : State) (c : Cmd) :
    (effect cfg chain t x s c).2.redis.checkpoint = s.redis.checkpoint ∨
      ∃ block, c = .setCheckpoint block ∧
        (effect cfg chain t x s c).2.redis.checkpoint = some block := by
  cases c with
  | setCheckpoint block => exact .inr ⟨block, rfl, rfl⟩
  | insertClaim key owner now =>
    simp only [effect, insertClaim]
    split <;> exact .inl rfl
  | takeOver key owner now staleBefore =>
    simp only [effect, takeOver]
    split
    · split <;> exact .inl rfl
    · exact .inl rfl
  | claimTransaction key owner now staleBefore =>
    obtain ⟨-, heq⟩ | ⟨row, hrow, ⟨-, heq⟩ | ⟨-, pending, agentId, heq⟩⟩ :=
      claimTransaction_cases key owner now staleBefore s <;>
      exact .inl (by simp [effect, heq, State.setRow])
  | markPaymentUsed key agentId =>
    simp only [effect, markRow]
    split <;> exact .inl rfl
  | recordUsedPayment key owner agentId now =>
    simp only [effect, recordUsed]
    split <;> exact .inl rfl
  | releasePayment key =>
    simp only [effect, deletePending]
    split
    · split <;> exact .inl rfl
    · exact .inl rfl
  | enterTick =>
    simp only [effect]
    split <;> exact .inl rfl
  | _ => exact .inl rfl

theorem Checked.silent {label : Label Ans Failure (Option Response) Call}
    (h : Checked cfg chain tr s) (hredis : s'.redis = s.redis)
    (hknown : ∀ t a, known (⟨label, s, s'⟩ :: tr) t = some a → a = [] ∨ known tr t = some a) :
    Checked cfg chain (⟨label, s, s'⟩ :: tr) s' := by
  refine ⟨fun block hb => (h.stored block (hredis ▸ hb)).cons, ?_, ?_, ?_, ?_⟩
  · intro t a block ha hmem
    obtain rfl | ha := hknown t a ha
    · cases hmem
    · exact (h.got t a block ha hmem).cons
  · intro t a block ha hmem
    obtain rfl | ha := hknown t a ha
    · cases hmem
    · exact (h.set t a block ha hmem).cons
  · intro t a addr ha hmem
    obtain rfl | ha := hknown t a ha
    · cases hmem
    · exact h.addr t a addr ha hmem
  · intro t a fromBlock toBlock events ha hmem
    obtain rfl | ha := hknown t a ha
    · cases hmem
    · exact h.events t a fromBlock toBlock events ha hmem

theorem Checked.ran (h : Checked cfg chain tr s) (hknown : known tr t = some a)
    (hwrites : Writes cfg (t.op = .tick) a c) (hx : respond cfg chain t x s c = (r, s'))
    (hdrops : DropsNothing cfg chain tr ⟨.ran t c r, s, s'⟩) :
    Checked cfg chain (⟨.ran t c r, s, s'⟩ :: tr) s' := by
  have hpasses : ∀ block, c = .setCheckpoint block → Passed cfg chain tr block := by
    rintro block rfl
    refine h.passes hknown hwrites ?_
    rintro b rfl
    exact hdrops.first t block r b rfl hknown
  have hstored : ∀ block, s'.redis.checkpoint = some block → Passed cfg chain tr block := by
    have heffect : ∀ block, (effect cfg chain t x s c).2.redis.checkpoint = some block →
        Passed cfg chain tr block := by
      intro block hb
      obtain heq | ⟨block', hc, heq⟩ := effect_checkpoint cfg chain t x s c
      · exact h.stored block (heq ▸ hb)
      · rw [heq] at hb
        cases hb
        exact hpasses block hc
    obtain ⟨-, rfl⟩ | ⟨-, -, rfl | rfl⟩ := respond_cases hx
    · exact heffect
    · exact h.stored
    · exact heffect
  -- what a call knows it knew, or has just been told
  have hknew : ∀ t' a', known (⟨.ran t c r, s, s'⟩ :: tr) t' = some a' →
      ∀ c' (r' : Except Failure (Ans c')), ⟨c', r'⟩ ∈ a' →
        (∃ a'', known tr t' = some a'' ∧ ⟨c', r'⟩ ∈ a'') ∨
          (⟨c', r'⟩ : (c : Cmd) × Except Failure (Ans c)) = ⟨c, r⟩ := by
    intro t' a' ha' c' r' hmem
    rw [known_ran] at ha'
    split at ha'
    · next heq =>
      subst heq
      rw [hknown] at ha'
      cases ha'
      obtain heq | hmem := List.mem_cons.mp hmem
      · exact .inr heq
      · exact .inl ⟨a, hknown, hmem⟩
    · exact .inl ⟨a', ha', hmem⟩
  refine ⟨fun block hb => (hstored block hb).cons, ?_, ?_, ?_, ?_⟩
  · intro t' a' block ha' hmem
    obtain ⟨a'', ha'', hmem⟩ | heq := hknew t' a' ha' _ _ hmem
    · exact (h.got t' a'' block ha'' hmem).cons
    · cases heq
      obtain ⟨hr, -⟩ | ⟨-, hr, -⟩ := respond_cases hx
      · exact (h.stored block (Except.ok.inj hr).symm).cons
      · cases hr
  · intro t' a' block ha' hmem
    obtain ⟨a'', ha'', hmem⟩ | heq := hknew t' a' ha' _ _ hmem
    · exact (h.set t' a'' block ha'' hmem).cons
    · cases heq
      exact (hpasses block rfl).cons
  · intro t' a' addr ha' hmem
    obtain ⟨a'', ha'', hmem⟩ | heq := hknew t' a' ha' _ _ hmem
    · exact h.addr t' a'' addr ha'' hmem
    · cases heq
      obtain ⟨hr, -⟩ | ⟨-, hr, -⟩ := respond_cases hx
      · have hr := Except.ok.inj hr
        simp only [effect] at hr
        split at hr
        · exact Option.some.inj hr
        · cases hr
      · cases hr
  · intro t' a' fromBlock toBlock events ha' hmem
    obtain ⟨a'', ha'', hmem⟩ | heq := hknew t' a' ha' _ _ hmem
    · exact h.events t' a'' fromBlock toBlock events ha'' hmem
    · cases heq
      obtain ⟨hr, -⟩ | ⟨-, hr, -⟩ := respond_cases hx
      · exact Except.ok.inj hr
      · cases hr

theorem Move.checked (h : Checked cfg chain tr s) (hmove : Move (deploys cfg chain TimeOnly)
    (Asks cfg) (fun _ a _ => Ended cfg a ∧ True) tr s e s') (hdrops : DropsNothing cfg chain tr e) :
    Checked cfg chain (e :: tr) s' := by
  cases hmove with
  | ran t a c r hknown hasks hx =>
    obtain ⟨x, hx⟩ := hx
    exact h.ran hknown hasks.2 hx hdrops
  | started t p tags hfresh hx =>
    obtain ⟨-, -, rfl⟩ := hx
    refine h.silent rfl fun t' a' ha' => ?_
    rw [known_started] at ha'
    split at ha'
    · exact .inl (Option.some.inj ha').symm
    · exact .inr ha'
  | finished t a r hknown hends =>
    refine h.silent rfl fun t' a' ha' => ?_
    rw [known_finished] at ha'
    split at ha'
    · cases ha'
    · exact .inr ha'
  | env hx =>
    obtain ⟨clock, rfl⟩ := hx
    exact h.silent rfl fun t' a' ha' => .inr ha'
  | died t a hknown hx =>
    obtain rfl := hx
    refine h.silent (by split <;> rfl) fun t' a' ha' => ?_
    rw [known_died] at ha'
    split at ha'
    · cases ha'
    · exact .inr ha'

/-! ## Claiming again -/

/-- A credit that waits to be claimed. -/
structure Ready (cfg : Config) (s : State) (credit : AgentDeployCredit) : Prop where
  set : InSet s credit
  keys : InKeys s credit
  row : s.rows (credit.key cfg) = none
  own : ∀ user nonce credit', s.redis.credits user nonce = some credit' → credit'.nonce = nonce

@[simp] theorem respond_answered : respond cfg chain t {} s c =
    (.ok (effect cfg chain t {} s c).1, (effect cfg chain t {} s c).2) := by
  simp only [respond]
  split <;> rfl

theorem run_call {α : Type} {k : Ans c → Deploys α} :
    (call c >>= k).run (respond cfg chain t {}) s =
      (k (effect cfg chain t {} s c).1).run (respond cfg chain t {})
        (effect cfg chain t {} s c).2 := by
  rw [bind_eq]
  simp only [call, await_andThen, run_await, respond_answered, done_andThen]

/-- A claim answers, and leaves Redis and the other rows alone. -/
theorem claimPayment_run (cfg : Config) (chain : Chain) (t : Call) (key : PaymentKey) (owner : Address) (s : State) :
    ∃ claim s', (claimPayment cfg key owner).run (respond cfg chain t {}) s = (.ok claim, s') ∧
      s'.redis = s.redis ∧ (∀ key', key' ≠ key → s'.rows key' = s.rows key') ∧
      (s.rows key = none → claim = .claimed) := by
  have hset : ∀ (row : Option PaymentRow) (key' : PaymentKey), key' ≠ key →
      (s.setRow key row).rows key' = s.rows key' := by
    intro row key' hne
    rw [setRow_rows, if_neg hne]
  rw [claimPayment, run_call]
  by_cases hpg : cfg.usePg
  · simp only [hpg, if_true]
    rw [run_call]
    cases hrow : s.rows key with
    | none =>
      refine ⟨.claimed, s.setRow key (some ⟨owner, none, s.clock⟩), ?_, rfl, hset _, fun _ => rfl⟩
      simp only [effect, insertClaim, hrow, if_true]
      rfl
    | some row =>
      simp only [effect, insertClaim, hrow, Bool.false_eq_true, if_false]
      rw [run_call]
      simp only [effect, takeOver, hrow]
      by_cases hstale : row.Stale (s.clock - PENDING_CLAIM_TTL_S)
      · refine ⟨.claimed, s.setRow key (some { row with owner, claimedAt := s.clock }), ?_, rfl,
          hset _, fun h => by cases h⟩
        simp only [hstale, if_true]
        rfl
      · refine ⟨.notClaimed (selectAgentId key s).isNone (selectAgentId key s), s, ?_, rfl,
          fun _ _ => rfl, fun h => by cases h⟩
        simp only [hstale, if_false, Bool.false_eq_true]
        rw [run_call]
        rfl
  · simp only [hpg]
    obtain ⟨hnone, heq⟩ | ⟨row, hrow, ⟨-, heq⟩ | ⟨-, pending, agentId, heq⟩⟩ :=
      claimTransaction_cases key owner s.clock (s.clock - PENDING_CLAIM_TTL_S) s
    · refine ⟨.claimed, s.setRow key (some ⟨owner, none, s.clock⟩), ?_, rfl, hset _, fun _ => rfl⟩
      simp only [call, Bool.false_eq_true, if_false, run_await, respond_answered, effect, heq]
      rfl
    · refine ⟨.claimed, s.setRow key (some { row with owner, claimedAt := s.clock }), ?_, rfl,
        hset _, fun _ => rfl⟩
      simp only [call, Bool.false_eq_true, if_false, run_await, respond_answered, effect, heq]
      rfl
    · refine ⟨.notClaimed pending agentId, s, ?_, rfl, fun _ _ => rfl, ?_⟩
      · simp only [call, Bool.false_eq_true, if_false, run_await, respond_answered, effect, heq]
        rfl
      · intro hnone
        rw [hnone] at hrow
        cases hrow

/-- What is left of the set once a nonce is taken out. -/
theorem filter_length_lt {nonces : List Nonce} {nonce : Nonce} (h : nonce ∈ nonces) :
    (nonces.filter (· ≠ nonce)).length < nonces.length :=
  List.length_filter_lt_length_iff_exists.mpr ⟨nonce, h, by simp⟩

/-- A credit out of its two keys. -/
def State.taken (s : State) (user : Address) (nonce : Nonce) : State :=
  s.setRedis ((s.redis.setNonces user
    ((s.redis.creditsByUser user).filter (· ≠ nonce))).setCredit user nonce none)

theorem Ready.taken {user : Address} {nonce : Nonce} (h : Ready cfg s credit)
    (hne : nonce ≠ credit.nonce) : Ready cfg (s.taken user nonce) credit where
  set := by
    show credit.nonce ∈ (Redis.setNonces _ _ _).creditsByUser credit.user
    rw [setNonces_creditsByUser]
    split
    · next heq => exact List.mem_filter.mpr ⟨heq ▸ h.set, by simpa using Ne.symm hne⟩
    · exact h.set
  keys := by
    show (Redis.credits (Redis.setCredit _ _ _ _) _ _).isSome = true
    rw [setCredit_credits, if_neg fun heq => hne heq.2.symm]
    exact h.keys
  row := h.row
  own := by
    intro u n c hc
    simp only [State.taken, State.setRedis, setCredit_credits] at hc
    split at hc
    · cases hc
    · exact h.own u n c hc

theorem taken_length {user : Address} {nonce : Nonce} (h : nonce ∈ s.redis.creditsByUser user) :
    ((s.taken user nonce).redis.creditsByUser user).length <
      (s.redis.creditsByUser user).length := by
  show ((Redis.setNonces _ _ _).creditsByUser user).length < _
  rw [setNonces_creditsByUser, if_pos rfl]
  exact filter_length_lt h

theorem Ready.claimed {d : AgentDeployCredit} (h : Ready cfg s credit)
    (hne : d.nonce ≠ credit.nonce) (hredis : s'.redis = s.redis)
    (hrows : ∀ key, key ≠ creditPaymentKey cfg d.nonce → s'.rows key = s.rows key) :
    Ready cfg s' credit := by
  refine ⟨?_, ?_, ?_, ?_⟩
  · rw [InSet, hredis]
    exact h.set
  · rw [InKeys, hredis]
    exact h.keys
  · rw [hrows _ fun heq => hne (creditPaymentKey_injective heq).symm, h.row]
  · rw [hredis]
    exact h.own

/-- Going through credits of which one waits gets that one, or another and leaves it waiting. -/
theorem claimFirst_run (chain : Chain) (t : Call) {user : Address} (huser : credit.user = user)
    (credits : List AgentDeployCredit) (h : Ready cfg s credit)
    (hmem : ∃ d ∈ credits, d.nonce = credit.nonce) :
    ∃ d s', (claimFirst cfg user credits).run (respond cfg chain t {}) s = (.ok (some d), s') ∧
      (d.nonce = credit.nonce ∨ Ready cfg s' credit ∧
        (s'.redis.creditsByUser user).length < (s.redis.creditsByUser user).length) := by
  induction credits generalizing s with
  | nil => simp at hmem
  | cons d credits ih =>
    have hrest : d.nonce ≠ credit.nonce → ∃ d ∈ credits, d.nonce = credit.nonce := by
      intro hne
      obtain ⟨d', hd', heq⟩ := hmem
      obtain rfl | hd' := List.mem_cons.mp hd'
      · exact absurd heq hne
      · exact ⟨d', hd', heq⟩
    rw [claimFirst, run_call]
    by_cases hin : d.nonce ∈ s.redis.creditsByUser user
    · simp only [effect, decide_eq_true hin, if_true]
      rw [run_call]
      obtain ⟨claim, s', hrun, hredis, hrows, hclaimed⟩ := claimPayment_run cfg chain t
        (creditPaymentKey cfg d.nonce) user (s.taken user d.nonce)
      have hstate : (effect cfg chain t {} (s.setRedis (s.redis.setNonces user
          ((s.redis.creditsByUser user).filter (· ≠ d.nonce)))) (.delCredit user d.nonce)).2 =
        s.taken user d.nonce := rfl
      rw [hstate, run_bind_ok hrun]
      by_cases heq : d.nonce = credit.nonce
      · obtain rfl := hclaimed (show s.rows _ = none from heq ▸ h.row)
        exact ⟨d, s', rfl, .inl heq⟩
      · have hready : Ready cfg s' credit := (h.taken heq).claimed heq hredis hrows
        have hlength : (s'.redis.creditsByUser user).length <
            (s.redis.creditsByUser user).length := by
          rw [hredis]
          exact taken_length hin
        cases claim with
        | claimed => exact ⟨d, s', rfl, .inr ⟨hready, hlength⟩⟩
        | notClaimed pending agentId =>
          obtain ⟨d', s'', hrun', hor⟩ := ih hready (hrest heq)
          exact ⟨d', s'', hrun', hor.imp id fun hr => ⟨hr.1, hr.2.trans hlength⟩⟩
    · have hne : d.nonce ≠ credit.nonce := fun heq => hin (heq ▸ huser ▸ h.set)
      have hsame : (s.redis.creditsByUser user).filter (· ≠ d.nonce) =
          s.redis.creditsByUser user :=
        List.filter_eq_self.mpr fun n hn => by simpa using fun heq : n = d.nonce => hin (heq ▸ hn)
      simp only [effect, decide_eq_false hin, Bool.false_eq_true, if_false]
      have hredis : s.redis.setNonces user ((s.redis.creditsByUser user).filter (· ≠ d.nonce)) =
          s.redis := by
        rw [hsame, Redis.setNonces, Function.update_eq_self]
      rw [hredis]
      exact ih h (hrest hne)

theorem getCredits_run {user : Address} (nonces : List Nonce) :
    (getCredits user nonces).run (respond cfg chain t {}) s =
      (.ok (nonces.filterMap (s.redis.credits user)), s) := by
  induction nonces with
  | nil => rfl
  | cons nonce nonces ih =>
    rw [getCredits, run_call]
    simp only [effect]
    rw [run_bind_ok ih]
    cases hcredit : s.redis.credits user nonce <;> simp [hcredit]

/-- A credit that waits is claimed after those before it. -/
theorem Ready.canClaim (t : Call) (h : Ready cfg s credit) :
    CanClaim cfg chain credit.user credit.nonce s := by
  induction hn : (s.redis.creditsByUser credit.user).length using Nat.strong_induction_on
    generalizing s with
  | _ n ih =>
    obtain ⟨c', hc'⟩ := Option.isSome_iff_exists.mp h.keys
    have hmem : ∃ d ∈ ((s.redis.creditsByUser credit.user).filterMap
        (s.redis.credits credit.user)).insertionSort byNonce, d.nonce = credit.nonce :=
      ⟨c', (List.mem_insertionSort byNonce).mpr (List.mem_filterMap.mpr ⟨credit.nonce, h.set, hc'⟩),
        h.own _ _ _ hc'⟩
    obtain ⟨d, s', hrun, hor⟩ := claimFirst_run chain t rfl _ h hmem
    have hlist : (listDeployCredits credit.user).run (respond cfg chain t {}) s =
        (.ok (((s.redis.creditsByUser credit.user).filterMap
          (s.redis.credits credit.user)).insertionSort byNonce), s) := by
      rw [listDeployCredits, run_call]
      simp only [effect]
      rw [run_bind_ok (getCredits_run _)]
      rfl
    have hclaim : (claimDeployCredit cfg credit.user).run (respond cfg chain t {}) s =
        (.ok (some d), s') := by
      rw [claimDeployCredit, run_bind_ok hlist, hrun]
    obtain heq | ⟨hready, hlt⟩ := hor
    · exact .now t hclaim heq
    · exact .next t hclaim (ih _ (hn ▸ hlt) hready rfl)

/-! ## Every credit -/

/-- While no command fails and no process dies between the moment a credit is taken out of Redis
and the end of its deploy, and the first checkpoint lies before every event, every event behind
the checkpoint has been scanned, and once no call is under way each of them has its agent or a
credit that can be claimed. -/
theorem credits_kept (cfg : Config) (chain : Chain) (hchain : chain.Numbered) (s₀ : State)
    (h0 : Fresh s₀) (tr : List Ev) (pool : Pool Ans Failure (Option Response) Call State)
    (h : PoolRun (deploys cfg chain TimeOnly) ⟨s₀, []⟩ tr pool)
    (hdrops : AllDropNothing cfg chain tr) : CreditsKept cfg chain tr pool := by
  have hS : Numbered (deploys cfg chain TimeOnly) Call.id State.calls :=
    others_numbered fun s s' h => by
      obtain ⟨clock, rfl⟩ := h
      rfl
  have hrun : Sourced chain tr pool.state ∧ (AllDropNothing cfg chain tr →
      Checked cfg chain tr pool.state ∧ ∀ credit ∈ chain.credits,
        pool.state.agentsOf (credit.key cfg) = [] →
        Accounted cfg credit (holdsOf cfg tr) (Scanned cfg tr credit) pool.state) := by
    refine hS.known_invariant (I := fun tr s => Sourced chain tr s ∧
      (AllDropNothing cfg chain tr → Checked cfg chain tr s ∧ ∀ credit ∈ chain.credits,
        s.agentsOf (credit.key cfg) = [] →
        Accounted cfg credit (holdsOf cfg tr) (Scanned cfg tr credit) s)) (P := Asks cfg)
      (Q := fun _ a _ => Ended cfg a ∧ True) h start_asks ?_ ?_
    · refine ⟨⟨?_, nofun⟩, fun _ => ⟨⟨?_, nofun, nofun, nofun, nofun⟩, ?_⟩⟩
      · intro user nonce credit hcredit
        rw [h0.credits] at hcredit
        cases hcredit
      · intro block hblock
        rw [h0.checkpoint] at hblock
        cases hblock
      · intro credit _ _
        refine ⟨fun hrow => absurd (h0.rows _) hrow, fun row hrow => ?_, fun t => ⟨nofun, nofun⟩,
          fun t hw => ?_, fun hs => ?_⟩
        · rw [h0.rows] at hrow
          cases hrow
        · obtain hw | hw := hw <;> cases hw
        · obtain ⟨e, he, -⟩ := hs
          cases he
    · rintro tr s e s' ⟨hsourced, hrest⟩ hmove
      refine ⟨Move.sourced hsourced hmove, fun hdrops => ?_⟩
      obtain ⟨hchecked, haccounted⟩ := hrest hdrops.tail
      exact ⟨Move.checked hchecked hmove hdrops.head, fun credit hc hfree =>
        Move.accounted hchain hc hsourced (haccounted credit hc) hmove hdrops.head hfree⟩
  obtain ⟨hsourced, hrest⟩ := hrun
  obtain ⟨hchecked, haccounted⟩ := hrest hdrops
  refine ⟨fun block hblock credit hc hfloor hle => hchecked.stored block hblock credit hc hfloor hle,
    fun hquiet credit hc hscanned => ?_⟩
  by_cases hfree : pool.state.agentsOf (credit.key cfg) = []
  · have hin := haccounted credit hc hfree
    -- no one is left to hold anything
    have hnone : ∀ t, holdsOf cfg tr t = none := by
      intro t
      cases hknown : known tr t with
      | none => simp [holdsOf, hknown]
      | some a =>
        obtain ⟨th, hth, -⟩ := (hS.tracks h start_asks).running t a hknown
        rw [hquiet] at hth
        cases hth
    have hplaced : InSet pool.state credit ∧ InKeys pool.state credit := by
      obtain hplaced | ⟨t, phase, -, heq⟩ | ⟨t, heq⟩ := hin.kept hscanned
      · exact hplaced
      · rw [hnone] at heq
        cases heq
      · rw [hnone] at heq
        cases heq
    have hrow : pool.state.rows (credit.key cfg) = none := by
      by_contra hne
      obtain ⟨t, hl⟩ := hin.row hne
      rw [hnone] at hl
      obtain hl | hl := hl <;> cases hl
    obtain ⟨e, -, t, -⟩ := hscanned
    exact .inr (Ready.canClaim t ⟨hplaced.1, hplaced.2, hrow,
      fun user nonce c hc => (hsourced.keys user nonce c hc).2.2⟩)
  · exact .inl hfree

/-- A step of which one sees that it drops nothing. -/
def keeps (cfg : Config) (chain : Chain) (earlier : List Ev) (e : Ev) : Bool :=
  match e.label with
  | .ran t (.setCheckpoint block) _ =>
    ((holdsOf cfg earlier t).all fun h => !h.phase.atRisk) &&
      match known earlier t with
      | some (⟨.getCheckpoint, .ok none⟩ :: _) =>
        decide (∀ credit ∈ chain.credits, floorBlock cfg ≤ credit.block → block < credit.block)
      | _ => true
  | .ran _ (.srem _ _) (.error _) => false
  | .ran t _ (.error _) => (holdsOf cfg earlier t).all fun h => !h.phase.atRisk
  | .died _ => false
  | _ => true

def allKeep (cfg : Config) (chain : Chain) : List Ev → Bool
  | [] => true
  | e :: tr => keeps cfg chain tr e && allKeep cfg chain tr

theorem keeps_dropsNothing (h : keeps cfg chain tr e = true) : DropsNothing cfg chain tr e := by
  obtain ⟨label, pre, post⟩ := e
  refine ⟨?_, ?_, ?_, ?_⟩
  · rintro t user nonce err rfl
    cases h
  · rintro t c err a phase nonce rfl hknown hheld hrisk
    have hof : holdsOf cfg tr t = some ⟨phase, creditPaymentKey cfg nonce⟩ := by
      rw [holdsOf_known cfg hknown, hheld]
    exfalso
    cases c with
    | srem user nonce => cases h
    | _ => simp [keeps, hof, hrisk] at h
  · rintro t a phase nonce rfl
    cases h
  · rintro t block r b rfl hknown
    simp only [keeps, hknown, Bool.and_eq_true] at h
    exact of_decide_eq_true h.2

theorem allDropNothing_of_keeps (h : allKeep cfg chain tr = true) :
    AllDropNothing cfg chain tr := by
  induction tr with
  | nil =>
    intro later e earlier heq
    cases later <;> cases heq
  | cons e' tr ih =>
    simp only [allKeep, Bool.and_eq_true] at h
    intro later e earlier heq
    cases later with
    | nil =>
      cases heq
      exact keeps_dropsNothing h.1
    | cons e'' later =>
      cases heq
      exact ih h.2 later e earlier rfl

def timeStage (chain : Chain) : Async.Stage (deploys demoConfig chain TimeOnly) Turn Int :=
  stage demoConfig chain TimeOnly wait fun m s s' h => by
    cases h
    exact ⟨_, rfl⟩

/-- Wallet 5 pays the factory in block 12. -/
def demoChain : Chain := [⟨some ⟨some 5, some 0, some 1, some 100⟩, 12, 77⟩]

theorem demoChain_numbered : demoChain.Numbered := by
  unfold Chain.Numbered
  decide

abbrev Cues := List (Cue Call Turn Int)

/-- The first tick, up to block 12. -/
def firstTick : List (Cue Call Turn Int) :=
  [.enter ⟨0, 0, .tick⟩, .turn 0 {}, .turn 0 {}, .turn 0 {}, .turn 0 { block := 12 }, .turn 0 {},
    .turn 0 {}, .turn 0 {}, .turn 0 {}, .turn 0 {}, .turn 0 {}, .turn 0 {}, .turn 0 {},
    .turn 0 {}, .leave 0]

/-- A deploy with the credit fails and puts it back. -/
def putBack : List (Cue Call Turn Int) :=
  firstTick ++ ([.enter (demoDeploy 1 none), .turn 0 {}, .turn 0 {}, .turn 0 {}, .turn 0 {},
    .turn 0 {}, .turn 0 {}, .turn 0 {}, .turn 0 {}, .turn 0 { fate := .failed }, .turn 0 {},
    .turn 0 {}, .turn 0 {}, .leave 0] : Cues)

theorem putBack_plays : ((timeStage demoChain).play putBack ⟨{}, []⟩).isSome = true := by decide

theorem fresh_empty : Fresh {} := ⟨fun _ => rfl, rfl, fun _ _ => rfl, rfl⟩

theorem credits_kept_putBack :
    CreditsKept demoConfig demoChain (((timeStage demoChain).play putBack ⟨{}, []⟩).get
        putBack_plays).1 (((timeStage demoChain).play putBack ⟨{}, []⟩).get putBack_plays).2 ∧
      (((timeStage demoChain).play putBack ⟨{}, []⟩).get putBack_plays).2.state.redis.checkpoint =
        some 12 :=
  ⟨credits_kept demoConfig demoChain demoChain_numbered {} fresh_empty _ _
    (Async.Stage.play_get putBack_plays) (allDropNothing_of_keeps (by decide)), by decide⟩

/-- With nothing in its set a wallet claims nothing. -/
theorem not_canClaim {user : Address} {nonce : Nonce} (h : s.redis.creditsByUser user = []) :
    ¬ CanClaim cfg chain user nonce s := by
  have hrun : ∀ t, (claimDeployCredit cfg user).run (respond cfg chain t {}) s = (.ok none, s) := by
    intro t
    have hlist : (listDeployCredits user).run (respond cfg chain t {}) s = (.ok [], s) := by
      rw [listDeployCredits, run_call]
      simp only [effect, h]
      rfl
    rw [claimDeployCredit, run_bind_ok hlist]
    rfl
  intro hclaim
  cases hclaim with
  | now t h hnonce =>
    rw [hrun] at h
    cases h
  | next t h hrest =>
    rw [hrun] at h
    cases h

/-- The credit is taken out of its set, and the next command fails. -/
def dropped : List (Cue Call Turn Int) :=
  firstTick ++ ([.enter (demoDeploy 1 none), .turn 0 {}, .turn 0 {}, .turn 0 {}, .turn 0 {},
    .turn 0 {}, .turn 0 { fate := .failed }, .leave 0] : Cues)

theorem dropped_plays : ((timeStage demoChain).play dropped ⟨{}, []⟩).isSome = true := by decide

theorem credits_kept_dropped :
    ¬ ∀ (cfg : Config) (chain : Chain), chain.Numbered → ∀ s₀ : State, Fresh s₀ →
      ∀ (tr : List Ev) (pool : Pool Ans Failure (Option Response) Call State),
        PoolRun (deploys cfg chain TimeOnly) ⟨s₀, []⟩ tr pool → CreditsKept cfg chain tr pool := by
  intro h
  have hkept := h demoConfig demoChain demoChain_numbered {} fresh_empty _ _
    (Async.Stage.play_get dropped_plays)
  have hscanned := hkept.scanned 12 (by decide) ⟨5, 1, 0, 12, 77, 100⟩ (by decide) (by decide)
    (by decide)
  obtain hmade | hclaim := hkept.kept (by decide) ⟨5, 1, 0, 12, 77, 100⟩ (by decide) hscanned
  · exact hmade (by decide)
  · exact not_canClaim (by decide) hclaim

end DeployPayments
