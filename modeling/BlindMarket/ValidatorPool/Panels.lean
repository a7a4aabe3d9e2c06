import BlindMarket.ValidatorPool.Finalize

/-!
# Panels and locks

Three structures say who voted: the votes of a dispute, its list of voters, and
the lock counters of the validators. They stay in agreement over every run, and
a validator that is on an open panel stays a validator.
-/
namespace ValidatorPool

open BlindEscrow (Address word)
open Checked Runs TokenLedger Finset

variable {D : Deployment} {c c' c₀ : Config} {e : Event} {tr : Trace} {w w' : World} {p p' : Pool}
  {d : Dispute} {m : Msg} {id : Nat} {a : Address} {calls : Bool}

/-! ## Calls by what they do -/

/-- What a successful call did. -/
inductive Effect (D : Deployment) (w : World) : Msg → World → Prop where
  | register (sender : Address) (amount : Nat) (ledger : Funds) (hl : w.locked = false)
      (hv : (w.pool.validators sender).active = false) (hmin : MIN_STAKE ≤ amount)
      (hpay : w.ledger.transferFrom D.stakeToken D.self sender D.self amount = some ledger) :
      Effect D w ⟨sender, .register amount⟩ { w with
        ledger
        pool := { w.pool with
          validators := Function.update w.pool.validators sender ⟨amount, true, 0, 0⟩
          validatorList := w.pool.validatorList ++ [sender] } }
  | unstake (sender : Address) (ledger : Funds) (hl : w.locked = false)
      (hv : (w.pool.validators sender).active = true) (hfree : w.pool.lockedInDisputes sender = 0)
      (hpay : w.ledger.move D.stakeToken D.self sender (w.pool.validators sender).stake =
        some ledger) :
      Effect D w ⟨sender, .unstake⟩ { w with
        ledger
        pool := { w.pool with
          validators := Function.update w.pool.validators sender
            { w.pool.validators sender with stake := 0, active := false } } }
  | authorize (sender escrow : Address) (allowed : Bool) (hs : sender = w.pool.admin) :
      Effect D w ⟨sender, .setAuthorizedEscrow escrow allowed⟩ { w with pool := { w.pool with
        authorizedEscrows := Function.update w.pool.authorizedEscrows escrow allowed } }
  | open (sender : Address) (taskId : Nat) (token : Address) (amount : Nat)
      (hs : w.pool.authorizedEscrows sender = true) :
      Effect D w ⟨sender, .openDispute taskId token amount⟩ { w with pool := { w.pool with
        nextDisputeId := w.pool.nextDisputeId + 1
        disputes := Function.update w.pool.disputes w.pool.nextDisputeId
          { w.pool.disputes w.pool.nextDisputeId with
            taskId, escrow := sender, token, amount, openedAt := w.timestamp }
        taskDispute := Function.update w.pool.taskDispute taskId w.pool.nextDisputeId } }
  | vote (sender : Address) (id : Nat) (voteFor : Vote)
      (hvote : voteFor = .worker ∨ voteFor = .agent) (hopen : (w.pool.disputes id).openedAt ≠ 0)
      (hnot : (w.pool.disputes id).finalized = false)
      (htime : w.timestamp ≤ (w.pool.disputes id).openedAt + VOTE_WINDOW)
      (hv : (w.pool.validators sender).active = true)
      (hnew : (w.pool.disputes id).votes sender = .none)
      (hroom : (w.pool.disputes id).voters.length < MAX_VOTERS) :
      Effect D w ⟨sender, .vote id voteFor⟩ { w with pool := { w.pool with
        disputes := Function.update w.pool.disputes id { w.pool.disputes id with
          votes := Function.update (w.pool.disputes id).votes sender voteFor
          voters := (w.pool.disputes id).voters ++ [sender]
          workerVotes := if voteFor = .worker then (w.pool.disputes id).workerVotes + 1
            else (w.pool.disputes id).workerVotes
          agentVotes := if voteFor = .worker then (w.pool.disputes id).agentVotes
            else (w.pool.disputes id).agentVotes + 1 }
        lockedInDisputes := Function.update w.pool.lockedInDisputes sender
          (w.pool.lockedInDisputes sender + 1) } }
  | finalize (sender : Address) (id : Nat) (hl : w.locked = false)
      (hopen : (w.pool.disputes id).openedAt ≠ 0)
      (hnot : (w.pool.disputes id).finalized = false)
      (htime : (w.pool.disputes id).openedAt + VOTE_WINDOW < w.timestamp)
      (hlocks : ∀ v ∈ (w.pool.disputes id).voters, 1 ≤ w.pool.lockedInDisputes v)
      (hrange : (w.pool.disputes id).Decided → InRange w.pool (w.pool.disputes id) ∧
        w.hasCode (w.pool.disputes id).escrow = true) :
      Effect D w ⟨sender, .finalizeDispute id⟩
        { w with pool := finalized w.pool id, locked := decide (w.pool.disputes id).Decided }

theorem begin_effect (hp : ∀ id, (w.pool.disputes id).voters.Nodup)
    (h : begin D m w = .ok (w', calls)) : Effect D w m w' ∧ calls = (w'.locked && !w.locked) := by
  obtain ⟨sender, op⟩ := m
  cases op with
  | register amount =>
    simp only [begin, register, nonReentrant, seq_eq_ok, require_eq_ok, exists_const, orElse_eq_ok,
      pure_eq, Except.ok.injEq, Prod.mk.injEq] at h
    obtain ⟨_, ⟨hl, hv, hmin, ledger, hpay, rfl⟩, rfl, rfl⟩ := h
    exact ⟨.register sender amount ledger hl hv hmin hpay, by simp [hl]⟩
  | unstake =>
    simp only [begin, unstake, nonReentrant, seq_eq_ok, require_eq_ok, exists_const, orElse_eq_ok,
      pure_eq, Except.ok.injEq, Prod.mk.injEq] at h
    obtain ⟨_, ⟨hl, hv, hfree, ledger, hpay, rfl⟩, rfl, rfl⟩ := h
    exact ⟨.unstake sender ledger hl hv hfree hpay, by simp [hl]⟩
  | setAuthorizedEscrow escrow allowed =>
    simp only [begin, setAuthorizedEscrow, seq_eq_ok, require_eq_ok, exists_const, pure_eq,
      Except.ok.injEq, Prod.mk.injEq] at h
    obtain ⟨_, ⟨hs, rfl⟩, rfl, rfl⟩ := h
    exact ⟨.authorize sender escrow allowed hs, by simp⟩
  | openDispute taskId token amount =>
    simp only [begin, openDispute, seq_eq_ok, require_eq_ok, exists_const, pure_eq,
      Except.ok.injEq, Prod.mk.injEq] at h
    obtain ⟨_, ⟨hs, rfl⟩, rfl, rfl⟩ := h
    exact ⟨.open sender taskId token amount hs, by simp⟩
  | vote id voteFor =>
    simp only [begin, vote, seq_eq_ok, require_eq_ok, exists_const, pure_eq, Except.ok.injEq,
      Prod.mk.injEq] at h
    obtain ⟨_, ⟨hvote, hopen, hnot, htime, hv, hnew, hroom, rfl⟩, rfl, rfl⟩ := h
    exact ⟨.vote sender id voteFor hvote hopen hnot htime hv hnew hroom, by simp⟩
  | finalizeDispute id =>
    simp only [begin, seq_eq_ok, Prod.exists, finalizeDispute_eq_ok (hp id), pure_eq,
      Except.ok.injEq, Prod.mk.injEq] at h
    obtain ⟨_, _, ⟨hl, hopen, hnot, htime, hlocks, hrange, rfl, rfl⟩, rfl, rfl⟩ := h
    exact ⟨.finalize sender id hl hopen hnot htime hlocks hrange, by simp [hl]⟩

/-! ## The invariant -/

/-- The votes, the list of voters and the two tallies of a dispute agree. -/
structure PanelOk (d : Dispute) : Prop where
  distinct : d.voters.Nodup
  size : d.voters.length ≤ MAX_VOTERS
  member : ∀ a, a ∈ d.voters ↔ d.votes a ≠ .none
  worker : d.workerVotes = d.voters.countP fun a => d.votes a = .worker
  agent : d.agentVotes = d.voters.countP fun a => d.votes a = .agent

/-- `a` is on the panel of a dispute that is not finalised. -/
def Pending (p : Pool) (a : Address) (id : Nat) : Prop :=
  (p.disputes id).finalized = false ∧ a ∈ (p.disputes id).voters

instance (p : Pool) (a : Address) (id : Nat) : Decidable (Pending p a id) :=
  inferInstanceAs (Decidable (_ ∧ _))

def pending (p : Pool) (a : Address) : Finset Nat :=
  (range p.nextDisputeId).filter (Pending p a)

structure Sound (p : Pool) : Prop where
  next : 0 < p.nextDisputeId
  blank : ∀ id, id = 0 ∨ p.nextDisputeId ≤ id → p.disputes id = {}
  opened : ∀ id, 0 < id → id < p.nextDisputeId → (p.disputes id).openedAt ≠ 0
  panel : ∀ id, PanelOk (p.disputes id)
  active : ∀ id a, Pending p a id → (p.validators a).active = true
  idle : ∀ a, (p.validators a).active = false → (p.validators a).stake = 0
  listed : ∀ a, (p.validators a).active = true → a ∈ p.validatorList
  locks : ∀ a, p.lockedInDisputes a = (pending p a).card

theorem panelOk_blank : PanelOk {} where
  distinct := List.nodup_nil
  size := Nat.zero_le _
  member := by simp
  worker := rfl
  agent := rfl

/-- A dispute that was opened is one of the created ones. -/
theorem Sound.created (h : Sound p) (hopen : (p.disputes id).openedAt ≠ 0) :
    0 < id ∧ id < p.nextDisputeId := by
  by_contra hid
  exact hopen (by rw [h.blank id (by omega)])

theorem mem_pending (hb : ∀ id, id = 0 ∨ p.nextDisputeId ≤ id → p.disputes id = {}) :
    id ∈ pending p a ↔ Pending p a id := by
  rw [pending, mem_filter, mem_range, and_iff_right_iff_imp]
  intro hp
  by_contra hid
  have hvoters := hp.2
  rw [hb id (by omega)] at hvoters
  cases hvoters

theorem Sound.locked_pos (h : Sound p) (hp : Pending p a id) : 1 ≤ p.lockedInDisputes a := by
  rw [h.locks]
  exact card_pos.mpr ⟨id, (mem_pending h.blank).mpr hp⟩

/-- A ballot extends the panel by a new member. -/
theorem PanelOk.vote {sender : Address} {voteFor : Vote} (h : PanelOk d)
    (hvote : voteFor = .worker ∨ voteFor = .agent) (hnew : d.votes sender = .none)
    (hroom : d.voters.length < MAX_VOTERS) : PanelOk { d with
      votes := Function.update d.votes sender voteFor
      voters := d.voters ++ [sender]
      workerVotes := if voteFor = .worker then d.workerVotes + 1 else d.workerVotes
      agentVotes := if voteFor = .worker then d.agentVotes else d.agentVotes + 1 } := by
  have hfresh : sender ∉ d.voters := fun hmem => (h.member sender).mp hmem hnew
  have hold : ∀ v, d.voters.countP (fun a => Function.update d.votes sender voteFor a = v) =
      d.voters.countP fun a => d.votes a = v := by
    intro v
    refine List.countP_congr fun a ha => ?_
    rw [Function.update_of_ne (ne_of_mem_of_not_mem ha hfresh)]
  constructor
  case distinct => simpa [List.concat_eq_append] using List.Nodup.concat hfresh h.distinct
  case size => simpa using hroom
  case member =>
    intro a
    by_cases ha : a = sender
    · subst ha
      rcases hvote with rfl | rfl <;> simp
    · simp [ha, h.member]
  case worker =>
    simp only [List.countP_append, hold, ← h.worker]
    rcases hvote with rfl | rfl <;> simp
  case agent =>
    simp only [List.countP_append, hold, ← h.agent]
    rcases hvote with rfl | rfl <;> simp

/-! ## What the calls keep -/

theorem pending_congr (hd : p'.disputes = p.disputes) (hn : p'.nextDisputeId = p.nextDisputeId) :
    pending p' = pending p := by
  funext a
  simp only [pending, hn]
  congr 1
  funext id
  simp only [Pending, hd]

/-- Disputes and locks do not change; the validators do so within the rules. -/
theorem Sound.validators (h : Sound p) (hd : p'.disputes = p.disputes)
    (hn : p'.nextDisputeId = p.nextDisputeId) (hlock : p'.lockedInDisputes = p.lockedInDisputes)
    (hactive : ∀ a, 0 < p.lockedInDisputes a → (p.validators a).active = true →
      (p'.validators a).active = true)
    (hidle : ∀ a, (p'.validators a).active = false → (p'.validators a).stake = 0)
    (hlisted : ∀ a, (p'.validators a).active = true → a ∈ p'.validatorList) : Sound p' where
  next := hn ▸ h.next
  blank := by simpa only [hd, hn] using h.blank
  opened := by simpa only [hd, hn] using h.opened
  panel := by simpa only [hd] using h.panel
  active := by
    intro id a hp
    have hp' : Pending p a id := by simpa only [Pending, hd] using hp
    exact hactive a (h.locked_pos hp') (h.active id a hp')
  idle := hidle
  listed := hlisted
  locks := by
    intro a
    rw [hlock, pending_congr hd hn, h.locks]

theorem Sound.register {amount : Nat} (h : Sound p) (hv : (p.validators a).active = false) :
    Sound { p with
      validators := Function.update p.validators a ⟨amount, true, 0, 0⟩
      validatorList := p.validatorList ++ [a] } := by
  refine h.validators rfl rfl rfl (fun b _ hb => ?_) (fun b hb => ?_) fun b hb => ?_
  · by_cases hba : b = a
    · subst hba
      simp
    · simpa [hba] using hb
  · by_cases hba : b = a
    · subst hba
      simp at hb
    · simp only [Function.update_of_ne hba] at hb ⊢
      exact h.idle b hb
  · by_cases hba : b = a
    · simp [hba]
    · simp only [Function.update_of_ne hba] at hb
      exact List.mem_append_left _ (h.listed b hb)

theorem Sound.unstake (h : Sound p) (hfree : p.lockedInDisputes a = 0) :
    Sound { p with
      validators := Function.update p.validators a
        { p.validators a with stake := 0, active := false } } := by
  refine h.validators rfl rfl rfl (fun b hlock hb => ?_) (fun b hb => ?_) fun b hb => ?_
  · have hba : b ≠ a := by
      rintro rfl
      omega
    simpa [hba] using hb
  · by_cases hba : b = a
    · simp [hba]
    · simp only [Function.update_of_ne hba] at hb ⊢
      exact h.idle b hb
  · by_cases hba : b = a
    · subst hba
      simp at hb
    · simp only [Function.update_of_ne hba] at hb
      exact h.listed b hb

/-- A new dispute has nobody on its panel. -/
theorem Sound.open (h : Sound p) {escrow token : Address} {taskId amount now : Nat}
    (hnow : now ≠ 0) : Sound { p with
      nextDisputeId := p.nextDisputeId + 1
      disputes := Function.update p.disputes p.nextDisputeId
        { p.disputes p.nextDisputeId with taskId, escrow, token, amount, openedAt := now }
      taskDispute := Function.update p.taskDispute taskId p.nextDisputeId } := by
  have hblank := h.blank p.nextDisputeId (Or.inr le_rfl)
  have hpending : ∀ id a, Pending { p with
        nextDisputeId := p.nextDisputeId + 1
        disputes := Function.update p.disputes p.nextDisputeId
          { p.disputes p.nextDisputeId with taskId, escrow, token, amount, openedAt := now }
        taskDispute := Function.update p.taskDispute taskId p.nextDisputeId } a id ↔
      Pending p a id := by
    intro id a
    by_cases hid : id = p.nextDisputeId
    · subst hid
      simp [Pending]
    · simp [Pending, hid]
  have hblank' : ∀ id, id = 0 ∨ p.nextDisputeId + 1 ≤ id →
      Function.update p.disputes p.nextDisputeId
        { p.disputes p.nextDisputeId with taskId, escrow, token, amount, openedAt := now } id =
        {} := by
    intro id hid
    have hne : id ≠ p.nextDisputeId := by
      have := h.next
      omega
    rw [Function.update_of_ne hne]
    exact h.blank id (by omega)
  constructor
  case next => exact Nat.succ_pos _
  case blank => exact hblank'
  case opened =>
    intro id hpos hlt
    by_cases hid : id = p.nextDisputeId
    · simpa [hid] using hnow
    · simpa only [Function.update_of_ne hid] using h.opened id hpos (by grind)
  case panel =>
    intro id
    by_cases hid : id = p.nextDisputeId
    · subst hid
      simp only [Function.update_self, hblank]
      exact ⟨panelOk_blank.1, panelOk_blank.2, panelOk_blank.3, rfl, rfl⟩
    · simpa only [Function.update_of_ne hid] using h.panel id
  case active => exact fun id a hp => h.active id a ((hpending id a).mp hp)
  case idle => exact h.idle
  case listed => exact h.listed
  case locks =>
    intro a
    rw [h.locks]
    congr 1
    ext id
    rw [mem_pending h.blank, mem_pending hblank', hpending]

/-- The panel of one dispute changes as the locks of its members do. -/
theorem Sound.panels {d' : Dispute} (h : Sound p) (hopen : (p.disputes id).openedAt ≠ 0)
    (hd : p'.disputes = Function.update p.disputes id d')
    (hn : p'.nextDisputeId = p.nextDisputeId) (hopen' : d'.openedAt ≠ 0) (hpanel : PanelOk d')
    (hvalid : ∀ a, (p'.validators a).active = (p.validators a).active)
    (hidle : ∀ a, (p'.validators a).active = false → (p'.validators a).stake = 0)
    (hlist : p'.validatorList = p.validatorList)
    (hactive : d'.finalized = false → ∀ a ∈ d'.voters, (p.validators a).active = true)
    (hlocks : ∀ a, p'.lockedInDisputes a + (if Pending p a id then 1 else 0) =
      p.lockedInDisputes a + if Pending p' a id then 1 else 0) : Sound p' := by
  obtain ⟨hpos, hlt⟩ := h.created hopen
  have hother : ∀ {id'}, id' ≠ id → p'.disputes id' = p.disputes id' :=
    fun hne => by rw [hd, Function.update_of_ne hne]
  have hself : p'.disputes id = d' := by rw [hd, Function.update_self]
  have hblank : ∀ id', id' = 0 ∨ p'.nextDisputeId ≤ id' → p'.disputes id' = {} := by
    intro id' hid'
    rw [hother (by omega)]
    exact h.blank id' (by omega)
  have hpending : ∀ {id' a}, id' ≠ id → (Pending p' a id' ↔ Pending p a id') :=
    fun hne => by rw [Pending, Pending, hother hne]
  have herase : ∀ a, (pending p' a).erase id = (pending p a).erase id := by
    intro a
    ext id'
    simp only [mem_erase, mem_pending h.blank, mem_pending hblank]
    exact and_congr_right hpending
  have hcard : ∀ {q : Pool} {a}, (id ∈ pending q a ↔ Pending q a id) →
      (pending q a).card = ((pending q a).erase id).card + if Pending q a id then 1 else 0 := by
    intro q a hq
    by_cases hp : Pending q a id
    · rw [if_pos hp, card_erase_add_one (hq.mpr hp)]
    · rw [if_neg hp, erase_eq_of_notMem (mt hq.mp hp)]
      rfl
  constructor
  case next => exact hn ▸ h.next
  case blank => exact hblank
  case opened =>
    intro id' hpos' hlt'
    by_cases hid : id' = id
    · rwa [hid, hself]
    · rw [hother hid]
      exact h.opened id' hpos' (hn ▸ hlt')
  case panel =>
    intro id'
    by_cases hid : id' = id
    · rwa [hid, hself]
    · rw [hother hid]
      exact h.panel id'
  case active =>
    intro id' a hp
    rw [hvalid]
    by_cases hid : id' = id
    · subst hid
      rw [Pending, hself] at hp
      exact hactive hp.1 a hp.2
    · exact h.active id' a ((hpending hid).mp hp)
  case idle => exact hidle
  case listed =>
    intro a ha
    rw [hvalid] at ha
    exact hlist ▸ h.listed a ha
  case locks =>
    intro a
    have hbefore := hcard (mem_pending h.blank (a := a))
    have hafter := hcard (mem_pending hblank (a := a))
    have hsame := congrArg card (herase a)
    have := hlocks a
    have := h.locks a
    omega

theorem Sound.vote {sender : Address} {voteFor : Vote} (h : Sound p)
    (hvote : voteFor = .worker ∨ voteFor = .agent) (hopen : (p.disputes id).openedAt ≠ 0)
    (hnot : (p.disputes id).finalized = false) (hv : (p.validators sender).active = true)
    (hnew : (p.disputes id).votes sender = .none)
    (hroom : (p.disputes id).voters.length < MAX_VOTERS) : Sound { p with
      disputes := Function.update p.disputes id { p.disputes id with
        votes := Function.update (p.disputes id).votes sender voteFor
        voters := (p.disputes id).voters ++ [sender]
        workerVotes := if voteFor = .worker then (p.disputes id).workerVotes + 1
          else (p.disputes id).workerVotes
        agentVotes := if voteFor = .worker then (p.disputes id).agentVotes
          else (p.disputes id).agentVotes + 1 }
      lockedInDisputes := Function.update p.lockedInDisputes sender
        (p.lockedInDisputes sender + 1) } := by
  refine h.panels hopen rfl rfl hopen ((h.panel id).vote hvote hnew hroom) (fun _ => rfl) h.idle
    rfl (fun _ a ha => ?_) fun a => ?_
  · rcases List.mem_append.mp ha with hmem | hmem
    · exact h.active id a ⟨hnot, hmem⟩
    · rwa [List.mem_singleton.mp hmem]
  · have hfresh : sender ∉ (p.disputes id).voters := fun hmem => ((h.panel id).member _).mp hmem hnew
    by_cases ha : a = sender
    · subst ha
      simp [Pending, hnot, hfresh]
    · simp [Pending, hnot, ha]

/-! ### Finalisations -/

@[simp] theorem finalized_voters (p : Pool) (id : Nat) :
    ((finalized p id).disputes id).voters = (p.disputes id).voters := by
  unfold finalized
  by_cases h : (p.disputes id).Decided <;> simp [h]

@[simp] theorem finalized_finalized (p : Pool) (id : Nat) :
    ((finalized p id).disputes id).finalized = true := by
  unfold finalized
  by_cases h : (p.disputes id).Decided <;> simp [h]

theorem finalized_other {id' : Nat} (h : id' ≠ id) :
    (finalized p id).disputes id' = p.disputes id' := by
  unfold finalized
  by_cases hdec : (p.disputes id).Decided <;> simp [hdec, h]

@[simp] theorem finalized_locks (p : Pool) (id : Nat) : (finalized p id).lockedInDisputes =
    released (p.disputes id).voters p.lockedInDisputes := by
  unfold finalized
  by_cases h : (p.disputes id).Decided <;> simp [h]

@[simp] theorem finalized_list (p : Pool) (id : Nat) :
    (finalized p id).validatorList = p.validatorList := by
  unfold finalized
  by_cases h : (p.disputes id).Decided <;> simp [h]

/-- Validators off the panel are not touched. -/
theorem finalized_outsider (h : a ∉ (p.disputes id).voters) :
    (finalized p id).validators a = p.validators a := by
  unfold finalized
  by_cases hdec : (p.disputes id).Decided
  · simp [hdec, settled, rewarded, slashed, h]
  · simp [hdec]

@[simp] theorem finalized_active (p : Pool) (id : Nat) (a : Address) :
    ((finalized p id).validators a).active = (p.validators a).active := by
  unfold finalized
  by_cases hdec : (p.disputes id).Decided
  · simp only [hdec, ↓reduceIte, settled, rewarded, slashed]
    split_ifs <;> rfl
  · simp [hdec]

theorem PanelOk.finalized (h : PanelOk d) (favored : Bool) :
    PanelOk { d with finalized := true, workerFavored := favored } := ⟨h.1, h.2, h.3, h.4, h.5⟩

theorem Sound.finalized (h : Sound p) (hopen : (p.disputes id).openedAt ≠ 0)
    (hnot : (p.disputes id).finalized = false) : Sound (finalized p id) := by
  obtain ⟨favored, hd⟩ : ∃ favored, (ValidatorPool.finalized p id).disputes =
      Function.update p.disputes id
        { p.disputes id with finalized := true, workerFavored := favored } := by
    unfold ValidatorPool.finalized
    by_cases hdec : (p.disputes id).Decided
    · exact ⟨_, by simp only [hdec, ↓reduceIte]; rfl⟩
    · exact ⟨(p.disputes id).workerFavored, by simp only [hdec, ↓reduceIte]⟩
  have hn : (ValidatorPool.finalized p id).nextDisputeId = p.nextDisputeId := by
    unfold ValidatorPool.finalized
    by_cases hdec : (p.disputes id).Decided <;> simp [hdec]
  refine h.panels hopen hd hn hopen ((h.panel id).finalized favored) (finalized_active p id) ?_
    (finalized_list p id) (fun hf => by cases hf) fun a => ?_
  · intro a ha
    rw [finalized_active] at ha
    have hout : a ∉ (p.disputes id).voters := by
      intro hmem
      have := h.active id a ⟨hnot, hmem⟩
      rw [ha] at this
      cases this
    rw [finalized_outsider hout]
    exact h.idle a ha
  · by_cases hmem : a ∈ (p.disputes id).voters
    · have : 1 ≤ p.lockedInDisputes a := h.locked_pos (show Pending p a id from ⟨hnot, hmem⟩)
      simp only [finalized_locks, released, Pending, finalized_finalized, hmem, hnot]
      simp
      omega
    · simp [Pending, released, hmem]

/-! ### Steps and runs -/

/-- The clock has started, so an opened dispute can be told from a blank one. -/
structure PoolOk (w : World) : Prop where
  sound : Sound w.pool
  clock : 0 < w.timestamp

theorem PoolOk.effect (h : PoolOk w) (he : Effect D w m w') : PoolOk w' := by
  obtain ⟨hs, ht⟩ := h
  cases he with
  | register sender amount ledger _ hv => exact ⟨hs.register hv, ht⟩
  | unstake sender ledger _ _ hfree => exact ⟨hs.unstake hfree, ht⟩
  | authorize sender escrow allowed => exact ⟨⟨hs.1, hs.2, hs.3, hs.4, hs.5, hs.6, hs.7, hs.8⟩, ht⟩
  | «open» sender taskId token amount => exact ⟨hs.open ht.ne', ht⟩
  | vote sender id voteFor hvote hopen hnot _ hv hnew hroom =>
    exact ⟨hs.vote hvote hopen hnot hv hnew hroom, ht⟩
  | finalize sender id _ hopen hnot => exact ⟨hs.finalized hopen hnot, ht⟩

/-- Every call that goes through on a sound storage has one of the effects. -/
theorem PoolOk.called (h : PoolOk w) (hb : begin D m w = .ok (w', calls)) :
    Effect D w m w' ∧ calls = (w'.locked && !w.locked) :=
  begin_effect (fun id => (h.sound.panel id).distinct) hb

theorem PoolOk.step (h : PoolOk c.world) (hs : Step D c e c') : PoolOk c'.world := by
  cases hs with
  | call m w calls _ hb => exact h.effect (h.called hb).1
  | ret disputeId waiting => exact ⟨h.sound, h.clock⟩
  | tick dt => exact ⟨h.sound, h.clock.trans_le (Nat.le_add_right _ _)⟩
  | outside ledger hasCode => exact ⟨h.sound, h.clock⟩

theorem Initial.poolOk (h : Initial D c) : PoolOk c.world := by
  obtain ⟨admin, hpool⟩ := h.pool
  refine ⟨?_, h.timestamp⟩
  rw [hpool]
  exact {
    next := Nat.one_pos
    blank := fun _ _ => rfl
    opened := fun id hpos hlt => absurd (Nat.lt_one_iff.mp hlt) hpos.ne'
    panel := fun _ => panelOk_blank
    active := fun _ _ hp => by cases hp.2
    idle := fun _ _ => rfl
    listed := fun _ ha => by cases ha
    locks := fun a => (card_eq_zero.mpr (filter_eq_empty_iff.mpr fun _ _ hp => by cases hp.2)).symm }

theorem PoolRun.poolOk (h : PoolRun D c tr c') (h0 : PoolOk c.world) : PoolOk c'.world :=
  Run.relates (R := fun _ c => PoolOk c.world) h h0 fun _ _ _ hok hs => hok.step hs

end ValidatorPool
