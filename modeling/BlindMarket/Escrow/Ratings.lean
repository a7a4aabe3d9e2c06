import BlindMarket.Escrow.Transactions

/-!
# Ratings

Which settlements rate a worker, and that the reputation contract counts exactly
those. The score of a call is defined from the message and the storage before
it; the interactions of the call carry the same score, and a rating that waits
behind a native payout is kept in the account until the payee returns.
-/
namespace BlindEscrow

open Checked Runs Finset

variable {D : Deployment} {b c c' c₀ : Config} {e : Event} {tr later : Trace} {w w' : World}
  {s s' : Escrow} {x : Ctx} {id n : Nat} {op : Op} {r : Row} {m : Msg} {l todo : List Action}
  {stop : Stop} {R R' : BlindReputation.State} {worker : Address}

/-! ## Earned scores -/

/-- The fee of the task is positive now and its amount is large enough to be rated. -/
def WorthRating (s : Escrow) (id : Nat) : Prop :=
  0 < (s.tasks id).amount * s.feeBps / 10000 ∧
    s.minRatedAmount (s.tasks id).token ≤ (s.tasks id).amount
deriving Decidable

/-- The score a call by `sender` earns the worker of task `id`: 5 for a pass by the global verifier
where the poster set no verifier and for a pick of the backup judge or the admin, if fee and amount
count; 3 for the admin's ruling for the worker; nothing otherwise. -/
def Op.score (s : Escrow) (id : Nat) (sender : Address) : Op → Nat
  | .completeVerification j true | .completeVerificationWithTEE j true _ _ =>
    if j = id ∧ sender = s.verifier ∧ s.taskVerifier id = 0 ∧ WorthRating s id then 5 else 0
  | .selectWinnerByBackup j _ _ => if j = id ∧ sender = s.verifier ∧ WorthRating s id then 5 else 0
  | .resolveOpenTask j winner _ =>
    if j = id ∧ sender = s.admin ∧ winner ≠ 0 ∧ WorthRating s id then 5 else 0
  | .resolveDispute j true => if j = id ∧ sender = s.admin then 3 else 0
  | _ => 0

def Event.score (id : Nat) (e : Event) : Nat :=
  match e.kind with
  | .called _ m => m.op.score e.pre.escrow id m.sender
  | _ => 0

/-- The score task `id` earned its worker in a run. -/
def scoreOf (id : Nat) (tr : Trace) : Nat := (tr.map (Event.score id)).sum

@[simp] theorem scoreOf_nil : scoreOf id [] = 0 := rfl
@[simp] theorem scoreOf_cons : scoreOf id (e :: tr) = e.score id + scoreOf id tr := by
  simp [scoreOf]
@[simp] theorem scoreOf_append (tr tr' : Trace) :
    scoreOf id (tr ++ tr') = scoreOf id tr + scoreOf id tr' := by simp [scoreOf]

/-- Only a call about the task earns it a score. -/
theorem Op.score_taskId {sender : Address} (h : op.score s id sender ≠ 0) : op.taskId = some id := by
  unfold Op.score at h
  split at h <;> simp_all [Op.taskId]

theorem Op.score_range {sender : Address} (h : op.score s id sender ≠ 0) :
    3 ≤ op.score s id sender ∧ op.score s id sender ≤ 5 := by
  unfold Op.score at h ⊢
  split at h <;> simp_all

/-! ## Ratings among the interactions -/

/-- The ratings a list of interactions makes. -/
def ratings : List Action → List (Nat × Nat)
  | [] => []
  | .rate id score :: rest => if score = 0 then ratings rest else (id, score) :: ratings rest
  | _ :: rest => ratings rest

theorem ratings_append (l l' : List Action) : ratings (l ++ l') = ratings l ++ ratings l' := by
  induction l with
  | nil => rfl
  | cons a l ih =>
    cases a with
    | rate id score =>
      simp only [List.cons_append, ratings, ih]
      split <;> rfl
    | _ => exact ih

@[simp] theorem ratings_guarded (l : List Action) : ratings (guarded l) = ratings l := by
  simp [guarded, ratings, ratings_append]

theorem ratings_emits (h : ∀ a ∈ l, ∃ log, a = .emit log) : ratings l = [] := by
  induction l with
  | nil => rfl
  | cons a l ih =>
    obtain ⟨log, rfl⟩ := h a (by simp)
    exact ih fun b hb => h b (by simp [hb])

theorem ratings_announceAll (x : Ctx) (token : Address) (tasks : List TaskInput) (next : Nat) :
    ratings (announceAll x token tasks next) = [] := by
  induction tasks generalizing next with
  | nil => rfl
  | cons i tasks ih =>
    simp only [announceAll, ratings_append, ih, verifierEvents, announceTask]
    split <;> rfl

theorem earnsRating_iff {fee : Nat} (hfee : platformFee s (s.tasks id).amount = .ok fee)
    (chosen : Bool) :
    earnsRating s (s.tasks id) fee chosen = true ↔ chosen = false ∧ WorthRating s id := by
  obtain ⟨-, rfl⟩ := platformFee_eq_ok.mp hfee
  cases chosen <;> simp [earnsRating, WorthRating]

theorem ratings_payout (payout fee score : Nat) :
    ratings [.transferPayout id .worker payout, .transferPayout id .treasury fee, .rate id score] =
      if score = 0 then [] else [(id, score)] := rfl

/-- A call about a task makes the rating it earns, and only when it completes the task. -/
theorem Move.ratings (h : Move x s id op r todo) :
    BlindEscrow.ratings todo =
        (if op.score s id x.sender = 0 then [] else [(id, op.score s id x.sender)]) ∧
      (op.score s id x.sender ≠ 0 → x.locked = false ∧ r.task.status = .completed) := by
  cases h with
  | assign op worker ext hp hop =>
    rcases hop with ⟨rfl, -⟩ | ⟨rfl, -⟩ <;> exact ⟨rfl, fun h => absurd rfl h⟩
  | evidence | dispute | submit | escalate => exact ⟨rfl, fun h => absurd rfl h⟩
  | fail op emitted disputed hl hp hop hs hw hst hem hdi =>
    have hzero : op.score s id x.sender = 0 := by
      rcases hop with rfl | ⟨signature, text, rfl⟩ <;> rfl
    have hdisputed : BlindEscrow.ratings disputed = [] := by rcases hdi with rfl | rfl <;> rfl
    rw [ratings_guarded, ratings_append, ratings_emits hem, hdisputed, hzero]
    exact ⟨rfl, fun h => absurd rfl h⟩
  | complete op fee score before after hl hfee hle h =>
    cases h with
    | passed op fee' emitted hp hop hs hw hst hfee' hem =>
      have hscore : op.score s id x.sender =
          if earnsRating s (s.tasks id) fee' (decide (s.taskVerifier id ≠ 0)) then 5 else 0 := by
        have hworth := earnsRating_iff hfee' (decide (s.taskVerifier id ≠ 0))
        by_cases hv : s.taskVerifier id = 0
        · rw [if_neg (not_not_intro hv)] at hs
          rcases hop with rfl | ⟨signature, text, rfl⟩ <;> simp_all [Op.score]
        · rcases hop with rfl | ⟨signature, text, rfl⟩ <;> simp_all [Op.score]
      rw [ratings_guarded, ratings_append, ratings_append, ratings_emits hem, ratings_payout,
        ← hscore]
      exact ⟨by simp [BlindEscrow.ratings], fun _ => ⟨hl, rfl⟩⟩
    | ruled fee' hs =>
      have hscore : Op.score s id x.sender (.resolveDispute id true) = 3 := by simp [Op.score, hs]
      rw [hscore]
      exact ⟨rfl, fun _ => ⟨hl, rfl⟩⟩
    | released => exact ⟨rfl, fun h => absurd rfl h⟩
  | refund op after hl h =>
    cases h with
    | withdrawn | ghosted | failed | stale | ruled => exact ⟨rfl, fun h => absurd rfl h⟩
  | pick op winner scorecard judge fee hl h hsub hne hfee hle =>
    have hscore : op.score s id x.sender =
        if earnsRating s (s.tasks id) fee (decide (judge = .creator ∨ judge = .taskVerifier))
          then 5 else 0 := by
      have hworth := earnsRating_iff hfee (decide (judge = .creator ∨ judge = .taskVerifier))
      cases h <;> simp_all [Op.score]
    rw [ratings_guarded, ratings_append, ratings_append, ratings_payout, ← hscore]
    exact ⟨by simp [BlindEscrow.ratings], fun _ => ⟨hl, rfl⟩⟩
  | void op scorecard judge hl h =>
    have hzero : op.score s id x.sender = 0 := by
      cases h with
      | creator | backup => rfl
      | admin => simp [Op.score]
    rw [hzero]
    exact ⟨rfl, fun h => absurd rfl h⟩

/-- A call rates nobody, or makes the one rating it earns on the task it completes. -/
theorem Effect.ratings (h : Effect x s op s' todo) :
    (BlindEscrow.ratings todo = [] ∧ ∀ id, op.score s id x.sender = 0) ∨
      ∃ id, op.taskId = some id ∧ op.score s id x.sender ≠ 0 ∧
        BlindEscrow.ratings todo = [(id, op.score s id x.sender)] ∧ x.locked = false ∧
        (s'.tasks id).status = .completed ∧ ∀ j, j ≠ id → op.score s j x.sender = 0 := by
  have hother : ∀ {id}, op.taskId = some id → ∀ j, j ≠ id → op.score s j x.sender = 0 := by
    intro id hid j hj
    by_contra hne
    exact hj (Option.some.inj ((Op.score_taskId hne).symm.trans hid))
  have hnone : op.taskId = none → ∀ id, op.score s id x.sender = 0 := by
    intro hop id
    by_contra hne
    rw [Op.score_taskId hne] at hop
    cases hop
  have hverifier : ∀ i next, BlindEscrow.ratings (verifierEvents i next) = [] := by
    intro i next
    unfold verifierEvents
    split <;> rfl
  have hpayment : ∀ token amount, BlindEscrow.ratings (paymentOf x token amount) = [] := by
    intro token amount
    unfold paymentOf
    split <;> rfl
  cases h with
  | move id op r todo hid h =>
    obtain ⟨hrates, hdone⟩ := h.ratings
    by_cases hzero : op.score s id x.sender = 0
    · rw [if_pos hzero] at hrates
      refine .inl ⟨hrates, fun j => ?_⟩
      by_cases hj : j = id
      · rw [hj, hzero]
      · exact hother hid j hj
    · rw [if_neg hzero] at hrates
      have hst : ((s.put id r).row id).task.status = .completed := by
        rw [s.row_put_self]
        exact (hdone hzero).2
      exact .inr ⟨id, hid, hzero, hrates, (hdone hzero).1, hst, hother hid⟩
  | create op token i hl hp hop =>
    refine .inl ⟨?_, hnone (by rcases hop with ⟨rfl, -⟩ | rfl <;> rfl)⟩
    rw [ratings_guarded, ratings_append, ratings_append, hverifier, hpayment]
    rfl
  | batch token tasks =>
    refine .inl ⟨?_, hnone rfl⟩
    rw [ratings_guarded, ratings_append, ratings_announceAll]
    rfl
  | createOpen token i mode window =>
    refine .inl ⟨?_, hnone rfl⟩
    rw [ratings_guarded, ratings_append, ratings_append, ratings_append, hverifier, hpayment]
    rfl
  | configure op _ _ _ _ _ _ _ _ _ _ _ hop => exact .inl ⟨rfl, hnone hop⟩
  | pause | unpause | recordPauseStart => exact .inl ⟨rfl, hnone rfl⟩

/-! ## The reputation contract -/

/-- Same ratings and scores; disputes may differ. -/
structure SameRecords (R R' : BlindReputation.State) : Prop where
  rated : R'.ratedTasks = R.ratedTasks
  completed : ∀ a, (R'.reputations a).tasksCompleted = (R.reputations a).tasksCompleted
  total : ∀ a, (R'.reputations a).totalScore = (R.reputations a).totalScore

/-- `R'` has one rating more than `R`: `n` for `worker` on task `id`. -/
structure Rated (R R' : BlindReputation.State) (worker : Address) (id n : Nat) : Prop where
  fresh : R.ratedTasks worker id = false
  rated : ∀ a j, R'.ratedTasks a j = true ↔ a = worker ∧ j = id ∨ R.ratedTasks a j = true
  completed : ∀ a, (R'.reputations a).tasksCompleted =
    (R.reputations a).tasksCompleted + if a = worker then 1 else 0
  total : ∀ a, (R'.reputations a).totalScore =
    (R.reputations a).totalScore + if a = worker then n else 0

theorem SameRecords.refl (R : BlindReputation.State) : SameRecords R R :=
  ⟨rfl, fun _ => rfl, fun _ => rfl⟩

theorem SameRecords.trans {R₁ R₂ R₃ : BlindReputation.State} (h : SameRecords R₁ R₂)
    (h' : SameRecords R₂ R₃) : SameRecords R₁ R₃ :=
  ⟨h'.rated.trans h.rated, fun a => (h'.completed a).trans (h.completed a),
    fun a => (h'.total a).trans (h.total a)⟩

theorem SameRecords.then_rated {R₁ R₂ R₃ : BlindReputation.State} (h : SameRecords R₁ R₂)
    (h' : Rated R₂ R₃ worker id n) : Rated R₁ R₃ worker id n :=
  ⟨h.rated ▸ h'.fresh, h.rated ▸ h'.rated, fun a => h.completed a ▸ h'.completed a,
    fun a => h.total a ▸ h'.total a⟩

theorem Rated.then_same {R₁ R₂ R₃ : BlindReputation.State} (h : Rated R₁ R₂ worker id n)
    (h' : SameRecords R₂ R₃) : Rated R₁ R₃ worker id n :=
  ⟨h.fresh, h'.rated ▸ h.rated, fun a => (h'.completed a).trans (h.completed a),
    fun a => (h'.total a).trans (h.total a)⟩

/-- The escrow can rate now. -/
structure CanRate (D : Deployment) (w : World) : Prop where
  connected : reputationConnected D w
  running : w.reputation.paused = false
  authorized : w.reputation.authorizedRaters D.self = true

theorem rate_rated {sender : Address} (ha : R.authorizedRaters sender = true)
    (hp : R.paused = false) (hn : 1 ≤ n ∧ n ≤ 5) (hw : worker ≠ 0)
    (hfresh : R.ratedTasks worker id = false) :
    Rated R (attempt (BlindReputation.rate sender worker n id) R) worker id n := by
  have hrate : BlindReputation.rate sender worker n id R = .ok { R with
      ratedTasks := Function.update R.ratedTasks worker
        (Function.update (R.ratedTasks worker) id true)
      reputations := Function.update R.reputations worker
        { R.reputations worker with
          tasksCompleted := (R.reputations worker).tasksCompleted + 1
          totalScore := (R.reputations worker).totalScore + n } } := by
    simp [BlindReputation.rate, BlindReputation.onlyAuthorized, BlindReputation.whenNotPaused,
      require, ha, hp, hn, hw, hfresh]
  unfold attempt
  rw [hrate]
  refine ⟨hfresh, ?_, ?_, ?_⟩
  · intro a j
    by_cases hj : a = worker
    · subst hj
      by_cases hid : j = id
      · simp [hid]
      · simp [hid]
    · simp [hj]
  · intro a
    by_cases ha : a = worker
    · simp [ha]
    · simp [ha]
  · intro a
    by_cases ha : a = worker
    · simp [ha]
    · simp [ha]

theorem recordDispute_same (sender worker : Address) (id : Nat) (R : BlindReputation.State) :
    SameRecords R (attempt (BlindReputation.recordDispute sender worker id) R) := by
  unfold attempt
  split
  · rename_i R' h
    simp only [BlindReputation.recordDispute, seq_eq_ok, require_eq_ok, exists_const, pure_eq,
      BlindReputation.onlyAuthorized, BlindReputation.whenNotPaused, Except.ok.injEq] at h
    obtain ⟨-, -, -, rfl⟩ := h
    refine ⟨rfl, ?_, ?_⟩ <;> intro a <;> by_cases ha : a = worker <;> simp [ha]
  · exact .refl R

/-- Rating and recording disputes change neither the pause flag nor the raters. -/
theorem attempt_access {f : BlindReputation.State → BlindReputation.Outcome}
    (hf : (∃ worker score, f = BlindReputation.rate D.self worker score id) ∨
      ∃ worker, f = BlindReputation.recordDispute D.self worker id) (R : BlindReputation.State) :
    (attempt f R).paused = R.paused ∧ (attempt f R).authorizedRaters = R.authorizedRaters := by
  unfold attempt
  split
  · rename_i R' h
    rcases hf with ⟨worker, score, rfl⟩ | ⟨worker, rfl⟩
    · simp only [BlindReputation.rate, BlindReputation.onlyAuthorized,
        BlindReputation.whenNotPaused, seq_eq_ok, require_eq_ok, exists_const, pure_eq,
        Except.ok.injEq] at h
      obtain ⟨-, -, -, -, -, rfl⟩ := h
      exact ⟨rfl, rfl⟩
    · simp only [BlindReputation.recordDispute, BlindReputation.onlyAuthorized,
        BlindReputation.whenNotPaused, seq_eq_ok, require_eq_ok, exists_const, pure_eq,
        Except.ok.injEq] at h
      obtain ⟨-, -, -, rfl⟩ := h
      exact ⟨rfl, rfl⟩
  · exact ⟨rfl, rfl⟩

/-- Nobody but an authorised rater changes the ratings. -/
theorem enter_same {sender : Address} {op : BlindReputation.Op}
    (hs : R.authorizedRaters sender ≠ true) (h : BlindReputation.enter sender op R = .ok R') :
    SameRecords R R' := by
  cases op with
  | rate worker score task =>
    simp only [BlindReputation.enter, BlindReputation.rate, BlindReputation.onlyAuthorized,
      seq_eq_ok, require_eq_ok, exists_const] at h
    exact absurd h.1 hs
  | recordDispute worker task =>
    simp only [BlindReputation.enter, BlindReputation.recordDispute,
      BlindReputation.onlyAuthorized, seq_eq_ok, require_eq_ok, exists_const] at h
    exact absurd h.1 hs
  | proposeAdmin _ | authorizeRater _ | pause | unpause =>
    simp only [BlindReputation.enter, BlindReputation.onlyAdmin, BlindReputation.whenNotPaused,
      seq_eq_ok, require_eq_ok, exists_const, pure_eq, Except.ok.injEq] at h
    obtain ⟨-, -, rfl⟩ := h
    exact ⟨rfl, fun _ => rfl, fun _ => rfl⟩
  | acceptAdmin | revokeRater _ =>
    simp only [BlindReputation.enter, BlindReputation.onlyAdmin, seq_eq_ok, require_eq_ok,
      exists_const, pure_eq, Except.ok.injEq] at h
    obtain ⟨-, rfl⟩ := h
    exact ⟨rfl, fun _ => rfl, fun _ => rfl⟩

/-! ## Ratings as they are made -/

theorem ratings_cons (a : Action) (l : List Action) : ratings (a :: l) = ratings [a] ++ ratings l :=
  ratings_append [a] l

/-- What an interaction does to the reputation contract. -/
theorem act_reputation {a : Action} {paid : List Payment} {yields : Bool}
    (h : act D a w = .ok (w', paid, yields)) :
    w'.reputation = w.reputation ∨
      (∃ task score, a = .rate task score ∧ score ≠ 0 ∧ reputationConnected D w ∧
        w'.reputation = attempt (BlindReputation.rate D.self (w.escrow.tasks task).worker score task)
          w.reputation) ∨
      ∃ task, a = .recordDispute task ∧ w'.reputation =
        attempt (BlindReputation.recordDispute D.self (w.escrow.tasks task).worker task)
          w.reputation := by
  cases a with
  | rate task score =>
    simp only [act] at h
    split at h
    all_goals
      simp only [pure_eq, Except.ok.injEq, Prod.mk.injEq] at h
      obtain ⟨rfl, -⟩ := h
    · rename_i hrate
      exact .inr (.inl ⟨task, score, rfl, hrate.1, hrate.2, rfl⟩)
    · exact .inl rfl
  | recordDispute task =>
    simp only [act] at h
    split at h
    all_goals
      simp only [pure_eq, Except.ok.injEq, Prod.mk.injEq] at h
      obtain ⟨rfl, -⟩ := h
    · exact .inr (.inr ⟨task, rfl, rfl⟩)
    · exact .inl rfl
  | transferPayout task party amount =>
    simp only [act, transferPayout] at h
    split at h
    · simp only [pure_eq, Except.ok.injEq, Prod.mk.injEq] at h
      obtain ⟨rfl, -⟩ := h
      exact .inl rfl
    · simp only [seq_eq_ok, require_eq_ok, exists_const, orElse_eq_ok, pure_eq, Except.ok.injEq,
        Prod.mk.injEq] at h
      obtain ⟨-, ledger, -, rfl, -⟩ := h
      exact .inl rfl
  | pull token payer amount =>
    simp only [act, seq_eq_ok, orElse_eq_ok, pure_eq, Except.ok.injEq, Prod.mk.injEq] at h
    obtain ⟨ledger, -, rfl, -⟩ := h
    exact .inl rfl
  | lock | unlock | emit _ =>
    simp only [act, pure_eq, Except.ok.injEq, Prod.mk.injEq] at h
    obtain ⟨rfl, -⟩ := h
    exact .inl rfl
  | publish _ _ _ _ _ | closeListing _ =>
    simp only [act] at h
    split at h
    all_goals
      simp only [pure_eq, Except.ok.injEq, Prod.mk.injEq] at h
      obtain ⟨rfl, -⟩ := h
      exact .inl rfl

theorem act_unrated {a : Action} {paid : List Payment} {yields : Bool} (ha : ratings [a] = [])
    (h : act D a w = .ok (w', paid, yields)) : SameRecords w.reputation w'.reputation := by
  rcases act_reputation h with hsame | ⟨task, score, rfl, hscore, -⟩ | ⟨task, rfl, hdispute⟩
  · rw [hsame]
    exact .refl _
  · simp [ratings, hscore] at ha
  · rw [hdispute]
    exact recordDispute_same _ _ _ _

theorem act_access {a : Action} {paid : List Payment} {yields : Bool}
    (h : act D a w = .ok (w', paid, yields)) :
    w'.reputation.paused = w.reputation.paused ∧
      w'.reputation.authorizedRaters = w.reputation.authorizedRaters := by
  rcases act_reputation h with hsame | ⟨task, score, -, -, -, hrate⟩ | ⟨task, -, hdispute⟩
  · rw [hsame]
    exact ⟨rfl, rfl⟩
  · rw [hrate]
    exact attempt_access (.inl ⟨_, _, rfl⟩) _
  · rw [hdispute]
    exact attempt_access (.inr ⟨_, rfl⟩) _

theorem CanRate.act {a : Action} {paid : List Payment} {yields : Bool} (hc : CanRate D w)
    (h : BlindEscrow.act D a w = .ok (w', paid, yields)) : CanRate D w' := by
  obtain ⟨hpaused, hraters⟩ := act_access h
  have hescrow := (act_escrow h).1
  refine ⟨?_, hpaused.trans hc.running, hraters ▸ hc.authorized⟩
  unfold reputationConnected
  rw [hescrow]
  exact hc.connected

/-- No call of the escrow changes who may rate. -/
theorem drive_access (h : drive D l w = .ok stop) :
    stop.world.reputation.authorizedRaters = w.reputation.authorizedRaters := by
  induction l generalizing w stop with
  | nil => rw [drive_nil h]
  | cons a l ih =>
    obtain ⟨w₁, paid, yields, ha, ⟨-, rfl⟩ | ⟨-, stop', hd, rfl⟩⟩ := drive_cons h
    · exact (act_access ha).2
    · exact (ih hd).trans (act_access ha).2

theorem drive_unrated (hl : ratings l = []) (h : drive D l w = .ok stop) :
    ratings (stop.rest.getD []) = [] ∧ SameRecords w.reputation stop.world.reputation := by
  induction l generalizing w stop with
  | nil =>
    rw [drive_nil h]
    exact ⟨rfl, .refl _⟩
  | cons a l ih =>
    rw [ratings_cons, List.append_eq_nil_iff] at hl
    obtain ⟨w₁, paid, yields, ha, ⟨-, rfl⟩ | ⟨-, stop', hd, rfl⟩⟩ := drive_cons h
    · exact ⟨hl.2, act_unrated hl.1 ha⟩
    · obtain ⟨hrest, hsame⟩ := ih hl.2 hd
      exact ⟨hrest, (act_unrated hl.1 ha).trans hsame⟩

/-- The one rating of a call is made, or waits with the rest of the call. -/
theorem drive_rated (hl : ratings l = [(id, n)]) (hcan : CanRate D w) (hn : 1 ≤ n ∧ n ≤ 5)
    (hworker : (w.escrow.tasks id).worker ≠ 0)
    (hfresh : w.reputation.ratedTasks (w.escrow.tasks id).worker id = false)
    (h : drive D l w = .ok stop) :
    (ratings (stop.rest.getD []) = [(id, n)] ∧ SameRecords w.reputation stop.world.reputation) ∨
      (ratings (stop.rest.getD []) = [] ∧
        Rated w.reputation stop.world.reputation (w.escrow.tasks id).worker id n) := by
  induction l generalizing w stop with
  | nil => cases hl
  | cons a l ih =>
    obtain ⟨w₁, paid, yields, ha, hcase⟩ := drive_cons h
    by_cases hrates : ratings [a] = []
    · rw [ratings_cons, hrates, List.nil_append] at hl
      have hsame := act_unrated hrates ha
      have hescrow := (act_escrow ha).1
      rcases hcase with ⟨-, rfl⟩ | ⟨-, stop', hd, rfl⟩
      · exact .inl ⟨hl, hsame⟩
      · have hstep := ih hl (hcan.act ha) (by rwa [hescrow]) (by rwa [hescrow, hsame.rated]) hd
        rw [hescrow] at hstep
        rcases hstep with ⟨hrest, hsame'⟩ | ⟨hrest, hrated⟩
        · exact .inl ⟨hrest, hsame.trans hsame'⟩
        · exact .inr ⟨hrest, hsame.then_rated hrated⟩
    · cases a with
      | rate task score =>
        have hscore : score ≠ 0 := by
          intro hzero
          exact hrates (by simp [ratings, hzero])
        simp only [ratings, hscore, ↓reduceIte, List.cons.injEq, Prod.mk.injEq] at hl
        obtain ⟨⟨rfl, rfl⟩, hl⟩ := hl
        simp only [act, ne_eq, hscore, not_false_eq_true, hcan.connected, and_self, ↓reduceIte,
          pure_eq, Except.ok.injEq, Prod.mk.injEq] at ha
        obtain ⟨rfl, rfl, rfl⟩ := ha
        have hrated := rate_rated hcan.authorized hcan.running hn hworker hfresh
        rcases hcase with ⟨hy, -⟩ | ⟨-, stop', hd, rfl⟩
        · cases hy
        · obtain ⟨hrest, hsame⟩ := drive_unrated hl hd
          exact .inr ⟨hrest, hrated.then_same hsame⟩
      | _ => exact absurd rfl hrates

/-! ## The account -/

def pendingRatings (stack : List Frame) : List (Nat × Nat) :=
  stack.flatMap fun f => ratings f.rest

@[simp] theorem pendingRatings_nil : pendingRatings [] = [] := rfl

theorem pendingRatings_suspend (cid : Nat) (rest : Option (List Action)) (stack : List Frame) :
    pendingRatings (suspend cid rest stack) = ratings (rest.getD []) ++ pendingRatings stack := by
  cases rest <;> simp [suspend, pendingRatings, ratings]

/-- The reputation contract agrees with the scores earned, those still pending left out. -/
structure Tally (s : Escrow) (R : BlindReputation.State) (score : Nat → Nat)
    (pending : List (Nat × Nat)) : Prop where
  scored : ∀ id, score id ≠ 0 → id < s.nextTaskId ∧ (s.tasks id).status = .completed ∧
    3 ≤ score id ∧ score id ≤ 5
  waiting : pending = [] ∨ ∃ id, score id ≠ 0 ∧ pending = [(id, score id)]
  rated : ∀ a id, R.ratedTasks a id = true ↔
    (s.tasks id).worker = a ∧ score id ≠ 0 ∧ (id, score id) ∉ pending
  completed : ∀ a, (R.reputations a).tasksCompleted =
    ∑ id ∈ range s.nextTaskId, if R.ratedTasks a id = true then 1 else 0
  total : ∀ a, (R.reputations a).totalScore =
    ∑ id ∈ range s.nextTaskId, if R.ratedTasks a id = true then score id else 0

variable {score : Nat → Nat} {pending : List (Nat × Nat)}

/-- Steps that rate nobody keep the account. -/
theorem Tally.frame (h : Tally s R score pending) (hR : SameRecords R R')
    (hle : s.nextTaskId ≤ s'.nextTaskId)
    (hrow : ∀ id, id < s.nextTaskId → (s.tasks id).status = .completed → s'.row id = s.row id) :
    Tally s' R' score pending := by
  have hkept : ∀ id, score id ≠ 0 → s'.tasks id = s.tasks id := fun id hid =>
    congrArg Row.task (hrow id (h.scored id hid).1 (h.scored id hid).2.1)
  have hbeyond : ∀ a id, id ∉ range s.nextTaskId → R.ratedTasks a id ≠ true := by
    intro a id hid hrated
    exact hid (mem_range.mpr (h.scored id ((h.rated a id).mp hrated).2.1).1)
  constructor
  case scored =>
    intro id hid
    obtain ⟨hlt, hst, hrange⟩ := h.scored id hid
    exact ⟨hlt.trans_le hle, by rw [hkept id hid]; exact hst, hrange⟩
  case waiting => exact h.waiting
  case rated =>
    intro a id
    rw [hR.rated, h.rated]
    by_cases hid : score id = 0
    · simp [hid]
    · rw [hkept id hid]
  case completed =>
    intro a
    rw [hR.completed, hR.rated, h.completed]
    exact sum_subset (range_subset_range.mpr hle) fun id _ hid => if_neg (hbeyond a id hid)
  case total =>
    intro a
    rw [hR.total, hR.rated, h.total]
    exact sum_subset (range_subset_range.mpr hle) fun id _ hid => if_neg (hbeyond a id hid)

/-- A score earned now is pending first. -/
theorem Tally.defer (h : Tally s R score []) (hzero : score id = 0) (hlt : id < s.nextTaskId)
    (hst : (s.tasks id).status = .completed) (hn : 3 ≤ n ∧ n ≤ 5) :
    Tally s R (Function.update score id n) [(id, n)] := by
  have hunrated : ∀ a, R.ratedTasks a id ≠ true := fun a hrated =>
    ((h.rated a id).mp hrated).2.1 hzero
  constructor
  case scored =>
    intro j hj
    by_cases hid : j = id
    · subst hid
      rw [Function.update_self]
      exact ⟨hlt, hst, hn⟩
    · rw [Function.update_of_ne hid] at hj ⊢
      exact h.scored j hj
  case waiting =>
    refine .inr ⟨id, ?_, ?_⟩
    · rw [Function.update_self]
      omega
    · rw [Function.update_self]
  case rated =>
    intro a j
    by_cases hid : j = id
    · subst hid
      simp [hunrated a]
    · rw [h.rated, Function.update_of_ne hid]
      simp [hid]
  case completed => exact h.completed
  case total =>
    intro a
    rw [h.total]
    refine sum_congr rfl fun j _ => ?_
    by_cases hid : j = id
    · subst hid
      rw [if_neg (hunrated a), if_neg (hunrated a)]
    · rw [Function.update_of_ne hid]

/-- Making the pending rating settles the account. -/
theorem Tally.record (h : Tally s R score [(id, n)]) (hR : Rated R R' (s.tasks id).worker id n) :
    Tally s R' score [] := by
  obtain ⟨hid, rfl⟩ : score id ≠ 0 ∧ n = score id := by
    rcases h.waiting with hnil | ⟨j, hj, hpending⟩
    · cases hnil
    · simp only [List.cons.injEq, Prod.mk.injEq, and_true] at hpending
      obtain ⟨rfl, rfl⟩ := hpending
      exact ⟨hj, rfl⟩
  have hlt := (h.scored id hid).1
  have hsplit : ∀ (a : Address) (f : Nat → Nat),
      ∑ j ∈ range s.nextTaskId, (if R'.ratedTasks a j = true then f j else 0) =
        ∑ j ∈ range s.nextTaskId, (if R.ratedTasks a j = true then f j else 0) +
          if a = (s.tasks id).worker then f id else 0 := by
    intro a f
    have hone : (if a = (s.tasks id).worker then f id else 0) =
        ∑ j ∈ range s.nextTaskId, if j = id then (if a = (s.tasks id).worker then f j else 0)
          else 0 := by
      rw [sum_ite_eq' (range s.nextTaskId) id, if_pos (mem_range.mpr hlt)]
    rw [hone, ← sum_add_distrib]
    refine sum_congr rfl fun j _ => ?_
    by_cases hj : j = id
    · subst hj
      by_cases ha : a = (s.tasks j).worker
      · subst ha
        simp [(hR.rated _ j).mpr (.inl ⟨rfl, rfl⟩), hR.fresh]
      · simp [hR.rated, ha]
    · simp [hR.rated, hj]
  constructor
  case scored => exact h.scored
  case waiting => exact .inl rfl
  case rated =>
    intro a j
    rw [hR.rated, h.rated]
    by_cases hj : j = id
    · subst hj
      simp [hid, eq_comm]
    · simp [hj]
  case completed =>
    intro a
    rw [hR.completed, h.completed, hsplit]
  case total =>
    intro a
    rw [hR.total, h.total, hsplit]

/-! ## Along a run -/

/-- The escrow is the only authorised rater, and from the first task on it is connected to the
reputation contract, authorised, and that contract is not paused. -/
structure Exclusive (D : Deployment) (w : World) : Prop where
  only : ∀ a, w.reputation.authorizedRaters a = true → a = D.self
  ready : 1 < w.escrow.nextTaskId → CanRate D w

def Balanced (tr : Trace) (c : Config) : Prop :=
  Tally c.world.escrow c.world.reputation (fun id => scoreOf id tr) (pendingRatings c.stack)

theorem Sound.created_pos (hw : Sound D w) (hst : (w.escrow.tasks id).status ≠ .funded) : 0 < id := by
  by_contra hid
  exact hst (congrArg (fun r => r.task.status) (hw.blank id (.inl (by omega))))

theorem Balanced.step (hw : Sound D c.world) (hwait : Waiting c) (hexcl : Exclusive D c.world)
    (h : Step D c e c') (hb : Balanced tr c) : Balanced (e :: tr) c' := by
  have hnext := h.nextTaskId_le
  have hrow : ∀ id, id < c.world.escrow.nextTaskId →
      (c.world.escrow.tasks id).status = .completed →
      c'.world.escrow.row id = c.world.escrow.row id :=
    fun id hlt hst => h.settled hlt (by rw [hst]; rfl)
  have hquiet : (∀ id, e.score id = 0) → SameRecords c.world.reputation c'.world.reputation →
      pendingRatings c'.stack = pendingRatings c.stack → Balanced (e :: tr) c' := by
    intro hscore hsame hstack
    unfold Balanced
    simp only [scoreOf_cons, hscore, Nat.zero_add, hstack]
    exact Tally.frame hb hsame hnext hrow
  cases h with
  | call m stop hs hbegin =>
    obtain ⟨ledger, s', todo, -, -, -, heff, hdrive, rfl, -⟩ := begin_ok hbegin
    rcases heff.ratings with ⟨hnone, hscore⟩ | ⟨id, hid, hne, hone, hl, hst, hother⟩
    · obtain ⟨hrest, hsame⟩ := drive_unrated hnone hdrive
      exact hquiet hscore hsame (by rw [pendingRatings_suspend, hrest, List.nil_append])
    · have hstack : c.stack = [] := by
        rcases hwait with ⟨h, -⟩ | ⟨f, l, -, hlocked, -⟩
        · exact h
        · exact absurd (hl.symm.trans hlocked) Bool.false_ne_true
      obtain ⟨hmove, hid0, hlt, hr⟩ := hw.target hs heff hid
      have hlive := hmove.live
      have hr' := hr.move hmove hs
      have hworker : (stop.world.escrow.tasks id).worker ≠ 0 :=
        hr'.held (by simp [hst]) (by simp [hst])
      have hzero : scoreOf id tr = 0 := by
        by_contra hscore
        rw [(hb.scored id hscore).2.1] at hlive
        cases hlive
      have hrange := Op.score_range hne
      have hframe : Tally stop.world.escrow c.world.reputation (fun id => scoreOf id tr) [] := by
        have h := Tally.frame hb (.refl _) hnext hrow
        rwa [hstack] at h
      have hdefer := hframe.defer hzero (hlt.trans_le hnext) hst hrange
      have hscores : Function.update (fun id => scoreOf id tr) id
            (m.op.score c.world.escrow id m.sender) =
          fun j => scoreOf j (⟨.called c.calls m, c.world, stop.world, stop.paid⟩ :: tr) := by
        funext j
        simp only [scoreOf_cons, Event.score]
        by_cases hj : j = id
        · subst hj
          rw [Function.update_self, hzero, Nat.add_zero]
        · have h0 : m.op.score c.world.escrow j m.sender = 0 := hother j hj
          rw [Function.update_of_ne hj, h0, Nat.zero_add]
      have hfresh : c.world.reputation.ratedTasks (stop.world.escrow.tasks id).worker id = false := by
        by_contra hrated
        exact ((hframe.rated _ id).mp (Bool.eq_true_of_not_eq_false hrated)).2.1 hzero
      have hcan : CanRate D { c.world with ledger, escrow := stop.world.escrow } := by
        obtain ⟨hconnected, hrunning, hauth⟩ := hexcl.ready (by omega)
        refine ⟨?_, hrunning, hauth⟩
        have hsettings := (heff.task_settings hid).1.reputationContract
        exact ⟨hsettings ▸ hconnected.1, hsettings ▸ hconnected.2⟩
      unfold Balanced
      rw [← hscores, pendingRatings_suspend, hstack, pendingRatings_nil, List.append_nil]
      rcases drive_rated hone hcan ⟨by omega, hrange.2⟩ hworker hfresh hdrive with
        ⟨hrest, hsame⟩ | ⟨hrest, hrated⟩
      · rw [hrest]
        exact hdefer.frame hsame le_rfl fun _ _ _ => rfl
      · rw [hrest]
        exact hdefer.record hrated
  | ret f stack stop hdrive =>
    obtain rfl : stack = [] := by
      rcases hwait with ⟨h, -⟩ | ⟨f', l, h, -⟩
      · cases h
      · exact (List.cons.inj h).2
    have hpending : pendingRatings [f] = ratings f.rest := by simp [pendingRatings]
    have hfinish : pendingRatings (suspend f.cid stop.rest []) = ratings (stop.rest.getD []) := by
      rw [pendingRatings_suspend, pendingRatings_nil, List.append_nil]
    rcases hb.waiting with hnil | ⟨id, hid, hone⟩
    · rw [hpending] at hnil
      obtain ⟨hrest, hsame⟩ := drive_unrated hnil hdrive
      exact hquiet (fun _ => rfl) hsame (by rw [hfinish, hrest, hpending, hnil])
    · obtain ⟨hlt, hst, hrange⟩ := hb.scored id hid
      simp only at hlt hst
      have hid0 : 0 < id := hw.created_pos (by simp [hst])
      have hcan := hexcl.ready (by simp only; omega)
      have hworker := (hw.rows id hid0 hlt).held (by simp [hst]) (by simp [hst])
      have hfresh := fun a hrated => ((hb.rated a id).mp hrated).2.2 (by rw [hone]; simp)
      unfold Balanced
      rw [hfinish]
      simp only [scoreOf_cons, Event.score, Nat.zero_add]
      have hlast := hb
      unfold Balanced at hlast
      rw [hone] at hlast
      rw [hpending] at hone
      rw [(drive_escrow hdrive).1]
      rcases drive_rated hone hcan ⟨by omega, hrange.2⟩ hworker
        (Bool.eq_false_of_not_eq_true (hfresh _)) hdrive with ⟨hrest, hsame⟩ | ⟨hrest, hrated⟩
      · rw [hrest]
        exact hlast.frame hsame le_rfl fun _ _ _ => rfl
      · rw [hrest]
        exact hlast.record hrated
  | tick dt => exact hquiet (fun _ => rfl) (.refl _) rfl
  | funds ledger h => exact hquiet (fun _ => rfl) (.refl _) rfl
  | registry sender op registry hs h => exact hquiet (fun _ => rfl) (.refl _) rfl
  | reputation sender op reputation hs h =>
    exact hquiet (fun _ => rfl) (enter_same (fun hauth => hs.2 (hexcl.only sender hauth)) h) rfl

theorem Initial.balanced (h0 : Initial D c₀) (hrun : EscrowRun D c₀ tr c)
    (hfresh : ∀ a, c₀.world.reputation.reputations a = {} ∧
      ∀ id, c₀.world.reputation.ratedTasks a id = false)
    (hexcl : ∀ e ∈ tr, Exclusive D e.pre) : Balanced tr c := by
  induction hrun with
  | nil =>
    unfold Balanced
    rw [h0.stack]
    refine ⟨fun id hid => absurd rfl hid, .inl rfl, fun a id => ?_, fun a => ?_, fun a => ?_⟩
    · simp [(hfresh a).2 id]
    · simp [(hfresh a).1, (hfresh a).2]
    · simp [(hfresh a).1, (hfresh a).2]
  | @snoc tr b c e hrun hs ih =>
    refine Balanced.step (h0.sound_run hrun) (h0.waiting hrun) ?_ hs
      (ih fun e he => hexcl e (List.mem_cons_of_mem _ he))
    rw [← hs.worlds.1]
    exact hexcl e List.mem_cons_self

/-- A call earns a score only on a live task. -/
theorem Step.score_live (h : Step D c e c') (hw : Sound D c.world) (hne : e.score id ≠ 0) :
    (c.world.escrow.tasks id).status.live = true := by
  rcases h.storage with ⟨m, todo, hk, hs, heff, -, -⟩ | ⟨hk, -⟩
  · simp only [Event.score, hk] at hne
    exact (hw.target hs heff (Op.score_taskId hne)).1.live
  · cases hkind : e.kind with
    | called cid m => exact absurd hkind (hk cid m)
    | _ => simp [Event.score, hkind] at hne

/-- A settled task earns nothing more. -/
theorem scoreOf_settled (hw : Sound D c.world) (hrun : EscrowRun D c later c')
    (hid : id < c.world.escrow.nextTaskId) (hdead : (c.world.escrow.tasks id).status.live = false) :
    scoreOf id later = 0 := by
  induction hrun with
  | nil => rfl
  | @snoc later b c' e hrun hs ih =>
    have hb : (b.world.escrow.tasks id).status.live = false := by
      rw [show (b.world.escrow.tasks id).status = (c.world.escrow.tasks id).status from
        congrArg (fun r => r.task.status) (settled_run hrun hid hdead)]
      exact hdead
    have hzero : e.score id = 0 := by
      by_contra hne
      exact absurd (hb.symm.trans (hs.score_live (hw.run hrun) hne)) Bool.false_ne_true
    rw [scoreOf_cons, hzero, ih]

/-- An average of scores from 3 to 5, scaled by 100. -/
theorem average_range {total count : Nat} (hcount : 0 < count) (hlo : 3 * count ≤ total)
    (hhi : total ≤ 5 * count) : 300 ≤ total * 100 / count ∧ total * 100 / count ≤ 500 := by
  constructor
  · rw [Nat.le_div_iff_mul_le hcount]
    omega
  · rw [Nat.div_le_iff_le_mul_add_pred hcount]
    omega

/-- One call decides the score of a completed task. -/
theorem Initial.score_settlement (h0 : Initial D c₀) (hrun : EscrowRun D c₀ tr c)
    (hfresh : ∀ a, c₀.world.reputation.reputations a = {} ∧
      ∀ id, c₀.world.reputation.ratedTasks a id = false)
    (hexcl : ∀ e ∈ tr, Exclusive D e.pre) (hst : (c.world.escrow.tasks id).status = .completed) :
    ∃ later e earlier cid m, tr = later ++ e :: earlier ∧ e.settles id cid ∧
      e.kind = .called cid m ∧ scoreOf id tr = m.op.score e.pre.escrow id m.sender ∧
      scoreOf id later = 0 ∧ scoreOf id earlier = 0 := by
  obtain ⟨later, e, earlier, b, b', m, todo, rfl, hbefore, hs, hlater, hsettle, hk, -, -, hlt, -⟩ :=
    h0.settlement hrun (show (c.world.escrow.tasks id).status.live = false by rw [hst]; rfl)
  have hearlier : scoreOf id earlier = 0 := by
    by_contra hne
    have hbal := h0.balanced hbefore hfresh fun e he => hexcl e (by simp [he])
    have hdone := (hbal.scored id hne).2.1
    have hlive := hsettle.2.1
    rw [hs.worlds.1, hdone] at hlive
    cases hlive
  have hlater' : scoreOf id later = 0 := by
    refine scoreOf_settled (h0.sound_run (.snoc hbefore hs)) hlater
      (hlt.trans_le hs.nextTaskId_le) ?_
    rw [← hs.worlds.2]
    exact hsettle.2.2
  refine ⟨later, e, earlier, b.calls, m, rfl, hsettle, hk, ?_, hlater', hearlier⟩
  rw [scoreOf_append, scoreOf_cons, hearlier, hlater', Nat.zero_add, Nat.add_zero, Event.score, hk]

/-- A worker's counters, from the tasks it has a rating for. -/
theorem Tally.counters (h : Tally s R score pending) (worker : Address) :
    ∃ earned : Finset Nat,
      (∀ id, id ∈ earned ↔ id < s.nextTaskId ∧ (s.tasks id).status = .completed ∧
        (s.tasks id).worker = worker ∧ score id ≠ 0 ∧ (id, score id) ∉ pending) ∧
      (R.reputations worker).tasksCompleted = earned.card ∧
      (R.reputations worker).totalScore = ∑ id ∈ earned, score id := by
  refine ⟨(range s.nextTaskId).filter fun id => R.ratedTasks worker id = true, ?_, ?_, ?_⟩
  · intro id
    rw [mem_filter, mem_range, h.rated]
    constructor
    · rintro ⟨hlt, hworker, hscore, hpending⟩
      exact ⟨hlt, (h.scored id hscore).2.1, hworker, hscore, hpending⟩
    · rintro ⟨hlt, -, hworker, hscore, hpending⟩
      exact ⟨hlt, hworker, hscore, hpending⟩
  · rw [h.completed, card_filter]
  · rw [h.total, sum_filter]

/-! ## The guarantee -/

/-- Reputation counts exactly the earned ratings. A worker's `tasksCompleted` is the number of
completed tasks paid to it whose settling call earned a score, its `totalScore` the sum of these
scores, and its average lies between 3 and 5. A completed task has one settling call, which alone
decides its score, so no task counts twice. Only while that call still waits for a payee to return
the rating is outstanding. -/
theorem reputation_earned (h0 : Initial D c₀) (hrun : EscrowRun D c₀ tr c)
    (hfresh : ∀ a, c₀.world.reputation.reputations a = {} ∧
      ∀ id, c₀.world.reputation.ratedTasks a id = false)
    (hexcl : ∀ e ∈ tr, Exclusive D e.pre) (worker : Address) :
    ∃ earned : Finset Nat,
      (∀ id, id ∈ earned ↔ id < c.world.escrow.nextTaskId ∧
        (c.world.escrow.tasks id).status = .completed ∧
        (c.world.escrow.tasks id).worker = worker ∧ scoreOf id tr ≠ 0 ∧
        (id, scoreOf id tr) ∉ pendingRatings c.stack) ∧
      (c.world.reputation.reputations worker).tasksCompleted = earned.card ∧
      (c.world.reputation.reputations worker).totalScore = ∑ id ∈ earned, scoreOf id tr ∧
      (∀ id, (c.world.escrow.tasks id).status = .completed →
        ∃ later e earlier cid m, tr = later ++ e :: earlier ∧ e.settles id cid ∧
          e.kind = .called cid m ∧ scoreOf id tr = m.op.score e.pre.escrow id m.sender ∧
          scoreOf id later = 0 ∧ scoreOf id earlier = 0) ∧
      (0 < (BlindReputation.getReputation worker c.world.reputation).1 →
        300 ≤ (BlindReputation.getReputation worker c.world.reputation).2.1 ∧
          (BlindReputation.getReputation worker c.world.reputation).2.1 ≤ 500) := by
  have hb := h0.balanced hrun hfresh hexcl
  obtain ⟨earned, hearned, hcompleted, htotal⟩ := Tally.counters hb worker
  refine ⟨earned, hearned, hcompleted, htotal,
    fun id hst => h0.score_settlement hrun hfresh hexcl hst, ?_⟩
  intro hpos
  have hcount : 0 < earned.card := hcompleted ▸ hpos
  have hscored := fun id hid => (hb.scored id ((hearned id).mp hid).2.2.2.1).2.2
  have hlo : 3 * earned.card ≤ ∑ id ∈ earned, scoreOf id tr := by
    rw [Nat.mul_comm, ← smul_eq_mul]
    exact card_nsmul_le_sum earned _ 3 fun id hid => (hscored id hid).1
  have hhi : ∑ id ∈ earned, scoreOf id tr ≤ 5 * earned.card := by
    rw [Nat.mul_comm, ← smul_eq_mul]
    exact sum_le_card_nsmul earned _ 5 fun id hid => (hscored id hid).2
  have haverage := average_range hcount hlo hhi
  rw [← htotal, ← hcompleted] at haverage
  have hcount' : 0 < (c.world.reputation.reputations worker).tasksCompleted := hpos
  simpa only [BlindReputation.getReputation, if_pos hcount'] using haverage

/-- A step of the escrow itself leaves the raters as they are. -/
theorem Step.raters (h : Step D c e c') (hk : e.kind ≠ .outside) :
    c'.world.reputation.authorizedRaters = c.world.reputation.authorizedRaters := by
  cases h with
  | call m stop hs hbegin =>
    obtain ⟨ledger, s', todo, -, -, -, -, hdrive, -⟩ := begin_ok hbegin
    exact (drive_access hdrive :)
  | ret f stack stop hdrive => exact drive_access hdrive
  | tick dt => rfl
  | funds | reputation | registry => exact absurd rfl hk

theorem raters_run (h : EscrowRun D c tr c') (hk : ∀ e ∈ tr, e.kind ≠ .outside) :
    c'.world.reputation.authorizedRaters = c.world.reputation.authorizedRaters ∧
      ∀ e ∈ tr, e.pre.reputation.authorizedRaters = c.world.reputation.authorizedRaters := by
  induction h with
  | nil => exact ⟨rfl, by simp⟩
  | @snoc tr b c' e hrun hs ih =>
    obtain ⟨hb, hall⟩ := ih fun e he => hk e (List.mem_cons_of_mem _ he)
    refine ⟨(hs.raters (hk e List.mem_cons_self)).trans hb, ?_⟩
    intro g hg
    rcases List.mem_cons.mp hg with rfl | hg
    · rw [hs.worlds.1, hb]
    · exact hall g hg

/-- Two tasks of 10: one passed by the global verifier, one by a verifier of its own. -/
def twoPasses : List Cue :=
  [.send ⟨1, 0, .allowToken 0⟩, .send ⟨1, 0, .setReputationContract 101⟩,
    .send ⟨10, 500, .createTask 7 0 500 "delivery" "north" 7200⟩,
    .send ⟨10, 500, .createTaskWithVerifier 7 0 500 "delivery" "north" 7200 11⟩,
    .send ⟨10, 0, .assignWorker 1 20⟩, .send ⟨10, 0, .assignWorker 2 20⟩,
    .send ⟨20, 0, .submitEvidence 1 8⟩, .send ⟨20, 0, .submitEvidence 2 9⟩,
    .send ⟨3, 0, .completeVerification 1 true⟩, .resume, .resume,
    .send ⟨11, 0, .completeVerification 2 true⟩, .resume, .resume]

theorem reputation_earned_twoPasses :
    (BlindReputation.getReputation 20 (demoPlay twoPasses).1.world.reputation).1 = 1 ∧
      scoreOf 1 (demoPlay twoPasses).2 = 5 ∧ scoreOf 2 (demoPlay twoPasses).2 = 0 ∧
      300 ≤ (BlindReputation.getReputation 20 (demoPlay twoPasses).1.world.reputation).2.1 := by
  have hexcl : ∀ e ∈ (demoPlay twoPasses).2, Exclusive demo e.pre := by
    intro e he
    have hraters := (raters_run (demoPlay_run twoPasses) (by decide)).2 e he
    have hready : ∀ e ∈ (demoPlay twoPasses).2, 1 < e.pre.escrow.nextTaskId →
        reputationConnected demo e.pre ∧ e.pre.reputation.paused = false := by decide
    refine ⟨fun a ha => ?_, fun hnext => ⟨(hready e he hnext).1, (hready e he hnext).2, ?_⟩⟩
    · rw [hraters] at ha
      exact of_decide_eq_true ha
    · rw [hraters]
      rfl
  obtain ⟨earned, -, -, -, -, haverage⟩ := reputation_earned (demoStart_initial (by decide))
    (demoPlay_run twoPasses) (fun a => ⟨rfl, fun _ => rfl⟩) hexcl 20
  exact ⟨by decide, by decide, by decide, (haverage (by decide)).1⟩

end BlindEscrow
