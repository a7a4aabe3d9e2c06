import BlindMarket.EarnedShares.System

/-!
# What is credited and what was paid

A call credits the amount less the cut of the one fee it reads: from the memory
of its process, from the escrow, or the fallback. The worker was paid the
amount less the cut of the fee at the settlement.
-/
namespace EarnedShares

open Async Prog Runs WorkerPayout

variable {D : TaskChain → BlindEscrow.Deployment} {F : Config} {s s' s₀ : State} {t : Call}
  {e : Ev} {tr : List Ev} {pool : Pool Ans Failure Unit Call State} {a : Answers Ans Failure}
  {i : Input} {share : Int} {bps : Nat}

/-! ## What a call has read -/

/-- The fees among the answers of a call. -/
def feesTold (a : Answers Ans Failure) : List Nat := a.filterMap feeOf

/-- A credit comes after one fee, and is the share at that fee. -/
def Asks (F : Config) (t : Call) (a : Answers Ans Failure) : Cmd → Prop
  | .creditPayoutOnce claim address unit amountRaw =>
    claim = ⟨t.input.taskHash, t.chain⟩ ∧ address = t.input.executorAddr ∧
      payoutCurrency F t.chain t.input.settlement.token = some unit ∧
      ∃ bps, feesTold a = [bps] ∧ amountRaw = workerShare t.input unit bps
  | _ => True

theorem asks_of_not_credit {c : Cmd} (h : ¬ IsCredit c) : Asks F t a c := by
  cases c with
  | creditPayoutOnce claim address unit amountRaw => exact absurd trivial h
  | _ => trivial

theorem told_claimMarker :
    (claimMarker i).Told (Asks F t) (fun a _ => feesTold a = []) [] := by
  refine ⟨trivial, fun r => ?_⟩
  cases r <;> rfl

theorem told_getFeeBps {chain : TaskChain} (h : feesTold a = []) :
    (getFeeBps chain).Told (Asks F t) (fun a r => ∀ bps, r = .ok bps → feesTold a = [bps]) a := by
  have hone : ∀ x bps, feeOf x = some bps → feesTold (x :: a) = [bps] := by
    intro x bps hx
    simp only [feesTold, List.filterMap_cons, hx] at h ⊢
    rw [h]
  have hnone : ∀ x y bps, feeOf x = none → feeOf y = some bps → feesTold (y :: x :: a) = [bps] := by
    intro x y bps hx hy
    simp only [feesTold, List.filterMap_cons, hx, hy] at h ⊢
    rw [h]
  refine ⟨trivial, fun r => ?_⟩
  cases r with
  | error e =>
    intro bps heq
    cases heq
  | ok cached =>
    cases cached with
    | some bps =>
      intro bps' heq
      cases heq
      exact hone _ _ rfl
    | none =>
      refine ⟨trivial, fun r => ?_⟩
      cases r with
      | ok bps =>
        intro bps' heq
        cases heq
        exact hnone _ _ _ rfl rfl
      | error e =>
        intro bps' heq
        cases heq
        exact hnone _ _ _ rfl rfl

theorem told_credit {unit : SettlementUnit} {markerSet : Option Bool}
    (hunit : payoutCurrency F t.chain t.input.settlement.token = some unit)
    (h : feesTold a = []) :
    (credit t.input unit markerSet).Told (Asks F t) (fun _ _ => True) a := by
  refine Told.bind (told_getFeeBps h) (fun a' bps _ htold => ?_) fun _ _ _ _ => trivial
  refine ⟨⟨rfl, rfl, hunit, bps, htold bps rfl, rfl⟩, fun r => ?_⟩
  cases r with
  | error e => trivial
  | ok outcome =>
    exact (issues_onOutcome (P := fun c => ¬ IsCredit c) id (fun _ => id) (fun _ _ _ _ => id)
      fun _ _ => id).heeds (fun _ _ => asks_of_not_credit) _

theorem told_recordWorkerPayout :
    (recordWorkerPayout F t.input).Told (Asks F t) (fun _ _ => True) [] := by
  unfold recordWorkerPayout
  split
  · exact (issues_park (P := fun c => ¬ IsCredit c) id id).heeds (fun _ _ => asks_of_not_credit) _
  · next unit hunit =>
    refine Told.bind told_claimMarker (fun a markerSet _ htold => ?_) fun _ _ _ _ => trivial
    split
    · exact (trivial : True)
    · refine Told.andThen (Told.attempt (R := fun _ _ => True)
        (told_credit (creditable_eq_some hunit).1 htold) fun _ _ _ _ => trivial)
        fun a' r _ _ => ?_
      cases r with
      | error e => exact (trivial : True)
      | ok r =>
        cases r with
        | ok _ => exact (trivial : True)
        | error e =>
          exact (issues_recover (P := fun c => ¬ IsCredit c) id id).heeds
            (fun _ _ => asks_of_not_credit) _

/-! ## Credits and payments -/

/-- The call whose credit an event is, and the share. -/
def creditOf (e : Ev) : Option (Call × Int) :=
  match e.label with
  | .ran t (.creditPayoutOnce claim _ _ amountRaw) _ =>
    if (e.pre.books.db.creditedPayouts claim.taskHash).isNone &&
        (e.post.books.db.creditedPayouts claim.taskHash).isSome then some (t, amountRaw)
    else none
  | _ => none

/-- The total in the currency of the task goes up by the share. -/
def Earns (F : Config) (i : Input) (share : Int) (db db' : Database) : Prop :=
  ∃ unit a a', payoutCurrency F i.settlement.chain i.settlement.token = some unit ∧
    db.agentExecutors i.executorAddr = some a ∧ db'.agentExecutors i.executorAddr = some a' ∧
    Credited a a' unit share

/-- A task is known by its chain and its id there. -/
abbrev Task := TaskChain × Nat

def Call.task (t : Call) : Task := (t.chain, t.taskId)

def creditedBy (task : Task) (e : Ev) : Int :=
  match creditOf e with
  | some (t, share) => if t.task = task then share else 0
  | none => 0

/-- What a run has credited for a task. -/
def credited (tr : List Ev) (task : Task) : Int := (tr.map (creditedBy task)).sum

/-- What the escrow has transferred to the worker of a task. -/
def paid (s : State) (task : Task) : Nat := BlindEscrow.workerPaid task.2 (s.chains task.1).trace

/-- At this fee the platform's cut is what it was at the settlement. -/
def SameCut (s : State) (t : Call) (bps : Nat) : Prop :=
  ∀ fee ∈ BlindEscrow.feeAt t.taskId (s.chains t.chain).trace,
    t.input.grossAmount * bps / 10000 = t.input.grossAmount * fee / 10000

/-- A call gets its fee: its process remembers it, the escrow says it, or cannot be asked. -/
def Reads (e : Ev) (t : Call) (bps : Nat) : Prop :=
  ∃ c r, e.label = .ran t c r ∧ feeOf ⟨c, r⟩ = some bps

/-- The fee that a call gets takes the cut of the settlement. -/
def Timely (e : Ev) : Prop := ∀ t bps, Reads e t bps → SameCut e.pre t bps

/-! ## The credit of a call -/

/-- A command of a call credits the share at the one fee it was told, or leaves the database. -/
theorem credit_cases {x : Turn} {b b' : WorkerPayout.State} {c : Cmd}
    {r : Except Failure (Ans c)} (hx : WorkerPayout.respond F x b c = (r, b'))
    (hasks : Asks F t a c) :
    b'.db = b.db ∨ ∃ unit bps, c = .creditPayoutOnce ⟨t.input.taskHash, t.chain⟩
        t.input.executorAddr unit (workerShare t.input unit bps) ∧ feesTold a = [bps] ∧
      b.db.creditedPayouts t.input.taskHash = none ∧
      (b'.db.creditedPayouts t.input.taskHash).isSome = true ∧
      Earns F t.input (workerShare t.input unit bps) b.db b'.db := by
  obtain hs | hs := respond_state hx
  · exact .inl (congrArg _ hs)
  cases c with
  | creditPayoutOnce claim address unit amountRaw =>
    obtain ⟨rfl, rfl, hunit, bps, htold, rfl⟩ := hasks
    obtain ⟨a₀, a', hrow, hagent, hcredited, heq⟩ | ⟨-, heq⟩ | ⟨-, heq⟩ :=
      creditPayoutOnce_cases F ⟨t.input.taskHash, t.chain⟩ t.input.executorAddr unit
        (workerShare t.input unit bps) b.db
    · refine .inr ⟨unit, bps, rfl, htold, hrow, ?_, unit, a₀, a', hunit, hagent, ?_, hcredited⟩
      · simp [hs, effect, heq]
      · simp [hs, effect, heq]
    · exact .inl (by simp [hs, effect, heq])
    · exact .inl (by simp [hs, effect, heq])
  | _ => exact .inl (hs ▸ effect_db (by intros; simp))

/-- Rows of credited payouts stay, whoever asks. -/
theorem respond_row {x : Turn} {b b' : WorkerPayout.State} {c : Cmd} {r : Except Failure (Ans c)}
    (hx : WorkerPayout.respond F x b c = (r, b')) {taskHash : Hash}
    (hrow : (b.db.creditedPayouts taskHash).isSome = true) :
    (b'.db.creditedPayouts taskHash).isSome = true := by
  obtain hs | hs := respond_state hx
  · rw [hs]
    exact hrow
  cases c with
  | creditPayoutOnce claim address unit amountRaw =>
    obtain ⟨a₀, a', hnone, -, -, heq⟩ | ⟨-, heq⟩ | ⟨-, heq⟩ :=
      creditPayoutOnce_cases F claim address unit amountRaw b.db
    · have hne : taskHash ≠ claim.taskHash := by
        rintro rfl
        rw [hnone] at hrow
        cases hrow
      simpa [hs, effect, heq, Function.update_of_ne hne] using hrow
    · simpa [hs, effect, heq] using hrow
    · simpa [hs, effect, heq] using hrow
  | _ => rwa [hs, effect_db (by intros; simp)]

theorem run_row {b b' : Pool Ans Failure Unit Call State} (h : PoolRun (backend D F) b tr b')
    {taskHash : Hash} (hrow : (b.state.books.db.creditedPayouts taskHash).isSome = true) :
    (b'.state.books.db.creditedPayouts taskHash).isSome = true := by
  refine Run.relates (R := fun _ b' => (b'.state.books.db.creditedPayouts taskHash).isSome = true) h
    hrow ?_
  intro b₁ e b₂ hat hs
  cases hs with
  | run l₁ l₂ t c k r hx =>
    obtain ⟨fate, hx⟩ := hx
    exact respond_row (respond_books hx).2 hat
  | start l t p hx =>
    obtain ⟨-, -, -, rfl⟩ := hx
    exact hat
  | finish => exact hat
  | env l hx =>
    cases hx with
    | mined => exact hat
    | others books h => exact h.1.symm ▸ hat
  | die l₁ l₂ t p hx =>
    rw [hx]
    exact hat

/-! ## What stays of a settlement -/

theorem Settled.dead (h : Settled s t) :
    ((s.chains t.chain).config.world.escrow.tasks t.taskId).status.live = false :=
  (congrArg _ h.status).trans rfl

theorem Reached.sound (h : Reached D s) (chain : TaskChain) :
    BlindEscrow.Sound (D chain) (s.chains chain).config.world := by
  obtain ⟨-, c₀, hinit, hrun⟩ := h chain
  exact hinit.sound_run hrun

theorem Settled.task_later (h : Settled s t) (hreached : Reached D s) (hlater : Later D s s') :
    s'.task t = s.task t := by
  obtain ⟨trace, -, hrun⟩ := hlater t.chain
  have hrow := BlindEscrow.settled_run hrun ((hreached.sound t.chain).created h.dead) h.dead
  exact congrArg (fun r => r.task) hrow

theorem Settled.later (h : Settled s t) (hreached : Reached D s) (hlater : Later D s s') :
    Settled s' t := by
  have htask := h.task_later hreached hlater
  exact ⟨htask ▸ h.status, htask ▸ h.grossAmount, htask ▸ h.token, htask ▸ h.taskHash⟩

theorem Settled.feeAt_later (h : Settled s t) (hreached : Reached D s) (hlater : Later D s s') :
    BlindEscrow.feeAt t.taskId (s'.chains t.chain).trace =
      BlindEscrow.feeAt t.taskId (s.chains t.chain).trace := by
  obtain ⟨trace, htrace, hrun⟩ := hlater t.chain
  rw [htrace]
  exact BlindEscrow.feeAt_run (hreached.sound t.chain) hrun h.dead

/-- The worker of a settled task was paid the amount less the cut of the settlement. -/
theorem Settled.paid_eq (h : Settled s t) (hreached : Reached D s) :
    ∃ fee, BlindEscrow.feeAt t.taskId (s.chains t.chain).trace = some fee ∧
      (paid s t.task : Int) =
        t.input.grossAmount - (t.input.grossAmount * fee / 10000 : Nat) := by
  obtain ⟨hstack, c₀, hinit, hrun⟩ := hreached t.chain
  obtain ⟨fee, hfee, hmax, hpaid⟩ := hinit.workerPaid_eq hrun hstack h.status
  refine ⟨fee, hfee, ?_⟩
  have hcut : t.input.grossAmount * fee / 10000 ≤ t.input.grossAmount := by
    have hbps : fee ≤ 10000 := hmax.trans (by decide)
    exact Nat.div_le_of_le_mul (Nat.mul_comm _ _ ▸ Nat.mul_le_mul_right _ hbps)
  have hamount : t.input.grossAmount =
      ((s.chains t.chain).config.world.escrow.tasks t.taskId).amount := h.grossAmount
  rw [← hamount] at hpaid
  simp only [paid, Call.task, hpaid]
  omega

theorem Settled.paid_later (h : Settled s t) (hreached : Reached D s) (hlater : Later D s s')
    (hreached' : Reached D s') : paid s' t.task = paid s t.task := by
  obtain ⟨fee, hfee, hpaid⟩ := h.paid_eq hreached
  obtain ⟨fee', hfee', hpaid'⟩ := (h.later hreached hlater).paid_eq hreached'
  rw [h.feeAt_later hreached hlater, hfee] at hfee'
  cases hfee'
  exact Int.ofNat.inj (hpaid'.trans hpaid.symm)

/-- Without compute cost the share is the amount less the cut. -/
theorem workerShare_eq {unit : SettlementUnit} (h : i.computeCostMicroUnits = 0) :
    workerShare i unit bps = i.grossAmount - (i.grossAmount * bps / 10000 : Nat) := by
  have hall : afterComputeCost i unit = i.grossAmount := by
    simp only [afterComputeCost, h]
    split <;> split <;> omega
  rw [workerShare, WorkerPayout.platformFee, hall]

/-! ## Runs -/

section Runs

variable {b : Pool Ans Failure Unit Call State}

theorem start_told (tags : List Call) (s : State) (t : Call) (p : Payout Unit) (s' : State)
    (h : (backend D F).start tags s t p s') : p.Told (Asks F t) (fun _ _ => True) [] :=
  h.2.1 ▸ told_recordWorkerPayout

/-- The calls under way are for settled tasks. -/
theorem known_settled (h : PoolRun (backend D F) ⟨s₀, []⟩ tr pool) (h0 : Reached D s₀)
    (hknown : known tr t = some a) : Settled pool.state t := by
  revert t a
  refine Run.invariant (I := fun tr pool => ∀ {t a}, known tr t = some a → Settled pool.state t) h
    (by simp) ?_
  intro tr b e b' hrun hat hs t a hknown
  have hm := backend_numbered.move (Q := fun _ _ _ => True) hrun hs start_told
  have hlater : Later D b.state b'.state := run_later (.single hs)
  have hkeep : ∀ {a}, known tr t = some a → Settled b'.state t := fun hk =>
    (hat hk).later (run_reached hrun h0) hlater
  generalize b'.state = s' at hm hlater hkeep
  cases hm with
  | ran t' a' c r hknown' hasks hx =>
    obtain ⟨rfl, -⟩ | ⟨-, hk⟩ := known_answered hknown' hknown
    · exact hkeep hknown'
    · exact hkeep hk
  | started t' p tags hfresh hx =>
    obtain ⟨-, -, hsettled, rfl⟩ := hx
    by_cases htag : t' = t
    · subst htag
      exact ⟨hsettled.status, hsettled.grossAmount, hsettled.token, hsettled.taskHash⟩
    · rw [known_started, if_neg htag] at hknown
      exact hkeep hknown
  | finished t' a' r hknown' hends =>
    by_cases htag : t' = t
    · simp [htag] at hknown
    · rw [known_finished, if_neg htag] at hknown
      exact hkeep hknown
  | env hx => exact hkeep hknown
  | died t' a' hknown' hx =>
    by_cases htag : t' = t
    · simp [htag] at hknown
    · rw [known_died, if_neg htag] at hknown
      exact hkeep hknown

/-- A command of a run, with what its call knew. -/
theorem ran_known {later earlier : List Ev} {c : Cmd} {r : Except Failure (Ans c)}
    (h : PoolRun (backend D F) ⟨s₀, []⟩ (later ++ e :: earlier) pool) (h0 : Reached D s₀)
    (hlabel : e.label = .ran t c r) :
    ∃ a, known earlier t = some a ∧ Asks F t a c ∧ Reached D e.pre ∧ Settled e.pre t ∧
      Later D e.pre pool.state ∧ Reached D pool.state ∧
      ∃ fate, respond F t fate e.pre c = (r, e.post) := by
  obtain ⟨b, b', hrun, hs, hafter⟩ := h.split
  have hlater : Later D b.state pool.state := (run_later (.single hs)).trans (run_later hafter)
  have hm := backend_numbered.move (Q := fun _ _ _ => True) hrun hs start_told
  have hreached := run_reached hrun h0
  have hsettled : ∀ {t a}, known earlier t = some a → Settled b.state t := known_settled hrun h0
  have hpool := run_reached h h0
  generalize b.state = s at hm hlater hreached hsettled
  generalize b'.state = s' at hm
  cases hm with
  | ran t' a c' r' hknown hasks hx =>
    cases hlabel
    exact ⟨a, hknown, hasks, hreached, hsettled hknown, hlater, hpool, hx⟩
  | _ => cases hlabel

/-- A credit of a run: what its call knew, and what it did to the database. -/
structure Credit (D : TaskChain → BlindEscrow.Deployment) (F : Config) (earlier : List Ev) (e : Ev)
    (t : Call) (share : Int) : Prop where
  reached : Reached D e.pre
  settled : Settled e.pre t
  told : ∃ a unit bps, known earlier t = some a ∧ feesTold a = [bps] ∧
    share = workerShare t.input unit bps
  before : e.pre.books.db.creditedPayouts t.input.taskHash = none
  after : (e.post.books.db.creditedPayouts t.input.taskHash).isSome = true
  earns : Earns F t.input share e.pre.books.db e.post.books.db

theorem credit_of_creditOf {later earlier : List Ev}
    (h : PoolRun (backend D F) ⟨s₀, []⟩ (later ++ e :: earlier) pool) (h0 : Reached D s₀)
    (hcredit : creditOf e = some (t, share)) : Credit D F earlier e t share := by
  unfold creditOf at hcredit
  split at hcredit
  · next t' claim address unit amountRaw r hlabel =>
    split at hcredit
    · next htest =>
      cases hcredit
      simp only [Bool.and_eq_true, Option.isNone_iff_eq_none] at htest
      obtain ⟨a, hknown, hasks, hreached, hsettled, -, -, fate, hx⟩ := ran_known h h0 hlabel
      obtain hsame | ⟨unit', bps, heq, htold, hbefore, hafter, hearns⟩ :=
        credit_cases (respond_books hx).2 hasks
      · rw [hsame, htest.1] at htest
        cases htest.2
      · cases heq
        exact ⟨hreached, hsettled, ⟨a, _, bps, hknown, htold, rfl⟩, hbefore, hafter, hearns⟩
    · cases hcredit
  · cases hcredit

/-- A call changes the database by its credit only. -/
theorem ran_credits {later earlier : List Ev} {c : Cmd} {r : Except Failure (Ans c)}
    (h : PoolRun (backend D F) ⟨s₀, []⟩ (later ++ e :: earlier) pool) (h0 : Reached D s₀)
    (hlabel : e.label = .ran t c r) :
    e.post.books.db = e.pre.books.db ∨ ∃ share, creditOf e = some (t, share) := by
  obtain ⟨a, -, hasks, -, -, -, -, fate, hx⟩ := ran_known h h0 hlabel
  obtain hsame | ⟨unit, bps, rfl, -, hbefore, hafter, -⟩ :=
    credit_cases (respond_books hx).2 hasks
  · exact .inl hsame
  · refine .inr ⟨workerShare t.input unit bps, ?_⟩
    simp only [creditOf, hlabel, hbefore, hafter, Option.isNone_none, Bool.and_self, if_true]

/-- A credit is the payment exactly when the fee that its call got takes the cut of the
settlement. -/
theorem Credit.share_iff {later earlier : List Ev}
    (h : PoolRun (backend D F) ⟨s₀, []⟩ (later ++ e :: earlier) pool) (h0 : Reached D s₀)
    (hc : Credit D F earlier e t share) (hcost : t.input.computeCostMicroUnits = 0) :
    share = paid e.pre t.task ↔
      ∀ e' ∈ earlier, ∀ bps, Reads e' t bps → SameCut e'.pre t bps := by
  obtain ⟨a, unit, bps, hknown, htold, rfl⟩ := hc.told
  obtain ⟨fee, hfee, hpaid⟩ := hc.settled.paid_eq hc.reached
  obtain ⟨b, b', hrun, hs, -⟩ := h.split
  have hreads : ∀ e' ∈ earlier, ∀ bps', Reads e' t bps' → bps' = bps ∧
      ∀ bps, SameCut e'.pre t bps ↔ t.input.grossAmount * bps / 10000 =
        t.input.grossAmount * fee / 10000 := by
    rintro e' he' bps' ⟨c, r, hlabel, hof⟩
    have hmem := backend_numbered.known_all hrun hknown he' hlabel
    have htold' : bps' ∈ feesTold a := List.mem_filterMap.mpr ⟨_, hmem, hof⟩
    rw [htold, List.mem_singleton] at htold'
    obtain ⟨mid, first, rfl⟩ := List.append_of_mem he'
    obtain ⟨a', -, -, hreached, hsettled, hlater, -⟩ := ran_known hrun h0 hlabel
    rw [← hs.states.1] at hlater
    rw [hsettled.feeAt_later hreached hlater] at hfee
    exact ⟨htold', fun bps => by simp [SameCut, hfee]⟩
  rw [workerShare_eq hcost, hpaid]
  constructor
  · intro heq e' he' bps' hread
    obtain ⟨rfl, hiff⟩ := hreads e' he' bps' hread
    rw [hiff]
    omega
  · intro hall
    have hmem : bps ∈ feesTold a := by simp [htold]
    obtain ⟨⟨c, r⟩, hx, hof⟩ := List.mem_filterMap.mp hmem
    obtain ⟨e', he', hlabel⟩ := known_mem hknown hx
    have hread : Reads e' t bps := ⟨c, r, hlabel, hof⟩
    rw [((hreads e' he' bps hread).2 bps).mp (hall e' he' bps hread)]

/-- Of two credits of one task none comes first. -/
theorem credit_once {later mid earlier : List Ev} {e e' : Ev} {t t' : Call} {share share' : Int}
    (h : PoolRun (backend D F) ⟨s₀, []⟩ (later ++ e' :: (mid ++ e :: earlier)) pool)
    (h0 : Reached D s₀) (hcredit : creditOf e = some (t, share))
    (hcredit' : creditOf e' = some (t', share')) : t'.task ≠ t.task := by
  intro htask
  obtain ⟨b, b', hrun, hs, -⟩ := h.split
  obtain ⟨b₁, b₂, hrun₁, hs₁, hrun₂⟩ := hrun.split
  have hc := credit_of_creditOf hrun h0 hcredit
  have hc' := credit_of_creditOf h h0 hcredit'
  have hlater : Later D e.pre e'.pre := by
    rw [hs₁.states.1, hs.states.1]
    exact (run_later (.single hs₁)).trans (run_later hrun₂)
  have hhash : t'.input.taskHash = t.input.taskHash := by
    have hsettled := hc.settled.later hc.reached hlater
    rw [hc'.settled.taskHash, hsettled.taskHash, State.task, State.task]
    obtain ⟨hchain, hid⟩ := Prod.mk.injEq .. ▸ htask
    rw [hchain, hid]
  have hrow := run_row hrun₂ (hs₁.states.2 ▸ hc.after)
  rw [← hs.states.1, ← hhash, hc'.before] at hrow
  cases hrow

theorem credited_append (task : Task) (tr tr' : List Ev) :
    credited (tr ++ tr') task = credited tr task + credited tr' task := by
  simp [credited]

theorem credited_eq_zero {task : Task}
    (h : ∀ e ∈ tr, ∀ t share, creditOf e = some (t, share) → t.task ≠ task) :
    credited tr task = 0 := by
  refine List.sum_eq_zero fun x hx => ?_
  obtain ⟨e, he, rfl⟩ := List.mem_map.mp hx
  unfold creditedBy
  split
  · next t share hcredit => exact if_neg (h e he t share hcredit)
  · rfl

/-- All that a run credits for a task is one share. -/
theorem credited_eq {later earlier : List Ev}
    (h : PoolRun (backend D F) ⟨s₀, []⟩ (later ++ e :: earlier) pool) (h0 : Reached D s₀)
    (hcredit : creditOf e = some (t, share)) :
    credited (later ++ e :: earlier) t.task = share := by
  have hlater : credited later t.task = 0 := by
    refine credited_eq_zero fun e' he' t' share' hcredit' => ?_
    obtain ⟨l₁, l₂, rfl⟩ := List.append_of_mem he'
    rw [List.append_assoc, List.cons_append] at h
    exact credit_once h h0 hcredit hcredit'
  have hearlier : credited earlier t.task = 0 := by
    refine credited_eq_zero fun e' he' t' share' hcredit' => ?_
    obtain ⟨l₁, l₂, rfl⟩ := List.append_of_mem he'
    exact (credit_once h h0 hcredit' hcredit).symm
  have hone : credited [e] t.task = share := by simp [credited, creditedBy, hcredit]
  rw [credited_append, ← List.singleton_append, credited_append, hlater, hone, hearlier]
  omega

end Runs

/-- A call that has no compute cost credits what the escrow paid exactly when the fee it gets takes
the cut of the settlement; the credit is all that calls do to the database. In a run in which every
such fee does, whatever was credited for the tasks of a list is what their workers were paid. -/
theorem credits_match_payments (h : PoolRun (backend D F) ⟨s₀, []⟩ tr pool) (h0 : Reached D s₀) :
    (∀ e ∈ tr, ∀ (t : Call) (c : Cmd) (r : Except Failure (Ans c)), e.label = .ran t c r →
      e.post.books.db = e.pre.books.db ∨ ∃ share, creditOf e = some (t, share)) ∧
    (∀ later e earlier t share, tr = later ++ e :: earlier → creditOf e = some (t, share) →
      Earns F t.input share e.pre.books.db e.post.books.db ∧
      (t.input.computeCostMicroUnits = 0 → (share = paid e.pre t.task ↔
        ∀ e' ∈ earlier, ∀ bps, Reads e' t bps → SameCut e'.pre t bps))) ∧
    ((∀ e ∈ tr, Timely e) → ∀ tasks : List Task,
      (∀ task ∈ tasks, ∃ e ∈ tr, ∃ t share, creditOf e = some (t, share) ∧ t.task = task ∧
        t.input.computeCostMicroUnits = 0) →
      (tasks.map (credited tr)).sum = (tasks.map fun task => (paid pool.state task : Int)).sum) := by
  refine ⟨fun e he t c r hlabel => ?_, ?_, fun htimely tasks htasks => ?_⟩
  · obtain ⟨later, earlier, rfl⟩ := List.append_of_mem he
    exact ran_credits h h0 hlabel
  · rintro later e earlier t share rfl hcredit
    have hc := credit_of_creditOf h h0 hcredit
    exact ⟨hc.earns, hc.share_iff h h0⟩
  · congr 1
    refine List.map_congr_left fun task htask => ?_
    obtain ⟨e, he, t, share, hcredit, rfl, hcost⟩ := htasks task htask
    obtain ⟨later, earlier, rfl⟩ := List.append_of_mem he
    have hc := credit_of_creditOf h h0 hcredit
    have hshare := (hc.share_iff h h0 hcost).mpr fun e' he' bps hread =>
      htimely e' (by simp [he']) t bps hread
    obtain ⟨b, b', hrun, hs, hafter⟩ := h.split
    have hlater : Later D e.pre pool.state := by
      rw [hs.states.1]
      exact (run_later (.single hs)).trans (run_later hafter)
    rw [credited_eq h h0 hcredit, hc.settled.paid_later hc.reached hlater (run_reached h h0), hshare]

/-! ## A fee that changes -/

/-- Two tasks of 1 USDC on Arc with work submitted; the first is settled. -/
def firstSettled : List BlindEscrow.Cue :=
  [.send ⟨1, 0, .allowToken 1⟩, .send ⟨10, 0, .createTask 5 1 1000000 "delivery" "north" 7200⟩,
    .send ⟨10, 0, .createTask 6 1 1000000 "delivery" "north" 7200⟩,
    .send ⟨10, 0, .assignWorker 1 20⟩, .send ⟨10, 0, .assignWorker 2 20⟩,
    .send ⟨20, 0, .submitEvidence 1 8⟩, .send ⟨20, 0, .submitEvidence 2 9⟩,
    .send ⟨3, 0, .completeVerification 1 true⟩]

/-- The fee is halved, and the second is settled. -/
def secondSettled : List BlindEscrow.Cue :=
  [.send ⟨1, 0, .setFeeBps 500⟩, .send ⟨3, 0, .completeVerification 2 true⟩]

abbrev Cues := List (Cue Call Fate (TaskChain × List BlindEscrow.Cue))

/-- Both are credited, the second by a process of its own choice. -/
def twoCredits (process : Nat) : List (Cue Call Fate (TaskChain × List BlindEscrow.Cue)) :=
  ([.move (.arc, firstSettled),
    .enter ⟨0, 0, 1, { (demoCall 0).input with taskHash := 5 }⟩] : Cues) ++
    (List.replicate 4 (.turn 0 .answered) : Cues) ++
  ([.move (.arc, secondSettled),
    .enter ⟨1, process, 2, { (demoCall 1).input with taskHash := 6 }⟩] : Cues) ++
    (List.replicate 4 (.turn 0 .answered) : Cues)

/-- The stage of the two tasks. -/
def demoStage : Async.Stage (backend (fun _ => BlindEscrow.demo) demoConfig) Fate
    (TaskChain × List BlindEscrow.Cue) := stage (fun _ => BlindEscrow.demo) demoConfig

theorem sameProcess_plays : (demoStage.play (twoCredits 0) ⟨demoState, []⟩).isSome = true := by
  decide

theorem restarted_plays : (demoStage.play (twoCredits 1) ⟨demoState, []⟩).isSome = true := by decide

/-- The event credits what was not paid. -/
def miscredits (e : Ev) : Bool :=
  match creditOf e with
  | some (t, share) => t.input.computeCostMicroUnits = 0 && share ≠ paid e.pre t.task
  | none => false

theorem sameProcess_miscredits : ((demoStage.play (twoCredits 0) ⟨demoState, []⟩).get
    sameProcess_plays).1.any miscredits = true := by decide

/-- A process that read the fee before it was halved credits 0.90 USDC of the 0.95 paid. -/
theorem credits_match_payments_fails : ∃ tr pool,
    PoolRun (backend (fun _ => BlindEscrow.demo) demoConfig) ⟨demoState, []⟩ tr pool ∧
    Reached (fun _ => BlindEscrow.demo) demoState ∧
    ∃ e ∈ tr, ∃ t share, creditOf e = some (t, share) ∧ t.input.computeCostMicroUnits = 0 ∧
      share ≠ paid e.pre t.task := by
  obtain ⟨e, he, htest⟩ := List.any_eq_true.mp sameProcess_miscredits
  unfold miscredits at htest
  split at htest
  · next t share hcredit =>
    simp only [Bool.and_eq_true, decide_eq_true_eq] at htest
    exact ⟨_, _, Async.Stage.play_get sameProcess_plays, demoState_reached, e, he, t, share, hcredit,
      htest.1, htest.2⟩
  · cases htest

/-- A test of the condition. -/
def timely (e : Ev) : Bool :=
  match e.label with
  | .ran t c r =>
    (feeOf ⟨c, r⟩).all fun bps =>
      (BlindEscrow.feeAt t.taskId (e.pre.chains t.chain).trace).all fun fee =>
        t.input.grossAmount * bps / 10000 = t.input.grossAmount * fee / 10000
  | _ => true

theorem timely_timely (h : timely e = true) : Timely e := by
  rintro t bps ⟨c, r, hlabel, hof⟩ fee hfee
  rw [Option.mem_def] at hfee
  simpa [timely, hlabel, hof, hfee] using h

theorem restarted_timely : ((demoStage.play (twoCredits 1) ⟨demoState, []⟩).get
    restarted_plays).1.all timely = true := by decide

/-- Whether a task has a credit without compute cost. -/
def creditsTask (task : Task) (e : Ev) : Bool :=
  match creditOf e with
  | some (t, _) => t.task = task && t.input.computeCostMicroUnits = 0
  | none => false

theorem restarted_credits : ([(.arc, 1), (.arc, 2)] : List Task).all (fun task =>
    ((demoStage.play (twoCredits 1) ⟨demoState, []⟩).get restarted_plays).1.any
      (creditsTask task)) = true := by decide

/-- A process that starts after the change credits both tasks as they were paid. -/
theorem credits_match_payments_restarted :
    (([(.arc, 1), (.arc, 2)] : List Task).map (credited ((demoStage.play (twoCredits 1)
      ⟨demoState, []⟩).get restarted_plays).1)).sum =
    (([(.arc, 1), (.arc, 2)] : List Task).map fun task => (paid ((demoStage.play (twoCredits 1)
      ⟨demoState, []⟩).get restarted_plays).2.state task : Int)).sum := by
  refine (credits_match_payments (Async.Stage.play_get restarted_plays) demoState_reached).2.2
    (fun e he => timely_timely (List.all_eq_true.mp restarted_timely e he)) _ fun task htask => ?_
  obtain ⟨e, he, htest⟩ := List.any_eq_true.mp (List.all_eq_true.mp restarted_credits task htask)
  unfold creditsTask at htest
  split at htest
  · next t share hcredit =>
    simp only [Bool.and_eq_true, decide_eq_true_eq] at htest
    exact ⟨e, he, t, share, hcredit, htest.1, htest.2⟩
  · cases htest

end EarnedShares
