import BlindMarket.WorkerPayout.System

/-!
# A payout is credited at most once

The row of `credited_payouts` is written with the credit and never deleted, so
it keeps every later credit of the task out. Redis decides nothing here.
-/
namespace WorkerPayout

open Async Prog Runs

/-- Redis may be lost or set back at any moment, and the agents move for reasons of their own. -/
def Others (s s' : State) : Prop :=
  s'.db.creditedPayouts = s.db.creditedPayouts ∧ s'.calls = s.calls

def AgentRow.total (a : AgentRow) : Column → Int
  | .totalEarnedRaw => a.totalEarnedRaw
  | .totalEarnedUsdcRaw => a.totalEarnedUsdcRaw

/-- One task more, one point of reputation, and the share in one of the two totals. -/
structure Credited (a a' : AgentRow) (unit : SettlementUnit) (share : Int) : Prop where
  tasksCompleted : a'.tasksCompleted = a.tasksCompleted + 1
  reputation : a'.reputation = min 100 (a.reputation + 1)
  total : a'.total (EARNINGS_COLUMN unit.symbol).1 = a.total (EARNINGS_COLUMN unit.symbol).1 + share
  other : ∀ col, col ≠ (EARNINGS_COLUMN unit.symbol).1 → a'.total col = a.total col

/-- The whole credit of a payout: the executor's counters and the row of the task. -/
def Credits (F : Config) (i : Input) (db db' : Database) : Prop :=
  ∃ (unit : SettlementUnit) (feeBps : Nat) (a a' : AgentRow),
    payoutCurrency F i.settlement.chain i.settlement.token = some unit ∧
    db.creditedPayouts i.taskHash = none ∧ db.agentExecutors i.executorAddr = some a ∧
    Credited a a' unit (workerShare i unit feeBps) ∧
    db'.agentExecutors = Function.update db.agentExecutors i.executorAddr (some a') ∧
    db'.creditedPayouts = Function.update db.creditedPayouts i.taskHash
      (some ⟨i.settlement.chain, i.executorAddr⟩)

variable {F : Config} {s s' s₀ : State} {db db' : Database} {i : Input} {c : Pool Ans Failure Unit Call State}
  {e : Event Ans Failure Unit Call State} {tr : List (Event Ans Failure Unit Call State)}

/-! ## The transaction -/

theorem credited_add (a : AgentRow) (unit : SettlementUnit) (share : Int) :
    Credited a (AgentRow.add
      { a with
        tasksCompleted := a.tasksCompleted + 1
        reputation := min 100 (a.reputation + 1) } share (EARNINGS_COLUMN unit.symbol).1)
      unit share := by
  cases hcol : (EARNINGS_COLUMN unit.symbol).1 <;>
    refine ⟨rfl, rfl, by rw [hcol]; rfl, fun col hne => ?_⟩ <;>
    rw [hcol] at hne <;> cases col <;> first | rfl | exact absurd rfl hne

/-- The transaction credits, or finds the row or no executor and leaves everything. -/
theorem creditPayoutOnce_cases (F : Config) (claim : Claim) (address : Address)
    (unit : SettlementUnit) (amountRaw : Int) (db : Database) :
    (∃ a a', db.creditedPayouts claim.taskHash = none ∧ db.agentExecutors address = some a ∧
      Credited a a' unit amountRaw ∧
      creditPayoutOnce F claim address unit amountRaw db = (.credited,
        { agentExecutors := Function.update db.agentExecutors address (some a')
          creditedPayouts := Function.update db.creditedPayouts claim.taskHash
            (some ⟨claim.chain, address⟩) })) ∨
    ((db.creditedPayouts claim.taskHash).isSome ∧
      creditPayoutOnce F claim address unit amountRaw db = (.duplicate, db)) ∨
    (db.agentExecutors address = none ∧
      creditPayoutOnce F claim address unit amountRaw db = (.unregistered, db)) := by
  cases hrow : db.creditedPayouts claim.taskHash with
  | none =>
    cases hagent : db.agentExecutors address with
    | none =>
      refine .inr (.inr ⟨rfl, ?_⟩)
      simp [creditPayoutOnce, pgCreditOnce, sqliteCreditOnce, claimSql, creditSql, hrow, hagent]
    | some a =>
      refine .inl ⟨a, _, rfl, rfl, credited_add a unit amountRaw, ?_⟩
      simp [creditPayoutOnce, pgCreditOnce, sqliteCreditOnce, claimSql, creditSql, hrow, hagent]
  | some row =>
    cases hagent : db.agentExecutors address with
    | none =>
      cases hpg : F.usePg with
      | true =>
        refine .inr (.inl ⟨rfl, ?_⟩)
        simp [creditPayoutOnce, pgCreditOnce, claimSql, hrow, hpg]
      | false =>
        refine .inr (.inr ⟨rfl, ?_⟩)
        simp [creditPayoutOnce, sqliteCreditOnce, hagent, hpg]
    | some a =>
      refine .inr (.inl ⟨rfl, ?_⟩)
      simp [creditPayoutOnce, pgCreditOnce, sqliteCreditOnce, claimSql, hrow, hagent]

theorem Credits.row (h : Credits F i db db') : db'.creditedPayouts i.taskHash ≠ none := by
  obtain ⟨unit, feeBps, a, a', -, -, -, -, -, hrows⟩ := h
  simp [hrows]

theorem Credits.rows (h : Credits F i db db') (taskHash : Hash) (row : CreditRow)
    (hrow : db.creditedPayouts taskHash = some row) :
    db'.creditedPayouts taskHash = some row := by
  obtain ⟨unit, feeBps, a, a', -, hnone, -, -, -, hrows⟩ := h
  have hne : taskHash ≠ i.taskHash := by
    rintro rfl
    rw [hnone] at hrow
    cases hrow
  rw [hrows, Function.update_of_ne hne, hrow]

/-- A credit that is asked for by its own call credits it or changes nothing. -/
theorem effect_credit {x : Turn} {claim : Claim} {address : Address} {unit : SettlementUnit}
    {amountRaw : Int} (hown : Own F i (.creditPayoutOnce claim address unit amountRaw)) :
    (effect F x s (.creditPayoutOnce claim address unit amountRaw)).2.db = s.db ∨
      Credits F i s.db (effect F x s (.creditPayoutOnce claim address unit amountRaw)).2.db := by
  obtain ⟨rfl, rfl, hunit, feeBps, rfl⟩ := hown
  obtain ⟨a, a', hrow, hagent, hcredited, heq⟩ | ⟨-, heq⟩ | ⟨-, heq⟩ :=
    creditPayoutOnce_cases F ⟨i.taskHash, i.settlement.chain⟩ i.executorAddr unit
      (workerShare i unit feeBps) s.db
  · refine .inr ⟨unit, feeBps, a, a', hunit, hrow, hagent, hcredited, ?_, ?_⟩ <;>
      simp only [effect, heq]
  · exact .inl (by simp only [effect, heq])
  · exact .inl (by simp only [effect, heq])

/-! ## Runs -/

theorem others_numbered : Numbered (payouts F Others) Call.id State.calls :=
  numbered fun _ _ h => h.2

theorem start_issues {env : State → State → Prop} (tags : List Call) (s : State) (t : Call)
    (p : Payout Unit) (s' : State) (h : (payouts F env).start tags s t p s') :
    p.Issues (Own F t.input) := h.2.1 ▸ issues_own

theorem start_once {env : State → State → Prop} (tags : List Call) (s : State) (t : Call)
    (p : Payout Unit) (s' : State) (h : (payouts F env).start tags s t p s') :
    p.Once IsCredit := h.2.1 ▸ once_credit

/-- What one command does to the database. -/
theorem ran_db {env : State → State → Prop} (h : PoolRun (payouts F env) ⟨s₀, []⟩ tr c)
    (he : e ∈ tr) {t : Call} {cmd : Cmd} {r : Except Failure (Ans cmd)}
    (hlabel : e.label = .ran t cmd r) :
    e.post.db = e.pre.db ∨ (IsCredit cmd ∧ Credits F t.input e.pre.db e.post.db) := by
  obtain ⟨hown, x, hx⟩ := ran_issued (P := fun t => Own F t.input) h (by simp) start_issues e he
    t cmd r hlabel
  rcases respond_state hx with hs | hs
  · exact .inl (congrArg State.db hs)
  · rw [hs]
    cases cmd with
    | creditPayoutOnce claim a unit amount =>
      exact (effect_credit hown).imp id fun h => ⟨trivial, h⟩
    | _ => exact .inl (effect_db (by intros; simp))

section

variable {env : State → State → Prop}
  (henv : ∀ s s', env s s' → s'.db.creditedPayouts = s.db.creditedPayouts)

theorem event_db (h : PoolRun (payouts F env) ⟨s₀, []⟩ tr c) (he : e ∈ tr) :
    e.label = .env ∨ e.post.db = e.pre.db ∨ ∃ (t : Call) (cmd : Cmd) (r : Except Failure (Ans cmd)),
      e.label = .ran t cmd r ∧ Credits F t.input e.pre.db e.post.db := by
  obtain ⟨later, earlier, b, b', -, -, hstep, -⟩ := Run.split_mem h he
  cases hstep with
  | run l₁ l₂ t cmd k r hx =>
    exact .inr ((ran_db h he rfl).imp id fun hc => ⟨t, cmd, r, rfl, hc.2⟩)
  | @start s s' l t p hx =>
    obtain ⟨-, -, rfl⟩ := hx
    exact .inr (.inl rfl)
  | finish l₁ l₂ t r => exact .inr (.inl rfl)
  | env l hx => exact .inl rfl
  | die l₁ l₂ t p hx => exact .inr (.inl (congrArg State.db hx))

include henv

theorem event_rows (h : PoolRun (payouts F env) ⟨s₀, []⟩ tr c) (he : e ∈ tr) (taskHash : Hash)
    (row : CreditRow) (hrow : e.pre.db.creditedPayouts taskHash = some row) :
    e.post.db.creditedPayouts taskHash = some row := by
  obtain hlabel | hdb | ⟨t, cmd, r, -, hc⟩ := event_db h he
  · obtain ⟨later, earlier, b, b', -, -, hstep, -⟩ := Run.split_mem h he
    cases hstep with
    | env l hx => exact (henv _ _ hx).symm ▸ hrow
    | _ => cases hlabel
  · rw [hdb, hrow]
  · exact hc.rows taskHash row hrow

/-- Rows stay along a run. -/
theorem rows_run {later earlier : List (Event Ans Failure Unit Call State)}
    {b : Pool Ans Failure Unit Call State}
    (h₀ : PoolRun (payouts F env) ⟨s₀, []⟩ earlier b)
    (h : PoolRun (payouts F env) b later c) (taskHash : Hash) (row : CreditRow)
    (hrow : b.state.db.creditedPayouts taskHash = some row) :
    c.state.db.creditedPayouts taskHash = some row := by
  induction h with
  | nil => exact hrow
  | snoc h hs ih =>
    obtain ⟨hpre, hpost⟩ := hs.states
    have hrow := event_rows henv (.snoc (h₀.append h) hs) List.mem_cons_self taskHash row (hpre ▸ ih)
    exact hpost ▸ hrow

end

/-! ## At most once -/

/-- What a run does to the agents table and the ledger of credited payouts. -/
structure CreditedOnce (F : Config) (tr : List (Event Ans Failure Unit Call State)) : Prop where
  /-- A call credits the whole of its own payout in one step, or changes nothing. -/
  whole : ∀ e ∈ tr, e.label = .env ∨ e.post.db = e.pre.db ∨
    ∃ (t : Call) (cmd : Cmd) (r : Except Failure (Ans cmd)),
      e.label = .ran t cmd r ∧ Credits F t.input e.pre.db e.post.db
  /-- Of two steps of calls for one task, one changes nothing. -/
  once : ∀ later mid earlier (e e' : Event Ans Failure Unit Call State),
    tr = later ++ e :: (mid ++ e' :: earlier) →
    ∀ (t t' : Call) (cmd cmd' : Cmd) (r : Except Failure (Ans cmd)) (r' : Except Failure (Ans cmd')),
      e.label = .ran t cmd r → e'.label = .ran t' cmd' r' →
      t.input.taskHash = t'.input.taskHash → e.post.db = e.pre.db ∨ e'.post.db = e'.pre.db
  /-- A call that finds the row, or no executor, changes nothing at any of its steps. -/
  refused : ∀ e ∈ tr, ∀ (t : Call) (claim : Claim) (a : Address) (unit : SettlementUnit)
    (amountRaw : Int) (outcome : CreditOutcome),
    e.label = .ran t (.creditPayoutOnce claim a unit amountRaw) (.ok outcome) →
    outcome = .duplicate ∨ outcome = .unregistered →
    ∀ e' ∈ tr, ∀ (cmd : Cmd) (r : Except Failure (Ans cmd)), e'.label = .ran t cmd r →
      e'.post.db = e'.pre.db
  /-- No step deletes a row. -/
  kept : ∀ e ∈ tr, ∀ taskHash row, e.pre.db.creditedPayouts taskHash = some row →
    e.post.db.creditedPayouts taskHash = some row

theorem refused_keeps {env : State → State → Prop} (h : PoolRun (payouts F env) ⟨s₀, []⟩ tr c)
    (he : e ∈ tr) {t : Call} {claim : Claim} {a : Address} {unit : SettlementUnit} {amountRaw : Int}
    {outcome : CreditOutcome}
    (hlabel : e.label = .ran t (.creditPayoutOnce claim a unit amountRaw) (.ok outcome))
    (ho : outcome = .duplicate ∨ outcome = .unregistered) : e.post.db = e.pre.db := by
  obtain ⟨-, x, hx⟩ := ran_issued (P := fun t => Own F t.input) h (by simp) start_issues e he
    t _ _ hlabel
  have heffect := respond_ok hx
  obtain ⟨a₀, a', -, -, -, heq⟩ | ⟨-, heq⟩ | ⟨-, heq⟩ :=
    creditPayoutOnce_cases F claim a unit amountRaw e.pre.db
  · simp only [effect, heq, Prod.mk.injEq] at heffect
    obtain ⟨rfl, -⟩ := heffect
    obtain ho | ho := ho <;> cases ho
  · simp only [effect, heq, Prod.mk.injEq] at heffect
    rw [← heffect.2]
  · simp only [effect, heq, Prod.mk.injEq] at heffect
    rw [← heffect.2]

/-- For every interleaving of calls, with Redis lost or set back at any moment, with any command
failing before or after it takes effect, and with calls dying anywhere, each task is credited at
most once, and then whole. -/
theorem payout_credited_once (F : Config) (s₀ : State)
    (tr : List (Event Ans Failure Unit Call State)) (c : Pool Ans Failure Unit Call State)
    (h : PoolRun (payouts F Others) ⟨s₀, []⟩ tr c) : CreditedOnce F tr where
  whole := fun e he => event_db h he
  kept := fun e he => event_rows (fun _ _ h => h.1) h he
  once := by
    rintro later mid earlier e e' rfl t t' cmd cmd' r r' hlabel hlabel' hhash
    obtain hdb | ⟨-, hcredits⟩ := ran_db h (e := e) (by simp) hlabel
    · exact .inl hdb
    obtain hdb' | ⟨-, hcredits'⟩ := ran_db h (e := e') (by simp) hlabel'
    · exact .inr hdb'
    -- the first credit left the row that the second found missing
    obtain ⟨b, b', hrun, hstep, -⟩ := h.split
    obtain ⟨b₁, b₂, hrun₁, hstep₁, hrun₂⟩ := hrun.split
    obtain ⟨row, hrow⟩ := Option.ne_none_iff_exists'.mp hcredits'.row
    rw [hstep₁.states.2] at hrow
    have hkept := rows_run (fun _ _ h => h.1) (.snoc hrun₁ hstep₁) hrun₂ _ row hrow
    obtain ⟨unit, feeBps, a, a', -, hnone, -⟩ := hcredits
    rw [hstep.states.1, hhash, hkept] at hnone
    cases hnone
  refused := by
    intro e he t claim a unit amountRaw outcome hlabel ho e' he' cmd r hlabel'
    obtain hdb | ⟨hcredit, -⟩ := ran_db h he' hlabel'
    · exact hdb
    obtain ⟨later, earlier, rfl⟩ := List.append_of_mem he
    rcases List.mem_append.mp he' with hin | hin
    · obtain ⟨later₁, later₂, rfl⟩ := List.append_of_mem hin
      rw [List.append_assoc, List.cons_append] at h
      exact absurd trivial (once_of_run (P := fun _ => IsCredit) others_numbered h start_once
        hlabel' (show e ∈ later₂ ++ e :: earlier by simp) hlabel hcredit)
    · rcases List.mem_cons.mp hin with rfl | hin
      · exact refused_keeps h he hlabel ho
      · exact absurd hcredit (once_of_run (P := fun _ => IsCredit) others_numbered h start_once
          hlabel hin hlabel' trivial)

/-- Redis without its keys. -/
def wiped (s : State) : Option State := some { s with redis := ⟨fun _ => none, []⟩ }

def wipedStage : Stage (payouts demoConfig Others) Turn Unit :=
  stage demoConfig Others wiped fun s s' h => by cases h; exact ⟨rfl, rfl⟩

/-- A credit, Redis lost, and a second call that finds the row. -/
def twoCalls : List (Cue Call Turn Unit) :=
  [.enter (demoCall 0), .turn 0 {}, .turn 0 {}, .turn 0 { feeBps := 250 }, .turn 0 {}, .move (),
    .enter (demoCall 1), .turn 0 {}, .turn 0 { cachedFeeBps := some 250 }, .turn 0 {}, .leave 0]

theorem twoCalls_plays : (wipedStage.play twoCalls ⟨demoStart, []⟩).isSome = true := by decide

theorem payout_credited_once_twoCalls :
    CreditedOnce demoConfig ((wipedStage.play twoCalls ⟨demoStart, []⟩).get twoCalls_plays).1 ∧
      (((wipedStage.play twoCalls ⟨demoStart, []⟩).get twoCalls_plays).2.state.db.agentExecutors 8 =
        some { tasksCompleted := 1, reputation := 51, totalEarnedUsdcRaw := 975000 }) :=
  ⟨payout_credited_once demoConfig demoStart _ _ (Stage.play_get twoCalls_plays), by decide⟩

end WorkerPayout
