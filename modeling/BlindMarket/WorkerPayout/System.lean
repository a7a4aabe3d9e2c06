import BlindMarket.WorkerPayout.Code

/-!
# Payouts at once

Any number of calls run over one Redis and one database. A command takes
effect and answers, fails before it takes effect, or takes effect and fails
anyway. A transaction is one command. Calls are numbered as they start.
-/
namespace WorkerPayout

open Async Prog Runs

/-- The keys and the set `a2a:uncredited:all`. -/
structure Redis where
  keys : RedisKey → Option Address
  uncreditedAll : List Hash

structure State where
  db : Database
  redis : Redis
  calls : Nat := 0

structure Call where
  id : Nat
  input : Input
  deriving DecidableEq, Repr

inductive Fate where
  | answered | failed | unanswered
  deriving DecidableEq, Repr

/-- How one command goes. The fee is what the process has cached, or what the escrow answers. -/
structure Turn where
  fate : Fate := .answered
  cachedFeeBps : Option Nat := none
  feeBps : Nat := 0
  deriving DecidableEq, Repr

def Redis.put (r : Redis) (key : RedisKey) (value : Address) : Redis :=
  { r with keys := Function.update r.keys key (some value) }

def effect (F : Config) (x : Turn) (s : State) : (c : Cmd) → Ans c × State
  | .setNX key value =>
    match s.redis.keys key with
    | some _ => (false, s)
    | none => (true, { s with redis := s.redis.put key value })
  | .set key value => ((), { s with redis := s.redis.put key value })
  | .sadd taskHash =>
    ((), { s with redis := { s.redis with
      uncreditedAll := s.redis.uncreditedAll.insert taskHash } })
  | .del key =>
    ((), { s with redis := { s.redis with keys := Function.update s.redis.keys key none } })
  | .cachedFeeBps _ => (x.cachedFeeBps, s)
  | .feeBpsOn _ => (x.feeBps, s)
  | .creditPayoutOnce claim address unit amountRaw =>
    let (outcome, db) := creditPayoutOnce F claim address unit amountRaw s.db
    (outcome, { s with db })
  | .isCredited taskHash => ((s.db.creditedPayouts taskHash).isSome, s)
  | .incrementSoldCount _ => ((), s)
  | .recordTransaction _ _ _ _ => ((), s)
  | .recordTaskCompletion _ _ => ((), s)

/-- A cached fee is read from memory; everything else may fail. -/
def respond (F : Config) (x : Turn) (s : State) : (c : Cmd) → Except Failure (Ans c) × State
  | .cachedFeeBps chain => (.ok (effect F x s (.cachedFeeBps chain)).1, s)
  | c =>
    match x.fate with
    | .answered => (.ok (effect F x s c).1, (effect F x s c).2)
    | .failed => (.error .rejected, s)
    | .unanswered => (.error .rejected, (effect F x s c).2)

/-- Payouts beside others, which move the state as `env` says. -/
def payouts (F : Config) (env : State → State → Prop) : System Ans Failure Unit Call State where
  exec _ s c r s' := ∃ x, respond F x s c = (r, s')
  start _ s t p s' :=
    t.id = s.calls ∧ p = recordWorkerPayout F t.input ∧ s' = { s with calls := s.calls + 1 }
  env := env
  die _ s s' := s' = s

variable {F : Config} {env : State → State → Prop} {s s' : State} {c : Cmd}
  {r : Except Failure (Ans c)} {x : Turn}

theorem respond_state (h : respond F x s c = (r, s')) : s' = s ∨ s' = (effect F x s c).2 := by
  unfold respond at h
  split at h
  · exact .inl (Prod.ext_iff.mp h).2.symm
  · split at h
    · exact .inr (Prod.ext_iff.mp h).2.symm
    · exact .inl (Prod.ext_iff.mp h).2.symm
    · exact .inr (Prod.ext_iff.mp h).2.symm

/-- An answer tells what happened. -/
theorem respond_ok {a : Ans c} (h : respond F x s c = (.ok a, s')) :
    effect F x s c = (a, s') := by
  unfold respond at h
  split at h
  · obtain ⟨ha, hs⟩ := Prod.mk.injEq .. ▸ h
    cases ha
    rw [← hs]
    rfl
  · split at h <;> obtain ⟨ha, hs⟩ := Prod.mk.injEq .. ▸ h <;> cases ha
    rw [← hs]

/-- Only a credit moves the database. -/
theorem effect_db (h : ∀ claim a unit amount, c ≠ .creditPayoutOnce claim a unit amount) :
    (effect F x s c).2.db = s.db := by
  cases c with
  | setNX key value =>
    simp only [effect]
    split <;> rfl
  | creditPayoutOnce claim a unit amount => exact absurd rfl (h claim a unit amount)
  | _ => rfl

theorem effect_calls : (effect F x s c).2.calls = s.calls := by
  cases c with
  | setNX key value =>
    simp only [effect]
    split <;> rfl
  | _ => rfl

theorem numbered (henv : ∀ s s', env s s' → s'.calls = s.calls) :
    Numbered (payouts F env) Call.id State.calls where
  exec := by
    rintro t s c r s' ⟨x, hx⟩
    rcases respond_state hx with rfl | rfl
    · rfl
    · exact effect_calls
  start := by
    rintro tags s t p s' ⟨hid, -, rfl⟩
    exact ⟨hid, rfl⟩
  env := henv
  die := by
    rintro t s s' rfl
    rfl

/-! ## What a call asks for -/

/-- The commands of one call name its own task, executor and currency. -/
def Own (F : Config) (i : Input) : Cmd → Prop
  | .setNX key _ => key = .credited i.taskHash
  | .set key _ => key = .uncredited i.taskHash
  | .del key => key = .credited i.taskHash
  | .creditPayoutOnce claim address unit amountRaw =>
    claim = ⟨i.taskHash, i.settlement.chain⟩ ∧ address = i.executorAddr ∧
      payoutCurrency F i.settlement.chain i.settlement.token = some unit ∧
      ∃ feeBps, amountRaw = workerShare i unit feeBps
  | .isCredited taskHash => taskHash = i.taskHash
  | _ => True

def IsCredit : Cmd → Prop
  | .creditPayoutOnce _ _ _ _ => True
  | _ => False

variable {P : Cmd → Prop} {i : Input} {unit : SettlementUnit} {markerSet : Option Bool}

theorem issues_orElse {α : Type} {p : Payout α} {default : α} (h : p.Issues P) :
    (orElse p default).Issues P := by
  refine h.attempt.bind fun a => ?_
  cases a <;> exact issues_done _

theorem issues_getFeeBps {chain : TaskChain} (hc : P (.cachedFeeBps chain))
    (hf : P (.feeBpsOn chain)) : (getFeeBps chain).Issues P := by
  refine (issues_call hc).bind fun cached => ?_
  cases cached with
  | some bps => exact issues_done _
  | none =>
    refine (issues_call hf).attempt.bind fun a => ?_
    cases a <;> exact issues_done _

theorem issues_dropMarker {drop : Bool} (hd : P (.del (.credited i.taskHash))) :
    (dropMarker i drop).Issues P := by
  unfold dropMarker
  split
  · exact issues_orElse (issues_call hd)
  · exact issues_done _

theorem issues_recover {e : Failure} (hi : P (.isCredited i.taskHash))
    (hd : P (.del (.credited i.taskHash))) : (recover i markerSet e).Issues P := by
  have hmay : (mayDrop i markerSet).Issues P := by
    cases markerSet with
    | some set => exact issues_done _
    | none => exact (issues_orElse (issues_call hi)).bind fun _ => issues_done _
  refine hmay.bind fun drop => (issues_dropMarker hd).bind fun _ => ?_
  split <;> exact issues_done _

theorem issues_onOutcome {feeBps : Nat} {outcome : CreditOutcome}
    (hd : P (.del (.credited i.taskHash))) (hs : ∀ id, P (.incrementSoldCount id))
    (ht : ∀ a g f n, P (.recordTransaction a g f n)) (hr : ∀ a h, P (.recordTaskCompletion a h)) :
    (onOutcome i unit markerSet feeBps outcome).Issues P := by
  cases outcome with
  | duplicate => exact issues_done _
  | unregistered => exact issues_dropMarker hd
  | credited =>
    have hbump : (bumpSoldCount i).Issues P := by
      unfold bumpSoldCount
      split
      · exact issues_orElse (issues_call (hs _))
      · exact issues_done _
    refine hbump.bind fun _ => ?_
    exact (issues_orElse (issues_call (ht _ _ _ _))).bind fun _ =>
      issues_orElse (issues_call (hr _ _))

theorem issues_park (hs : P (.set (.uncredited i.taskHash) i.executorAddr))
    (ha : P (.sadd i.taskHash)) : (park i).Issues P :=
  issues_orElse ((issues_call hs).bind fun _ => issues_call ha)

theorem issues_claimMarker (h : P (.setNX (.credited i.taskHash) i.executorAddr)) :
    (claimMarker i).Issues P := by
  refine (issues_call h).attempt.bind fun a => ?_
  cases a <;> exact issues_done _

theorem creditable_eq_some (h : creditable F i = some unit) :
    payoutCurrency F i.settlement.chain i.settlement.token = some unit ∧
      hasEarningsTotal unit = true := by
  unfold creditable at h
  split at h
  · split at h
    · cases h
      exact ⟨by assumption, by assumption⟩
    · cases h
  · cases h

theorem issues_own : (recordWorkerPayout F i).Issues (Own F i) := by
  unfold recordWorkerPayout
  split
  · exact issues_park rfl trivial
  · next unit hunit =>
    refine (issues_claimMarker (P := Own F i) rfl).bind fun markerSet => ?_
    split
    · exact issues_done _
    · have hcredit : (credit i unit markerSet).Issues (Own F i) := by
        refine (issues_getFeeBps trivial trivial).bind fun feeBps => ?_
        refine (issues_call ⟨rfl, rfl, (creditable_eq_some hunit).1, feeBps, rfl⟩).bind fun _ => ?_
        exact issues_onOutcome rfl (fun _ => trivial) (fun _ _ _ _ => trivial) fun _ _ => trivial
      refine hcredit.attempt.bind fun a => ?_
      cases a with
      | ok _ => exact issues_done _
      | error e => exact issues_recover rfl rfl

/-- A call runs the credit transaction at most once. -/
theorem once_credit : (recordWorkerPayout F i).Once IsCredit := by
  unfold recordWorkerPayout
  split
  · exact (issues_park id id).once
  · next unit hunit =>
    refine Issues.andThen_once (issues_claimMarker id) fun markerSet => ?_
    cases markerSet with
    | error e => trivial
    | ok markerSet =>
      simp only
      split
      · trivial
      · have hcredit : (credit i unit markerSet).Once IsCredit := by
          refine Issues.andThen_once (issues_getFeeBps id id) fun feeBps => ?_
          cases feeBps with
          | error e => trivial
          | ok feeBps =>
            refine Once.andThen (fun r => ⟨trivial, fun _ => trivial⟩) fun outcome => ?_
            cases outcome with
            | error e => trivial
            | ok outcome =>
              exact issues_onOutcome id (fun _ => id) (fun _ _ _ _ => id) fun _ _ => id
        refine Once.andThen (hcredit.andThen fun _ => trivial) fun a => ?_
        cases a with
        | error e => trivial
        | ok a =>
          cases a with
          | ok _ => trivial
          | error e => exact issues_recover id id

/-! ## Scripts -/

/-- Payouts played from a script; `move` is what the script may have others do. -/
def stage (F : Config) (env : State → State → Prop) (move : State → Option State)
    (h : ∀ s s', move s = some s' → env s s') : Stage (payouts F env) Turn Unit where
  respond _ := respond F
  enter s t :=
    if t.id = s.calls then some (recordWorkerPayout F t.input, { s with calls := s.calls + 1 })
    else none
  move _ := move
  kill _ s := s
  exec _ x s c := ⟨x, rfl⟩
  start := by
    intro tags s t p s' hs
    split at hs
    · cases hs
      exact ⟨by assumption, rfl, rfl⟩
    · cases hs
  env _ := h
  die _ _ := rfl

/-- Arc settles in token 1 with six decimals, over Postgres. -/
def demoConfig : Config where
  token
    | .arc => (some 1, ⟨.USDC, 6⟩)
    | .base => (none, ⟨.USDC, 6⟩)
  usePg := true

/-- Agent 8 is registered and nothing is credited. -/
def demoStart : State where
  db := {
    agentExecutors := fun a => if a = 8 then some {} else none
    creditedPayouts := fun _ => none }
  redis := ⟨fun _ => none, []⟩

def demoCall (id : Nat) : Call where
  id
  input := {
    taskHash := 5
    executorAddr := 8
    grossAmount := 1000000
    settlement := ⟨.arc, 1⟩
    rethrow := true }

end WorkerPayout
