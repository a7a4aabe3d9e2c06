import BlindMarket.WorkerPayout.AtMostOnce

/-!
# What the marker keeps out

The marker is written before the credit and never expires. As long as the call
that wrote it lives, it credits the task or drops the marker; when that call
dies, or cannot drop it, the marker stays and every later call passes by.
-/
namespace WorkerPayout

open Async Prog Runs

abbrev Ev := Event Ans Failure Unit Call State

variable {F : Config} {i : Input} {unit : SettlementUnit} {markerSet : Option Bool}

/-! ## What a call does after it takes the marker -/

/-- The answers while no row appears and the row can be looked up. -/
def Unsettled : (c : Cmd) → Except Failure (Ans c) → Prop
  | .creditPayoutOnce _ _ _ _, .ok outcome => outcome = .unregistered
  | .isCredited _, r => r = .ok false
  | _, _ => True

def DropAsked (taskHash : Hash) (c : Cmd) (_ : Except Failure (Ans c)) : Prop :=
  c = .del (.credited taskHash)

def CreditAsked (c : Cmd) (_ : Except Failure (Ans c)) : Prop := IsCredit c

/-- A cached fee can be read. -/
def Cached : (c : Cmd) → Except Failure (Ans c) → Prop
  | .cachedFeeBps _, r => ∃ a, r = .ok a
  | _, _ => True

/-- The call drops the marker, unless the task is credited before. -/
def Drops (taskHash : Hash) (p : Payout Unit) : Prop :=
  p.Until Unsettled (DropAsked taskHash) fun _ => False

/-- The call runs its credit transaction. -/
def Asks (p : Payout Unit) : Prop := p.Until Cached CreditAsked fun _ => False

theorem drops_dropMarker : Drops i.taskHash (dropMarker i true) :=
  fun _ _ => .inl rfl

theorem drops_recover (h : markerSet ≠ some false) (e : Failure) :
    Drops i.taskHash (recover i markerSet e) := by
  have hmay : (mayDrop i markerSet).Until Unsettled (DropAsked i.taskHash) fun r => r = .ok true := by
    cases markerSet with
    | some set =>
      cases set with
      | true => exact rfl
      | false => exact absurd rfl h
    | none =>
      intro r hr
      cases (show r = .ok false from hr)
      exact .inr rfl
  refine hmay.andThen fun r hr => ?_
  cases hr
  exact drops_dropMarker.andThen fun _ h => h.elim

theorem drops_guardedCredit (h : markerSet ≠ some false) :
    Drops i.taskHash (guardedCredit i unit markerSet) := by
  have hcredit : (credit i unit markerSet).Until Unsettled (DropAsked i.taskHash)
      fun r => ∃ e, r = .error e := by
    refine (until_true _).andThen fun feeBps _ => ?_
    cases feeBps with
    | error e => exact ⟨e, rfl⟩
    | ok feeBps =>
      intro r hr
      refine .inr ?_
      cases r with
      | error e => exact ⟨e, rfl⟩
      | ok outcome =>
        cases (show outcome = .unregistered from hr)
        have hdrop : (decide (markerSet ≠ some false)) = true := by simpa using h
        show Until _ _ _ (dropMarker i (decide (markerSet ≠ some false)))
        rw [hdrop]
        exact fun _ _ => .inl rfl
  refine (hcredit.andThen fun r hr => ?_ : Until _ _ (fun r => ∃ e, r = .ok (.error e)) _).andThen
    fun r hr => ?_
  · obtain ⟨e, rfl⟩ := hr
    exact ⟨e, rfl⟩
  · obtain ⟨e, rfl⟩ := hr
    exact drops_recover h e

theorem asks_guardedCredit : Asks (guardedCredit i unit markerSet) := by
  have hfee : (getFeeBps i.settlement.chain).Until Cached CreditAsked fun r => ∃ a, r = .ok a := by
    intro r hr
    obtain ⟨a, rfl⟩ := hr
    refine .inr ?_
    cases a with
    | some bps => exact ⟨bps, rfl⟩
    | none =>
      intro r _
      refine .inr ?_
      cases r with
      | ok bps => exact ⟨bps, rfl⟩
      | error e => exact ⟨1000, rfl⟩
  have hcredit : (credit i unit markerSet).Until Cached CreditAsked fun _ => False := by
    refine hfee.andThen fun r hr => ?_
    obtain ⟨a, rfl⟩ := hr
    exact fun _ _ => .inl trivial
  exact (hcredit.andThen fun _ h => h.elim : Until _ _ (fun _ => False) _).andThen
    fun _ h => h.elim

/-- The answers by which a call that rethrows may return: it finds the marker, or its credit
transaction is over. -/
def Answered : (c : Cmd) → Except Failure (Ans c) → Prop
  | .setNX _ _, .ok first => first = false
  | .creditPayoutOnce _ _ _ _, .ok _ => True
  | _, _ => False

theorem until_recover {A P : (c : Cmd) → Except Failure (Ans c) → Prop} (hre : i.rethrow = true)
    (e : Failure) : (recover i markerSet e).Until A P fun r => r ≠ .ok () := by
  refine (until_true _).andThen fun r _ => ?_
  cases r with
  | error e => exact fun h => by cases h
  | ok drop =>
    refine (until_true _).andThen fun r _ => ?_
    cases r with
    | error e => exact fun h => by cases h
    | ok u =>
      simp only [hre, if_true]
      exact fun h => by cases h

theorem until_guardedCredit {A : (c : Cmd) → Except Failure (Ans c) → Prop}
    (hre : i.rethrow = true) :
    (guardedCredit i unit markerSet).Until A Answered fun r => r ≠ .ok () := by
  have hcredit : (credit i unit markerSet).Until A Answered fun r => r ≠ .ok () := by
    refine (until_true _).andThen fun feeBps _ => ?_
    cases feeBps with
    | error e => exact fun h => by cases h
    | ok feeBps =>
      intro r _
      cases r with
      | error e => exact .inr fun h => by cases h
      | ok outcome => exact .inl trivial
  refine (hcredit.andThen fun r hr => ?_ : Until _ _ (fun r => ∃ e, r = .ok (.error e)) _).andThen
    fun r hr => ?_
  · cases r with
    | ok u => exact absurd rfl hr
    | error e => exact ⟨e, rfl⟩
  · obtain ⟨e, rfl⟩ := hr
    exact until_recover hre e

/-- The call after the answer to its `SET NX`. -/
def afterMarker (i : Input) (unit : SettlementUnit) : Except Failure Bool → Payout Unit
  | .ok false => .done (.ok ())
  | .ok true => guardedCredit i unit (some true)
  | .error _ => guardedCredit i unit none

theorem recordWorkerPayout_creditable (h : creditable F i = some unit) :
    recordWorkerPayout F i =
      .await (Cmd.setNX (.credited i.taskHash) i.executorAddr) (afterMarker i unit) := by
  unfold recordWorkerPayout
  rw [h]
  refine congrArg (Prog.await (Cmd.setNX (.credited i.taskHash) i.executorAddr)) (funext fun r => ?_)
  cases r with
  | error e => rfl
  | ok first => cases first <;> rfl

def LeavesNX (c : Cmd) : Prop := ∀ key value, c ≠ .setNX key value

theorem issues_guardedCredit_leavesNX : (guardedCredit i unit markerSet).Issues LeavesNX := by
  have hcredit : (credit i unit markerSet).Issues LeavesNX := by
    refine (issues_getFeeBps (by simp [LeavesNX]) (by simp [LeavesNX])).bind fun feeBps => ?_
    refine (issues_call (by simp [LeavesNX])).bind fun _ => ?_
    exact issues_onOutcome (by simp [LeavesNX]) (by simp [LeavesNX]) (by simp [LeavesNX])
      (by simp [LeavesNX])
  refine hcredit.attempt.bind fun a => ?_
  cases a with
  | ok _ => exact issues_done _
  | error e => exact issues_recover (by simp [LeavesNX]) (by simp [LeavesNX])

theorem issues_park_leavesNX : (park i).Issues LeavesNX :=
  issues_park (by simp [LeavesNX]) (by simp [LeavesNX])

theorem afterMarker_issues {r : Except Failure Bool} :
    (afterMarker i unit r).Issues LeavesNX := by
  cases r with
  | error e => exact issues_guardedCredit_leavesNX
  | ok first =>
    cases first with
    | false => exact issues_done _
    | true => exact issues_guardedCredit_leavesNX

/-! ## The marker along a run -/

def marker (taskHash : Hash) (s : State) : Option Address := s.redis.keys (.credited taskHash)

def row (taskHash : Hash) (s : State) : Option CreditRow := s.db.creditedPayouts taskHash

/-- Others leave the markers and the rows, and nobody is ever unregistered. -/
structure Quiet (s s' : State) : Prop where
  rows : s'.db.creditedPayouts = s.db.creditedPayouts
  registered : ∀ a, s.db.agentExecutors a ≠ none → s'.db.agentExecutors a ≠ none
  markers : ∀ taskHash, marker taskHash s' = marker taskHash s
  calls : s'.calls = s.calls

/-- The call whose `SET` wrote the marker that stands. -/
def writer (taskHash : Hash) : List Ev → Option Call
  | [] => none
  | e :: tr =>
    if marker taskHash e.post = none then none
    else if marker taskHash e.pre = none then
      match e.label with
      | .ran t _ _ => some t
      | _ => none
    else writer taskHash tr

/-- A call that rethrows finds the marker and no row. -/
def Skips (taskHash : Hash) (e : Ev) : Prop :=
  ∃ (t : Call) (value : Address), e.label = .ran t (.setNX (.credited taskHash) value) (.ok false) ∧
    t.input.rethrow = true ∧ row taskHash e.pre = none

/-- `w` wrote the marker that a call passed by. -/
def Found (taskHash : Hash) (w : Call) : List Ev → Prop
  | [] => False
  | e :: tr => (Skips taskHash e ∧ writer taskHash tr = some w) ∨ Found taskHash w tr

/-- The credit transaction of `w` is over and there is no row. -/
def RejectedAt (taskHash : Hash) (w : Call) (e : Ev) : Prop :=
  ∃ (cmd : Cmd) (r : Except Failure (Ans cmd)), e.label = .ran w cmd r ∧ IsCredit cmd ∧
    row taskHash e.post = none

def Rejected (taskHash : Hash) (w : Call) (tr : List Ev) : Prop :=
  ∃ e ∈ tr, RejectedAt taskHash w e

/-- What has to go well at a step, as long as the task has no row. -/
structure Kept (taskHash : Hash) (tr : List Ev) (e : Ev) : Prop where
  /-- No call dies whose marker stands, or was passed by. -/
  alive : ∀ t, e.label = .died t → row taskHash e.pre = none →
    writer taskHash tr ≠ some t ∧ ¬ Found taskHash t tr
  /-- No call fails to drop its own marker. -/
  dropped : ∀ t f, e.label = .ran t (.del (.credited taskHash)) (.error f) →
    row taskHash e.pre = none → writer taskHash tr = some t → marker taskHash e.post = none
  /-- No call whose marker stands fails to look up the row. -/
  checked : ∀ t f, e.label = .ran t (.isCredited taskHash) (.error f) →
    row taskHash e.pre = none → writer taskHash tr ≠ some t
  /-- No credit is rolled back after another call passed by its marker. -/
  credited : ∀ t, Found taskHash t tr → ¬ RejectedAt taskHash t e
  /-- No call passes by the marker of a call whose credit was rolled back. -/
  passed : Skips taskHash e → ∀ w, writer taskHash tr = some w → ¬ Rejected taskHash w tr

variable {s s' s₀ : State} {taskHash : Hash} {c : Cmd} {r : Except Failure (Ans c)} {x : Turn}

theorem respond_marker (hx : respond F x s c = (r, s')) (hown : Own F i c)
    (hset : ∀ value, c ≠ .setNX (.credited taskHash) value)
    (hdel : c ≠ .del (.credited taskHash)) : marker taskHash s' = marker taskHash s := by
  rcases respond_state hx with rfl | rfl
  · rfl
  · cases c with
    | setNX key value =>
      have hne : RedisKey.credited taskHash ≠ key := by
        rintro rfl
        exact hset value rfl
      simp only [effect]
      split
      · rfl
      · exact Function.update_of_ne hne _ _
    | set key value =>
      cases (show key = _ from hown)
      have hne : RedisKey.credited taskHash ≠ .uncredited i.taskHash := by simp
      exact Function.update_of_ne hne (some value) s.redis.keys
    | del key =>
      have hne : RedisKey.credited taskHash ≠ key := by
        rintro rfl
        exact hdel rfl
      exact Function.update_of_ne hne _ _
    | _ => rfl

theorem effect_setNX (value : Address) : effect F x s (.setNX (.credited taskHash) value) =
    match marker taskHash s with
    | some _ => (false, s)
    | none => (true, { s with redis := s.redis.put (.credited taskHash) value }) := rfl

theorem respond_setNX {value : Address} {r : Except Failure Bool}
    (hx : respond F x s (.setNX (.credited taskHash) value) = (r, s')) :
    (r = .ok false → marker taskHash s ≠ none ∧ s' = s) ∧
      (marker taskHash s ≠ none → marker taskHash s' = marker taskHash s) := by
  constructor
  · rintro rfl
    have hok := respond_ok hx
    rw [effect_setNX] at hok
    split at hok
    · next a hm =>
      cases hok
      exact ⟨by rw [hm]; simp, rfl⟩
    · cases hok
  · intro hm
    rcases respond_state hx with rfl | rfl
    · rfl
    · rw [effect_setNX]
      split
      · rfl
      · next hnone => exact absurd hnone hm

theorem respond_del {r : Except Failure Unit}
    (hx : respond F x s (.del (.credited taskHash)) = (r, s')) :
    marker taskHash s' = none ∨ ∃ f, r = .error f := by
  cases r with
  | error f => exact .inr ⟨f, rfl⟩
  | ok u =>
    refine .inl ?_
    have hok := respond_ok hx
    rw [show s' = _ from (congrArg Prod.snd hok).symm]
    exact Function.update_self _ _ _

/-- What a step does to the marker: it keeps it, a call takes it, or a call drops it. -/
theorem marker_step {tr : List Ev} {b c : Pool Ans Failure Unit Call State} {e : Ev}
    (h : PoolRun (payouts F Quiet) ⟨s₀, []⟩ tr b) (hs : Async.Step (payouts F Quiet) b e c)
    (taskHash : Hash) :
    marker taskHash e.post = marker taskHash e.pre ∨
    (∃ (t : Call) (value : Address) (r : Except Failure Bool),
      e.label = .ran t (.setNX (.credited taskHash) value) r ∧ t.input.taskHash = taskHash ∧
      marker taskHash e.pre = none ∧ r ≠ .ok false) ∨
    marker taskHash e.post = none := by
  cases hs with
  | @run s s' l₁ l₂ t cmd k r hx =>
    obtain ⟨x, hx⟩ := hx
    have hown := (issues_run (P := fun t => Own F t.input) h (by simp) start_issues
      ⟨t, .await cmd k⟩ (by simp)).1
    by_cases hset : ∃ value, cmd = .setNX (.credited taskHash) value
    · obtain ⟨value, rfl⟩ := hset
      obtain ⟨hfalse, hkeep⟩ := respond_setNX hx
      have hhash : RedisKey.credited taskHash = .credited t.input.taskHash := hown
      by_cases hm : marker taskHash s = none
      · refine .inr (.inl ⟨t, value, r, rfl, by cases hhash; rfl, hm, ?_⟩)
        rintro rfl
        exact (hfalse rfl).1 hm
      · exact .inl (hkeep hm)
    by_cases hdel : cmd = .del (.credited taskHash)
    · subst hdel
      rcases respond_state hx with hs' | hs'
      · exact .inl (congrArg (marker taskHash) hs')
      · refine .inr (.inr ?_)
        show marker taskHash s' = none
        rw [hs']
        exact Function.update_self _ _ _
    · exact .inl (respond_marker hx hown (fun value h => hset ⟨value, h⟩) hdel)
  | @start s s' l t p hx =>
    obtain ⟨-, -, rfl⟩ := hx
    exact .inl rfl
  | finish l₁ l₂ t r => exact .inl rfl
  | env l hx => exact .inl (hx.markers taskHash)
  | die l₁ l₂ t p hx => exact .inl (congrArg (marker taskHash) hx)

/-- What holds of a run as long as the task has no row. -/
structure Guarded (taskHash : Hash) (tr : List Ev) (c : Pool Ans Failure Unit Call State) :
    Prop where
  marked : marker taskHash c.state ≠ none → ∃ w, writer taskHash tr = some w ∧
    ∃ th ∈ c.threads, th.tag = w ∧ Drops taskHash th.prog
  owed : ∀ w, (writer taskHash tr = some w ∨ Found taskHash w tr) →
    Rejected taskHash w tr ∨ ∃ th ∈ c.threads, th.tag = w ∧ Asks th.prog
  clean : ∀ w, Found taskHash w tr → ¬ Rejected taskHash w tr
  own : ∀ w, (writer taskHash tr = some w ∨ Found taskHash w tr) → w.input.taskHash = taskHash

/-- The thread of a call that has not run its credit yet, after one more step. -/
theorem owed_step {tr : List Ev} {b c : Pool Ans Failure Unit Call State} {e : Ev} {w : Call}
    (hs : Async.Step (payouts F Quiet) b e c) (hrow : row taskHash e.post = none)
    (hdied : e.label ≠ .died w)
    (h : Rejected taskHash w tr ∨ ∃ th ∈ b.threads, th.tag = w ∧ Asks th.prog) :
    Rejected taskHash w (e :: tr) ∨ ∃ th ∈ c.threads, th.tag = w ∧ Asks th.prog := by
  obtain ⟨e', he', hr⟩ | ⟨th, hth, rfl, hasks⟩ := h
  · exact .inl ⟨e', List.mem_cons_of_mem _ he', hr⟩
  obtain hstays | ⟨cmd, k, r, hprog, hlabel, ⟨x, hx⟩, hmem⟩ | ⟨r, hprog, -⟩ | hdied' := hs.thread hth
  · exact .inr ⟨th, hstays, rfl, hasks⟩
  · rw [hprog] at hasks
    have hcached : Cached cmd r := by
      cases cmd with
      | cachedFeeBps chain => exact ⟨_, (congrArg Prod.fst hx).symm⟩
      | _ => trivial
    rcases hasks r hcached with hcredit | hk
    · exact .inl ⟨e, List.mem_cons_self, cmd, r, hlabel, hcredit, hrow⟩
    · exact .inr ⟨_, hmem, rfl, hk⟩
  · rw [hprog] at hasks
    exact hasks.elim
  · exact absurd hdied' hdied

/-- The thread that drops the marker, after a step that leaves the marker. -/
theorem drops_step {tr : List Ev} {b c : Pool Ans Failure Unit Call State} {e : Ev}
    {th : Thread Ans Failure Unit Call} (hkept : Kept taskHash tr e)
    (hs : Async.Step (payouts F Quiet) b e c) (hpre : row taskHash e.pre = none)
    (hpost : row taskHash e.post = none) (hmarker : marker taskHash e.post ≠ none)
    (hissues : ∀ th ∈ b.threads, th.prog.Issues (Own F th.tag.input))
    (hhash : th.tag.input.taskHash = taskHash)
    (hw : writer taskHash tr = some th.tag) (hth : th ∈ b.threads) (h : Drops taskHash th.prog) :
    ∃ th' ∈ c.threads, th'.tag = th.tag ∧ Drops taskHash th'.prog := by
  obtain hstays | ⟨cmd, k, r, hprog, hlabel, ⟨x, hx⟩, hmem⟩ | ⟨r, hprog, -⟩ | hdied := hs.thread hth
  · exact ⟨th, hstays, rfl, h⟩
  · have hown := hprog ▸ hissues th hth
    rw [hprog] at h
    have hunsettled : Unsettled cmd r := by
      cases cmd with
      | creditPayoutOnce claim a unit amount =>
        cases r with
        | error f => trivial
        | ok outcome =>
          obtain ⟨rfl, rfl, -⟩ := hown.1
          have hok := respond_ok hx
          obtain ⟨a₀, a', hnone, -, -, heq⟩ | ⟨hsome, -⟩ | ⟨-, heq⟩ := creditPayoutOnce_cases F
            ⟨th.tag.input.taskHash, th.tag.input.settlement.chain⟩ th.tag.input.executorAddr unit
            amount e.pre.db
          · simp only [effect, heq, Prod.mk.injEq] at hok
            rw [← hok.2] at hpost
            simp [row, hhash] at hpost
          · rw [row, ← hhash] at hpre
            rw [hpre] at hsome
            cases hsome
          · simp only [effect, heq, Prod.mk.injEq] at hok
            exact hok.1.symm
      | isCredited hash =>
        obtain rfl : hash = th.tag.input.taskHash := hown.1
        cases r with
        | error f => exact absurd hw (hkept.checked th.tag f (hhash ▸ hlabel) hpre)
        | ok credited =>
          have hok : (row th.tag.input.taskHash e.pre).isSome = credited :=
            congrArg Prod.fst (respond_ok hx)
          rw [hhash, hpre] at hok
          exact congrArg Except.ok hok.symm
      | _ => trivial
    rcases h r hunsettled with hdel | hk
    · obtain rfl : cmd = .del (.credited taskHash) := hdel
      rcases respond_del hx with hnone | ⟨f, rfl⟩
      · exact absurd hnone hmarker
      · exact absurd (hkept.dropped th.tag f hlabel hpre hw) hmarker
    · exact ⟨_, hmem, rfl, hk⟩
  · rw [hprog] at h
    exact h.elim
  · exact absurd hw (hkept.alive th.tag hdied hpre).1

/-- The first command of a call, and what it leaves. -/
theorem recordWorkerPayout_first {cmd : Cmd} {k : Except Failure (Ans cmd) → Payout Unit}
    (h : .await cmd k = recordWorkerPayout F i) :
    LeavesNX cmd ∧ (∀ r, (k r).Issues LeavesNX) ∨
      ∃ unit, (⟨cmd, k⟩ : (c : Cmd) × (Except Failure (Ans c) → Payout Unit)) =
        ⟨.setNX (.credited i.taskHash) i.executorAddr, afterMarker i unit⟩ := by
  cases hunit : creditable F i with
  | none =>
    have hpark : (recordWorkerPayout F i).Issues LeavesNX := by
      unfold recordWorkerPayout
      rw [hunit]
      exact issues_park_leavesNX
    rw [← h] at hpark
    exact .inl hpark
  | some unit =>
    rw [recordWorkerPayout_creditable hunit] at h
    cases h
    exact .inr ⟨unit, rfl⟩

theorem quiet_numbered : Numbered (payouts F Quiet) Call.id State.calls :=
  numbered fun _ _ h => h.calls

/-- A call asks for the marker first, and not again. -/
theorem marker_first {tr : List Ev} {c : Pool Ans Failure Unit Call State}
    (h : PoolRun (payouts F Quiet) ⟨s₀, []⟩ tr c) : ∀ th ∈ c.threads,
    th.prog = recordWorkerPayout F th.tag.input ∨
      th.prog.Issues LeavesNX := by
  refine quiet_numbered.threads (J := fun _ _ th => th.prog = recordWorkerPayout F th.tag.input ∨
      th.prog.Issues LeavesNX) h ?_ ?_ fun _ _ _ _ _ _ _ hj _ => hj
  · exact fun _ _ _ _ _ _ hx _ => .inl hx.2.1
  · intro tr s t cmd k r s' _ hj
    refine .inr ?_
    rcases hj with hp | hissues
    · obtain ⟨-, hrest⟩ | ⟨unit, heq⟩ := recordWorkerPayout_first (i := t.input) hp
      · exact hrest r
      · cases heq
        exact afterMarker_issues
    · exact hissues.2 r

/-- The call that takes the marker goes on to its credit. -/
theorem taken_step {tr : List Ev} {b c : Pool Ans Failure Unit Call State} {e : Ev} {t : Call}
    {value : Address} {r : Except Failure Bool} (h : PoolRun (payouts F Quiet) ⟨s₀, []⟩ tr b)
    (hs : Async.Step (payouts F Quiet) b e c)
    (hlabel : e.label = .ran t (.setNX (.credited taskHash) value) r) (hr : r ≠ .ok false) :
    ∃ th ∈ c.threads, th.tag = t ∧ Drops t.input.taskHash th.prog ∧ Asks th.prog := by
  cases hs with
  | run l₁ l₂ t' cmd k r' hx =>
    cases hlabel
    refine ⟨⟨t, k r⟩, by simp, rfl, ?_⟩
    obtain hp | hissues := marker_first h ⟨t, .await _ k⟩ (by simp)
    · obtain ⟨hleaves, -⟩ | ⟨unit, heq⟩ := recordWorkerPayout_first (i := t.input) hp
      · exact absurd rfl (hleaves _ _)
      · cases heq
        rcases r with f | first
        · exact ⟨drops_guardedCredit (by simp), asks_guardedCredit⟩
        · cases first with
          | false => exact absurd rfl hr
          | true => exact ⟨drops_guardedCredit (by simp), asks_guardedCredit⟩
    · exact absurd rfl (hissues.1 _ _)
  | _ => cases hlabel

theorem writer_none {tr : List Ev} {e : Ev} (h : marker taskHash e.post = none) :
    writer taskHash (e :: tr) = none := by simp [writer, h]

theorem writer_same {tr : List Ev} {e : Ev} (hpost : marker taskHash e.post ≠ none)
    (hpre : marker taskHash e.pre ≠ none) :
    writer taskHash (e :: tr) = writer taskHash tr := by simp [writer, hpost, hpre]

theorem writer_taken {tr : List Ev} {e : Ev} {t : Call} {cmd : Cmd} {r : Except Failure (Ans cmd)}
    (hlabel : e.label = .ran t cmd r) (hpost : marker taskHash e.post ≠ none)
    (hpre : marker taskHash e.pre = none) : writer taskHash (e :: tr) = some t := by
  simp [writer, hpost, hpre, hlabel]

/-- A call passes by a marker that stands before and after. -/
theorem Skips.marker {b c : Pool Ans Failure Unit Call State} {e : Ev}
    (hs : Async.Step (payouts F Quiet) b e c) (h : Skips taskHash e) :
    marker taskHash e.pre ≠ none ∧ marker taskHash e.post ≠ none := by
  obtain ⟨t, value, hlabel, -, -⟩ := h
  cases hs with
  | run l₁ l₂ t' cmd k r' hx =>
    cases hlabel
    obtain ⟨x, hx⟩ := hx
    obtain ⟨hm, hs'⟩ := (respond_setNX hx).1 rfl
    exact ⟨hm, hs' ▸ hm⟩
  | _ => cases hlabel

theorem Guarded.step {tr : List Ev} {b c : Pool Ans Failure Unit Call State} {e : Ev}
    (h : PoolRun (payouts F Quiet) ⟨s₀, []⟩ tr b) (hs : Async.Step (payouts F Quiet) b e c)
    (hkept : Kept taskHash tr e) (hpre : row taskHash e.pre = none)
    (hpost : row taskHash e.post = none) (hb : Guarded taskHash tr b) :
    Guarded taskHash (e :: tr) c := by
  obtain ⟨hprestate, hpoststate⟩ := hs.states
  have hissues : ∀ th ∈ b.threads, th.prog.Issues (Own F th.tag.input) :=
    issues_run (P := fun t => Own F t.input) h (by simp) start_issues
  -- whoever is still owed was owed before, or has just taken the marker
  have hbefore : ∀ w, (writer taskHash (e :: tr) = some w ∨ Found taskHash w (e :: tr)) →
      (writer taskHash tr = some w ∨ Found taskHash w tr) ∨
      ∃ value r, e.label = .ran w (.setNX (.credited taskHash) value) r ∧ r ≠ .ok false ∧
        w.input.taskHash = taskHash := by
    intro w hw
    obtain hw | ⟨-, hw⟩ | hw := hw
    · by_cases hm : marker taskHash e.post = none
      · rw [writer_none hm] at hw
        cases hw
      by_cases hm' : marker taskHash e.pre = none
      · obtain hsame | ⟨t, value, r, hlabel, hhash, -, hr⟩ | hnone := marker_step h hs taskHash
        · exact absurd (hsame.trans hm') hm
        · rw [writer_taken hlabel hm hm'] at hw
          cases hw
          exact .inr ⟨value, r, hlabel, hr, hhash⟩
        · exact absurd hnone hm
      · exact .inl (.inl (writer_same hm hm' ▸ hw))
    · exact .inl (.inl hw)
    · exact .inl (.inr hw)
  refine ⟨fun hm => ?_, fun w hw => ?_, fun w hw => ?_, fun w hw => ?_⟩
  · rw [← hpoststate] at hm
    by_cases hm' : marker taskHash e.pre = none
    · obtain hsame | ⟨t, value, r, hlabel, hhash, -, hr⟩ | hnone := marker_step h hs taskHash
      · exact absurd (hsame.trans hm') hm
      · obtain ⟨th, hth, htag, hdrops, -⟩ := taken_step h hs hlabel hr
        exact ⟨t, writer_taken hlabel hm hm', th, hth, htag, hhash ▸ hdrops⟩
      · exact absurd hnone hm
    · obtain ⟨w, hw, th, hth, rfl, hdrops⟩ := hb.marked (hprestate ▸ hm')
      refine ⟨th.tag, (writer_same hm hm').trans hw, ?_⟩
      exact drops_step hkept hs hpre hpost hm hissues (hb.own _ (.inl hw)) hw hth hdrops
  · obtain hold | ⟨value, r, hlabel, hr, -⟩ := hbefore w hw
    · refine owed_step hs hpost (fun hdied => ?_) (hb.owed w hold)
      have halive := hkept.alive w hdied hpre
      exact hold.elim halive.1 halive.2
    · obtain ⟨th, hth, htag, -, hasks⟩ := taken_step h hs hlabel hr
      exact .inr ⟨th, hth, htag, hasks⟩
  · rintro ⟨e', he', hrej⟩
    rcases List.mem_cons.mp he' with rfl | he'
    · obtain ⟨⟨t, value, hlabel, -⟩, -⟩ | hw := hw
      · obtain ⟨cmd, r, hlabel', hcredit, -⟩ := hrej
        rw [hlabel] at hlabel'
        cases hlabel'
        exact hcredit
      · exact hkept.credited w hw hrej
    · obtain ⟨hskips, hw⟩ | hw := hw
      · exact hkept.passed hskips w hw ⟨e', he', hrej⟩
      · exact hb.clean w hw ⟨e', he', hrej⟩
  · obtain hold | ⟨value, r, hlabel, hr, hhash⟩ := hbefore w hw
    · exact hb.own w hold
    · exact hhash

theorem Guarded.run {tr : List Ev} {c : Pool Ans Failure Unit Call State}
    (h : PoolRun (payouts F Quiet) ⟨s₀, []⟩ tr c) (h0 : marker taskHash s₀ = none)
    (hkept : ∀ later e earlier, tr = later ++ e :: earlier → Kept taskHash earlier e)
    (hrow : row taskHash c.state = none) : Guarded taskHash tr c := by
  refine Run.invariant (I := fun tr c =>
    (∀ later e earlier, tr = later ++ e :: earlier → Kept taskHash earlier e) →
      row taskHash c.state = none → Guarded taskHash tr c) h ?_ ?_ hkept hrow
  · exact fun _ _ => ⟨fun hm => absurd h0 hm, fun w hw => by simp [writer, Found] at hw,
      fun w hw => hw.elim, fun w hw => by simp [writer, Found] at hw⟩
  · intro tr b e c hrun hb hs hkept hrow
    obtain ⟨hpre, hpost⟩ := hs.states
    have hbefore : row taskHash e.pre = none := by
      rw [hpre]
      cases hb' : row taskHash b.state with
      | none => rfl
      | some credit =>
        have := rows_run (fun _ _ h => h.rows) hrun (Run.single hs) taskHash credit hb'
        rw [row, this] at hrow
        cases hrow
    refine Guarded.step hrun hs (hkept [] e tr rfl) hbefore (hpost ▸ hrow) ?_
    refine hb (fun later e' earlier heq => hkept (e :: later) e' earlier (by rw [heq]; rfl)) ?_
    exact hpre ▸ hbefore

/-! ## Nothing is lost -/

def Idle (taskHash : Hash) (c : Pool Ans Failure Unit Call State) : Prop :=
  ∀ th ∈ c.threads, th.tag.input.taskHash ≠ taskHash

/-- The executor of the call was registered when the call started. -/
def Registered (t : Call) (tr : List Ev) : Prop :=
  ∀ e ∈ tr, e.label = .started t → e.pre.db.agentExecutors t.input.executorAddr ≠ none

structure NeverLost (F : Config) (taskHash : Hash) (tr : List Ev)
    (c : Pool Ans Failure Unit Call State) : Prop where
  /-- A call that finds the marker leaves the credit made, or to another call under way. -/
  behind : ∀ e earlier, tr = e :: earlier → ∀ (t : Call) (value : Address),
    e.label = .ran t (.setNX (.credited taskHash) value) (.ok false) →
    row taskHash c.state ≠ none ∨ ∃ th ∈ c.threads, th.tag ≠ t ∧
      th.tag.input.taskHash = taskHash ∧ Drops taskHash th.prog
  /-- Once all is quiet, a rethrow call that returned has its credit. -/
  credited : Idle taskHash c → ∀ e ∈ tr, ∀ t : Call, e.label = .finished t (.ok ()) →
    t.input.taskHash = taskHash → t.input.rethrow = true → creditable F t.input ≠ none →
    Registered t tr → row taskHash c.state ≠ none
  /-- Once all is quiet, no marker stands without a row. -/
  free : Idle taskHash c → row taskHash c.state = none → marker taskHash c.state = none

theorem registered_step {tr : List Ev} {b c : Pool Ans Failure Unit Call State} {e : Ev}
    (h : PoolRun (payouts F Quiet) ⟨s₀, []⟩ tr b) (hs : Async.Step (payouts F Quiet) b e c)
    {a : Address} (ha : e.pre.db.agentExecutors a ≠ none) :
    e.post.db.agentExecutors a ≠ none := by
  obtain hlabel | hdb | ⟨t, cmd, r, -, unit, feeBps, x, x', -, -, -, -, hagents, -⟩ :=
    event_db (.snoc h hs) (e := e) List.mem_cons_self
  · cases hs with
    | env l hx => exact hx.registered a ha
    | _ => cases hlabel
  · rw [hdb]
    exact ha
  · rw [hagents]
    by_cases heq : a = t.input.executorAddr
    · subst heq
      simp
    · rwa [Function.update_of_ne heq]

theorem registered_run {tr : List Ev} {c : Pool Ans Failure Unit Call State}
    (h : PoolRun (payouts F Quiet) ⟨s₀, []⟩ tr c) : ∀ th ∈ c.threads, Registered th.tag tr →
      c.state.db.agentExecutors th.tag.input.executorAddr ≠ none := by
  refine Run.invariant (I := fun tr c => ∀ th ∈ c.threads, Registered th.tag tr →
    c.state.db.agentExecutors th.tag.input.executorAddr ≠ none) h (by simp) ?_
  intro tr b e c hrun hb hs th hth hreg
  have hkeep : ∀ p : Payout Unit, ⟨th.tag, p⟩ ∈ b.threads →
      c.state.db.agentExecutors th.tag.input.executorAddr ≠ none := by
    intro p hp
    rw [← hs.states.2]
    refine registered_step hrun hs ?_
    rw [hs.states.1]
    exact hb ⟨th.tag, p⟩ hp fun e' he' => hreg e' (List.mem_cons_of_mem _ he')
  cases hs with
  | run l₁ l₂ t cmd k r hx =>
    have hcase : th = ⟨t, k r⟩ ∨ th ∈ l₁ ++ ⟨t, .await cmd k⟩ :: l₂ := by
      simp only [List.mem_append, List.mem_cons] at hth ⊢
      tauto
    rcases hcase with rfl | hth
    · exact hkeep (.await cmd k) (by simp)
    · exact hkeep th.prog hth
  | @start s s' l t p hx =>
    rcases List.mem_cons.mp hth with rfl | hth
    · obtain ⟨-, -, rfl⟩ := hx
      exact hreg _ List.mem_cons_self rfl
    · exact hkeep th.prog hth
  | finish l₁ l₂ t r =>
    refine hkeep th.prog ?_
    simp only [List.mem_append, List.mem_cons] at hth ⊢
    tauto
  | env l hx => exact hkeep th.prog hth
  | die l₁ l₂ t p hx =>
    refine hkeep th.prog ?_
    simp only [List.mem_append, List.mem_cons] at hth ⊢
    tauto

theorem row_before {later earlier : List Ev} {b c : Pool Ans Failure Unit Call State}
    (h₀ : PoolRun (payouts F Quiet) ⟨s₀, []⟩ earlier b) (h : PoolRun (payouts F Quiet) b later c)
    (hrow : row taskHash c.state = none) : row taskHash b.state = none := by
  cases hb : row taskHash b.state with
  | none => rfl
  | some credit =>
    have := rows_run (fun _ _ h => h.rows) h₀ h taskHash credit hb
    rw [row, this] at hrow
    cases hrow

theorem Found.later {w : Call} {later earlier : List Ev} (h : Found taskHash w earlier) :
    Found taskHash w (later ++ earlier) := by
  induction later with
  | nil => exact h
  | cons e later ih => exact .inr ih

/-- A rethrow call for a registered executor passes by a marker, or ends with the row there. -/
theorem answered_found {tr : List Ev} {c : Pool Ans Failure Unit Call State} {e : Ev} {t : Call}
    {cmd : Cmd} {r : Except Failure (Ans cmd)} (h : PoolRun (payouts F Quiet) ⟨s₀, []⟩ tr c)
    (h0 : marker taskHash s₀ = none)
    (hkept : ∀ later e earlier, tr = later ++ e :: earlier → Kept taskHash earlier e)
    (hrow : row taskHash c.state = none) (he : e ∈ tr) (hlabel : e.label = .ran t cmd r)
    (hanswered : Answered cmd r) (hhash : t.input.taskHash = taskHash)
    (hre : t.input.rethrow = true) (hreg : Registered t tr) : ∃ w, Found taskHash w tr := by
  obtain ⟨hown, -⟩ := ran_issued (P := fun t => Own F t.input) h (by simp) start_issues e he t cmd r
    hlabel
  obtain ⟨later, earlier, b, b', rfl, hrun, hstep, hrun'⟩ := Run.split_mem h he
  have hpost : row taskHash e.post = none :=
    hstep.states.2 ▸ row_before (hrun.snoc hstep) hrun' hrow
  have hpre : row taskHash e.pre = none := by
    rw [hstep.states.1]
    exact row_before hrun (Run.single hstep) (hstep.states.2 ▸ hpost)
  have hregb : e.pre.db.agentExecutors t.input.executorAddr ≠ none := by
    have hthread : ∃ p, (⟨t, p⟩ : Thread Ans Failure Unit Call) ∈ b.threads := by
      cases hstep with
      | run l₁ l₂ t' cmd' k r' hx =>
        cases hlabel
        exact ⟨.await cmd k, by simp⟩
      | _ => cases hlabel
    obtain ⟨p, hp⟩ := hthread
    rw [hstep.states.1]
    exact registered_run hrun _ hp fun e' he' => hreg e' (by simp [he'])
  have hexec : ∃ x, respond F x e.pre cmd = (r, e.post) := by
    cases hstep with
    | run l₁ l₂ t' cmd' k r' hx =>
      cases hlabel
      exact hx
    | _ => cases hlabel
  obtain ⟨x, hx⟩ := hexec
  cases cmd with
  | setNX key value =>
    rcases r with f | first
    · exact hanswered.elim
    cases (show first = false from hanswered)
    obtain rfl : key = .credited t.input.taskHash := hown
    rw [hhash] at hlabel hx
    have hskips : Skips taskHash e := ⟨t, value, hlabel, hre, hpre⟩
    have hbefore : Guarded taskHash earlier b := by
      refine Guarded.run hrun h0 (fun l e' e'' heq => hkept (later ++ e :: l) e' e'' ?_) ?_
      · rw [heq, List.append_assoc, List.cons_append]
      · exact hstep.states.1 ▸ hpre
    obtain ⟨w, hw, -⟩ := hbefore.marked (hstep.states.1 ▸ ((respond_setNX hx).1 rfl).1)
    exact ⟨w, Found.later (.inl ⟨hskips, hw⟩)⟩
  | creditPayoutOnce claim a unit amount =>
    rcases r with f | outcome
    · exact hanswered.elim
    obtain ⟨rfl, rfl, -⟩ := hown
    have hok := respond_ok hx
    obtain ⟨a₀, a', -, -, -, heq⟩ | ⟨hsome, -⟩ | ⟨hnone, -⟩ := creditPayoutOnce_cases F
      ⟨t.input.taskHash, t.input.settlement.chain⟩ t.input.executorAddr unit amount e.pre.db
    · simp only [effect, heq, Prod.mk.injEq] at hok
      rw [← hok.2] at hpost
      simp [row, hhash] at hpost
    · rw [row, ← hhash] at hpre
      rw [hpre] at hsome
      cases hsome
    · exact absurd hnone hregb
  | _ => exact hanswered.elim

/-- As long as no call dies behind its marker, fails to drop it, or has its credit rolled back
after another call passed by, no credit is lost. -/
theorem credit_never_lost (F : Config) (taskHash : Hash) (s₀ : State) (tr : List Ev)
    (c : Pool Ans Failure Unit Call State) (h0 : marker taskHash s₀ = none)
    (h : PoolRun (payouts F Quiet) ⟨s₀, []⟩ tr c)
    (hkept : ∀ later e earlier, tr = later ++ e :: earlier → Kept taskHash earlier e) :
    NeverLost F taskHash tr c where
  behind := by
    rintro e earlier rfl t value hlabel
    by_cases hrow : row taskHash c.state = none
    · refine .inr ?_
      have hguarded := Guarded.run h h0 hkept hrow
      cases h with
      | snoc hrun hs =>
        cases hs with
        | run l₁ l₂ t' cmd k r hx =>
          cases hlabel
          obtain ⟨x, hx'⟩ := hx
          obtain ⟨hm, rfl⟩ := (respond_setNX hx').1 rfl
          obtain ⟨w, hw, th, hth, rfl, hdrops⟩ := hguarded.marked hm
          refine ⟨th, hth, fun htag => ?_, hguarded.own _ (.inl hw), hdrops⟩
          -- the call that passed by is over
          have hcounted := quiet_numbered.run (hrun.snoc (.run l₁ l₂ t _ k _ ⟨x, hx'⟩))
          have hth' := hcounted.eq_of_tag hth
            (show ⟨t, k (.ok false)⟩ ∈ l₁ ++ ⟨t, k (.ok false)⟩ :: l₂ by simp)
            (congrArg Call.id htag)
          subst hth'
          obtain hp | hissues := marker_first hrun ⟨t, .await _ k⟩ (by simp)
          · obtain ⟨hleaves, -⟩ | ⟨unit, heq⟩ := recordWorkerPayout_first (i := t.input) hp
            · exact absurd rfl (hleaves _ _)
            · cases heq
              exact hdrops.elim
          · exact absurd rfl (hissues.1 _ _)
        | _ => cases hlabel
    · exact .inl hrow
  credited := by
    intro hidle e he t hlabel hhash hre hcreditable hreg hrow
    obtain ⟨e', he', cmd, r, hlabel', hanswered⟩ := until_finished quiet_numbered
      (A := fun _ _ => True) (P := Answered) (Q := fun r => r ≠ .ok ())
      (T := fun t => t.input.rethrow = true ∧ creditable F t.input ≠ none) h
      (by
        rintro tags s t p s' ⟨-, rfl, -⟩ ⟨hre, hcreditable⟩
        obtain ⟨unit, hunit⟩ := Option.ne_none_iff_exists'.mp hcreditable
        rw [recordWorkerPayout_creditable hunit]
        intro r _
        rcases r with f | first
        · exact .inr (until_guardedCredit hre)
        · cases first with
          | false => exact .inl rfl
          | true => exact .inr (until_guardedCredit hre))
      (fun _ _ _ _ _ _ => trivial) he hlabel ⟨hre, hcreditable⟩ (fun h => h rfl)
    obtain ⟨w, hw⟩ := answered_found h h0 hkept hrow he' hlabel' hanswered hhash hre hreg
    have hguarded := Guarded.run h h0 hkept hrow
    obtain hrej | ⟨th, hth, rfl, -⟩ := hguarded.owed w (.inr hw)
    · exact hguarded.clean w hw hrej
    · exact hidle th hth (hguarded.own _ (.inr hw))
  free := by
    intro hidle hrow
    by_contra hm
    have hguarded := Guarded.run h h0 hkept hrow
    obtain ⟨w, hw, th, hth, rfl, -⟩ := hguarded.marked hm
    exact hidle th hth (hguarded.own _ (.inl hw))

/-- Nothing dies or fails, and nobody passes by. -/
def Smooth (e : Ev) : Bool :=
  match e.label with
  | .died _ => false
  | .ran _ (.setNX _ _) (.ok false) => false
  | .ran _ _ (.error _) => false
  | _ => true

theorem Smooth.not_skips {e : Ev} (h : Smooth e = true) : ¬ Skips taskHash e := by
  rintro ⟨t, value, hlabel, -⟩
  rw [Smooth, hlabel] at h
  cases h

theorem kept_of_smooth {tr : List Ev} (h : tr.all Smooth = true) :
    ∀ later e earlier, tr = later ++ e :: earlier → Kept taskHash earlier e := by
  rintro later e earlier rfl
  rw [List.all_eq_true] at h
  have hfound : ∀ w tr', (∀ e ∈ tr', Smooth e = true) → ¬ Found taskHash w tr' := by
    intro w tr' hs hw
    induction tr' with
    | nil => exact hw
    | cons e tr' ih =>
      obtain ⟨hskips, -⟩ | hw := hw
      · exact Smooth.not_skips (hs e List.mem_cons_self) hskips
      · exact ih (fun e' he' => hs e' (List.mem_cons_of_mem _ he')) hw
  have he := h e (by simp)
  refine ⟨fun t hlabel => ?_, fun t f hlabel => ?_, fun t f hlabel => ?_,
    fun t ht => absurd ht (hfound t earlier fun e' he' => h e' (by simp [he'])),
    fun hskips => absurd hskips (Smooth.not_skips he)⟩ <;>
  · rw [Smooth, hlabel] at he
    cases he

def quietStage : Stage (payouts demoConfig Quiet) Turn Unit :=
  stage demoConfig Quiet some fun s s' h => by
    cases h
    exact ⟨rfl, fun _ => id, fun _ => rfl, rfl⟩

/-- One call from its start to its end. -/
def oneCall : List (Cue Call Turn Unit) :=
  [.enter (demoCall 0), .turn 0 {}, .turn 0 {}, .turn 0 { feeBps := 250 }, .turn 0 {}, .turn 0 {},
    .turn 0 {}, .leave 0]

theorem oneCall_plays : (quietStage.play oneCall ⟨demoStart, []⟩).isSome = true := by decide

theorem credit_never_lost_oneCall :
    NeverLost demoConfig 5 ((quietStage.play oneCall ⟨demoStart, []⟩).get oneCall_plays).1
      ((quietStage.play oneCall ⟨demoStart, []⟩).get oneCall_plays).2 ∧
      row 5 ((quietStage.play oneCall ⟨demoStart, []⟩).get oneCall_plays).2.state =
        some ⟨.arc, 8⟩ :=
  ⟨credit_never_lost demoConfig 5 demoStart _ _ rfl (Stage.play_get oneCall_plays)
    (kept_of_smooth (by decide)), by decide⟩

/-- A call dies after its `SET NX`, and the next one passes by. -/
def diedBehindMarker : List (Cue Call Turn Unit) :=
  [.enter (demoCall 0), .turn 0 {}, .kill 0, .enter (demoCall 1), .turn 0 {}, .leave 0]

theorem diedBehindMarker_plays :
    (quietStage.play diedBehindMarker ⟨demoStart, []⟩).isSome = true := by decide

/-- The second call returns as if the task were credited; it is not, and the marker stays. -/
theorem credit_lost_diedBehindMarker :
    ∃ (tr : List Ev) (c : Pool Ans Failure Unit Call State),
      PoolRun (payouts demoConfig Quiet) ⟨demoStart, []⟩ tr c ∧ c.threads = [] ∧
      (∃ e ∈ tr, e.label = .finished (demoCall 1) (.ok ())) ∧
      row 5 c.state = none ∧ marker 5 c.state = some 8 ∧ ¬ NeverLost demoConfig 5 tr c := by
  refine ⟨_, _, Stage.play_get diedBehindMarker_plays, rfl,
    ⟨_, List.mem_cons_self, rfl⟩, rfl, rfl, fun h => ?_⟩
  have hmarker := h.free (fun th hth => by cases hth) rfl
  cases (show some 8 = none from hmarker)

end WorkerPayout
