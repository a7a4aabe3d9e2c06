import BlindMarket.DeployPayments.Holds

/-!
# One payment, one agent

A claim row carries no mark of the request that holds it. While a request
deploys, or has yet to release what failed, another can take a row over once it
is old, and a release deletes whatever pending row it finds.
-/
namespace DeployPayments

open Async Prog Runs

/-- Redis may be lost or set back at any moment, and time passes. -/
def RedisAnyhow (s s' : State) : Prop :=
  s'.rows = s.rows ∧ s'.agents = s.agents ∧ s'.calls = s.calls

/-- The key is claimed, and its deploy or what follows a failed one is still to come. -/
def Live (hold : Option Hold) (key : PaymentKey) : Prop :=
  hold = some ⟨.claimed, key⟩ ∨ hold = some ⟨.failed, key⟩

/-- A request that has claimed a key and has neither deployed with it nor released it. -/
def Holding (cfg : Config) (tr : List Ev) (t : Call) (key : PaymentKey) : Prop :=
  ∃ a, known tr t = some a ∧ Live (hold cfg a) key

/-- A claim finds a pending row of the key older than `PENDING_CLAIM_TTL_S`. -/
def FindsStale (e : Ev) (key : PaymentKey) : Prop :=
  ∃ (t : Call) (owner : Address) (now staleBefore : Int) (row : PaymentRow),
    ((∃ r, e.label = .ran t (.takeOver key owner now staleBefore) r) ∨
      ∃ r, e.label = .ran t (.claimTransaction key owner now staleBefore) r) ∧
    e.pre.rows key = some row ∧ row.Stale staleBefore

/-- A step of a run in which deploys are over, and what they made is marked, before their claims
are old. -/
structure InTime (cfg : Config) (earlier : List Ev) (e : Ev) : Prop where
  stale : ∀ key, FindsStale e key →
    e.pre.agentsOf key = [] ∧ ∀ t, ¬ Holding cfg earlier t key
  deploy : ∀ t owner payment err, e.label = .ran t (.deployAgent owner payment) (.error err) →
    e.post.agents = e.pre.agents

def AllInTime (cfg : Config) (tr : List Ev) : Prop :=
  ∀ later e earlier, tr = later ++ e :: earlier → InTime cfg earlier e

/-- An answer that gives the key to the one that asked. -/
def Grants : (c : Cmd) → Except Failure (Ans c) → PaymentKey → Prop
  | .insertClaim key _ _, .ok true, key' => key = key'
  | .takeOver key _ _ _, .ok true, key' => key = key'
  | .claimTransaction key _ _ _, .ok .claimed, key' => key = key'
  | _, _, _ => False

/-- A claim of the key is answered with it. -/
def Claims (e : Ev) (key : PaymentKey) : Prop :=
  ∃ (t : Call) (c : Cmd) (r : Except Failure (Ans c)), e.label = .ran t c r ∧ Grants c r key

/-- What one payment buys. -/
structure PaidOnce (tr : List Ev) (s : State) : Prop where
  one : ∀ key, (s.agentsOf key).length ≤ 1
  spent : ∀ e ∈ tr, ∀ key, Claims e key → e.pre.agentsOf key = []

/-! ## The invariant -/

structure Single (cfg : Config) (tr : List Ev) (s : State) (key : PaymentKey) : Prop where
  one : ∀ t t', Holding cfg tr t key → Holding cfg tr t' key → t = t'
  fresh : ∀ t, Holding cfg tr t key → s.agentsOf key = []
  row : (∃ t, Holding cfg tr t key) ∨ s.agentsOf key ≠ [] → s.rows key ≠ none
  atMostOne : (s.agentsOf key).length ≤ 1

variable {cfg : Config} {chain : Chain} {tr : List Ev} {e : Ev} {s s' : State} {t : Call}
  {key : PaymentKey} {a : Answers Ans Failure}

theorem AllInTime.tail (h : AllInTime cfg (e :: tr)) : AllInTime cfg tr :=
  fun later e' earlier heq => h (e :: later) e' earlier (by rw [heq]; rfl)

theorem AllInTime.head (h : AllInTime cfg (e :: tr)) : InTime cfg tr e := h [] e tr rfl

theorem Holding.other {t' : Call} (htag : e.label.tag? ≠ some t') :
    Holding cfg (e :: tr) t' key ↔ Holding cfg tr t' key := by
  unfold Holding
  rw [known_other htag]

/-- What a request holds after one more answer. -/
theorem Holding.ran {c : Cmd} {r : Except Failure (Ans c)} (hknown : known tr t = some a) :
    Holding cfg (⟨.ran t c r, s, s'⟩ :: tr) t key ↔
      Live (Hold.next cfg (hold cfg a) c r) key := by
  simp [Holding, hknown]

theorem holding_iff (hknown : known tr t = some a) :
    Holding cfg tr t key ↔ Live (hold cfg a) key := by
  simp [Holding, hknown]

/-- Nothing of the key is claimed, created or released. -/
theorem Single.quiet {tr' : List Ev} (h : Single cfg tr s key)
    (hrow : s.rows key ≠ none → s'.rows key ≠ none) (hagents : s'.agentsOf key = s.agentsOf key)
    (hhold : ∀ t, Holding cfg tr' t key → Holding cfg tr t key) : Single cfg tr' s' key where
  one t t' ht ht' := h.one t t' (hhold t ht) (hhold t' ht')
  fresh t ht := by rw [hagents, h.fresh t (hhold t ht)]
  row := by
    intro hor
    refine hrow (h.row ?_)
    rw [hagents] at hor
    exact hor.imp (fun ⟨t, ht⟩ => ⟨t, hhold t ht⟩) id
  atMostOne := by rw [hagents]; exact h.atMostOne

/-- The key is claimed by the only one to hold it. -/
theorem Single.claim {tr' : List Ev} (hnone : ∀ t, ¬ Holding cfg tr t key)
    (hfree : s'.agentsOf key = []) (hrow : s'.rows key ≠ none)
    (hhold : ∀ t', Holding cfg tr' t' key → t' = t ∨ Holding cfg tr t' key) :
    Single cfg tr' s' key where
  one t₁ t₂ h₁ h₂ := by
    obtain rfl | h₁ := hhold t₁ h₁
    · obtain rfl | h₂ := hhold t₂ h₂
      · rfl
      · exact absurd h₂ (hnone t₂)
    · exact absurd h₁ (hnone t₁)
  fresh _ _ := hfree
  row _ := hrow
  atMostOne := by rw [hfree]; exact Nat.zero_le 1

/-- The one that holds the key is done with it. -/
theorem Single.release {tr' : List Ev} (h : Single cfg tr s key) (hheld : Holding cfg tr t key)
    (hagents : (s'.agentsOf key).length ≤ 1)
    (hrow : s'.agentsOf key ≠ [] → s'.rows key ≠ none)
    (hhold : ∀ t', Holding cfg tr' t' key → t' ≠ t ∧ Holding cfg tr t' key) :
    Single cfg tr' s' key where
  one t₁ t₂ h₁ _ := absurd (h.one t₁ t (hhold t₁ h₁).2 hheld) (hhold t₁ h₁).1
  fresh t₁ h₁ := absurd (h.one t₁ t (hhold t₁ h₁).2 hheld) (hhold t₁ h₁).1
  row hor := by
    obtain ⟨t₁, h₁⟩ | hne := hor
    · exact absurd (h.one t₁ t (hhold t₁ h₁).2 hheld) (hhold t₁ h₁).1
    · exact hrow hne
  atMostOne := hagents

/-! ## One command -/

variable {c : Cmd} {r : Except Failure (Ans c)} {env : State → State → Prop}

theorem Live.fail {prev : Option Hold} (h : Live (prev.bind Hold.fail) key) : Live prev key := by
  cases prev with
  | none => obtain h | h := h <;> cases h
  | some hold =>
    obtain ⟨phase, key'⟩ := hold
    cases phase <;> obtain h | h := h <;> cases h
    exact .inl rfl

/-- A key is held because it was, or because the answer gave it. -/
theorem Live.next (hfits : Fits cfg a c) (h : Live (Hold.next cfg (hold cfg a) c r) key) :
    Live (hold cfg a) key ∨ Grants c r key := by
  cases r with
  | error err =>
    cases c with
    | deployAgent owner payment =>
      cases payment with
      | none => exact .inl h.fail
      | some key' =>
        refine .inl (.inl ?_)
        obtain h | h := h <;> cases h
        exact hfits
    | markPaymentUsed key' agentId => obtain h | h := h <;> cases h
    | _ => exact .inl h.fail
  | ok v =>
    cases c with
    | srem user nonce =>
      cases v with
      | true => obtain h | h := h <;> cases h
      | false => exact .inl h
    | insertClaim key' owner now =>
      cases v with
      | true =>
        obtain h | h := h <;> cases h
        exact .inr rfl
      | false => obtain h | h := h <;> cases h
    | takeOver key' owner now staleBefore =>
      cases v with
      | true =>
        obtain h | h := h <;> cases h
        exact .inr rfl
      | false => exact .inl h
    | claimTransaction key' owner now staleBefore =>
      cases v with
      | claimed =>
        obtain h | h := h <;> cases h
        exact .inr rfl
      | notClaimed pending agentId => obtain h | h := h <;> cases h
    | deployAgent owner payment =>
      cases payment with
      | none => exact .inl h
      | some key' => obtain h | h := h <;> cases h
    | setCredit user nonce credit =>
      cases hprev : hold cfg a with
      | none =>
        rw [hprev] at h
        obtain h | h := h <;> cases h
      | some prev =>
        rw [hprev] at h
        obtain h | h := h <;> cases h
    | markPaymentUsed key' agentId => obtain h | h := h <;> cases h
    | selectAgentId key' => obtain h | h := h <;> cases h
    | releasePayment key' => obtain h | h := h <;> cases h
    | sadd user nonce => obtain h | h := h <;> cases h
    | _ => exact .inl h

theorem setRow_rows (row : Option PaymentRow) (key' : PaymentKey) :
    (s.setRow key row).rows key' = if key' = key then row else s.rows key' := by
  simp [State.setRow, Function.update_apply]

theorem claimTransaction_cases (key : PaymentKey) (owner : Address) (now staleBefore : Int)
    (s : State) :
    (s.rows key = none ∧ claimTransaction key owner now staleBefore s =
      (.claimed, s.setRow key (some ⟨owner, none, now⟩))) ∨
    ∃ row, s.rows key = some row ∧
      (row.Stale staleBefore ∧ claimTransaction key owner now staleBefore s =
        (.claimed, s.setRow key (some { row with owner, claimedAt := now })) ∨
      ¬ row.Stale staleBefore ∧ ∃ pending agentId,
        claimTransaction key owner now staleBefore s = (.notClaimed pending agentId, s)) := by
  cases hrow : s.rows key with
  | none => exact .inl ⟨rfl, by simp [claimTransaction, insertClaim, hrow]⟩
  | some row =>
    refine .inr ⟨row, rfl, ?_⟩
    by_cases hstale : row.Stale staleBefore
    · exact .inl ⟨hstale, by simp [claimTransaction, insertClaim, takeOver, hrow, hstale]⟩
    · exact .inr ⟨hstale, (selectAgentId key s).isNone, selectAgentId key s,
        by simp [claimTransaction, insertClaim, takeOver, hrow, hstale]⟩

/-- Only a release empties a row. -/
theorem effect_rows {x : Turn} (hrow : s.rows key ≠ none) (hc : c ≠ .releasePayment key) :
    (effect cfg chain t x s c).2.rows key ≠ none := by
  cases c with
  | insertClaim key' owner now =>
    simp only [effect, insertClaim]
    split
    · exact hrow
    · simp only [setRow_rows]
      split <;> simp_all
  | takeOver key' owner now staleBefore =>
    simp only [effect, takeOver]
    split
    · split
      · simp only [setRow_rows]
        split <;> simp_all
      · exact hrow
    · exact hrow
  | claimTransaction key' owner now staleBefore =>
    obtain ⟨-, heq⟩ | ⟨row, -, ⟨-, heq⟩ | ⟨-, pending, agentId, heq⟩⟩ :=
      claimTransaction_cases key' owner now staleBefore s
    · simp only [effect, heq, setRow_rows]
      split <;> simp_all
    · simp only [effect, heq, setRow_rows]
      split <;> simp_all
    · simpa only [effect, heq] using hrow
  | markPaymentUsed key' agentId =>
    simp only [effect, markRow]
    split
    · simp only [setRow_rows]
      split <;> simp_all
    · exact hrow
  | recordUsedPayment key' owner agentId now =>
    simp only [effect, recordUsed]
    split
    · exact hrow
    · simp only [setRow_rows]
      split <;> simp_all
  | releasePayment key' =>
    have hne : key ≠ key' := fun heq => hc (by rw [heq])
    simp only [effect, deletePending]
    split
    · split
      · simpa only [setRow_rows, if_neg hne] using hrow
      · exact hrow
    · exact hrow
  | enterTick =>
    simp only [effect]
    split <;> exact hrow
  | _ => exact hrow

/-- Only a deploy makes an agent. -/
theorem effect_agents (cfg : Config) (chain : Chain) (t : Call) (x : Turn) (s : State) (c : Cmd)
    (key : PaymentKey) :
    (effect cfg chain t x s c).2.agentsOf key = s.agentsOf key ∨
      (∃ owner, c = .deployAgent owner (some key)) ∧
        (effect cfg chain t x s c).2.agentsOf key = x.agentId :: s.agentsOf key := by
  cases c with
  | deployAgent owner payment =>
    by_cases heq : payment = some key
    · subst heq
      exact .inr ⟨⟨owner, rfl⟩, by simp [effect, State.agentsOf]⟩
    · exact .inl (by simp [effect, State.agentsOf, heq])
  | insertClaim key' owner now =>
    simp only [effect, insertClaim]
    split <;> exact .inl rfl
  | takeOver key' owner now staleBefore =>
    simp only [effect, takeOver]
    split
    · split <;> exact .inl rfl
    · exact .inl rfl
  | claimTransaction key' owner now staleBefore =>
    obtain ⟨-, heq⟩ | ⟨row, -, ⟨-, heq⟩ | ⟨-, pending, agentId, heq⟩⟩ :=
      claimTransaction_cases key' owner now staleBefore s <;>
      exact .inl (by simp [effect, heq, State.agentsOf, State.setRow])
  | markPaymentUsed key' agentId =>
    simp only [effect, markRow]
    split <;> exact .inl rfl
  | recordUsedPayment key' owner agentId now =>
    simp only [effect, recordUsed]
    split <;> exact .inl rfl
  | releasePayment key' =>
    simp only [effect, deletePending]
    split
    · split <;> exact .inl rfl
    · exact .inl rfl
  | enterTick =>
    simp only [effect]
    split <;> exact .inl rfl
  | _ => exact .inl rfl

theorem effect_calls {x : Turn} : (effect cfg chain t x s c).2.calls = s.calls := by
  cases c with
  | insertClaim key' owner now =>
    simp only [effect, insertClaim]
    split <;> rfl
  | takeOver key' owner now staleBefore =>
    simp only [effect, takeOver]
    split
    · split <;> rfl
    · rfl
  | claimTransaction key' owner now staleBefore =>
    obtain ⟨-, heq⟩ | ⟨row, -, ⟨-, heq⟩ | ⟨-, pending, agentId, heq⟩⟩ :=
      claimTransaction_cases key' owner now staleBefore s <;>
      simp [effect, heq, State.setRow]
  | markPaymentUsed key' agentId =>
    simp only [effect, markRow]
    split <;> rfl
  | recordUsedPayment key' owner agentId now =>
    simp only [effect, recordUsed]
    split <;> rfl
  | releasePayment key' =>
    simp only [effect, deletePending]
    split
    · split <;> rfl
    · rfl
  | enterTick =>
    simp only [effect]
    split <;> rfl
  | _ => rfl

/-- A key is given to one that finds no row, or an old one. -/
theorem grants_cases {x : Turn} (hx : respond cfg chain t x s c = (r, s')) (h : Grants c r key) :
    s'.rows key ≠ none ∧ s'.agentsOf key = s.agentsOf key ∧
      (s.rows key = none ∨ FindsStale ⟨.ran t c r, s, s'⟩ key) := by
  obtain ⟨rfl, rfl⟩ | ⟨-, rfl, -⟩ := respond_cases hx
  · cases c with
    | insertClaim key' owner now =>
      cases hrow : s.rows key' with
      | some row => simp [effect, insertClaim, hrow, Grants] at h
      | none =>
        simp only [effect, insertClaim, hrow, Grants] at h
        subst h
        refine ⟨?_, ?_, .inl hrow⟩
        · simp [effect, insertClaim, hrow, setRow_rows]
        · simp only [effect, insertClaim, hrow]
          rfl
    | takeOver key' owner now staleBefore =>
      cases hrow : s.rows key' with
      | none => simp [effect, takeOver, hrow, Grants] at h
      | some row =>
        by_cases hstale : row.Stale staleBefore
        · simp only [effect, takeOver, hrow, hstale, if_true, Grants] at h
          subst h
          refine ⟨?_, ?_, .inr ⟨t, owner, now, staleBefore, row, .inl ⟨_, rfl⟩, hrow, hstale⟩⟩
          · simp [effect, takeOver, hrow, hstale, setRow_rows]
          · simp only [effect, takeOver, hrow, hstale, if_true]
            rfl
        · simp [effect, takeOver, hrow, hstale, Grants] at h
    | claimTransaction key' owner now staleBefore =>
      obtain ⟨hrow, heq⟩ | ⟨row, hrow, ⟨hstale, heq⟩ | ⟨-, pending, agentId, heq⟩⟩ :=
        claimTransaction_cases key' owner now staleBefore s
      · simp only [effect, heq, Grants] at h
        subst h
        refine ⟨by simp [effect, heq, setRow_rows], ?_, .inl hrow⟩
        simp only [effect, heq]
        rfl
      · simp only [effect, heq, Grants] at h
        subst h
        refine ⟨by simp [effect, heq, setRow_rows], ?_,
          .inr ⟨t, owner, now, staleBefore, row, .inr ⟨_, rfl⟩, hrow, hstale⟩⟩
        simp only [effect, heq]
        rfl
      · simp [effect, heq, Grants] at h
    | _ => exact absurd h (by simp [Grants])
  · cases c <;> exact absurd h (by simp [Grants])

/-- What one command keeps of a key. -/
theorem Single.ran (h : Single cfg tr s key) (hknown : known tr t = some a) (hfits : Fits cfg a c)
    {x : Turn} (hx : respond cfg chain t x s c = (r, s'))
    (hin : InTime cfg tr ⟨.ran t c r, s, s'⟩) :
    Single cfg (⟨.ran t c r, s, s'⟩ :: tr) s' key := by
  have hhold : ∀ t', Holding cfg (⟨.ran t c r, s, s'⟩ :: tr) t' key →
      Holding cfg tr t' key ∨ t' = t ∧ Grants c r key := by
    intro t' ht'
    by_cases htag : t' = t
    · subst htag
      rw [Holding.ran hknown] at ht'
      exact (ht'.next hfits).imp (holding_iff hknown).mpr fun hg => ⟨rfl, hg⟩
    · exact .inl ((Holding.other (by simpa [Label.tag?] using Ne.symm htag)).mp ht')
  have hstate : s' = s ∨ s' = (effect cfg chain t x s c).2 :=
    (respond_cases hx).elim (fun h => .inr h.2) fun h => h.2.2
  by_cases hgrants : Grants c r key
  · obtain ⟨hrow, hagents, hfound⟩ := grants_cases hx hgrants
    have hfree : s.agentsOf key = [] ∧ ∀ t, ¬ Holding cfg tr t key := by
      obtain hnone | hstale := hfound
      · constructor
        · by_contra hne
          exact h.row (.inr hne) hnone
        · exact fun t ht => h.row (.inl ⟨t, ht⟩) hnone
      · exact hin.stale key hstale
    exact .claim hfree.2 (hagents.trans hfree.1) hrow fun t' ht' =>
      (hhold t' ht').symm.imp (fun h => h.1) id
  have hkeep : ∀ t', Holding cfg (⟨.ran t c r, s, s'⟩ :: tr) t' key → Holding cfg tr t' key :=
    fun t' ht' => (hhold t' ht').resolve_right fun hg => hgrants hg.2
  by_cases hrelease : c = .releasePayment key
  · subst hrelease
    have hheld : Holding cfg tr t key := (holding_iff hknown).mpr (.inr hfits)
    have hagents : s'.agentsOf key = [] := by
      rw [← h.fresh t hheld]
      obtain rfl | rfl := hstate
      · rfl
      · exact (effect_agents _ _ _ _ _ _ _).resolve_right fun h => by obtain ⟨⟨_, h⟩, -⟩ := h; cases h
    refine h.release hheld (by simp [hagents]) (fun hne => absurd hagents hne) fun t' ht' => ?_
    refine ⟨fun heq => ?_, hkeep t' ht'⟩
    subst heq
    rw [Holding.ran hknown, show hold cfg a = _ from hfits] at ht'
    cases r <;> obtain ht' | ht' := ht' <;> cases ht'
  have hrows : s.rows key ≠ none → s'.rows key ≠ none := by
    obtain rfl | rfl := hstate
    · exact id
    · exact fun hne => effect_rows hne hrelease
  have hquiet : s'.agentsOf key = s.agentsOf key → Single cfg (⟨.ran t c r, s, s'⟩ :: tr) s' key :=
    fun hagents => h.quiet hrows hagents hkeep
  obtain rfl | rfl := hstate
  · exact hquiet rfl
  obtain hsame | ⟨⟨owner, rfl⟩, hmade⟩ := effect_agents cfg chain t x s c key
  · exact hquiet hsame
  have hheld : Holding cfg tr t key := (holding_iff hknown).mpr (.inl hfits)
  cases r with
  | error err => exact hquiet (congrArg (fun l => (l.filter fun a => a.2 = some key).map (·.1))
      (hin.deploy t owner (some key) err rfl))
  | ok agentId =>
    have hone := hmade.trans (congrArg (x.agentId :: ·) (h.fresh t hheld))
    refine h.release hheld (by rw [hone]; exact Nat.le_refl 1)
      (fun _ => hrows (h.row (.inl ⟨t, hheld⟩))) fun t' ht' => ?_
    refine ⟨fun heq => ?_, hkeep t' ht'⟩
    subst heq
    rw [Holding.ran hknown] at ht'
    obtain ht' | ht' := ht' <;> cases ht'

/-! ## Runs -/

theorem others_numbered {env : State → State → Prop} (henv : ∀ s s', env s s' → s'.calls = s.calls) :
    Numbered (deploys cfg chain env) Call.id State.calls where
  exec := by
    rintro t s c r s' ⟨x, hx⟩
    obtain ⟨-, rfl⟩ | ⟨-, -, rfl | rfl⟩ := respond_cases hx
    · exact effect_calls
    · rfl
    · exact effect_calls
  start := by
    rintro tags s t p s' ⟨hid, -, rfl⟩
    exact ⟨hid, rfl⟩
  env := henv
  die := by
    rintro t s s' rfl
    split <;> rfl

theorem single_run {s₀ : State} {pool : Pool Ans Failure (Option Response) Call State}
    (h : PoolRun (deploys cfg chain RedisAnyhow) ⟨s₀, []⟩ tr pool) (h0 : s₀.agents = [])
    (hin : AllInTime cfg tr) (key : PaymentKey) : Single cfg tr pool.state key := by
  refine (others_numbered fun _ _ h => h.2.2).known_invariant
    (I := fun tr s => AllInTime cfg tr → Single cfg tr s key) (P := fun _ => Fits cfg)
    (Q := fun _ a _ => Ended cfg a) h start_told ?_ ?_ hin
  · intro _
    have hfree : s₀.agentsOf key = [] := by simp [State.agentsOf, h0]
    refine ⟨?_, ?_, ?_, by simp [hfree]⟩
    · rintro t t' ⟨a, ha, -⟩
      cases ha
    · rintro t ⟨a, ha, -⟩
      cases ha
    · rintro (⟨t, a, ha, -⟩ | hne)
      · cases ha
      · exact absurd hfree hne
  · intro tr s e s' hsingle hmove hin
    have hb := hsingle hin.tail
    have hover : ∀ (label : Label Ans Failure (Option Response) Call) (t : Call) (s₁ : State),
        label.tag? = some t → known (⟨label, s, s₁⟩ :: tr) t = none ∨
          known (⟨label, s, s₁⟩ :: tr) t = some [] →
        ∀ t', Holding cfg (⟨label, s, s₁⟩ :: tr) t' key → Holding cfg tr t' key := by
      intro label t s₁ htag hnew t' ht'
      by_cases heq : t' = t
      · subst heq
        obtain ⟨a, ha, hlive⟩ := ht'
        obtain hnew | hnew := hnew <;> rw [hnew] at ha <;> cases ha
        obtain h | h := hlive <;> cases h
      · exact (Holding.other (by simpa [htag] using Ne.symm heq)).mp ht'
    cases hmove with
    | ran t a c r hknown hfits hx =>
      obtain ⟨x, hx⟩ := hx
      exact hb.ran hknown hfits hx hin.head
    | started t p tags hfresh hx =>
      obtain ⟨-, -, rfl⟩ := hx
      exact hb.quiet id rfl (hover _ t _ rfl (.inr (by simp)))
    | finished t a r hknown hends =>
      exact hb.quiet id rfl (hover _ t _ rfl (.inl (by simp)))
    | env hx =>
      obtain ⟨hrows, hagents, -⟩ := hx
      exact hb.quiet (by rw [hrows]; exact id) (by simp only [State.agentsOf, hagents])
        fun t' ht' => ht'
    | died t a hknown hx =>
      obtain rfl := hx
      refine hb.quiet ?_ ?_ (hover _ t _ rfl (.inl (by simp)))
      · split <;> exact id
      · split <;> rfl

/-- While every deploy is over, and what it made is marked, before its claim is old enough to be
taken over, and a deploy that throws has made nothing, one payment buys at most one agent, and its
key is never given out again. -/
theorem deploys_paid_once (cfg : Config) (chain : Chain) (s₀ : State) (tr : List Ev)
    (pool : Pool Ans Failure (Option Response) Call State)
    (h : PoolRun (deploys cfg chain RedisAnyhow) ⟨s₀, []⟩ tr pool) (h0 : s₀.agents = [])
    (hin : AllInTime cfg tr) : PaidOnce tr pool.state where
  one key := (single_run h h0 hin key).atMostOne
  spent := by
    rintro e he key ⟨t, c, r, hlabel, hgrants⟩
    obtain ⟨later, earlier, rfl⟩ := List.append_of_mem he
    obtain ⟨b, b', hrun, hstep, -⟩ := h.split
    have hin' : AllInTime cfg (e :: earlier) := fun l e' l' heq =>
      hin (later ++ l) e' l' (by rw [List.append_assoc, ← heq])
    have hb := single_run hrun h0 hin'.tail key
    cases hstep with
    | run l₁ l₂ t' c' k r' hx =>
      cases hlabel
      obtain ⟨x, hx⟩ := hx
      obtain ⟨-, -, hnone | hstale⟩ := grants_cases hx hgrants
      · by_contra hne
        exact hb.row (.inr hne) hnone
      · exact (hin'.head.stale key hstale).1
    | _ => cases hlabel

def waitStage : Async.Stage (deploys demoConfig [] RedisAnyhow) Turn Int :=
  stage demoConfig [] RedisAnyhow wait fun m s s' h => by
    cases h
    exact ⟨rfl, rfl, rfl⟩

/-- A step that finds nothing old and fails no deploy that made something. -/
def calm (e : Ev) : Bool :=
  match e.label with
  | .ran _ (.takeOver _ _ _ _) _ => false
  | .ran _ (.claimTransaction _ _ _ _) _ => false
  | .ran _ (.deployAgent _ _) (.error _) => decide (e.post.agents = e.pre.agents)
  | _ => true

theorem allInTime_of_calm (h : tr.all calm = true) : AllInTime cfg tr := by
  rintro later e earlier rfl
  have he : calm e = true := List.all_eq_true.mp h e (by simp)
  obtain ⟨label, pre, post⟩ := e
  refine ⟨?_, ?_⟩
  · rintro key ⟨t, owner, now, staleBefore, row, ⟨r, rfl⟩ | ⟨r, rfl⟩, -⟩ <;> cases he
  · rintro t owner payment err rfl
    exact of_decide_eq_true he

/-- A deploy fails and is released, and the next one has the same transaction's agent. -/
def triedAgain : List (Cue Call Turn Int) :=
  [.enter (demoDeploy 0 (some 7)), .turn 0 {}, .turn 0 {}, .turn 0 {}, .turn 0 {}, .turn 0 {},
    .turn 0 {}, .turn 0 { fate := .failed }, .turn 0 {}, .leave 0,
    .enter (demoDeploy 1 (some 7)), .turn 0 {}, .turn 0 {}, .turn 0 {}, .turn 0 {}, .turn 0 {},
    .turn 0 {}, .turn 0 { agentId := 3 }, .turn 0 {}, .turn 0 {}, .leave 0]

theorem triedAgain_plays : (waitStage.play triedAgain ⟨{}, []⟩).isSome = true := by decide

theorem deploys_paid_once_triedAgain :
    PaidOnce ((waitStage.play triedAgain ⟨{}, []⟩).get triedAgain_plays).1
        ((waitStage.play triedAgain ⟨{}, []⟩).get triedAgain_plays).2.state ∧
      ((waitStage.play triedAgain ⟨{}, []⟩).get triedAgain_plays).2.state.agentsOf (.transfer 7) =
        [3] :=
  ⟨deploys_paid_once demoConfig [] {} _ _ (Async.Stage.play_get triedAgain_plays) rfl
    (allInTime_of_calm (by decide)), by decide⟩

/-- A deploy takes more than ten minutes, another request takes its claim over, and both deploy. -/
def takenOver : List (Cue Call Turn Int) :=
  [.enter (demoDeploy 0 (some 7)), .turn 0 {}, .turn 0 {}, .turn 0 {}, .turn 0 {}, .turn 0 {},
    .turn 0 {}, .move 601,
    .enter (demoDeploy 1 (some 7)), .turn 0 {}, .turn 0 {}, .turn 0 {}, .turn 0 {}, .turn 0 {},
    .turn 0 {}, .turn 0 {}, .turn 1 { agentId := 3 }, .turn 0 { agentId := 4 }]

theorem takenOver_plays : (waitStage.play takenOver ⟨{}, []⟩).isSome = true := by decide

theorem deploys_paid_once_takenOver :
    ¬ ∀ (cfg : Config) (chain : Chain) (s₀ : State) (tr : List Ev)
      (pool : Pool Ans Failure (Option Response) Call State),
      PoolRun (deploys cfg chain RedisAnyhow) ⟨s₀, []⟩ tr pool → s₀.agents = [] →
      PaidOnce tr pool.state := by
  intro h
  have hpaid := h demoConfig [] {} _ _ (Async.Stage.play_get takenOver_plays) rfl
  exact absurd (hpaid.one (.transfer 7)) (by decide)

end DeployPayments
