import BlindMarket.DeployPayments.AtMostOneAgent
import BlindMarket.DeployPayments.Scans

/-!
# A credit that was paid for

A credit stands in Redis, or a request has taken it out and either deploys with
it or puts it back. Between the two every command counts: nothing else knows of
the credit, and the event that made it is behind the checkpoint.
-/
namespace DeployPayments

open Async Prog Runs

/-- The credits the events of the factory stand for. -/
def Chain.credits (chain : Chain) : List AgentDeployCredit := chain.filterMap EventLog.credit?

abbrev AgentDeployCredit.key (cfg : Config) (credit : AgentDeployCredit) : PaymentKey :=
  creditPaymentKey cfg credit.nonce

/-- The factory numbers its deploys. -/
def Chain.Numbered (chain : Chain) : Prop := (chain.credits.map (·.nonce)).Nodup

/-- The block from which on the factory is read. -/
def floorBlock (cfg : Config) : Nat := factoryDeploymentBlock cfg cfg.arcAgentFactoryAddress

/-- Nothing but the time moves by itself. -/
def TimeOnly (s s' : State) : Prop := ∃ clock, s' = { s with clock }

/-- Nothing has been claimed, made or scanned yet. -/
structure Fresh (s : State) : Prop where
  rows : ∀ key, s.rows key = none
  agents : s.agents = []
  credits : ∀ user nonce, s.redis.credits user nonce = none
  checkpoint : s.redis.checkpoint = none

/-- The credit is out of Redis, and neither spent nor in the hands of a deploy that is running. -/
def Phase.atRisk : Phase → Bool
  | .taken => true
  | .failed => true
  | .released => true
  | .restored => true
  | _ => false

variable (cfg : Config) (chain : Chain)

/-- A step that drops nothing: an `SREM` that fails has removed nothing; between it and the end of
the deploy no command fails but the deploy itself, and no process dies, unless an agent was
created; and the checkpoint a tick stores before it has scanned lies before every event. -/
structure DropsNothing (earlier : List Ev) (e : Ev) : Prop where
  taken : ∀ t user nonce err, e.label = .ran t (.srem user nonce) (.error err) → e.post = e.pre
  failed : ∀ t c err a phase nonce, e.label = .ran t c (.error err) → known earlier t = some a →
    hold cfg a = some ⟨phase, creditPaymentKey cfg nonce⟩ → phase.atRisk = true →
    e.pre.agentsOf (creditPaymentKey cfg nonce) ≠ []
  died : ∀ t a phase nonce, e.label = .died t → known earlier t = some a →
    hold cfg a = some ⟨phase, creditPaymentKey cfg nonce⟩ →
    phase.atRisk = true ∨ phase = .claimed → e.pre.agentsOf (creditPaymentKey cfg nonce) ≠ []
  first : ∀ t block r b, e.label = .ran t (.setCheckpoint block) r →
    known earlier t = some (⟨.getCheckpoint, .ok none⟩ :: b) →
    ∀ credit ∈ chain.credits, floorBlock cfg ≤ credit.block → block < credit.block

def AllDropNothing (tr : List Ev) : Prop :=
  ∀ later e earlier, tr = later ++ e :: earlier → DropsNothing cfg chain earlier e

/-- A tick is done with the event of a credit. -/
def Scanned (tr : List Ev) (credit : AgentDeployCredit) : Prop :=
  ∃ e ∈ tr, ∃ t : Call, t.op = .tick ∧
    (e.label = .ran t (.isPaymentRecorded (credit.key cfg)) (.ok true) ∨
      e.label = .ran t (.sadd credit.user credit.nonce) (.ok ()))

/-- Some number of claims of a wallet, one after the other, get it the credit. -/
inductive CanClaim (user : Address) (nonce : Nonce) : State → Prop where
  | now (t : Call) {s s' : State} {credit : AgentDeployCredit}
      (h : (claimDeployCredit cfg user).run (respond cfg chain t {}) s = (.ok (some credit), s'))
      (hnonce : credit.nonce = nonce) : CanClaim user nonce s
  | next (t : Call) {s s' : State} {credit : AgentDeployCredit}
      (h : (claimDeployCredit cfg user).run (respond cfg chain t {}) s = (.ok (some credit), s'))
      (hrest : CanClaim user nonce s') : CanClaim user nonce s

/-- No credit is dropped. -/
structure CreditsKept (tr : List Ev) (pool : Pool Ans Failure (Option Response) Call State) :
    Prop where
  scanned : ∀ block, pool.state.redis.checkpoint = some block → ∀ credit ∈ chain.credits,
    floorBlock cfg ≤ credit.block → credit.block ≤ block → Scanned cfg tr credit
  kept : pool.threads = [] → ∀ credit ∈ chain.credits, Scanned cfg tr credit →
    pool.state.agentsOf (credit.key cfg) ≠ [] ∨
      CanClaim cfg chain credit.user credit.nonce pool.state

variable {cfg chain} {tr : List Ev} {e : Ev} {s s' : State} {t : Call} {key : PaymentKey}
  {a : Answers Ans Failure} {c : Cmd} {r : Except Failure (Ans c)} {x : Turn}
  {credit : AgentDeployCredit}

theorem creditPaymentKey_injective {nonce nonce' : Nonce}
    (h : creditPaymentKey cfg nonce = creditPaymentKey cfg nonce') : nonce = nonce' := by
  simpa [creditPaymentKey, factoryPaymentKey] using h

theorem creditPaymentKey_ne {nonce : Nonce} {txHash : TxHash} :
    creditPaymentKey cfg nonce ≠ transferPaymentKey txHash := by
  simp [creditPaymentKey, factoryPaymentKey, transferPaymentKey]

/-- Two credits of one nonce are one. -/
theorem Chain.Numbered.eq {credit' : AgentDeployCredit} (h : chain.Numbered)
    (hc : credit ∈ chain.credits) (hc' : credit' ∈ chain.credits)
    (heq : credit.nonce = credit'.nonce) : credit = credit' :=
  List.inj_on_of_nodup_map h hc hc' heq

/-! ## What one command does to a credit -/

def InSet (s : State) (credit : AgentDeployCredit) : Prop :=
  credit.nonce ∈ s.redis.creditsByUser credit.user

def InKeys (s : State) (credit : AgentDeployCredit) : Prop :=
  (s.redis.credits credit.user credit.nonce).isSome = true

theorem agentsOf_grows (hx : respond cfg chain t x s c = (r, s')) (h : s.agentsOf key ≠ []) :
    s'.agentsOf key ≠ [] := by
  have heffect : (effect cfg chain t x s c).2.agentsOf key ≠ [] := by
    obtain heq | ⟨-, heq⟩ := effect_agents cfg chain t x s c key
    · rwa [heq]
    · simp [heq]
  obtain ⟨-, rfl⟩ | ⟨-, -, rfl | rfl⟩ := respond_cases hx
  · exact heffect
  · exact h
  · exact heffect

/-- The commands that can take something from a credit. -/
def Touches (cfg : Config) (credit : AgentDeployCredit) : Cmd → Prop
  | .insertClaim key _ _ => key = credit.key cfg
  | .claimTransaction key _ _ _ => key = credit.key cfg
  | .recordUsedPayment key _ _ _ => key = credit.key cfg
  | .releasePayment key => key = credit.key cfg
  | .srem _ nonce => nonce = credit.nonce
  | .delCredit _ nonce => nonce = credit.nonce
  | _ => False

/-- Redis keeps what it has of the credit, and its row is there if it was. -/
structure Stays (cfg : Config) (credit : AgentDeployCredit) (s s' : State) : Prop where
  row : s'.rows (credit.key cfg) = none ↔
    s.rows (credit.key cfg) = none
  set : InSet s credit → InSet s' credit
  keys : InKeys s credit → InKeys s' credit

theorem Stays.refl (s : State) : Stays cfg credit s s := ⟨Iff.rfl, id, id⟩

theorem Stays.rows {row : Option PaymentRow}
    (h : key = credit.key cfg → (row = none ↔ s.rows key = none)) :
    Stays cfg credit s (s.setRow key row) := by
  refine ⟨?_, id, id⟩
  rw [setRow_rows]
  split
  · next heq =>
    subst heq
    exact h rfl
  · exact Iff.rfl

theorem setRedis_stays {redis : Redis} (hset : credit.nonce ∈ s.redis.creditsByUser credit.user →
      credit.nonce ∈ redis.creditsByUser credit.user)
    (hkeys : (s.redis.credits credit.user credit.nonce).isSome →
      (redis.credits credit.user credit.nonce).isSome) :
    Stays cfg credit s (s.setRedis redis) := ⟨Iff.rfl, hset, hkeys⟩

theorem setCredit_credits (redis : Redis) (user u : Address) (nonce n : Nonce)
    (value : Option AgentDeployCredit) :
    (redis.setCredit user nonce value).credits u n =
      if u = user ∧ n = nonce then value else redis.credits u n := by
  by_cases hu : u = user
  · subst hu
    simp [Redis.setCredit, Function.update_apply]
  · simp [Redis.setCredit, hu]

theorem setNonces_creditsByUser (redis : Redis) (user u : Address) (nonces : List Nonce) :
    (redis.setNonces user nonces).creditsByUser u =
      if u = user then nonces else redis.creditsByUser u := by
  simp [Redis.setNonces, Function.update_apply]

theorem effect_stays (h : ¬ Touches cfg credit c) :
    Stays cfg credit s (effect cfg chain t x s c).2 := by
  cases c with
  | insertClaim key' owner now =>
    simp only [effect, insertClaim]
    split
    · exact .refl s
    · exact .rows fun heq => absurd heq h
  | takeOver key' owner now staleBefore =>
    simp only [effect, takeOver]
    split
    · next row hrow =>
      split
      · exact .rows fun _ => by simp [hrow]
      · exact .refl s
    · exact .refl s
  | claimTransaction key' owner now staleBefore =>
    obtain ⟨-, heq⟩ | ⟨row, -, ⟨-, heq⟩ | ⟨-, pending, agentId, heq⟩⟩ :=
      claimTransaction_cases key' owner now staleBefore s
    · simp only [effect, heq]
      exact .rows fun heq => absurd heq h
    · simp only [effect, heq]
      exact .rows fun heq => absurd heq h
    · simp only [effect, heq]
      exact .refl s
  | markPaymentUsed key' agentId =>
    simp only [effect, markRow]
    split
    · next row hrow => exact .rows fun _ => by simp [hrow]
    · exact .refl s
  | recordUsedPayment key' owner agentId now =>
    simp only [effect, recordUsed]
    split
    · exact .refl s
    · exact .rows fun heq => absurd heq h
  | releasePayment key' =>
    simp only [effect, deletePending]
    split
    · split
      · exact .rows fun heq => absurd heq h
      · exact .refl s
    · exact .refl s
  | setCredit user nonce credit' =>
    refine setRedis_stays id fun hkeys => ?_
    rw [setCredit_credits]
    split
    · rfl
    · exact hkeys
  | delCredit user nonce =>
    refine setRedis_stays id fun hkeys => ?_
    rw [setCredit_credits, if_neg fun heq => h heq.2.symm]
    exact hkeys
  | sadd user nonce =>
    refine setRedis_stays (fun hset => ?_) id
    rw [setNonces_creditsByUser]
    split
    · next heq => exact List.mem_insert_iff.mpr (.inr (heq ▸ hset))
    · exact hset
  | srem user nonce =>
    refine setRedis_stays (fun hset => ?_) id
    rw [setNonces_creditsByUser]
    split
    · next heq =>
      refine List.mem_filter.mpr ⟨heq ▸ hset, ?_⟩
      simpa using fun heq : credit.nonce = nonce => h heq.symm
    · exact hset
  | enterTick =>
    simp only [effect]
    split
    · exact .refl s
    · exact ⟨Iff.rfl, id, id⟩
  | setCheckpoint block => exact setRedis_stays id id
  | _ => exact ⟨Iff.rfl, id, id⟩

/-- What one command of a request does to a credit and to the request's hold, while no agent was
created against the credit. -/
inductive Moves (cfg : Config) (credit : AgentDeployCredit) (s s' : State) :
    Option Hold → Option Hold → Prop where
  | idle {h h' : Option Hold} (hstays : Stays cfg credit s s')
      (hheld : ∀ phase, h' = some ⟨phase, credit.key cfg⟩ ↔
        h = some ⟨phase, credit.key cfg⟩) : Moves cfg credit s s' h h'
  | take (hrow : s'.rows (credit.key cfg) =
        s.rows (credit.key cfg))
      (hkeys : InKeys s credit → InKeys s' credit) :
      Moves cfg credit s s' none (some ⟨.taken, credit.key cfg⟩)
  | drop (hrow : s'.rows (credit.key cfg) =
        s.rows (credit.key cfg)) :
      Moves cfg credit s s' (some ⟨.taken, credit.key cfg⟩)
        (some ⟨.taken, credit.key cfg⟩)
  | claim (hset : InSet s credit → InSet s' credit) (hkeys : InKeys s credit → InKeys s' credit) :
      Moves cfg credit s s' (some ⟨.taken, credit.key cfg⟩)
        (some ⟨.claimed, credit.key cfg⟩)
  | refuse {h' : Option Hold} (hstays : Stays cfg credit s s')
      (hrow : s.rows (credit.key cfg) ≠ none)
      (hnext : h' = some ⟨.refused, credit.key cfg⟩ ∨ h' = none) :
      Moves cfg credit s s' (some ⟨.taken, credit.key cfg⟩) h'
  | settle {h' : Option Hold} (hstays : Stays cfg credit s s')
      (hnext : h' = some ⟨.claimed, credit.key cfg⟩ ∨ h' = none) :
      Moves cfg credit s s' (some ⟨.refused, credit.key cfg⟩) h'
  | fail (hstays : Stays cfg credit s s') :
      Moves cfg credit s s' (some ⟨.claimed, credit.key cfg⟩)
        (some ⟨.failed, credit.key cfg⟩)
  | free (hrow : s'.rows (credit.key cfg) = none)
      (hset : InSet s credit → InSet s' credit) (hkeys : InKeys s credit → InKeys s' credit) :
      Moves cfg credit s s' (some ⟨.failed, credit.key cfg⟩)
        (some ⟨.released, credit.key cfg⟩)
  | restore (hstays : Stays cfg credit s s') (hkeys : InKeys s' credit) :
      Moves cfg credit s s' (some ⟨.released, credit.key cfg⟩)
        (some ⟨.restored, credit.key cfg⟩)
  | note (hstays : Stays cfg credit s s') (hkeys : InKeys s' credit) :
      Moves cfg credit s s' none (some ⟨.noted, credit.key cfg⟩)
  | add {phase : Phase} (hphase : phase = .restored ∨ phase = .noted)
      (hstays : Stays cfg credit s s') (hset : InSet s' credit) :
      Moves cfg credit s s' (some ⟨phase, credit.key cfg⟩) none
  | leave (hstays : Stays cfg credit s s') :
      Moves cfg credit s s' (some ⟨.noted, credit.key cfg⟩) none

theorem Moves.other {h h' : Option Hold} (hstays : Stays cfg credit s s')
    (hne : ∀ phase, h ≠ some ⟨phase, credit.key cfg⟩)
    (hne' : ∀ phase, h' ≠ some ⟨phase, credit.key cfg⟩) :
    Moves cfg credit s s' h h' :=
  .idle hstays fun phase => ⟨fun heq => absurd heq (hne' phase), fun heq => absurd heq (hne phase)⟩

/-- A command fails, but not one on which the credit hangs. -/
theorem Moves.failing {h : Option Hold} (hstays : Stays cfg credit s s')
    (hrisk : ∀ phase, h = some ⟨phase, credit.key cfg⟩ →
      phase.atRisk = false) : Moves cfg credit s s' h (h.bind Hold.fail) := by
  cases h with
  | none => exact .other hstays nofun nofun
  | some hold =>
    obtain ⟨phase, key⟩ := hold
    by_cases hkey : key = credit.key cfg
    · subst hkey
      have hsafe := hrisk phase rfl
      cases phase with
      | refused => exact .settle hstays (.inr rfl)
      | noted => exact .leave hstays
      | claimed => exact .idle hstays fun _ => Iff.rfl
      | created => exact .idle hstays fun _ => Iff.rfl
      | lost => exact .idle hstays fun _ => Iff.rfl
      | _ => cases hsafe
    · refine .other hstays (fun phase' heq => ?_) fun phase' heq => ?_
      · cases heq
        exact hkey rfl
      · cases phase <;> cases heq <;> exact hkey rfl

/-- What the step meets: the credit's agent is still to be created, its row is pending, and
nothing that it hangs on fails. -/
structure Undisturbed (cfg : Config) (credit : AgentDeployCredit) (a : Answers Ans Failure)
    (c : Cmd) (r : Except Failure (Ans c)) (s s' : State) : Prop where
  free : s'.agentsOf (credit.key cfg) = []
  phase : hold cfg a ≠ some ⟨.created, credit.key cfg⟩
  pending : ∀ row, s.rows (credit.key cfg) = some row → row.agentId = none
  risk : ∀ err, r = .error err → ∀ phase, hold cfg a = some ⟨phase, credit.key cfg⟩ →
    phase.atRisk = false
  removed : ∀ user nonce err, c = .srem user nonce → r = .error err → s' = s

/-- A claim of a credit's key comes from one that has taken it. -/
theorem MayClaim.taken (h : MayClaim cfg a (credit.key cfg)) :
    hold cfg a = some ⟨.taken, credit.key cfg⟩ :=
  h.resolve_right fun h => by
    obtain ⟨-, txHash, heq⟩ := h
    exact creditPaymentKey_ne heq

theorem moves_error {err : Failure} (hfits : Fits cfg a c)
    (h : Undisturbed cfg credit a c (.error err) s s')
    (hs : s' = s ∨ s' = (effect cfg chain t x s c).2) :
    Moves cfg credit s s' (hold cfg a) (Hold.next cfg (hold cfg a) c (.error err)) := by
  have hrisk := h.risk err rfl
  have hstays : Stays cfg credit s s' := by
    obtain rfl | rfl := hs
    · exact .refl s'
    · by_cases htouches : Touches cfg credit c
      · cases c with
        | insertClaim key owner now =>
          obtain rfl : key = credit.key cfg := htouches
          cases hrisk .taken (MayClaim.taken hfits)
        | claimTransaction key owner now staleBefore =>
          obtain rfl : key = credit.key cfg := htouches
          cases hrisk .taken (MayClaim.taken hfits)
        | recordUsedPayment key owner agentId now =>
          obtain ⟨-, txHash, heq⟩ := hfits
          exact absurd (htouches.symm.trans heq) creditPaymentKey_ne
        | releasePayment key =>
          obtain rfl : key = credit.key cfg := htouches
          cases hrisk .failed hfits
        | srem user nonce =>
          rw [h.removed user nonce err rfl rfl]
          exact .refl s
        | delCredit user nonce =>
          obtain rfl : nonce = credit.nonce := htouches
          cases hrisk .taken hfits
        | _ => cases htouches
      · exact effect_stays htouches
  cases c with
  | deployAgent owner payment =>
    cases payment with
    | none => exact .failing hstays hrisk
    | some key =>
      have hheld : hold cfg a = some ⟨.claimed, key⟩ := hfits
      rw [hheld]
      by_cases hkey : key = credit.key cfg
      · subst hkey
        exact .fail hstays
      · refine .other hstays (fun phase heq => ?_) fun phase heq => ?_ <;>
          cases heq <;> exact hkey rfl
  | markPaymentUsed key agentId =>
    have hheld : hold cfg a = some ⟨.created, key⟩ := hfits
    refine .other hstays (fun phase heq => ?_) nofun
    rw [hheld] at heq
    cases heq
    exact h.phase hheld
  | _ => exact .failing hstays hrisk

/-- What a request holds is of one key only. -/
theorem Moves.elsewhere {h h' : Option Hold} {p q : Phase} {key : PaymentKey}
    (hstays : Stays cfg credit s s') (hkey : key ≠ credit.key cfg)
    (hh : h = none ∨ h = some ⟨p, key⟩) (hh' : h' = none ∨ h' = some ⟨q, key⟩) :
    Moves cfg credit s s' h h' := by
  refine .other hstays (fun phase heq => ?_) fun phase heq => ?_
  · obtain hh | hh := hh <;> rw [hh] at heq <;> cases heq
    exact hkey rfl
  · obtain hh' | hh' := hh' <;> rw [hh'] at heq <;> cases heq
    exact hkey rfl

/-- The credit written under a nonce is the nonce's. -/
theorem written_eq (hchain : chain.Numbered) (hc : credit ∈ chain.credits)
    (hsource : ∀ credit', Source a credit' → credit' ∈ chain.credits)
    {credit' : AgentDeployCredit} (h : Source a credit') (hnonce : credit'.nonce = credit.nonce) :
    credit' = credit := hchain.eq (hsource credit' h) hc hnonce

theorem moves_ok {isTick : Prop} (hchain : chain.Numbered) (hc : credit ∈ chain.credits)
    (hsource : ∀ credit', Source a credit' → credit' ∈ chain.credits) (hfits : Fits cfg a c)
    (hwrites : Writes cfg isTick a c)
    (h : Undisturbed cfg credit a c (.ok (effect cfg chain t x s c).1) s
      (effect cfg chain t x s c).2) :
    Moves cfg credit s (effect cfg chain t x s c).2 (hold cfg a)
      (Hold.next cfg (hold cfg a) c (.ok (effect cfg chain t x s c).1)) := by
  cases c with
  | srem user nonce =>
    have hheld : hold cfg a = none := hfits
    by_cases hmem : nonce ∈ s.redis.creditsByUser user
    · have hnext : Hold.next cfg (hold cfg a) (.srem user nonce)
          (.ok (effect cfg chain t x s (.srem user nonce)).1) =
            some ⟨.taken, creditPaymentKey cfg nonce⟩ := by
        simp only [effect, decide_eq_true hmem]
        rfl
      rw [hnext, hheld]
      by_cases hnonce : nonce = credit.nonce
      · subst hnonce
        exact .take rfl id
      · exact .elsewhere (p := .taken) (effect_stays hnonce)
          (fun heq => hnonce (creditPaymentKey_injective heq)) (.inl rfl) (.inr rfl)
    · have hnext : Hold.next cfg (hold cfg a) (.srem user nonce)
          (.ok (effect cfg chain t x s (.srem user nonce)).1) = hold cfg a := by
        simp only [effect, decide_eq_false hmem]
        rfl
      rw [hnext]
      refine .idle (setRedis_stays (fun hset => ?_) id) fun _ => Iff.rfl
      rw [setNonces_creditsByUser]
      split
      · next heq =>
        refine List.mem_filter.mpr ⟨heq ▸ hset, ?_⟩
        simpa using fun heq' : credit.nonce = nonce => hmem (heq' ▸ heq ▸ hset)
      · exact hset
  | delCredit user nonce =>
    have hheld : hold cfg a = some ⟨.taken, creditPaymentKey cfg nonce⟩ := hfits
    show Moves cfg credit s _ (hold cfg a) (hold cfg a)
    rw [hheld]
    by_cases hnonce : nonce = credit.nonce
    · subst hnonce
      exact .drop rfl
    · exact .idle (effect_stays hnonce) fun _ => Iff.rfl
  | insertClaim key owner now =>
    by_cases hkey : key = credit.key cfg
    · subst hkey
      rw [MayClaim.taken hfits]
      cases hrow : s.rows (credit.key cfg) with
      | some row =>
        simp only [effect, insertClaim, hrow]
        exact .refuse (.refl s) (by simp [hrow]) (.inl rfl)
      | none =>
        simp only [effect, insertClaim, hrow]
        exact .claim id id
    · have hheld : hold cfg a = none ∨ hold cfg a = some ⟨.taken, key⟩ :=
        hfits.symm.imp (fun h => h.1) id
      refine .elsewhere (q := if (effect cfg chain t x s (.insertClaim key owner now)).1 then
        .claimed else .refused) (effect_stays hkey) hkey hheld (.inr ?_)
      cases (effect cfg chain t x s (.insertClaim key owner now)).1 <;> rfl
  | takeOver key owner now staleBefore =>
    have hheld : hold cfg a = some ⟨.refused, key⟩ := hfits
    have hstays : Stays cfg credit s
        (effect cfg chain t x s (.takeOver key owner now staleBefore)).2 := effect_stays id
    rw [hheld]
    by_cases hkey : key = credit.key cfg
    · subst hkey
      cases (effect cfg chain t x s (.takeOver (credit.key cfg) owner now staleBefore)).1 with
      | true => exact .settle hstays (.inl rfl)
      | false => exact .idle hstays fun _ => Iff.rfl
    · refine .elsewhere (q := if (effect cfg chain t x s
        (.takeOver key owner now staleBefore)).1 then .claimed else .refused) hstays hkey
        (.inr rfl) (.inr ?_)
      cases (effect cfg chain t x s (.takeOver key owner now staleBefore)).1 <;> rfl
  | selectAgentId key =>
    have hheld : hold cfg a = some ⟨.refused, key⟩ := hfits
    rw [hheld]
    by_cases hkey : key = credit.key cfg
    · subst hkey
      exact .settle (.refl s) (.inr rfl)
    · exact .elsewhere (q := .refused) (.refl s) hkey (.inr rfl) (.inl rfl)
  | claimTransaction key owner now staleBefore =>
    by_cases hkey : key = credit.key cfg
    · subst hkey
      rw [MayClaim.taken hfits]
      obtain ⟨-, heq⟩ | ⟨row, hrow, ⟨-, heq⟩ | ⟨-, pending, agentId, heq⟩⟩ :=
        claimTransaction_cases (credit.key cfg) owner now staleBefore s
      · simp only [effect, heq]
        exact .claim id id
      · simp only [effect, heq]
        exact .claim id id
      · simp only [effect, heq]
        exact .refuse (.refl s) (by simp [hrow]) (.inr rfl)
    · have hheld : hold cfg a = none ∨ hold cfg a = some ⟨.taken, key⟩ :=
        hfits.symm.imp (fun h => h.1) id
      refine .elsewhere (q := .claimed) (effect_stays hkey) hkey hheld ?_
      cases (effect cfg chain t x s (.claimTransaction key owner now staleBefore)).1 with
      | claimed => exact .inr rfl
      | notClaimed pending agentId => exact .inl rfl
  | deployAgent owner payment =>
    cases payment with
    | none => exact .idle (effect_stays id) fun _ => Iff.rfl
    | some key =>
      have hheld : hold cfg a = some ⟨.claimed, key⟩ := hfits
      have hkey : key ≠ credit.key cfg := by
        rintro rfl
        have hfree := h.free
        simp [effect, State.agentsOf] at hfree
      exact .elsewhere (effect_stays id) hkey (.inr hheld) (.inr rfl)
  | markPaymentUsed key agentId =>
    have hheld : hold cfg a = some ⟨.created, key⟩ := hfits
    have hkey : key ≠ credit.key cfg := by
      rintro rfl
      exact h.phase hheld
    exact .elsewhere (q := .created) (effect_stays id) hkey (.inr hheld) (.inl rfl)
  | recordUsedPayment key owner agentId now =>
    obtain ⟨-, txHash, heq⟩ := hfits
    refine .idle (effect_stays fun htouches => ?_) fun _ => Iff.rfl
    exact creditPaymentKey_ne (htouches.symm.trans heq)
  | releasePayment key =>
    have hheld : hold cfg a = some ⟨.failed, key⟩ := hfits
    by_cases hkey : key = credit.key cfg
    · subst hkey
      rw [hheld]
      refine .free ?_ ?_ ?_
      · simp only [effect, deletePending]
        split
        · next row hrow => simp [h.pending row hrow, setRow_rows]
        · assumption
      · simp only [effect, deletePending]
        split
        · split <;> exact id
        · exact id
      · simp only [effect, deletePending]
        split
        · split <;> exact id
        · exact id
    · exact .elsewhere (effect_stays hkey) hkey (.inr hheld) (.inr rfl)
  | setCredit user nonce credit' =>
    obtain ⟨rfl, rfl, hread⟩ := hwrites
    have hstays : Stays cfg credit s
        (effect cfg chain t x s (.setCredit credit'.user credit'.nonce credit')).2 :=
      effect_stays id
    by_cases hnonce : credit'.nonce = credit.nonce
    · obtain rfl := written_eq hchain hc hsource hread hnonce
      have hkeys : InKeys (effect cfg chain t x s (.setCredit credit'.user credit'.nonce credit')).2
          credit' := by
        show (Option.isSome _) = true
        simp only [effect, State.setRedis, setCredit_credits, and_self, if_true]
        rfl
      obtain hheld | hheld := show hold cfg a = none ∨ hold cfg a = _ from hfits
      · rw [hheld]
        exact .note hstays hkeys
      · rw [hheld]
        exact .restore hstays hkeys
    · refine .elsewhere (p := .released) (q := if hold cfg a = none then .noted else
        .restored) hstays (fun heq => hnonce (creditPaymentKey_injective heq)) hfits (.inr rfl)
  | sadd user nonce =>
    obtain ⟨credit', b, rfl, rfl, rfl, hread⟩ := hwrites
    have hstays : Stays cfg credit s (effect cfg chain t x s (.sadd credit'.user credit'.nonce)).2 :=
      effect_stays id
    by_cases hnonce : credit'.nonce = credit.nonce
    · obtain rfl := written_eq hchain hc
        (fun c' hc' => hsource c' (hc'.suffix (List.suffix_cons _ _))) hread hnonce
      have hset : InSet (effect cfg chain t x s (.sadd credit'.user credit'.nonce)).2 credit' := by
        show credit'.nonce ∈ _
        simp only [effect, State.setRedis, setNonces_creditsByUser, if_true]
        exact List.mem_insert_self
      obtain hheld | hheld := show hold cfg _ = _ ∨ hold cfg _ = _ from hfits
      · rw [hheld]
        exact .add (.inl rfl) hstays hset
      · rw [hheld]
        exact .add (.inr rfl) hstays hset
    · have hkey : creditPaymentKey cfg credit'.nonce ≠ credit.key cfg :=
        fun heq => hnonce (creditPaymentKey_injective heq)
      obtain hheld | hheld := show hold cfg _ = _ ∨ hold cfg _ = _ from hfits
      · exact .elsewhere (q := .restored) hstays hkey (.inr hheld) (.inl rfl)
      · exact .elsewhere (q := .restored) hstays hkey (.inr hheld) (.inl rfl)
  | _ => exact .idle (effect_stays id) fun _ => Iff.rfl

end DeployPayments
