import BlindMarket.DeployPayments.Credits

/-!
# No credit is dropped

While no agent was created against a credit, the credit is in Redis, or some
request carries it: one that has taken it and not yet claimed it, one that
holds the claim, or one that is putting it back.
-/
namespace DeployPayments

open Async Prog Runs

variable {cfg : Config} {chain : Chain} {tr : List Ev} {e : Ev} {s s' : State} {t : Call}
  {key : PaymentKey} {a : Answers Ans Failure} {c : Cmd} {r : Except Failure (Ans c)} {x : Turn}
  {credit : AgentDeployCredit}

/-- What each request holds. -/
abbrev Holds := Call → Option Hold

def holdsOf (cfg : Config) (tr : List Ev) : Holds := fun t => (known tr t).bind (hold cfg)

def Phase.carries : Phase → Bool
  | .taken => true
  | .claimed => true
  | .failed => true
  | .released => true
  | _ => false

def Carries (h : Option Hold) (key : PaymentKey) : Prop :=
  ∃ phase : Phase, phase.carries = true ∧ h = some ⟨phase, key⟩

/-- The two keys of the credit are being written. -/
def Writing (h : Option Hold) (key : PaymentKey) : Prop :=
  h = some ⟨.restored, key⟩ ∨ h = some ⟨.noted, key⟩

/-- Where a credit is, whose agent is still to be created. -/
structure Accounted (cfg : Config) (credit : AgentDeployCredit) (A : Holds) (scanned : Prop)
    (s : State) : Prop where
  row : s.rows (credit.key cfg) ≠ none → ∃ t, Live (A t) (credit.key cfg)
  pending : ∀ row, s.rows (credit.key cfg) = some row → row.agentId = none
  phase : ∀ t, A t ≠ some ⟨.created, credit.key cfg⟩ ∧ A t ≠ some ⟨.lost, credit.key cfg⟩
  written : ∀ t, Writing (A t) (credit.key cfg) →
    InKeys s credit ∨ ∃ t, Carries (A t) (credit.key cfg)
  kept : scanned → (InSet s credit ∧ InKeys s credit) ∨ (∃ t, Carries (A t) (credit.key cfg)) ∨
    ∃ t, A t = some ⟨.restored, credit.key cfg⟩

theorem Live.carries {h : Option Hold} (hl : Live h key) : Carries h key :=
  hl.elim (fun h => ⟨.claimed, rfl, h⟩) fun h => ⟨.failed, rfl, h⟩

theorem exists_update {P : Option Hold → Prop} {A : Holds} (h : ∃ t, P (A t)) (t : Call)
    (h' : Option Hold) : P (A t) ∨ ∃ t₁, P (Function.update A t h' t₁) := by
  obtain ⟨t₁, h₁⟩ := h
  by_cases heq : t₁ = t
  · subst heq
    exact .inl h₁
  · exact .inr ⟨t₁, by rwa [Function.update_of_ne heq]⟩

theorem exists_updated {P : Option Hold → Prop} {A : Holds} {h' : Option Hold} (t : Call)
    (h : P h') : ∃ t₁, P (Function.update A t h' t₁) := ⟨t, by rwa [Function.update_self]⟩

theorem carries_now {A : Holds} (t : Call) (p : Phase) (hp : p.carries = true) :
    ∃ t₁, Carries (Function.update A t (some ⟨p, key⟩) t₁) key :=
  exists_updated (P := fun h => Carries h key) t ⟨p, hp, rfl⟩

theorem live_now {A : Holds} (t : Call) (p : Phase) (hp : p = .claimed ∨ p = .failed) :
    ∃ t₁, Live (Function.update A t (some ⟨p, key⟩) t₁) key := by
  refine exists_updated (P := fun h => Live h key) t ?_
  obtain rfl | rfl := hp
  · exact .inl rfl
  · exact .inr rfl

theorem forall_update {P : Option Hold → Prop} {A : Holds} {h' : Option Hold} (t : Call)
    (h : ∀ t, P (A t)) (hp : P h') (t₁ : Call) : P (Function.update A t h' t₁) := by
  by_cases heq : t₁ = t
  · subst heq
    rwa [Function.update_self]
  · rw [Function.update_of_ne heq]
    exact h t₁

variable {A : Holds} {h' : Option Hold} {scanned scanned' : Prop}

theorem Accounted.mono (h : Accounted cfg credit A scanned s) (hs : scanned' → scanned) :
    Accounted cfg credit A scanned' s :=
  ⟨h.row, h.pending, h.phase, h.written, fun hscanned => h.kept (hs hscanned)⟩

/-- A credit with a row is accounted for, scanned or not. -/
theorem Accounted.recorded (h : Accounted cfg credit A scanned s)
    (hrow : s.rows (credit.key cfg) ≠ none) : Accounted cfg credit A scanned' s :=
  ⟨h.row, h.pending, h.phase, h.written, fun _ =>
    .inr (.inl ((h.row hrow).imp fun _ hl => hl.carries))⟩

/-- The request `t` does not carry the credit and does not start to. -/
theorem Accounted.aside (h : Accounted cfg credit A scanned s) (hstays : Stays cfg credit s s')
    (hpending : ∀ row, s'.rows (credit.key cfg) = some row → row.agentId = none)
    (hcarries : ¬ Carries (A t) (credit.key cfg)) (hrestored : A t ≠ some ⟨.restored, credit.key cfg⟩)
    (hphase : h' ≠ some ⟨.created, credit.key cfg⟩ ∧ h' ≠ some ⟨.lost, credit.key cfg⟩)
    (hwriting : Writing h' (credit.key cfg) →
      InKeys s' credit ∨ ∃ t, Carries (A t) (credit.key cfg)) :
    Accounted cfg credit (Function.update A t h') scanned s' where
  row hrow := by
    have hlive := h.row fun heq => hrow (hstays.row.mpr heq)
    exact (exists_update (P := fun h => Live h (credit.key cfg)) hlive t h').resolve_left
      fun hl => hcarries hl.carries
  pending := hpending
  phase := forall_update (P := fun h => h ≠ some ⟨.created, credit.key cfg⟩ ∧
    h ≠ some ⟨.lost, credit.key cfg⟩) t h.phase hphase
  written := by
    have hor : ∀ {P : Prop}, (P → InKeys s' credit) → (P ∨ ∃ t, Carries (A t) (credit.key cfg)) →
        InKeys s' credit ∨ ∃ t₁, Carries (Function.update A t h' t₁) (credit.key cfg) :=
      fun hp => Or.imp hp fun hc =>
        (exists_update (P := fun h => Carries h (credit.key cfg)) hc t h').resolve_left hcarries
    exact forall_update (P := fun h => Writing h (credit.key cfg) → _) t
      (fun t₁ hw => hor hstays.keys (h.written t₁ hw)) fun hw => hor id (hwriting hw)
  kept hscanned := by
    obtain hredis | hc | hrestoring := h.kept hscanned
    · exact .inl ⟨hstays.set hredis.1, hstays.keys hredis.2⟩
    · exact .inr (.inl ((exists_update (P := fun h => Carries h (credit.key cfg)) hc t
        h').resolve_left hcarries))
    · exact .inr (.inr ((exists_update (P := fun h => h = some ⟨.restored, credit.key cfg⟩)
        hrestoring t h').resolve_left hrestored))

/-- The request `t` carries the credit. -/
theorem Accounted.carried (h : Accounted cfg credit A scanned s)
    (hrow : s'.rows (credit.key cfg) ≠ none →
      ∃ t₁, Live (Function.update A t h' t₁) (credit.key cfg))
    (hpending : ∀ row, s'.rows (credit.key cfg) = some row → row.agentId = none)
    (hcarries : ∃ t₁, Carries (Function.update A t h' t₁) (credit.key cfg))
    (hphase : h' ≠ some ⟨.created, credit.key cfg⟩ ∧ h' ≠ some ⟨.lost, credit.key cfg⟩) :
    Accounted cfg credit (Function.update A t h') scanned s' where
  row := hrow
  pending := hpending
  phase := forall_update (P := fun h => h ≠ some ⟨.created, credit.key cfg⟩ ∧
    h ≠ some ⟨.lost, credit.key cfg⟩) t h.phase hphase
  written _ _ := .inr hcarries
  kept _ := .inr (.inl hcarries)

/-- The nonce of a credit that is being written is put into its set. -/
theorem Accounted.added {p : Phase} (h : Accounted cfg credit A scanned s)
    (hheld : A t = some ⟨p, credit.key cfg⟩) (hp : p = .restored ∨ p = .noted)
    (hstays : Stays cfg credit s s') (hset : InSet s' credit)
    (hpending : ∀ row, s'.rows (credit.key cfg) = some row → row.agentId = none) :
    Accounted cfg credit (Function.update A t none) scanned' s' := by
  have hcarries : ¬ Carries (A t) (credit.key cfg) := by
    rintro ⟨phase, hc, heq⟩
    rw [hheld] at heq
    obtain rfl | rfl := hp <;> cases heq <;> cases hc
  have hlive : ¬ Live (A t) (credit.key cfg) := fun hl => hcarries hl.carries
  have hwhere : InKeys s' credit ∨
      ∃ t₁, Carries (Function.update A t none t₁) (credit.key cfg) := by
    refine (h.written t ?_).imp hstays.keys fun hc =>
      (exists_update (P := fun h => Carries h (credit.key cfg)) hc t none).resolve_left hcarries
    obtain rfl | rfl := hp
    · exact .inl hheld
    · exact .inr hheld
  refine ⟨fun hrow => ?_, hpending, ?_, ?_, fun _ => ?_⟩
  · exact (exists_update (P := fun h => Live h (credit.key cfg))
      (h.row fun heq => hrow (hstays.row.mpr heq)) t none).resolve_left hlive
  · exact forall_update (P := fun h => h ≠ some ⟨.created, credit.key cfg⟩ ∧
      h ≠ some ⟨.lost, credit.key cfg⟩) t h.phase ⟨nofun, nofun⟩
  · exact fun _ _ => hwhere
  · obtain hkeys | hc := hwhere
    · exact .inl ⟨hset, hkeys⟩
    · exact .inr (.inl hc)

theorem not_carries {p : Phase} (hp : p.carries = false) :
    ¬ Carries (some ⟨p, key⟩) key := by
  rintro ⟨phase, hc, heq⟩
  cases heq
  rw [hp] at hc
  cases hc

/-- One command of a request keeps a credit accounted for. -/
theorem Accounted.moves (h : Accounted cfg credit A scanned s)
    (hm : Moves cfg credit s s' (A t) h')
    (hpending : ∀ row, s'.rows (credit.key cfg) = some row → row.agentId = none) :
    Accounted cfg credit (Function.update A t h') scanned s' := by
  generalize hheld : A t = held at hm
  have hlive : ∀ {p : Phase}, held = some ⟨p, credit.key cfg⟩ → p ≠ .claimed → p ≠ .failed →
      ¬ Live (A t) (credit.key cfg) := by
    intro p heq hne hne' hl
    rw [hheld, heq] at hl
    obtain hl | hl := hl <;> cases hl
    · exact hne rfl
    · exact hne' rfl
  have hrest : ∀ {p : Phase}, held = some ⟨p, credit.key cfg⟩ → p ≠ .claimed → p ≠ .failed →
      (s'.rows (credit.key cfg) ≠ none → s.rows (credit.key cfg) ≠ none) →
      s'.rows (credit.key cfg) ≠ none →
      ∃ t₁, Live (Function.update A t h' t₁) (credit.key cfg) := by
    intro p heq hne hne' hrow hrow'
    exact (exists_update (P := fun h => Live h (credit.key cfg)) (h.row (hrow hrow')) t
      h').resolve_left (hlive heq hne hne')
  cases hm with
  | idle hstays hheld' =>
    have hsame : ∀ t₁ p, Function.update A t h' t₁ = some ⟨p, credit.key cfg⟩ ↔
        A t₁ = some ⟨p, credit.key cfg⟩ := by
      intro t₁ p
      by_cases heq : t₁ = t
      · subst heq
        rw [Function.update_self, hheld]
        exact hheld' p
      · rw [Function.update_of_ne heq]
    have hcarries : (∃ t₁, Carries (Function.update A t h' t₁) (credit.key cfg)) ↔
        ∃ t₁, Carries (A t₁) (credit.key cfg) := by simp only [Carries, hsame]
    refine ⟨fun hrow => ?_, hpending, fun t₁ => ?_, fun t₁ hw => ?_, fun hscanned => ?_⟩
    · simpa only [Live, hsame] using h.row fun heq => hrow (hstays.row.mpr heq)
    · simpa only [ne_eq, hsame] using h.phase t₁
    · rw [hcarries]
      exact (h.written t₁ (by simpa only [Writing, hsame] using hw)).imp hstays.keys id
    · rw [hcarries]
      simp only [hsame]
      exact (h.kept hscanned).imp (fun hk => ⟨hstays.set hk.1, hstays.keys hk.2⟩) id
  | take hrow hkeys =>
    refine h.carried (fun hne => ?_) hpending (carries_now t .taken rfl) ⟨nofun, nofun⟩
    refine (exists_update (P := fun h => Live h (credit.key cfg)) (h.row (hrow ▸ hne)) t
      _).resolve_left fun hl => ?_
    rw [hheld] at hl
    obtain hl | hl := hl <;> cases hl
  | drop hrow =>
    exact h.carried (hrest rfl nofun nofun fun hne => hrow ▸ hne) hpending
      (carries_now t .taken rfl) ⟨nofun, nofun⟩
  | claim hset hkeys =>
    exact h.carried (fun _ => live_now t .claimed (.inl rfl)) hpending
      (carries_now t .claimed rfl) ⟨nofun, nofun⟩
  | refuse hstays hrow hnext =>
    have hholder := hrest rfl nofun nofun (fun hne heq => hne (hstays.row.mpr heq))
      fun heq => hrow (hstays.row.mp heq)
    refine h.carried (fun _ => hholder) hpending (hholder.imp fun _ hl => hl.carries) ?_
    obtain rfl | rfl := hnext <;> exact ⟨nofun, nofun⟩
  | settle hstays hnext =>
    obtain rfl | rfl := hnext
    · exact h.carried (fun _ => live_now t .claimed (.inl rfl)) hpending
        (carries_now t .claimed rfl) ⟨nofun, nofun⟩
    · exact h.aside hstays hpending (hheld ▸ not_carries rfl) (hheld ▸ nofun) ⟨nofun, nofun⟩
        fun hw => by obtain hw | hw := hw <;> cases hw
  | fail hstays =>
    exact h.carried (fun _ => live_now t .failed (.inr rfl)) hpending
      (carries_now t .failed rfl) ⟨nofun, nofun⟩
  | free hrow hset hkeys =>
    exact h.carried (fun hne => absurd hrow hne) hpending
      (carries_now t .released rfl) ⟨nofun, nofun⟩
  | restore hstays hkeys =>
    refine ⟨hrest rfl nofun nofun fun hne heq => hne (hstays.row.mpr heq), hpending, ?_,
      fun _ _ => .inl hkeys, fun _ => .inr (.inr ⟨t, Function.update_self ..⟩)⟩
    exact forall_update (P := fun h => h ≠ some ⟨.created, credit.key cfg⟩ ∧
      h ≠ some ⟨.lost, credit.key cfg⟩) t h.phase ⟨nofun, nofun⟩
  | note hstays hkeys =>
    refine h.aside hstays hpending ?_ (hheld ▸ nofun) ⟨nofun, nofun⟩ fun _ => .inl hkeys
    rw [hheld]
    rintro ⟨phase, -, heq⟩
    cases heq
  | add hphase hstays hset => exact h.added hheld hphase hstays hset hpending
  | leave hstays =>
    exact h.aside hstays hpending (hheld ▸ not_carries rfl) (hheld ▸ nofun) ⟨nofun, nofun⟩
      fun hw => by obtain hw | hw := hw <;> cases hw

/-! ## One step -/

/-- A pending row stays without an agent until one is created. -/
theorem ran_pending (hfits : Fits cfg a c) (hx : respond cfg chain t x s c = (r, s'))
    (hphase : hold cfg a ≠ some ⟨.created, credit.key cfg⟩)
    (h : ∀ row, s.rows (credit.key cfg) = some row → row.agentId = none) :
    ∀ row, s'.rows (credit.key cfg) = some row → row.agentId = none := by
  have hput : ∀ (key : PaymentKey) (row : PaymentRow),
      (key = credit.key cfg → row.agentId = none) →
      ∀ row', (s.setRow key (some row)).rows (credit.key cfg) = some row' →
        row'.agentId = none := by
    intro key row hrow row' h'
    rw [setRow_rows] at h'
    split at h'
    · next heq =>
      cases h'
      exact hrow heq.symm
    · exact h row' h'
  have heffect : ∀ row, (effect cfg chain t x s c).2.rows (credit.key cfg) = some row →
      row.agentId = none := by
    cases c with
    | insertClaim key owner now =>
      simp only [effect, insertClaim]
      split
      · exact h
      · exact hput key _ fun _ => rfl
    | takeOver key owner now staleBefore =>
      simp only [effect, takeOver]
      split
      · next row hrow =>
        split
        · exact hput key _ fun heq => h row (heq ▸ hrow)
        · exact h
      · exact h
    | claimTransaction key owner now staleBefore =>
      obtain ⟨-, heq⟩ | ⟨row, hrow, ⟨-, heq⟩ | ⟨-, pending, agentId, heq⟩⟩ :=
        claimTransaction_cases key owner now staleBefore s
      · simp only [effect, heq]
        exact hput key _ fun _ => rfl
      · simp only [effect, heq]
        exact hput key _ fun heq => h row (heq ▸ hrow)
      · simpa only [effect, heq] using h
    | markPaymentUsed key agentId =>
      simp only [effect, markRow]
      split
      · exact hput key _ fun heq => absurd (heq ▸ hfits) hphase
      · exact h
    | recordUsedPayment key owner agentId now =>
      obtain ⟨-, txHash, hkey⟩ := hfits
      simp only [effect, recordUsed]
      split
      · exact h
      · exact hput key _ fun heq => absurd (heq.symm.trans hkey) creditPaymentKey_ne
    | releasePayment key =>
      simp only [effect, deletePending]
      split
      · split
        · intro row hrow
          rw [setRow_rows] at hrow
          split at hrow
          · cases hrow
          · exact h row hrow
        · exact h
      · exact h
    | enterTick =>
      simp only [effect]
      split <;> exact h
    | _ => exact h
  obtain ⟨-, rfl⟩ | ⟨-, -, rfl | rfl⟩ := respond_cases hx
  · exact heffect
  · exact h
  · exact heffect

theorem holdsOf_ran (hknown : known tr t = some a) :
    holdsOf cfg (⟨.ran t c r, s, s'⟩ :: tr) =
      Function.update (holdsOf cfg tr) t (Hold.next cfg (hold cfg a) c r) := by
  funext t'
  by_cases heq : t' = t
  · subst heq
    simp [holdsOf, hknown]
  · simp [holdsOf, Ne.symm heq, Function.update_of_ne heq]

theorem holdsOf_gone {label : Label Ans Failure (Option Response) Call}
    (htag : label.tag? = some t) (hgone : (known (⟨label, s, s'⟩ :: tr) t).bind (hold cfg) = none) :
    holdsOf cfg (⟨label, s, s'⟩ :: tr) = Function.update (holdsOf cfg tr) t none := by
  funext t'
  by_cases heq : t' = t
  · subst heq
    rw [Function.update_self]
    exact hgone
  · rw [Function.update_of_ne heq]
    simp only [holdsOf]
    rw [known_other (by simpa [htag] using Ne.symm heq)]

theorem holdsOf_known (cfg : Config) (hknown : known tr t = some a) : holdsOf cfg tr t = hold cfg a := by
  simp [holdsOf, hknown]

theorem Scanned.cons (h : Scanned cfg (e :: tr) credit) :
    Scanned cfg tr credit ∨ ∃ t : Call,
      e.label = .ran t (.isPaymentRecorded (credit.key cfg)) (.ok true) ∨
      e.label = .ran t (.sadd credit.user credit.nonce) (.ok ()) := by
  obtain ⟨e', he', t, ht, hlabel⟩ := h
  obtain rfl | he' := List.mem_cons.mp he'
  · exact .inr ⟨t, hlabel⟩
  · exact .inl ⟨e', he', t, ht, hlabel⟩

theorem Scanned.mono (h : Scanned cfg tr credit) : Scanned cfg (e :: tr) credit := by
  obtain ⟨e', he', ht⟩ := h
  exact ⟨e', List.mem_cons_of_mem _ he', ht⟩

/-! ## What is read -/

/-- Redis has credits of events under their own names, and nothing else is read. -/
structure Sourced (chain : Chain) (tr : List Ev) (s : State) : Prop where
  keys : ∀ user nonce credit, s.redis.credits user nonce = some credit →
    credit ∈ chain.credits ∧ credit.user = user ∧ credit.nonce = nonce
  read : ∀ t a, known tr t = some a → ∀ credit, Source a credit → credit ∈ chain.credits

theorem effect_credits (cfg : Config) (chain : Chain) (t : Call) (x : Turn) (s : State) (c : Cmd)
    (user : Address) (nonce : Nonce) :
    (effect cfg chain t x s c).2.redis.credits user nonce = s.redis.credits user nonce ∨
      (effect cfg chain t x s c).2.redis.credits user nonce = none ∨
      ∃ credit, c = .setCredit user nonce credit ∧
        (effect cfg chain t x s c).2.redis.credits user nonce = some credit := by
  cases c with
  | setCredit user' nonce' credit =>
    simp only [effect, State.setRedis, setCredit_credits]
    split
    · next heq =>
      obtain ⟨rfl, rfl⟩ := heq
      exact .inr (.inr ⟨credit, rfl, rfl⟩)
    · exact .inl rfl
  | delCredit user' nonce' =>
    simp only [effect, State.setRedis, setCredit_credits]
    split
    · exact .inr (.inl rfl)
    · exact .inl rfl
  | insertClaim key owner now =>
    simp only [effect, insertClaim]
    split <;> exact .inl rfl
  | takeOver key owner now staleBefore =>
    simp only [effect, takeOver]
    split
    · split <;> exact .inl rfl
    · exact .inl rfl
  | claimTransaction key owner now staleBefore =>
    obtain ⟨-, heq⟩ | ⟨row, hrow, ⟨-, heq⟩ | ⟨-, pending, agentId, heq⟩⟩ :=
      claimTransaction_cases key owner now staleBefore s <;>
      exact .inl (by simp [effect, heq, State.setRow])
  | markPaymentUsed key agentId =>
    simp only [effect, markRow]
    split <;> exact .inl rfl
  | recordUsedPayment key owner agentId now =>
    simp only [effect, recordUsed]
    split <;> exact .inl rfl
  | releasePayment key =>
    simp only [effect, deletePending]
    split
    · split <;> exact .inl rfl
    · exact .inl rfl
  | enterTick =>
    simp only [effect]
    split <;> exact .inl rfl
  | _ => exact .inl rfl

theorem respond_credits {isTick : Prop} (h : Sourced chain tr s) (hknown : known tr t = some a)
    (hwrites : Writes cfg isTick a c) (hx : respond cfg chain t x s c = (r, s')) :
    ∀ user nonce credit, s'.redis.credits user nonce = some credit →
      credit ∈ chain.credits ∧ credit.user = user ∧ credit.nonce = nonce := by
  intro user nonce credit hcredit
  have heffect : (effect cfg chain t x s c).2.redis.credits user nonce = some credit →
      credit ∈ chain.credits ∧ credit.user = user ∧ credit.nonce = nonce := by
    intro hcredit
    obtain heq | heq | ⟨credit', rfl, heq⟩ := effect_credits cfg chain t x s c
      user nonce
    · exact h.keys user nonce credit (heq ▸ hcredit)
    · rw [heq] at hcredit
      cases hcredit
    · rw [heq] at hcredit
      cases hcredit
      obtain ⟨huser, hnonce, hread⟩ := hwrites
      exact ⟨h.read t a hknown credit hread, huser.symm, hnonce.symm⟩
  obtain ⟨-, rfl⟩ | ⟨-, -, rfl | rfl⟩ := respond_cases hx
  · exact heffect hcredit
  · exact h.keys user nonce credit hcredit
  · exact heffect hcredit

theorem mem_credits_of_query {fromBlock toBlock : Nat} {event : EventLog}
    (h : event ∈ chain.queryFilter fromBlock toBlock) (hcredit : event.credit? = some credit) :
    credit ∈ chain.credits :=
  List.mem_filterMap.mpr ⟨event, List.mem_of_mem_filter h, hcredit⟩

theorem Sourced.answer (h : Sourced chain tr s) (hknown : known tr t = some a)
    (hx : respond cfg chain t x s c = (r, s')) :
    ∀ credit, Source (⟨c, r⟩ :: a) credit → credit ∈ chain.credits := by
  rintro credit (⟨user, nonce, hmem⟩ | ⟨fromBlock, toBlock, events, hmem, event, hevent, hcredit⟩)
  · obtain heq | hmem := List.mem_cons.mp hmem
    · cases heq
      obtain ⟨hr, -⟩ | ⟨-, hr, -⟩ := respond_cases hx
      · exact (h.keys user nonce credit (Except.ok.inj hr).symm).1
      · cases hr
    · exact h.read t a hknown credit (.inl ⟨user, nonce, hmem⟩)
  · obtain heq | hmem := List.mem_cons.mp hmem
    · cases heq
      obtain ⟨hr, -⟩ | ⟨-, hr, -⟩ := respond_cases hx
      · exact mem_credits_of_query (Except.ok.inj hr ▸ hevent) hcredit
      · cases hr
    · exact h.read t a hknown credit (.inr ⟨fromBlock, toBlock, events, hmem, event, hevent, hcredit⟩)

/-- What every call asks for. -/
def Asks (cfg : Config) (t : Call) (a : Answers Ans Failure) (c : Cmd) : Prop :=
  Fits cfg a c ∧ Writes cfg (t.op = .tick) a c

theorem start_asks {env : State → State → Prop} (tags : List Call) (s : State) (t : Call)
    (p : Deploys (Option Response)) (s' : State)
    (h : (deploys cfg chain env).start tags s t p s') :
    p.Told (Asks cfg t) (fun a _ => Ended cfg a ∧ True) [] :=
  (start_told tags s t p s' h).and (start_writes tags s t p s' h)

/-- A move in which no one answers keeps what has been read. -/
theorem Sourced.silent {label : Label Ans Failure (Option Response) Call}
    (h : Sourced chain tr s) (hredis : s'.redis = s.redis)
    (hknown : ∀ t a, known (⟨label, s, s'⟩ :: tr) t = some a → a = [] ∨ known tr t = some a) :
    Sourced chain (⟨label, s, s'⟩ :: tr) s' where
  keys := by rw [hredis]; exact h.keys
  read t a ha credit hread := by
    obtain rfl | ha := hknown t a ha
    · obtain ⟨_, _, hmem⟩ | ⟨_, _, _, hmem, -⟩ := hread <;> cases hmem
    · exact h.read t a ha credit hread

theorem Move.sourced (h : Sourced chain tr s) (hmove : Move (deploys cfg chain TimeOnly) (Asks cfg)
    (fun _ a _ => Ended cfg a ∧ True) tr s e s') : Sourced chain (e :: tr) s' := by
  cases hmove with
  | ran t a c r hknown hasks hx =>
    obtain ⟨x, hx⟩ := hx
    refine ⟨respond_credits h hknown hasks.2 hx, fun t' a' ha' => ?_⟩
    rw [known_ran] at ha'
    split at ha'
    · next heq =>
      subst heq
      rw [hknown] at ha'
      cases ha'
      exact h.answer hknown hx
    · exact h.read t' a' ha'
  | started t p tags hfresh hx =>
    obtain ⟨-, -, rfl⟩ := hx
    refine h.silent rfl fun t' a' ha' => ?_
    rw [known_started] at ha'
    split at ha'
    · exact .inl (Option.some.inj ha').symm
    · exact .inr ha'
  | finished t a r hknown hends =>
    refine h.silent rfl fun t' a' ha' => ?_
    rw [known_finished] at ha'
    split at ha'
    · cases ha'
    · exact .inr ha'
  | env hx =>
    obtain ⟨clock, rfl⟩ := hx
    exact h.silent rfl fun t' a' ha' => .inr ha'
  | died t a hknown hx =>
    obtain rfl := hx
    refine h.silent (by split <;> rfl) fun t' a' ha' => ?_
    rw [known_died] at ha'
    split at ha'
    · cases ha'
    · exact .inr ha'

/-! ## Runs -/

theorem AllDropNothing.tail (h : AllDropNothing cfg chain (e :: tr)) :
    AllDropNothing cfg chain tr :=
  fun later e' earlier heq => h (e :: later) e' earlier (by rw [heq]; rfl)

theorem AllDropNothing.head (h : AllDropNothing cfg chain (e :: tr)) :
    DropsNothing cfg chain tr e := h [] e tr rfl

/-- A request that leaves with what it has lost at most. -/
theorem Accounted.left {scanned : Prop} (h : Accounted cfg credit (holdsOf cfg tr) scanned s)
    (hstays : Stays cfg credit s s') (hrows : s'.rows = s.rows) (hknown : known tr t = some a)
    (hleaves : ∀ phase, hold cfg a = some ⟨phase, credit.key cfg⟩ →
      phase.carries = false ∧ phase ≠ .restored) :
    Accounted cfg credit (Function.update (holdsOf cfg tr) t none) scanned s' := by
  have hheld := holdsOf_known cfg hknown
  refine h.aside hstays (hrows ▸ h.pending) ?_ ?_ ⟨nofun, nofun⟩ fun hw => ?_
  · rw [hheld]
    rintro ⟨phase, hc, heq⟩
    rw [(hleaves phase heq).1] at hc
    cases hc
  · rw [hheld]
    exact fun heq => (hleaves _ heq).2 rfl
  · obtain hw | hw := hw <;> cases hw

theorem aside_of_safe {phase : Phase} (h : ¬ (phase.atRisk = true ∨ phase = .claimed)) :
    phase.carries = false ∧ phase ≠ .restored := by
  cases phase <;> revert h <;> decide

theorem Move.accounted (hchain : chain.Numbered) (hc : credit ∈ chain.credits)
    (hsourced : Sourced chain tr s)
    (h : s.agentsOf (credit.key cfg) = [] →
      Accounted cfg credit (holdsOf cfg tr) (Scanned cfg tr credit) s)
    (hmove : Move (deploys cfg chain TimeOnly) (Asks cfg) (fun _ a _ => Ended cfg a ∧ True) tr s e
      s') (hdrops : DropsNothing cfg chain tr e) (hfree : s'.agentsOf (credit.key cfg) = []) :
    Accounted cfg credit (holdsOf cfg (e :: tr)) (Scanned cfg (e :: tr) credit) s' := by
  have hsilent : ∀ label : Label Ans Failure (Option Response) Call,
      (∀ t c r, label ≠ .ran t c r) → Scanned cfg (⟨label, s, s'⟩ :: tr) credit →
      Scanned cfg tr credit := by
    intro label hne hs
    obtain hs | ⟨t, heq | heq⟩ := hs.cons
    · exact hs
    · exact absurd heq (hne _ _ _)
    · exact absurd heq (hne _ _ _)
  cases hmove with
  | ran t a c r hknown hasks hx =>
    obtain ⟨x, hx⟩ := hx
    obtain ⟨hfits, hwrites⟩ := hasks
    have hfree₀ : s.agentsOf (credit.key cfg) = [] := by
      by_contra hne
      exact agentsOf_grows hx hne hfree
    have hin := h hfree₀
    have hheld := holdsOf_known cfg hknown
    have hphase := hin.phase t
    rw [hheld] at hphase
    have hpending' := ran_pending hfits hx hphase.1 hin.pending
    rw [holdsOf_ran hknown]
    have hun : Undisturbed cfg credit a c r s s' := by
      refine ⟨hfree, hphase.1, hin.pending, ?_, ?_⟩
      · rintro err rfl phase heq
        by_contra hrisk
        exact hdrops.failed t c err a phase credit.nonce rfl hknown heq (by simpa using hrisk) hfree₀
      · rintro user nonce err rfl rfl
        exact hdrops.taken t user nonce err rfl
    have hm : Moves cfg credit s s' (holdsOf cfg tr t) (Hold.next cfg (hold cfg a) c r) := by
      rw [hheld]
      obtain ⟨rfl, rfl⟩ | ⟨-, rfl, hs⟩ := respond_cases hx
      · exact moves_ok hchain hc (hsourced.read t a hknown) hfits hwrites hun
      · exact moves_error hfits hun hs
    have hafter := hin.moves hm hpending'
    by_cases hrecorded : (⟨c, r⟩ : (c : Cmd) × Except Failure (Ans c)) =
        ⟨.isPaymentRecorded (credit.key cfg), .ok true⟩
    · cases hrecorded
      refine hafter.recorded ?_
      obtain ⟨hr, rfl⟩ | ⟨-, hr, -⟩ := respond_cases hx
      · have hsome := (Except.ok.inj hr).symm
        intro heq
        simp only [effect] at hsome heq
        rw [heq] at hsome
        cases hsome
      · cases hr
    by_cases hadded : (⟨c, r⟩ : (c : Cmd) × Except Failure (Ans c)) =
        ⟨.sadd credit.user credit.nonce, .ok ()⟩
    · cases hadded
      have hp : ∃ p, holdsOf cfg tr t = some ⟨p, credit.key cfg⟩ ∧ (p = .restored ∨ p = .noted) := by
        rw [hheld]
        obtain heq | heq := hfits
        · exact ⟨_, heq, .inl rfl⟩
        · exact ⟨_, heq, .inr rfl⟩
      obtain ⟨p, hp, hor⟩ := hp
      obtain ⟨hr, rfl⟩ | ⟨-, hr, -⟩ := respond_cases hx
      · refine hin.added hp hor (effect_stays id) ?_ hpending'
        show credit.nonce ∈ _
        simp only [effect, State.setRedis, setNonces_creditsByUser, if_true]
        exact List.mem_insert_self
      · cases hr
    · refine hafter.mono fun hs => ?_
      obtain hs | ⟨t', heq | heq⟩ := hs.cons
      · exact hs
      · cases heq
        exact absurd rfl hrecorded
      · cases heq
        exact absurd rfl hadded
  | started t p tags hfresh hx =>
    obtain ⟨-, -, rfl⟩ := hx
    rw [holdsOf_gone (t := t) rfl (by simp), Function.update_eq_self_iff.mpr (by simp [holdsOf, hfresh])]
    have hin := (h hfree).mono (hsilent (.started t) fun _ _ _ h => by cases h)
    exact ⟨hin.row, hin.pending, hin.phase, hin.written, hin.kept⟩
  | finished t a r hknown hends =>
    have hin := (h hfree).mono (hsilent (.finished t r) fun _ _ _ h => by cases h)
    rw [holdsOf_gone (t := t) rfl (by simp)]
    refine hin.left (.refl _) rfl hknown fun phase heq => ?_
    obtain hnone | ⟨key, hlost⟩ | ⟨txHash, hreleased⟩ := hends.1
    · rw [hnone] at heq
      cases heq
    · rw [hlost] at heq
      cases heq
      exact ⟨rfl, fun h => by cases h⟩
    · rw [hreleased] at heq
      obtain ⟨-, hkey⟩ := Hold.mk.inj (Option.some.inj heq)
      exact absurd hkey.symm creditPaymentKey_ne
  | env hx =>
    obtain ⟨clock, rfl⟩ := hx
    have hin := (h hfree).mono (hsilent .env fun _ _ _ h => by cases h)
    exact ⟨hin.row, hin.pending, hin.phase, hin.written, hin.kept⟩
  | died t a hknown hx =>
    have hx : s' = release t s := hx
    have hrows : s'.rows = s.rows := by rw [hx, release]; split <;> rfl
    have hredis : s'.redis = s.redis := by rw [hx, release]; split <;> rfl
    have hagents : s'.agents = s.agents := by rw [hx, release]; split <;> rfl
    have hfree₀ : s.agentsOf (credit.key cfg) = [] := by
      rw [← hfree, State.agentsOf, State.agentsOf, hagents]
    have hin := (h hfree₀).mono (hsilent (.died t) fun _ _ _ h => by cases h)
    rw [holdsOf_gone (t := t) rfl (by simp)]
    refine hin.left ⟨by rw [hrows], ?_, ?_⟩ hrows hknown fun phase heq => ?_
    · simp only [InSet, hredis]
      exact id
    · simp only [InKeys, hredis]
      exact id
    · have hsafe : ¬ (phase.atRisk = true ∨ phase = .claimed) := fun hor =>
        hdrops.died t a phase credit.nonce rfl hknown heq hor hfree₀
      exact aside_of_safe hsafe

end DeployPayments
