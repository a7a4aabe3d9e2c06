import BlindMarket.McpSpends.FundingHolds

/-!
# One key, one escrow

The ledger has no lock: a call goes on from the record it read, whatever other
calls of its key have written since, and a createTask handed to the relay is
recorded only once the relay answers.
-/
namespace McpSpends

open Async Prog Runs

/-- No createTask is recorded for the key. -/
def Unspent (s : State) (key : Key) : Prop :=
  ∀ record, s.spends key = some record → record.stage = .created ∨ record.stage = .approved

/-- The hash an answered update records for a key. -/
def names : (c : Cmd) → Except Code (Ans c) → Option (Key × TxHash)
  | .updateSpend key (.funded hash _), .ok _ => some (key, hash)
  | _, _ => none

/-- The relay's answer with this hash has reached the ledger. -/
def Named (tr : List Ev) (key : Key) (hash : TxHash) : Prop :=
  ∃ e ∈ tr, ∃ (t : Call) (c : Cmd) (r : Except Code (Ans c)),
    e.label = .ran t c r ∧ names c r = some (key, hash)

/-- Every createTask the relay took for the key was answered, and the answer recorded. -/
def Answered (tr : List Ev) (s : State) (key : Key) : Prop :=
  ∀ n, .relayed n ∈ s.creates key → Named tr key (.relayed n)

/-- The key a command sends a createTask for: as it records one that is signed, or hands one to
the relay. -/
def Cmd.creates : Cmd → Option Key
  | .updateSpend key (.funded (.signed _) _) => some key
  | .updateSpend key (.fundedNative _) => some key
  | .relayTx key _ _ tx => if tx.data.isCreate then some key else none
  | _ => none

/-- The key a command takes to be unspent. -/
def Cmd.opens : Cmd → Option Key
  | .putSpend record => some record.idempotencyKey
  | .updateSpend key (.approved _) => some key
  | c => c.creates

/-- A step of a run in which no call goes on from a record another one has moved past 'approved',
or sends a createTask while the relay has one that the ledger does not name. -/
def InTurn (earlier : List Ev) (e : Ev) : Prop :=
  ∀ (t : Call) (c : Cmd) (r : Except Code (Ans c)), e.label = .ran t c r →
    (∀ key, c.opens = some key → Unspent e.pre key) ∧
    ∀ key, c.creates = some key → Answered earlier e.pre key

def AllInTurn (tr : List Ev) : Prop := Throughout InTurn tr

/-- At most one createTask of each key has succeeded. -/
def FundedOnce (s : State) : Prop :=
  ∀ key hash hash', hash ∈ s.creates key → hash' ∈ s.creates key →
    s.chain.status hash = some true → s.chain.status hash' = some true → hash = hash'

/-! ## The invariant -/

/-- A createTask of the key that has succeeded or still may. -/
def Live (s : State) (key : Key) (hash : TxHash) : Prop :=
  hash ∈ s.creates key ∧ s.chain.status hash ≠ some false

/-- The ledger has a createTask of the key. -/
def Past (s : State) (key : Key) : Prop :=
  ∃ record, s.spends key = some record ∧ (record.stage = .funded ∨ record.stage = .indexed)

/-- A call that holds a createTask of the key. -/
def Holding (tr : List Ev) (t : Call) (key : Key) (phase : Phase) (hash : TxHash) : Prop :=
  ∃ a, known tr t = some a ∧ hold a = some ⟨phase, key, hash⟩

structure Once (tr : List Ev) (s : State) (key : Key) : Prop where
  one : ∀ hash hash', Live s key hash → Live s key hash' → hash = hash'
  ledger : ∀ hash, Live s key hash →
    Past s key ∨ (∃ n, hash = .relayed n) ∧ ¬ Named tr key hash
  held : ∀ t phase hash, Holding tr t key phase hash → ∀ hash', Live s key hash' → hash' = hash
  recorded : ∀ t hash, Holding tr t key .recorded hash → Past s key
  relayed : ∀ t hash, Holding tr t key .relayed hash →
    hash ∈ s.creates key ∧ (∃ n, hash = .relayed n) ∧ ¬ Named tr key hash
  alone : ∀ t t' phase phase' hash hash', Holding tr t key phase hash →
    Holding tr t' key phase' hash' → t = t'
  sent : ∀ n, .relayed n ∈ s.creates key → n < s.relayed
  named : ∀ n, Named tr key (.relayed n) → n < s.relayed

variable {tr : List Ev} {e : Ev} {s s' : State} {t : Call} {key : Key} {a : Answers Ans Code}
  {c : Cmd} {r : Except Code (Ans c)}

theorem Unspent.not_past (h : Unspent s key) : ¬ Past s key := by
  rintro ⟨record, hrecord, hstage⟩
  obtain h | h := h record hrecord <;> rw [h] at hstage <;> obtain h | h := hstage <;> cases h

theorem named_ran {hash : TxHash} : Named (⟨.ran t c r, s, s'⟩ :: tr) key hash ↔
    names c r = some (key, hash) ∨ Named tr key hash := by
  constructor
  · rintro ⟨e, he, t', c', r', hlabel, hnames⟩
    obtain rfl | he := List.mem_cons.mp he
    · cases hlabel
      exact .inl hnames
    · exact .inr ⟨e, he, t', c', r', hlabel, hnames⟩
  · rintro (hnames | ⟨e, he, h⟩)
    · exact ⟨_, List.mem_cons_self, t, c, r, rfl, hnames⟩
    · exact ⟨e, List.mem_cons_of_mem _ he, h⟩

theorem named_silent {hash : TxHash}
    (hne : ∀ (t : Call) (c : Cmd) (r : Except Code (Ans c)), e.label ≠ .ran t c r) :
    Named (e :: tr) key hash ↔ Named tr key hash := by
  constructor
  · rintro ⟨e', he, t', c', r', hlabel, hnames⟩
    obtain rfl | he := List.mem_cons.mp he
    · exact absurd hlabel (hne t' c' r')
    · exact ⟨e', he, t', c', r', hlabel, hnames⟩
  · exact fun ⟨e', he, h⟩ => ⟨e', List.mem_cons_of_mem _ he, h⟩

/-- No createTask of an unspent key is live, or in the hands of a call, once the relay has answered. -/
theorem Once.clear (h : Once tr s key) (hunspent : Unspent s key) (hanswered : Answered tr s key) :
    (∀ hash, ¬ Live s key hash) ∧ ∀ t phase hash, ¬ Holding tr t key phase hash := by
  constructor
  · intro hash hlive
    obtain hpast | ⟨⟨n, rfl⟩, hnamed⟩ := h.ledger hash hlive
    · exact hunspent.not_past hpast
    · exact hnamed (hanswered n hlive.1)
  · rintro t (_ | _) hash hheld
    · obtain ⟨hsent, ⟨n, rfl⟩, hnamed⟩ := h.relayed t hash hheld
      exact hnamed (hanswered n hsent)
    · exact hunspent.not_past (h.recorded t hash hheld)

/-- Nothing of the key is live, or in the hands of a call. -/
theorem Once.free (hlive : ∀ hash, ¬ Live s key hash)
    (hheld : ∀ t phase hash, ¬ Holding tr t key phase hash)
    (hsent : ∀ n, .relayed n ∈ s.creates key → n < s.relayed)
    (hnamed : ∀ n, Named tr key (.relayed n) → n < s.relayed) : Once tr s key where
  one hash _ hl _ := absurd hl (hlive hash)
  ledger hash hl := absurd hl (hlive hash)
  held t phase hash hh := absurd hh (hheld t phase hash)
  recorded t hash hh := absurd hh (hheld t _ hash)
  relayed t hash hh := absurd hh (hheld t _ hash)
  alone t _ phase _ hash _ hh _ := absurd hh (hheld t phase hash)
  sent := hsent
  named := hnamed

/-- Nothing of the key is sent, recorded or reset. -/
theorem Once.quiet {tr' : List Ev} (h : Once tr s key)
    (hlive : ∀ hash, Live s' key hash → Live s key hash)
    (hcreates : s'.creates key = s.creates key) (hrelayed : s.relayed ≤ s'.relayed)
    (hpast : Past s key → Past s' key) (hnamed : ∀ hash, Named tr' key hash ↔ Named tr key hash)
    (hhold : ∀ t phase hash, Holding tr' t key phase hash → Holding tr t key phase hash) :
    Once tr' s' key where
  one hash hash' hl hl' := h.one hash hash' (hlive _ hl) (hlive _ hl')
  ledger hash hl := by
    rw [hnamed]
    exact (h.ledger hash (hlive hash hl)).imp hpast id
  held t phase hash hh hash' hl := h.held t phase hash (hhold _ _ _ hh) hash' (hlive _ hl)
  recorded t hash hh := hpast (h.recorded t hash (hhold _ _ _ hh))
  relayed t hash hh := by
    rw [hcreates, hnamed]
    exact h.relayed t hash (hhold _ _ _ hh)
  alone t t' phase phase' hash hash' hh hh' :=
    h.alone t t' phase phase' hash hash' (hhold _ _ _ hh) (hhold _ _ _ hh')
  sent n hn := by
    rw [hcreates] at hn
    exact Nat.lt_of_lt_of_le (h.sent n hn) hrelayed
  named n hn := Nat.lt_of_lt_of_le (h.named n ((hnamed _).mp hn)) hrelayed

/-! ### One command -/

variable {x : Turn}

theorem Does.relayed (h : Does s c s') : s.relayed ≤ s'.relayed := by
  cases h with
  | relay => exact Nat.le_succ _
  | _ => exact Nat.le_refl _

/-- A createTask of the key reaches the relay or a node, or none does. -/
theorem Does.creates (h : Does s c s') :
    s'.creates key = s.creates key ∨
      (∃ payFrom chainId tx, c = .relayTx key payFrom chainId tx ∧ tx.data.isCreate = true ∧
        s'.creates key = .relayed s.relayed :: s.creates key ∧ s'.relayed = s.relayed + 1) ∨
      ∃ raw, c = .broadcast key raw ∧ raw.data.isCreate = true ∧
        s'.creates key = .signed raw :: s.creates key := by
  cases h with
  | relay spend payFrom chainId tx =>
    by_cases hmine : spend = key ∧ tx.data.isCreate = true
    · obtain ⟨rfl, hdata⟩ := hmine
      exact .inr (.inl ⟨payFrom, chainId, tx, rfl, hdata, by simp [State.creates, hdata], rfl⟩)
    · exact .inl (by simp [State.creates, State.send, hmine])
  | broadcast spend raw =>
    by_cases hmine : spend = key ∧ raw.data.isCreate = true
    · obtain ⟨rfl, hdata⟩ := hmine
      exact .inr (.inr ⟨raw, rfl, hdata, by simp [State.creates, hdata]⟩)
    · exact .inl (by simp [State.creates, State.send, hmine])
  | _ => exact .inl rfl

theorem Holding.cases {t' : Call} {phase : Phase} {hash : TxHash} (hknown : known tr t = some a)
    (h : Holding (⟨.ran t c r, s, s'⟩ :: tr) t' key phase hash) :
    t' = t ∧ Hold.next (hold a) c r = some ⟨phase, key, hash⟩ ∨
      t' ≠ t ∧ Holding tr t' key phase hash := by
  obtain ⟨a', ha', hheld⟩ := h
  obtain ⟨rfl, rfl⟩ | ⟨hne, ha'⟩ := known_answered hknown ha'
  · exact .inl ⟨rfl, hheld⟩
  · exact .inr ⟨hne, a', ha', hheld⟩

/-- A command that moves nothing of the key. -/
theorem Once.aside (h : Once tr s key) (hknown : known tr t = some a)
    (hx : respond t x s c = (r, s')) (hcreates : s'.creates key = s.creates key)
    (hpast : Past s key → Past s' key) (hnames : ∀ hash, names c r ≠ some (key, hash))
    (hnext : ∀ phase hash, Hold.next (hold a) c r = some ⟨phase, key, hash⟩ →
      hold a = some ⟨phase, key, hash⟩) : Once (⟨.ran t c r, s, s'⟩ :: tr) s' key := by
  have hdoes := respond_does hx
  refine h.quiet ?_ hcreates hdoes.relayed hpast ?_ ?_
  · rintro hash ⟨hsent, hstatus⟩
    rw [hcreates] at hsent
    rw [hdoes.chain] at hstatus
    exact ⟨hsent, hstatus⟩
  · intro hash
    rw [named_ran]
    exact or_iff_right (hnames hash)
  · intro t' phase hash hheld
    obtain ⟨rfl, hheld'⟩ | ⟨-, hheld'⟩ := hheld.cases hknown
    · exact ⟨a, hknown, hnext _ _ hheld'⟩
    · exact hheld'

/-- One call alone holds what is live of the key from now on. -/
theorem Once.hold (h : Once tr s key) (hknown : known tr t = some a) (phase : Phase)
    (hash : TxHash) (hx : respond t x s c = (r, s'))
    (hothers : ∀ t' phase' hash', t' ≠ t → ¬ Holding tr t' key phase' hash')
    (hnext : ∀ phase' hash', Hold.next (McpSpends.hold a) c r = some ⟨phase', key, hash'⟩ →
      phase' = phase ∧ hash' = hash)
    (hlive : ∀ hash', Live s' key hash' → hash' = hash)
    (hledger : Past s' key ∨ phase = .relayed)
    (hrelayed : phase = .relayed → hash ∈ s'.creates key ∧ (∃ n, hash = .relayed n) ∧
      ¬ Named (⟨.ran t c r, s, s'⟩ :: tr) key hash)
    (hsent : ∀ n, .relayed n ∈ s'.creates key → n < s'.relayed)
    (hnamed : ∀ n, names c r = some (key, .relayed n) → n < s'.relayed) :
    Once (⟨.ran t c r, s, s'⟩ :: tr) s' key where
  one hash' hash'' hl hl' := (hlive _ hl).trans (hlive _ hl').symm
  ledger hash' hl := by
    obtain hpast | hphase := hledger
    · exact .inl hpast
    · obtain ⟨-, hn, hnot⟩ := hrelayed hphase
      rw [hlive hash' hl]
      exact .inr ⟨hn, hnot⟩
  held t' phase' hash' hh hash'' hl := by
    obtain ⟨-, hh⟩ | ⟨hne, hh⟩ := hh.cases hknown
    · rw [(hnext _ _ hh).2]
      exact hlive _ hl
    · exact absurd hh (hothers t' _ _ hne)
  recorded t' hash' hh := by
    obtain ⟨-, hh⟩ | ⟨hne, hh⟩ := hh.cases hknown
    · obtain ⟨rfl, -⟩ := hnext _ _ hh
      exact hledger.resolve_right fun h => by cases h
    · exact absurd hh (hothers t' _ _ hne)
  relayed t' hash' hh := by
    obtain ⟨-, hh⟩ | ⟨hne, hh⟩ := hh.cases hknown
    · obtain ⟨rfl, rfl⟩ := hnext _ _ hh
      exact hrelayed rfl
    · exact absurd hh (hothers t' _ _ hne)
  alone t₁ t₂ phase₁ phase₂ hash₁ hash₂ h₁ h₂ := by
    obtain ⟨rfl, -⟩ | ⟨hne, h₁⟩ := h₁.cases hknown
    · obtain ⟨rfl, -⟩ | ⟨hne, h₂⟩ := h₂.cases hknown
      · rfl
      · exact absurd h₂ (hothers t₂ _ _ hne)
    · exact absurd h₁ (hothers t₁ _ _ hne)
  sent := hsent
  named n hn := by
    obtain hn | hn := named_ran.mp hn
    · exact hnamed n hn
    · exact Nat.lt_of_lt_of_le (h.named n hn) (respond_does hx).relayed

theorem setSpend_creates (key' : Key) (record : Option SpendRecord) :
    (s.setSpend key' record).creates key = s.creates key := rfl

theorem past_update {key' : Key} {patch : Patch} {record : SpendRecord}
    (hrecord : s.spends key' = some record)
    (hstage : key' = key → record.stage = .funded ∨ record.stage = .indexed →
      (patch.apply record).stage = .funded ∨ (patch.apply record).stage = .indexed)
    (h : Past s key) : Past (s.setSpend key' (some (patch.apply record))) key := by
  obtain ⟨record', hrecord', hpast⟩ := h
  by_cases hkey : key' = key
  · subst hkey
    rw [hrecord] at hrecord'
    cases hrecord'
    exact ⟨_, by simp, hstage rfl hpast⟩
  · exact ⟨record', by simpa [Ne.symm hkey] using hrecord', hpast⟩

/-- An update of the key that only takes it further, or finds it unspent. -/
theorem Once.keep (h : Once tr s key) (hknown : known tr t = some a) {key' : Key} {patch : Patch}
    {r : Except Code Unit} (hx : respond t x s (.updateSpend key' patch) = (r, s'))
    (hnext : ∀ prev, Hold.next prev (.updateSpend key' patch) r = prev)
    (hnames : names (.updateSpend key' patch) r = none)
    (hstage : ∀ record, key' = key → Past s key →
      (patch.apply record).stage = .funded ∨ (patch.apply record).stage = .indexed) :
    Once (⟨.ran t (.updateSpend key' patch) r, s, s'⟩ :: tr) s' key := by
  have hcreates : s'.creates key = s.creates key := by
    obtain ⟨record, -, -, rfl⟩ | ⟨-, rfl⟩ := respond_updateSpend hx <;> rfl
  refine h.aside hknown hx hcreates ?_ (by simp [hnames]) (by simp [hnext])
  intro hpast
  obtain ⟨record, -, hrecord, rfl⟩ | ⟨-, rfl⟩ := respond_updateSpend hx
  · exact past_update hrecord (fun hkey _ => hstage record hkey hpast) hpast
  · exact hpast

/-- A createTask is recorded: one signed here, or the one the relay has answered with. -/
theorem Once.record (h : Once tr s key) (hknown : known tr t = some a) {patch : Patch}
    {hash : TxHash} {r : Except Code Unit}
    (hx : respond t x s (.updateSpend key patch) = (r, s'))
    (hpatch : (∃ u, patch = .funded hash u) ∨ patch = .fundedNative hash)
    (hclear : ∀ hash', Live s key hash' → hash' = hash)
    (hothers : ∀ t' phase' hash', t' ≠ t → ¬ Holding tr t' key phase' hash')
    (hsent : ∀ n, hash = .relayed n → n < s.relayed) :
    Once (⟨.ran t (.updateSpend key patch) r, s, s'⟩ :: tr) s' key := by
  obtain ⟨record, rfl, hrecord, rfl⟩ | ⟨rfl, rfl⟩ := respond_updateSpend hx
  · have hpast : Past (s.setSpend key (some (patch.apply record))) key := by
      refine ⟨patch.apply record, by simp, .inl ?_⟩
      obtain ⟨u, rfl⟩ | rfl := hpatch <;> rfl
    refine h.hold hknown .recorded hash hx hothers ?_ hclear (.inl hpast)
      (fun h => by cases h) h.sent ?_
    · intro phase' hash' hnext
      obtain ⟨u, rfl⟩ | rfl := hpatch <;> cases hnext <;> exact ⟨rfl, rfl⟩
    · intro n hn
      obtain ⟨u, rfl⟩ | rfl := hpatch <;> cases hn
      exact hsent n rfl
  · refine h.aside hknown hx rfl id ?_ ?_
    · obtain ⟨u, rfl⟩ | rfl := hpatch <;> exact fun _ h => by cases h
    · obtain ⟨u, rfl⟩ | rfl := hpatch <;> exact fun _ _ h => h

/-- A createTask is seen to have reverted, and the key goes back. -/
theorem Once.reset (h : Once tr s key) (hshown : Shown tr s) (hknown : known tr t = some a)
    {patch : Patch} {hash : TxHash} {r : Except Code Unit}
    (hx : respond t x s (.updateSpend key patch) = (r, s'))
    (hpatch : patch = .unfunded ∨ patch = .unfundedNative)
    (hheld : McpSpends.hold a = some ⟨.recorded, key, hash⟩) (hseen : SeenReverted a hash) :
    Once (⟨.ran t (.updateSpend key patch) r, s, s'⟩ :: tr) s' key := by
  have hreverted : s.chain.status hash = some false := by
    obtain ⟨chainId, hseen⟩ | hseen := hseen
    · exact (hshown t a hknown _ hseen).1
    · exact hshown t a hknown _ hseen
  have hholds : Holding tr t key .recorded hash := ⟨a, hknown, hheld⟩
  have hdead : ∀ hash', ¬ Live s key hash' := by
    intro hash' hlive
    rw [h.held t _ _ hholds hash' hlive] at hlive
    exact hlive.2 hreverted
  obtain ⟨record, rfl, hrecord, rfl⟩ | ⟨rfl, rfl⟩ := respond_updateSpend hx
  · refine .free hdead ?_ h.sent ?_
    · rintro t' phase' hash' hh
      obtain ⟨-, hnext⟩ | ⟨hne, hh⟩ := hh.cases hknown
      · obtain rfl | rfl := hpatch <;> cases hnext
      · exact hne (h.alone _ _ _ _ _ _ hh hholds)
    · intro n hn
      obtain hn | hn := named_ran.mp hn
      · obtain rfl | rfl := hpatch <;> cases hn
      · exact h.named n hn
  · refine h.aside hknown hx rfl id ?_ ?_
    · obtain rfl | rfl := hpatch <;> exact fun _ h => by cases h
    · obtain rfl | rfl := hpatch <;> exact fun _ _ h => h

/-- The relay takes a createTask, and answers with its hash or does not. -/
theorem Once.relay (h : Once tr s key) (hknown : known tr t = some a) {payFrom : Address}
    {chainId : Nat} {tx : TxRequest} {r : Except Code Relayed}
    (hx : respond t x s (.relayTx key payFrom chainId tx) = (r, s'))
    (hdata : tx.data.isCreate = true) (hclear : ∀ hash, ¬ Live s key hash)
    (hheld : ∀ t phase hash, ¬ Holding tr t key phase hash)
    (hcreates : s'.creates key = .relayed s.relayed :: s.creates key)
    (hrelayed : s'.relayed = s.relayed + 1) :
    Once (⟨.ran t (.relayTx key payFrom chainId tx) r, s, s'⟩ :: tr) s' key := by
  have hlive : ∀ hash, Live s' key hash → hash = .relayed s.relayed := by
    rintro hash ⟨hsent, hstatus⟩
    rw [hcreates] at hsent
    rw [(respond_does hx).chain] at hstatus
    obtain rfl | hsent := List.mem_cons.mp hsent
    · rfl
    · exact absurd ⟨hsent, hstatus⟩ (hclear hash)
  have hmem : (.relayed s.relayed) ∈ s'.creates key := by simp [hcreates]
  have hfresh : ¬ Named (⟨.ran t (.relayTx key payFrom chainId tx) r, s, s'⟩ :: tr) key
      (.relayed s.relayed) := by
    rw [named_ran]
    rintro (hn | hn)
    · cases hn
    · exact absurd (h.named _ hn) (lt_irrefl _)
  refine h.hold hknown .relayed (.relayed s.relayed) hx
    (fun t' _ _ _ hh => hheld t' _ _ hh) ?_ hlive (.inr rfl)
    (fun _ => ⟨hmem, ⟨_, rfl⟩, hfresh⟩) ?_ fun n hn => by cases hn
  · intro phase' hash' hnext
    obtain ⟨hr, -⟩ | ⟨-, ⟨code, rfl⟩, -⟩ := respond_cases hx
    · subst hr
      by_cases hflag : x.flag
      · simp only [effect, Hold.next, hflag, if_true, hdata] at hnext
        cases hnext
        exact ⟨rfl, rfl⟩
      · simp only [effect, Hold.next, hflag] at hnext
        exact absurd ⟨a, hknown, hnext⟩ (hheld t phase' hash')
    · exact absurd ⟨a, hknown, hnext⟩ (hheld t phase' hash')
  · intro n hn
    rw [hcreates] at hn
    rw [hrelayed]
    obtain heq | hn := List.mem_cons.mp hn
    · cases heq
      exact Nat.lt_succ_self _
    · exact Nat.lt_succ_of_lt (h.sent n hn)

/-- A recorded createTask reaches a node. -/
theorem Once.broadcast (h : Once tr s key) (hknown : known tr t = some a) {raw : Raw}
    {r : Except Code Unit} (hx : respond t x s (.broadcast key raw) = (r, s'))
    (hheld : McpSpends.hold a = some ⟨.recorded, key, .signed raw⟩)
    (hcreates : s'.creates key = .signed raw :: s.creates key) :
    Once (⟨.ran t (.broadcast key raw) r, s, s'⟩ :: tr) s' key := by
  have hholds : Holding tr t key .recorded (.signed raw) := ⟨a, hknown, hheld⟩
  have hpast : Past s' key := by
    obtain ⟨record, hrecord, hstage⟩ := h.recorded t _ hholds
    refine ⟨record, ?_, hstage⟩
    rw [(respond_does hx).spends (fun _ h => by cases h) (fun _ h => by cases h), hrecord]
  refine h.hold hknown .recorded (.signed raw) hx ?_ ?_ ?_ (.inl hpast)
    (fun h => by cases h) ?_ fun n hn => by cases hn
  · exact fun t' phase' hash' hne hh => hne (h.alone _ _ _ _ _ _ hh hholds)
  · intro phase' hash' hnext
    rw [show Hold.next (McpSpends.hold a) (.broadcast key raw) r = _ from hheld] at hnext
    cases hnext
    exact ⟨rfl, rfl⟩
  · rintro hash' ⟨hsent, hstatus⟩
    rw [hcreates] at hsent
    rw [(respond_does hx).chain] at hstatus
    obtain rfl | hsent := List.mem_cons.mp hsent
    · rfl
    · exact h.held t _ _ hholds hash' ⟨hsent, hstatus⟩
  · intro n hn
    rw [hcreates] at hn
    obtain heq | hn := List.mem_cons.mp hn
    · cases heq
    · exact Nat.lt_of_lt_of_le (h.sent n hn) (respond_does hx).relayed

/-- The relay takes nothing. -/
theorem Once.refused (h : Once tr s key) (hknown : known tr t = some a) {payFrom : Address}
    {chainId : Nat} {tx : TxRequest} {r : Except Code Relayed}
    (hx : respond t x s (.relayTx key payFrom chainId tx) = (r, s'))
    (hdata : tx.data.isCreate = true) (hcreates : s'.creates key = s.creates key) :
    Once (⟨.ran t (.relayTx key payFrom chainId tx) r, s, s'⟩ :: tr) s' key := by
  have htaken : (effect t x s (.relayTx key payFrom chainId tx)).2.creates key ≠ s.creates key := by
    simp [effect, State.creates, hdata]
  obtain ⟨-, rfl⟩ | ⟨-, ⟨code, rfl⟩, rfl | rfl⟩ := respond_cases hx
  · exact absurd hcreates htaken
  · exact h.aside hknown hx rfl id (fun _ h => by cases h) fun _ _ h => h
  · exact absurd hcreates htaken

/-- An update of another key. -/
theorem Once.otherKey (h : Once tr s key) (hknown : known tr t = some a) {key' : Key}
    {patch : Patch} {r : Except Code Unit} (hx : respond t x s (.updateSpend key' patch) = (r, s'))
    (hkey : key' ≠ key) : Once (⟨.ran t (.updateSpend key' patch) r, s, s'⟩ :: tr) s' key := by
  refine h.aside hknown hx ?_ ?_ ?_ ?_
  · obtain ⟨record, -, -, rfl⟩ | ⟨-, rfl⟩ := respond_updateSpend hx <;> rfl
  · intro hpast
    obtain ⟨record, -, hrecord, rfl⟩ | ⟨-, rfl⟩ := respond_updateSpend hx
    · exact past_update hrecord (fun heq => absurd heq hkey) hpast
    · exact hpast
  · intro hash hnames
    cases patch <;> cases r <;> cases hnames
    exact hkey rfl
  · intro phase hash hnext
    cases patch <;> cases r <;> first | exact hnext | cases hnext
    all_goals exact absurd rfl hkey

/-- What one command keeps of a key. -/
theorem Once.ran (h : Once tr s key) (hshown : Shown tr s) (hknown : known tr t = some a)
    (hfits : Fits a c) (hx : respond t x s c = (r, s'))
    (hin : InTurn tr ⟨.ran t c r, s, s'⟩) : Once (⟨.ran t c r, s, s'⟩ :: tr) s' key := by
  obtain ⟨hopens, hanswered⟩ := hin t c r rfl
  have hdoes := respond_does hx
  cases c with
  | putSpend record =>
    refine h.aside hknown hx ?_ ?_ (fun _ h => by cases h) fun _ _ h => h
    · cases hdoes <;> rfl
    · intro hpast
      by_cases hkey : record.idempotencyKey = key
      · exact absurd hpast (hopens key (by rw [Cmd.opens, hkey])).not_past
      · obtain ⟨record', hrecord', hstage⟩ := hpast
        refine ⟨record', ?_, hstage⟩
        rw [hdoes.spends (fun _ heq => by cases heq; exact hkey) (fun _ h => by cases h), hrecord']
  | updateSpend key' patch =>
    by_cases hkey : key' = key
    · subst hkey
      cases patch with
      | approved hash =>
        refine h.keep hknown hx (fun _ => by cases r <;> rfl) (by cases r <;> rfl) ?_
        exact fun record _ hpast => absurd hpast (hopens key' rfl).not_past
      | indexed =>
        exact h.keep hknown hx (fun _ => by cases r <;> rfl) (by cases r <;> rfl)
          fun record _ _ => .inr rfl
      | funded hash isUserOp =>
        cases hash with
        | signed raw =>
          obtain ⟨hlive, hheld⟩ := h.clear (hopens key' rfl) (hanswered key' rfl)
          exact h.record hknown hx (.inl ⟨isUserOp, rfl⟩) (fun _ hl => absurd hl (hlive _))
            (fun t' _ _ _ hh => hheld t' _ _ hh) fun n h => by cases h
        | relayed n =>
          have hheld := hfits.resolve_right fun ⟨raw, h⟩ => by cases h
          have hholds : Holding tr t key' .relayed (.relayed n) := ⟨a, hknown, hheld⟩
          refine h.record hknown hx (.inl ⟨isUserOp, rfl⟩) (h.held t _ _ hholds)
            (fun t' _ _ hne hh => hne (h.alone _ _ _ _ _ _ hh hholds)) fun n' heq => ?_
          cases heq
          exact h.sent n (h.relayed t _ hholds).1
      | fundedNative hash =>
        obtain ⟨raw, rfl⟩ := hfits
        obtain ⟨hlive, hheld⟩ := h.clear (hopens key' rfl) (hanswered key' rfl)
        exact h.record hknown hx (.inr rfl) (fun _ hl => absurd hl (hlive _))
          (fun t' _ _ _ hh => hheld t' _ _ hh) fun n h => by cases h
      | unfunded =>
        obtain ⟨hash, hheld, hseen⟩ := hfits
        exact h.reset hshown hknown hx (.inl rfl) hheld hseen
      | unfundedNative =>
        obtain ⟨hash, hheld, hseen⟩ := hfits
        exact h.reset hshown hknown hx (.inr rfl) hheld hseen
      | _ => exact absurd hfits id
    · exact h.otherKey hknown hx hkey
  | relayTx key' payFrom chainId tx =>
    by_cases hmine : key' = key ∧ tx.data.isCreate = true
    · obtain ⟨rfl, hdata⟩ := hmine
      have hkey : (Cmd.relayTx key' payFrom chainId tx).creates = some key' := if_pos hdata
      obtain ⟨hlive, hheld⟩ := h.clear (hopens key' hkey) (hanswered key' hkey)
      obtain hcreates | ⟨payFrom', chainId', tx', heq, -, hcreates, hrelayed⟩ | ⟨raw, heq, -⟩ :=
        hdoes.creates
      · exact h.refused hknown hx hdata hcreates
      · exact h.relay hknown hx hdata hlive hheld hcreates hrelayed
      · cases heq
    · refine h.aside hknown hx ?_ ?_ (fun _ h => by cases h) fun phase hash hnext => ?_
      · refine hdoes.creates.resolve_right ?_
        rintro (⟨payFrom', chainId', tx', heq, hdata, -⟩ | ⟨raw, heq, -⟩) <;> cases heq
        exact hmine ⟨rfl, hdata⟩
      · rintro ⟨record, hrecord, hstage⟩
        exact ⟨record, by rw [hdoes.spends (fun _ h => by cases h) (fun _ h => by cases h), hrecord],
          hstage⟩
      · obtain code | ⟨hash' | hash', isUserOp⟩ := r
        · exact hnext
        · exact hnext
        · by_cases hdata : tx.data.isCreate = true
          · simp only [Hold.next, hdata, if_true] at hnext
            cases hnext
            exact absurd ⟨rfl, hdata⟩ hmine
          · simpa [Hold.next, hdata] using hnext
  | broadcast key' raw =>
    obtain hcreates | ⟨payFrom, chainId, tx, heq, -⟩ | ⟨raw', heq, hdata, hcreates⟩ := hdoes.creates
    · refine h.aside hknown hx hcreates ?_ (fun _ h => by cases h) fun _ _ h => h
      rintro ⟨record, hrecord, hstage⟩
      exact ⟨record, by rw [hdoes.spends (fun _ h => by cases h) (fun _ h => by cases h), hrecord],
        hstage⟩
    · cases heq
    · cases heq
      obtain hheld | ⟨chainId, request, hsigned, hplain⟩ := hfits
      · exact h.broadcast hknown hx hheld hcreates
      · have hsame := (hshown t a hknown _ hsigned).1
        rw [hsame, hplain] at hdata
        cases hdata
  | _ =>
    refine h.aside hknown hx ?_ ?_ (fun _ h => by cases h) fun _ _ h => h
    · refine hdoes.creates.resolve_right ?_
      rintro (⟨payFrom, chainId, tx', heq, -⟩ | ⟨raw, heq, -⟩) <;> cases heq
    · rintro ⟨record, hrecord, hstage⟩
      exact ⟨record, by rw [hdoes.spends (fun _ h => by cases h) (fun _ h => by cases h), hrecord],
        hstage⟩

/-! ## Runs -/

variable {admits : Call → Prop} {pool : Pool Ans Code Response Call State}

theorem once_run (hfunds : ∀ t, admits t → t.op.funds = true)
    (h : PoolRun (mcp admits) ⟨{}, []⟩ tr pool) (hin : AllInTurn tr) (key : Key) :
    Once tr pool.state key := by
  refine mcp_invariant (P := fun _ => Fits) (Q := fun _ _ _ => True)
    (I := fun tr s => AllInTurn tr → Once tr s key) h (fun t ht => fit_op (hfunds t ht) _) ?_ ?_ hin
  · intro _
    refine .free ?_ ?_ (fun n hn => by cases hn) ?_
    · rintro hash ⟨hsent, -⟩
      cases hsent
    · rintro t phase hash ⟨a, ha, -⟩
      cases ha
    · rintro n ⟨e, he, -⟩
      cases he
  · intro tr s e s' hb hshown hmove hin
    have hb := hb (Throughout.tail hin)
    obtain ⟨t, a, c, r, x, hknown, hfits, hx, rfl⟩ | ⟨hframe, hne⟩ := mcp_cases hmove
    · exact hb.ran hshown hknown hfits hx (Throughout.head hin)
    · have hcreates : s'.creates key = s.creates key := by simp only [State.creates, hframe.sends]
      refine hb.quiet ?_ hcreates hframe.relayed.ge ?_ (fun _ => named_silent hne) ?_
      · rintro hash ⟨hsent, hstatus⟩
        rw [hcreates] at hsent
        exact ⟨hsent, fun hs => hstatus (hframe.later.status hs)⟩
      · rintro ⟨record, hrecord, hstage⟩
        exact ⟨record, by rw [hframe.spends, hrecord], hstage⟩
      · rintro t phase hash ⟨a, ha, hheld⟩
        obtain rfl | ha := known_silent hne ha
        · cases hheld
        · exact ⟨a, ha, hheld⟩

/-- When no call writes a record, an approve or a createTask for a key that another call has moved
past 'approved', and none sends a createTask for it after one whose relay answer has not reached the
ledger, a key funds at most one escrow. -/
theorem key_funded_once (admits : Call → Prop) (tr : List Ev)
    (pool : Pool Ans Code Response Call State) (hfunds : ∀ t, admits t → t.op.funds = true)
    (h : PoolRun (mcp admits) ⟨{}, []⟩ tr pool) (hin : AllInTurn tr) : FundedOnce pool.state := by
  intro key hash hash' hsent hsent' hok hok'
  exact (once_run hfunds h hin key).one hash hash' ⟨hsent, by simp [hok]⟩ ⟨hsent', by simp [hok']⟩

/-! ## Fixed runs -/

/-- A step that writes over no createTask, and follows none the relay was handed. -/
def aloneStep (e : Ev) : Bool :=
  match e.label with
  | .ran _ c _ =>
    (c.opens.all fun key =>
      (e.pre.spends key).all fun record =>
        record.stage = .created || record.stage = .approved) &&
    (c.creates.all fun key => (e.pre.creates key).all fun hash => hash.chainId?.isSome)
  | _ => true

theorem inTurn_of_aloneStep {earlier : List Ev} (h : aloneStep e = true) : InTurn earlier e := by
  intro t c r hlabel
  simp only [aloneStep, hlabel, Bool.and_eq_true, Option.all_eq_true, List.all_eq_true,
    Bool.or_eq_true, decide_eq_true_iff] at h
  refine ⟨fun key hkey record hrecord => h.1 key hkey record hrecord, fun key hkey n hn => ?_⟩
  exact absurd (h.2 key hkey _ hn) (by simp [TxHash.chainId?])

/-- A private brief for 7 wei, under the first key. -/
def demoPost : PostArgs where
  instructions := 3
  amount := some ⟨7, 18⟩
  idempotencyKey := .named 0

def demoBuilt : Built where
  unsignedTx :=
    ⟨9, .createTask (.ciphertext 3 0) ZERO_TOKEN 7 TASK_CATEGORY GLOBAL_ZONE 86400, some 7⟩
  chain := none
  chainId := none

def demoRaw (nonce : Nat) : Raw := ⟨5, 1, nonce, 9, .escrow demoBuilt.unsignedTx.call, 7, 0⟩

def fundingStage : Stage (mcp fun t => t.op.funds = true) Turn Env := stage (·.op.funds)

/-- The quote, and its confirm up to the record. -/
def recordMade : List (Cue Call Turn Env) :=
  [.enter (demoCall 0 (.postTask demoPost)), .turn 0 {}, .turn 0 demoNative, .turn 0 {}, .turn 0 {},
    .leave 0,
    .enter (demoCall 1 (.postTask { demoPost with confirm := true, quoteId := some 0 })),
    .turn 0 {}, .turn 0 demoNative, .turn 0 {}, .turn 0 {}, .turn 0 {}, .turn 0 {}, .turn 0 {}]

/-- What a call does from there up to its broadcast. -/
def createTaskSent (place nonce : Nat) : List (Cue Call Turn Env) :=
  [.turn place demoNative, .turn place { built := demoBuilt }, .turn place { number := nonce },
    .turn place {}, .turn place {}]

/-- The createTask reverts, and a retry funds the escrow. -/
def fundedOnRetry : List (Cue Call Turn Env) :=
  recordMade ++ createTaskSent 0 0 ++
    ([.move (.mineSigned (demoRaw 0) false), .turn 0 { number := 1 }, .turn 0 {}, .leave 0,
      .enter (demoCall 2 (.postTask demoPost)), .turn 0 {}] : Cues) ++ createTaskSent 0 1 ++
    ([.move (.mineSigned (demoRaw 1) true), .turn 0 { number := 2 }, .turn 0 {}, .turn 0 {},
      .leave 0] : Cues)

theorem fundedOnRetry_plays : (fundingStage.play fundedOnRetry ⟨{}, []⟩).isSome = true := by
  decide

theorem key_funded_once_fundedOnRetry :
    FundedOnce ((fundingStage.play fundedOnRetry ⟨{}, []⟩).get fundedOnRetry_plays).2.state ∧
      ((fundingStage.play fundedOnRetry ⟨{}, []⟩).get fundedOnRetry_plays).2.state.creates
        (.named 0) = [.signed (demoRaw 1), .signed (demoRaw 0)] :=
  ⟨key_funded_once (fun t => t.op.funds = true) _ _ (fun _ h => h)
    (Stage.play_get fundedOnRetry_plays) (throughout_of_everywhere (f := fun _ => aloneStep) (fun _ _ => inTurn_of_aloneStep)
      (by decide)), by decide⟩

/-- A retry reads the record before the confirm has sent its createTask, and sends one too. -/
def bothFund : List (Cue Call Turn Env) :=
  recordMade ++ ([.enter (demoCall 2 (.postTask demoPost)), .turn 0 {}] : Cues) ++
    createTaskSent 1 0 ++
    createTaskSent 0 1 ++
    ([.move (.mineSigned (demoRaw 0) true), .move (.mineSigned (demoRaw 1) true)] : Cues)

theorem bothFund_plays : (fundingStage.play bothFund ⟨{}, []⟩).isSome = true := by decide

theorem key_funded_once_bothFund :
    ¬ ∀ (admits : Call → Prop) (tr : List Ev) (pool : Pool Ans Code Response Call State),
      (∀ t, admits t → t.op.funds = true) → PoolRun (mcp admits) ⟨{}, []⟩ tr pool →
      FundedOnce pool.state := by
  intro h
  have honce := h _ _ _ (fun _ h => h) (Stage.play_get bothFund_plays) (.named 0)
    (.signed (demoRaw 0)) (.signed (demoRaw 1))
  exact absurd (honce (by decide) (by decide) (by decide) (by decide)) (by decide)

end McpSpends
