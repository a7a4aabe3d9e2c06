import BlindMarket.McpSpends.FeeHolds

/-!
# One key, one fee

A transfer is in the ledger before it leaves, so what is sent for a key is
what its record names, or what the record was put back over: a transfer seen
to have reverted, or whose nonce was counted as used before no node had it.
-/
namespace McpSpends

open Async Prog Runs

/-- What was sent for a spend. -/
def State.sentFor (s : State) (key : Key) : List TxHash :=
  (s.sends.filter fun x => x.spend = key).map (·.hash)

/-- The record of a key names a transaction. -/
def Names (s : State) (key : Key) (hash : TxHash) : Prop :=
  ∃ record, s.spends key = some record ∧ record.txHash = some hash

/-- The call that confirmed the key was told that no fee is due. -/
def Waived (tr : List Ev) (key : Key) : Prop :=
  ∃ t, (∃ e ∈ tr, e.label = .ran t .deployFee (.ok .notRequired)) ∧
    ∃ e ∈ tr, ∃ agentId, e.label = .ran t (.updateSpend key (.deployed agentId)) (.ok ())

/-- A step that finds the record it writes as its call left it: of the same kind and chain and with
the same transaction, and with none where the call puts a new one. -/
def Unmoved (earlier : List Ev) (e : Ev) : Prop :=
  ∀ (t : Call) (c : Cmd) (r : Except Code (Ans c)), e.label = .ran t c r →
    match c with
    | .putSpend record => ∀ found, e.pre.spends record.idempotencyKey = some found →
      found.kind = record.kind ∧ found.txHash = none
    | .updateSpend key .listDone => ∀ found, e.pre.spends key = some found →
      found.kind = .deployBatch
    | .updateSpend key _ => ∀ found, e.pre.spends key = some found →
      ∃ own, (known earlier t).bind (mine key) = some own ∧ found.kind = own.kind ∧
        found.txHash = own.txHash ∧ found.chainId = own.chainId
    | _ => True

def AllUnmoved (tr : List Ev) : Prop := Throughout Unmoved tr

/-- A read of an RPC is of no older block than the one before. -/
def ReadsForward (tr : List Ev) : Prop :=
  ∀ e ∈ tr, ∀ (t : Call) (c : Cmd) (r : Except Code (Ans c)), e.label = .ran t c r →
    ∀ chainId, c.looksAt = some chainId → e.pre.heads chainId ≤ e.post.heads chainId

/-- At most one transfer of each key succeeds, none that its record was put back over does, and a
confirmed record has an agent made for its transfer. -/
structure FeePaidOnce (tr : List Ev) (s : State) : Prop where
  one : ∀ key hash hash', hash ∈ s.sentFor key → hash' ∈ s.sentFor key →
    s.chain.status hash = some true → s.chain.status hash' = some true → hash = hash'
  unpaid : ∀ e ∈ tr, ∀ key hash, Names e.pre key hash → ¬ Names e.post key hash →
    s.chain.status hash ≠ some true
  confirmed : ∀ key record, s.spends key = some record → record.kind = .deploy →
    record.stage = .confirmed → ∃ agentId, record.agentId = some agentId ∧
      (agentId, record.txHash) ∈ s.agents ∧ (record.txHash = none → Waived tr key)

/-! ## The invariant -/

/-- A record says what was signed for it. -/
def Sound (sender : Address) (record : SpendRecord) : Prop :=
  ∀ hash, record.txHash = some hash → record.kind = .deploy ∧ ∃ raw, hash = .signed raw ∧
    raw.sender = sender ∧ (∀ chainId, record.chainId = some chainId → raw.chainId = chainId) ∧
    ∀ nonce, record.nonce = some nonce → raw.nonce = nonce

/-- A transaction is the one its record names, or it is dead. -/
def Held (s : State) (key : Key) (hash : TxHash) : Prop := Names s key hash ∨ Dead s hash

structure Paid (sender : Address) (tr : List Ev) (s : State) : Prop where
  ordered : s.chain.Ordered
  sound : ∀ key record, s.spends key = some record → Sound sender record
  own : ∀ t a key record, known tr t = some a → mine key a = some record → Sound sender record
  counted : ∀ t a chainId count, known tr t = some a →
    ⟨.getTransactionCount chainId sender, .ok count⟩ ∈ a →
    ∃ view ≤ s.heads chainId, count ≤ s.chain.countAt view chainId sender
  passed : ∀ t a raw count, known tr t = some a → raw.sender = sender → raw.nonce < count →
    Passed a raw.chainId sender count (.signed raw) → Dead s (.signed raw)
  recorded : ∀ t a key hash nonce, known tr t = some a →
    ⟨.updateSpend key (.feeSent hash nonce), .ok ()⟩ ∈ a → Held s key hash
  sent : ∀ key hash, hash ∈ s.sentFor key → Held s key hash
  unpaid : ∀ e ∈ tr, ∀ key hash, Names e.pre key hash → ¬ Names e.post key hash → Dead s hash
  confirmed : ∀ key record, s.spends key = some record → record.kind = .deploy →
    record.stage = .confirmed → ∃ agentId, record.agentId = some agentId ∧
      (agentId, record.txHash) ∈ s.agents ∧ (record.txHash = none → Waived tr key)

variable {sender : Address} {tr : List Ev} {e : Ev} {s s' : State} {t : Call} {x : Turn}
  {key : Key} {a : Answers Ans Code} {c : Cmd} {r : Except Code (Ans c)} {record own : SpendRecord}

theorem Paid.paidOnce (h : Paid sender tr s) : FeePaidOnce tr s where
  one key hash hash' hsent hsent' hok hok' := by
    have hnames : ∀ hash, hash ∈ s.sentFor key → s.chain.status hash = some true →
        Names s key hash := fun hash hsent hok =>
      (h.sent key hash hsent).resolve_right fun hdead => hdead.not_ok hok
    obtain ⟨record, hrecord, hhash⟩ := hnames hash hsent hok
    obtain ⟨record', hrecord', hhash'⟩ := hnames hash' hsent' hok'
    rw [hrecord] at hrecord'
    cases hrecord'
    rw [hhash] at hhash'
    exact Option.some.inj hhash'
  unpaid e he key hash hpre hpost := (h.unpaid e he key hash hpre hpost).not_ok
  confirmed := h.confirmed

theorem Waived.cons (h : Waived tr key) : Waived (e :: tr) key := by
  obtain ⟨t, ⟨e₁, h₁, hl₁⟩, e₂, h₂, hl₂⟩ := h
  exact ⟨t, ⟨e₁, List.mem_cons_of_mem _ h₁, hl₁⟩, e₂, List.mem_cons_of_mem _ h₂, hl₂⟩

/-! ### What the answers say -/

/-- What a call has been told of its sender and of the ledger. -/
def Paying (sender : Address) (t : Call) (a : Answers Ans Code) (c : Cmd) : Prop :=
  Pays sender a c ∧ ∀ wallet, t.config.wallet = some wallet → wallet.address = sender

/-- A transfer its call has judged is dead. -/
theorem Paid.judged (h : Paid sender tr s) (hshown : Shown tr s) (hknown : known tr t = some a)
    {hash : TxHash} (hsound : Sound sender record) (hhash : record.txHash = some hash)
    (hjudged : Judged sender a record hash) : Dead s hash := by
  obtain hwait | ⟨chainId, nonce, count, hchain, hnonce, hcount, hpassed⟩ := hjudged
  · exact .inl (hshown t a hknown _ hwait)
  · obtain ⟨-, raw, rfl, hsender, hraw, hrawNonce⟩ := hsound hash hhash
    refine h.passed t a raw count hknown hsender ?_ ?_
    · rw [hrawNonce nonce hnonce]
      exact hcount
    · rw [hraw chainId hchain]
      exact hpassed

/-- An update of a record that is as its call left it leaves it sound. -/
theorem Sound.update (own : SpendRecord) (hshown : Shown tr s) (hknown : known tr t = some a) {patch : Patch}
    {found : SpendRecord} (htold : Paying sender t a (.updateSpend key patch))
    (hfound : Sound sender found)
    (hsame : patch ≠ .listDone → mine key a = some own ∧ found.kind = own.kind ∧
      found.txHash = own.txHash ∧ found.chainId = own.chainId) :
    Sound sender (patch.apply found) := by
  obtain ⟨hpays, hwallet⟩ := htold
  cases patch with
  | feeSent hash nonce =>
    obtain ⟨record, raw, chain, chainId, request, hmine, hkind, hnone, rfl, rfl, hon, hsign⟩ :=
      hpays
    obtain ⟨hown, hfkind, -, hchain⟩ := hsame (fun h => by cases h)
    rw [hmine] at hown
    cases hown
    obtain ⟨-, hraw, -, haddress⟩ := hshown t a hknown _ hsign
    obtain ⟨wallet, hw, hsender⟩ := Option.map_eq_some_iff.mp haddress
    rintro hash heq
    cases heq
    refine ⟨hfkind.trans hkind, raw, rfl, by rw [← hsender, hwallet wallet hw], ?_, ?_⟩
    · intro chainId' hchain'
      have hon := hshown t a hknown _ hon
      rw [show found.chainId = some chainId' from hchain'] at hchain
      rw [← hchain] at hon
      rw [hraw]
      exact hon
    · rintro nonce heq
      cases heq
      rfl
  | feeUnpaid =>
    rintro hash heq
    cases heq
  | deployed agentId => exact hfound
  | listDone => exact hfound
  | onChain chainId =>
    obtain ⟨record, hash, chain, connected, hmine, hhash, hon, hreceipt⟩ := hpays
    obtain ⟨hown, -, hftx, -⟩ := hsame (fun h => by cases h)
    rw [hmine] at hown
    cases hown
    rintro hash' heq
    have heq' : found.txHash = some hash' := heq
    obtain ⟨hkind, raw, rfl, hsender, -, hnonce⟩ := hfound hash' heq'
    rw [hftx, hhash] at heq'
    cases heq'
    refine ⟨hkind, raw, rfl, hsender, ?_, hnonce⟩
    rintro chainId' heq
    cases heq
    obtain ⟨-, hchain⟩ := hshown t a hknown _ hreceipt
    have hon : connected = chainId := hshown t a hknown _ hon
    have hraw : raw.chainId = connected := by simpa [TxHash.chainId?] using hchain
    rw [hraw, hon]
  | _ => exact absurd hpays id

/-! ### One command -/

/-- What a step in its call's turn finds. -/
theorem Unmoved.update {patch : Patch} {r : Except Code Unit}
    (h : Unmoved tr ⟨.ran t (.updateSpend key patch) r, s, s'⟩) (hknown : known tr t = some a)
    (hfound : s.spends key = some record) (hpatch : patch ≠ .listDone) :
    ∃ own, mine key a = some own ∧ record.kind = own.kind ∧ record.txHash = own.txHash ∧
      record.chainId = own.chainId := by
  have hmine : ∀ record', (known tr t).bind (mine key) = some record' →
      mine key a = some record' := fun record' h => by rwa [hknown] at h
  have hturn := h t (.updateSpend key patch) r rfl
  cases patch with
  | listDone => exact absurd rfl hpatch
  | _ =>
    obtain ⟨own, hown, hsame⟩ := hturn record hfound
    exact ⟨own, hmine own hown, hsame⟩

/-- A record gives up the transaction it names only once that is dead. -/
theorem Paid.names (h : Paid sender tr s) (hshown : Shown tr s) (hknown : known tr t = some a)
    (htold : Paying sender t a c) (hx : respond t x s c = (r, s'))
    (hin : Unmoved tr ⟨.ran t c r, s, s'⟩) {hash : TxHash} (hnames : Names s key hash) :
    Names s' key hash ∨ Dead s hash := by
  obtain ⟨found, hfound, hhash⟩ := hnames
  have hdoes := respond_does hx
  have hkept : s'.spends key = s.spends key → Names s' key hash ∨ Dead s hash := fun heq =>
    .inl ⟨found, by rw [heq, hfound], hhash⟩
  cases c with
  | putSpend record =>
    by_cases hkey : record.idempotencyKey = key
    · subst hkey
      rw [(hin t _ r rfl found hfound).2] at hhash
      cases hhash
    · exact hkept (hdoes.spends (fun _ heq => by cases heq; exact hkey) fun _ h => by cases h)
  | updateSpend key' patch =>
    by_cases hkey : key' = key
    · subst hkey
      obtain ⟨found', -, hfound', rfl⟩ | ⟨-, rfl⟩ := respond_updateSpend hx
      · rw [hfound] at hfound'
        cases hfound'
        have hown := fun hpatch => hin.update hknown hfound hpatch
        have hkeep : (patch.apply found).txHash = found.txHash →
            Names (s.setSpend key' (some (patch.apply found))) key' hash ∨ Dead s hash :=
          fun heq => .inl ⟨_, by simp, heq.trans hhash⟩
        cases patch with
        | feeSent hash' nonce =>
          obtain ⟨record, -, -, -, -, hmine, -, hnone, -⟩ := htold.1
          obtain ⟨own, hown, -, htx, -⟩ := hown fun h => by cases h
          rw [hmine] at hown
          cases hown
          rw [htx, hnone] at hhash
          cases hhash
        | feeUnpaid =>
          obtain ⟨record, hash', hmine, hhash', hjudged⟩ := htold.1
          obtain ⟨own, hown, -, htx, -⟩ := hown fun h => by cases h
          rw [hmine] at hown
          cases hown
          rw [hhash, hhash'] at htx
          cases htx
          exact .inr (h.judged hshown hknown (h.own t a key' record hknown hmine) hhash' hjudged)
        | deployed agentId => exact hkeep rfl
        | onChain chainId => exact hkeep rfl
        | listDone => exact hkeep rfl
        | _ => exact absurd htold.1 id
      · exact .inl ⟨found, hfound, hhash⟩
    · exact hkept (hdoes.spends (fun _ h => by cases h) fun _ heq => by cases heq; exact hkey rfl)
  | _ => exact hkept (hdoes.spends (fun _ h => by cases h) fun _ h => by cases h)

theorem Paid.held (h : Paid sender tr s) (hshown : Shown tr s) (hknown : known tr t = some a)
    (htold : Paying sender t a c) (hx : respond t x s c = (r, s'))
    (hin : Unmoved tr ⟨.ran t c r, s, s'⟩) {hash : TxHash} (hheld : Held s key hash) :
    Held s' key hash := by
  have hlater := (respond_does hx).later
  obtain hnames | hdead := hheld
  · exact (h.names hshown hknown htold hx hin hnames).imp id (hlater.dead hash)
  · exact .inr (hlater.dead hash hdead)

/-- The ledger stays sound. -/
theorem Paid.sound_ran (h : Paid sender tr s) (hshown : Shown tr s) (hknown : known tr t = some a)
    (htold : Paying sender t a c) (hx : respond t x s c = (r, s'))
    (hin : Unmoved tr ⟨.ran t c r, s, s'⟩) (hrecord : s'.spends key = some record) :
    Sound sender record := by
  have hdoes := respond_does hx
  cases hdoes with
  | put record' =>
    rw [setSpend_spends] at hrecord
    split at hrecord
    · cases hrecord
      intro hash hhash
      rw [htold.1.1] at hhash
      cases hhash
    · exact h.sound key record hrecord
  | update key' patch found hfound =>
    rw [setSpend_spends] at hrecord
    split at hrecord
    · next heq =>
      subst heq
      cases hrecord
      by_cases hpatch : patch = .listDone
      · exact Sound.update found hshown hknown htold (h.sound _ _ hfound)
          fun hne => absurd hpatch hne
      · obtain ⟨own, hown⟩ := hin.update hknown hfound hpatch
        exact Sound.update _ hshown hknown htold (h.sound _ _ hfound) fun _ => hown
    · exact h.sound key record hrecord
  | _ => exact h.sound key record hrecord

/-- So is what a call knows of it. -/
theorem Paid.own_ran (h : Paid sender tr s) (hshown : Shown tr s) (hknown : known tr t = some a)
    (htold : Paying sender t a c) (hx : respond t x s c = (r, s'))
    (hmine : mineNext key (mine key a) c r = some record) : Sound sender record := by
  have hold : ∀ {record}, mine key a = some record → Sound sender record :=
    fun {record} hmine => h.own t a key record hknown hmine
  cases r with
  | error code => cases c <;> exact hold hmine
  | ok v =>
    cases c with
    | getSpend key' =>
      simp only [mineNext] at hmine
      split at hmine
      · obtain ⟨hv, -⟩ := respond_ok hx
        cases hv
        exact h.sound key' record hmine
      · exact hold hmine
    | putSpend record' =>
      simp only [mineNext] at hmine
      split at hmine
      · cases hmine
        intro hash hhash
        rw [htold.1.1] at hhash
        cases hhash
      · exact hold hmine
    | updateSpend key' patch =>
      simp only [mineNext] at hmine
      split at hmine
      · next heq =>
        subst heq
        obtain ⟨own, hown, rfl⟩ := Option.map_eq_some_iff.mp hmine
        exact Sound.update _ hshown hknown htold (hold hown) fun _ => ⟨hown, rfl, rfl, rfl⟩
      · exact hold hmine
    | _ => exact hold hmine

theorem Later.counted (hlater : Later s s') {chainId count : Nat}
    (hheads : s.heads chainId ≤ s'.heads chainId)
    (h : ∃ view ≤ s.heads chainId, count ≤ s.chain.countAt view chainId sender) :
    ∃ view ≤ s'.heads chainId, count ≤ s'.chain.countAt view chainId sender := by
  obtain ⟨view, hview, hcount⟩ := h
  exact ⟨view, hview.trans hheads, hcount.trans (hlater.countAt view chainId sender)⟩

/-- A count is as of the block its RPC is at from then on. -/
theorem counted_ran {chainId count : Nat}
    (hx : respond t x s (.getTransactionCount chainId sender) = (.ok count, s')) :
    ∃ view ≤ s'.heads chainId, count ≤ s'.chain.countAt view chainId sender := by
  obtain ⟨hv, rfl⟩ := respond_ok hx
  cases hv
  exact ⟨min x.number s.chain.block, by simp [effect, State.readAt], Nat.le_refl _⟩

/-- No receipt once the nonce was counted as used: another transaction used it. -/
theorem Paid.passed_ran (h : Paid sender tr s) (hknown : known tr t = some a) {raw : Raw}
    {count : Nat} (hx : respond t x s (.getTransactionReceipt raw.chainId (.signed raw)) =
      (.ok none, s')) (hheads : s.heads raw.chainId ≤ s'.heads raw.chainId)
    (hcount : ⟨.getTransactionCount raw.chainId sender, .ok count⟩ ∈ a)
    (hsender : raw.sender = sender) (hnonce : raw.nonce < count) : Dead s (.signed raw) := by
  obtain ⟨view, hview, hcounted⟩ := h.counted t a raw.chainId count hknown hcount
  obtain ⟨hv, rfl⟩ := respond_ok hx
  have hnone : s.chain.receiptAt (min x.number s.chain.block) (.signed raw) = none := by
    have hv' : receiptOn x raw.chainId (.signed raw) s = none := by simpa [effect] using hv
    simpa [receiptOn, TxHash.chainId?, receipt] using hv'
  have hat : view ≤ min x.number s.chain.block := by
    simpa [effect, State.readAt] using hview.trans hheads
  have hused : raw.nonce < s.chain.countAt view raw.chainId raw.sender := by
    rw [hsender]
    omega
  refine .inr ⟨?_, raw, rfl, Nat.lt_of_lt_of_le hused (List.length_filter_le _ _)⟩
  by_contra hmined
  obtain ⟨⟨b, ok⟩, hmined⟩ := Option.ne_none_iff_exists'.mp hmined
  have hb := h.ordered.counted hused (h.ordered.used raw b ok hmined)
  simp only [Chain.receiptAt, hmined] at hnone
  rw [if_pos (hb.trans hat)] at hnone
  cases hnone

/-- An answered confirm names an agent made for the record's transfer. -/
theorem Made.mem (hshown : Shown tr s) (hknown : known tr t = some a) {fee : Option TxHash}
    {agentId : AgentId} (h : Made a fee agentId) : (agentId, fee) ∈ s.agents := by
  obtain ⟨key, body, started, hmem⟩ | ⟨id, started, hrefused, hmem⟩ := h
  · exact hshown t a hknown _ hmem
  · have hid : agentId = id := hshown t a hknown _ hmem
    obtain ⟨key, body, hmem⟩ | ⟨key, patch, hmem⟩ := hrefused
    · rw [hid]
      exact hshown t a hknown _ hmem
    · cases (hshown t a hknown _ hmem : Code.deployFeeAlreadyUsed (some id) = .rejected)

theorem Paid.confirmed_ran (h : Paid sender tr s) (hshown : Shown tr s)
    (hknown : known tr t = some a) (htold : Paying sender t a c) (hx : respond t x s c = (r, s'))
    (hin : Unmoved tr ⟨.ran t c r, s, s'⟩) (hrecord : s'.spends key = some record)
    (hkind : record.kind = .deploy) (hstage : record.stage = .confirmed) :
    ∃ agentId, record.agentId = some agentId ∧ (agentId, record.txHash) ∈ s'.agents ∧
      (record.txHash = none → Waived (⟨.ran t c r, s, s'⟩ :: tr) key) := by
  have hdoes := respond_does hx
  have hkept : s.spends key = some record → ∃ agentId, record.agentId = some agentId ∧
      (agentId, record.txHash) ∈ s'.agents ∧
      (record.txHash = none → Waived (⟨.ran t c r, s, s'⟩ :: tr) key) := by
    intro hs
    obtain ⟨agentId, hagent, hmem, hwaived⟩ := h.confirmed key record hs hkind hstage
    exact ⟨agentId, hagent, hdoes.later.agents _ hmem, fun hnone => (hwaived hnone).cons⟩
  cases c with
  | putSpend record' =>
    by_cases hkey : record'.idempotencyKey = key
    · obtain ⟨-, rfl⟩ | ⟨hlocal, -⟩ := respond_cases hx
      · simp only [effect, setSpend_spends, hkey, if_true] at hrecord
        cases hrecord
        rw [htold.1.2] at hstage
        cases hstage
      · cases hlocal
    · refine hkept ?_
      rwa [hdoes.spends (fun _ heq => by cases heq; exact hkey) fun _ h => by cases h] at hrecord
  | updateSpend key' patch =>
    obtain ⟨found, rfl, hfound, rfl⟩ | ⟨-, rfl⟩ := respond_updateSpend hx
    · by_cases hkey : key' = key
      · subst hkey
        simp only [setSpend_spends, if_true] at hrecord
        cases hrecord
        cases patch with
        | deployed agentId =>
          obtain ⟨own, hmine, hmade, hnone⟩ := htold.1
          obtain ⟨own', hmine', -, htx, -⟩ := hin.update hknown hfound fun h => by cases h
          rw [hmine] at hmine'
          cases hmine'
          refine ⟨agentId, rfl, ?_, fun hfee => ?_⟩
          · have hmem := hmade.mem hshown hknown
            rw [← htx] at hmem
            exact hmem
          · obtain ⟨-, hwaived⟩ := hnone (by rw [← htx]; exact hfee)
            obtain ⟨e, he, hlabel⟩ := known_mem hknown hwaived
            exact ⟨t, ⟨e, List.mem_cons_of_mem _ he, hlabel⟩, _, List.mem_cons_self, agentId, rfl⟩
        | onChain chainId =>
          obtain ⟨agentId, hagent, hmem, hwaived⟩ := h.confirmed key' found hfound hkind hstage
          exact ⟨agentId, hagent, hmem, fun hnone => (hwaived hnone).cons⟩
        | listDone =>
          have hbatch := hin t (.updateSpend key' .listDone) (.ok ()) rfl found hfound
          exact absurd (hbatch.symm.trans hkind) (by decide)
        | feeSent hash nonce => cases hstage
        | feeUnpaid => cases hstage
        | _ => exact absurd htold.1 id
      · refine hkept ?_
        rwa [setSpend_spends, if_neg (Ne.symm hkey)] at hrecord
    · exact hkept hrecord
  | _ =>
    refine hkept ?_
    rwa [hdoes.spends (fun _ h => by cases h) fun _ h => by cases h] at hrecord

/-- What is sent for a key was recorded for it. -/
theorem Paid.sent_ran (h : Paid sender tr s) (hshown : Shown tr s) (hknown : known tr t = some a)
    (htold : Paying sender t a c) (hx : respond t x s c = (r, s'))
    (hin : Unmoved tr ⟨.ran t c r, s, s'⟩) {hash : TxHash} (hsent : hash ∈ s'.sentFor key) :
    Held s' key hash := by
  have hkeep : ∀ {key hash}, Held s key hash → Held s' key hash := fun {key hash} hheld =>
    h.held hshown hknown htold hx hin hheld
  obtain heq | ⟨spend, payFrom, chainId, tx, rfl, -⟩ | ⟨spend, raw, rfl, heq⟩ :=
    (respond_does hx).sends
  · simp only [State.sentFor, heq] at hsent
    exact hkeep (h.sent key hash hsent)
  · exact absurd htold.1 id
  · simp only [State.sentFor, heq, List.filter_cons] at hsent
    by_cases hkey : spend = key
    · subst hkey
      simp only [decide_true, if_true, List.map_cons] at hsent
      obtain rfl | hsent := List.mem_cons.mp hsent
      · exact hkeep (h.recorded t a spend _ raw.nonce hknown htold.1)
      · exact hkeep (h.sent spend hash hsent)
    · simp only [hkey, decide_false, Bool.false_eq_true, if_false] at hsent
      exact hkeep (h.sent key hash hsent)

/-- What one command keeps. -/
theorem Paid.ran (h : Paid sender tr s) (hshown : Shown tr s) (hknown : known tr t = some a)
    (htold : Paying sender t a c) (hx : respond t x s c = (r, s'))
    (hin : Unmoved tr ⟨.ran t c r, s, s'⟩)
    (hheads : ∀ chainId, s.heads chainId ≤ s'.heads chainId) :
    Paid sender (⟨.ran t c r, s, s'⟩ :: tr) s' := by
  have hlater := (respond_does hx).later
  constructor
  case ordered => exact hlater.ordered h.ordered
  case sound => exact fun key record hrecord => h.sound_ran hshown hknown htold hx hin hrecord
  case own =>
    intro t' a' key record ha' hmine
    obtain ⟨rfl, rfl⟩ | ⟨-, ha'⟩ := known_answered hknown ha'
    · exact h.own_ran hshown hknown htold hx hmine
    · exact h.own t' a' key record ha' hmine
  case counted =>
    intro t' a' chainId count ha' hmem
    have hkeep : ∀ {t a}, known tr t = some a →
        ⟨.getTransactionCount chainId sender, .ok count⟩ ∈ a →
        ∃ view ≤ s'.heads chainId, count ≤ s'.chain.countAt view chainId sender :=
      fun ha hmem => hlater.counted (hheads chainId) (h.counted _ _ chainId count ha hmem)
    obtain ⟨rfl, rfl⟩ | ⟨-, ha'⟩ := known_answered hknown ha'
    · obtain heq | hmem := List.mem_cons.mp hmem
      · cases heq
        exact counted_ran hx
      · exact hkeep hknown hmem
    · exact hkeep ha' hmem
  case passed =>
    intro t' a' raw count ha' hsender hnonce hpassed
    obtain ⟨rfl, rfl⟩ | ⟨-, ha'⟩ := known_answered hknown ha'
    · obtain ⟨a'', hsuffix, hmem⟩ := hpassed
      obtain heq | hsuffix := List.suffix_cons_iff.mp hsuffix
      · cases heq
        exact hlater.dead _ (h.passed_ran hknown hx (hheads _) hmem hsender hnonce)
      · exact hlater.dead _ (h.passed t' a raw count hknown hsender hnonce ⟨a'', hsuffix, hmem⟩)
    · exact hlater.dead _ (h.passed t' a' raw count ha' hsender hnonce hpassed)
  case recorded =>
    intro t' a' key hash nonce ha' hmem
    have hkeep : ∀ {t a}, known tr t = some a →
        ⟨.updateSpend key (.feeSent hash nonce), .ok ()⟩ ∈ a → Held s' key hash :=
      fun ha hmem => h.held hshown hknown htold hx hin (h.recorded _ _ key hash nonce ha hmem)
    obtain ⟨rfl, rfl⟩ | ⟨-, ha'⟩ := known_answered hknown ha'
    · obtain heq | hmem := List.mem_cons.mp hmem
      · cases heq
        obtain ⟨found, -, -, rfl⟩ | ⟨hr, -⟩ := respond_updateSpend hx
        · exact .inl ⟨(Patch.feeSent hash nonce).apply found, by simp, rfl⟩
        · cases hr
      · exact hkeep hknown hmem
    · exact hkeep ha' hmem
  case sent => exact fun key hash hsent => h.sent_ran hshown hknown htold hx hin hsent
  case unpaid =>
    intro e he key hash hpre hpost
    obtain rfl | he := List.mem_cons.mp he
    · exact hlater.dead _ ((h.names hshown hknown htold hx hin hpre).resolve_left hpost)
    · exact hlater.dead _ (h.unpaid e he key hash hpre hpost)
  case confirmed =>
    exact fun key record hrecord hkind hstage =>
      h.confirmed_ran hshown hknown htold hx hin hrecord hkind hstage

/-- What moves by itself leaves the ledger alone. -/
theorem Paid.silent (h : Paid sender tr s) (hframe : Frame s s')
    (hpre : e.pre = s) (hpost : e.post = s')
    (hne : ∀ (t : Call) (c : Cmd) (r : Except Code (Ans c)), e.label ≠ .ran t c r) :
    Paid sender (e :: tr) s' := by
  have hlater := hframe.later
  have hkeep : ∀ {key hash}, Held s key hash → Held s' key hash := by
    rintro key hash (⟨record, hrecord, hhash⟩ | hdead)
    · exact .inl ⟨record, by rw [hframe.spends, hrecord], hhash⟩
    · exact .inr (hlater.dead hash hdead)
  constructor
  case ordered => exact hlater.ordered h.ordered
  case sound => exact fun key record hrecord => h.sound key record (by rwa [hframe.spends] at hrecord)
  case own =>
    intro t a key record ha hmine
    obtain rfl | ha := known_silent hne ha
    · cases hmine
    · exact h.own t a key record ha hmine
  case counted =>
    intro t a chainId count ha hmem
    obtain rfl | ha := known_silent hne ha
    · cases hmem
    · exact hlater.counted (by rw [hframe.heads]) (h.counted t a chainId count ha hmem)
  case passed =>
    intro t a raw count ha hsender hnonce hpassed
    obtain rfl | ha := known_silent hne ha
    · obtain ⟨a', hsuffix, -⟩ := hpassed
      cases List.suffix_nil.mp hsuffix
    · exact hlater.dead _ (h.passed t a raw count ha hsender hnonce hpassed)
  case recorded =>
    intro t a key hash nonce ha hmem
    obtain rfl | ha := known_silent hne ha
    · cases hmem
    · exact hkeep (h.recorded t a key hash nonce ha hmem)
  case sent =>
    intro key hash hsent
    simp only [State.sentFor, hframe.sends] at hsent
    exact hkeep (h.sent key hash hsent)
  case unpaid =>
    intro e' he key hash hnames hgone
    obtain rfl | he := List.mem_cons.mp he
    · obtain ⟨record, hrecord, hhash⟩ := hnames
      exact absurd ⟨record, by rw [hpost, hframe.spends, ← hpre, hrecord], hhash⟩ hgone
    · exact hlater.dead _ (h.unpaid e' he key hash hnames hgone)
  case confirmed =>
    intro key record hrecord hkind hstage
    rw [hframe.spends] at hrecord
    obtain ⟨agentId, hagent, hmem, hwaived⟩ := h.confirmed key record hrecord hkind hstage
    exact ⟨agentId, hagent, hlater.agents _ hmem, fun hnone => (hwaived hnone).cons⟩

theorem paid_empty : Paid sender [] {} where
  ordered := ordered_empty
  sound _ _ h := by cases h
  own _ _ _ _ h := by cases h
  counted _ _ _ _ h := by cases h
  passed _ _ _ _ h := by cases h
  recorded _ _ _ _ _ h := by cases h
  sent _ _ h := by cases h
  unpaid _ h := by cases h
  confirmed _ _ h := by cases h

/-! ## Runs -/

variable {admits : Call → Prop} {pool : Pool Ans Code Response Call State}

theorem paid_run (hdeploys : ∀ t, admits t → t.op.deploys = true)
    (hwallet : ∀ t, admits t → ∀ wallet, t.config.wallet = some wallet → wallet.address = sender)
    (h : PoolRun (mcp admits) ⟨{}, []⟩ tr pool) (hin : AllUnmoved tr) (hforward : ReadsForward tr) :
    Paid sender tr pool.state := by
  refine mcp_invariant (P := Paying sender) (Q := fun _ _ _ => True)
    (I := fun tr s => AllUnmoved tr → ReadsForward tr → Paid sender tr s) h ?_
    (fun _ _ => paid_empty) ?_ hin hforward
  · intro t ht
    exact (pays_op (hdeploys t ht) (hwallet t ht) []).mono (fun _ _ hpays => ⟨hpays, hwallet t ht⟩)
      fun _ _ h => h
  · intro tr s e s' hb hshown hmove hin hforward
    have hb := hb hin.tail fun e he => hforward e (List.mem_cons_of_mem _ he)
    have hstates := hmove.states
    obtain ⟨t, a, c, r, x, hknown, htold, hx, rfl⟩ | ⟨hframe, hne⟩ := mcp_cases hmove
    · refine hb.ran hshown hknown htold hx hin.head fun chainId => ?_
      by_cases hlooks : c.looksAt = some chainId
      · exact hforward _ List.mem_cons_self t c r rfl chainId hlooks
      · rw [(respond_does hx).heads hlooks]
    · exact hb.silent hframe hstates.1 hstates.2 hne

/-- When every record a call writes is as the call left it, each key pays at most one fee, gives its
transfer up only once that can never succeed, and is confirmed only with an agent made for it. -/
theorem key_pays_one_fee (admits : Call → Prop) (sender : Address) (tr : List Ev)
    (pool : Pool Ans Code Response Call State) (hdeploys : ∀ t, admits t → t.op.deploys = true)
    (hwallet : ∀ t, admits t → ∀ wallet, t.config.wallet = some wallet → wallet.address = sender)
    (h : PoolRun (mcp admits) ⟨{}, []⟩ tr pool) (hforward : ReadsForward tr)
    (hin : AllUnmoved tr) : FeePaidOnce tr pool.state :=
  (paid_run hdeploys hwallet h hin hforward).paidOnce

/-! ## Fixed runs -/

/-- Whether a step finds the record it writes as its call left it. -/
def unmovedStep (earlier : List Ev) (e : Ev) : Bool :=
  match e.label with
  | .ran t c _ =>
    match c with
    | .putSpend record => (e.pre.spends record.idempotencyKey).all fun found =>
      found.kind = record.kind && found.txHash.isNone
    | .updateSpend key .listDone => (e.pre.spends key).all fun found => found.kind = .deployBatch
    | .updateSpend key _ => (e.pre.spends key).all fun found =>
      ((known earlier t).bind (mine key)).any fun own =>
        found.kind = own.kind && found.txHash = own.txHash && found.chainId = own.chainId
    | _ => true
  | _ => true

theorem unmoved_of_unmovedStep {earlier : List Ev} (h : unmovedStep earlier e = true) :
    Unmoved earlier e := by
  intro t c r hlabel
  simp only [unmovedStep, hlabel] at h
  cases c with
  | putSpend record => simpa [Option.all_eq_true] using h
  | updateSpend key patch =>
    cases patch <;> simpa [Option.all_eq_true, Option.any_eq_true, and_assoc] using h
  | _ => trivial

/-- Whether a step reads no older block. -/
def forwardStep (e : Ev) : Bool :=
  match e.label with
  | .ran _ c _ => c.looksAt.all fun chainId => e.pre.heads chainId ≤ e.post.heads chainId
  | _ => true

theorem readsForward_of_forwardStep (h : tr.all forwardStep = true) : ReadsForward tr := by
  intro e he t c r hlabel chainId hlooks
  have hstep := List.all_eq_true.mp h e he
  simpa [forwardStep, hlabel, hlooks] using hstep

/-- An agent deployed under the first key, for a fee of 2 to wallet 6. -/
def demoDeploy : DeployArgs where
  body := ⟨1, 2, COMPUTE, 3, []⟩
  idempotencyKey := .named 0

def demoTerms : TransferTerms := ⟨3, some 5, 8, 6, 2, 6⟩

def demoFee : Turn where
  terms := .transfer demoTerms

def demoTransfer (nonce : Nat) : Raw := ⟨5, 1, nonce, 8, .transfer 6 2, 0, 0⟩

def deploysDemo (t : Call) : Bool := t.op.deploys && decide (t.config = demoConfig)

theorem deploysDemo_deploys (t : Call) (h : deploysDemo t = true) : t.op.deploys = true :=
  (Bool.and_eq_true_iff.mp h).1

theorem deploysDemo_wallet (t : Call) (h : deploysDemo t = true) (wallet : Wallet)
    (hwallet : t.config.wallet = some wallet) : wallet.address = 1 := by
  rw [of_decide_eq_true (Bool.and_eq_true_iff.mp h).2] at hwallet
  cases hwallet
  rfl

def feeQuoted (id : Nat) : List (Cue Call Turn Env) :=
  [.enter (demoCall id (.deployAgent demoDeploy)), .turn 0 {}, .turn 0 demoFee, .turn 0 {},
    .turn 0 {}, .turn 0 {}, .turn 0 {}, .leave 0]

def confirmOf (id quoteId : Nat) : Cue Call Turn Env :=
  .enter (demoCall id (.deployAgent { demoDeploy with confirm := true, quoteId := some quoteId }))

/-- A confirm that has read the ledger, up to the record of its transfer. -/
def feeRecorded (place nonce : Nat) : List (Cue Call Turn Env) :=
  [.turn place demoFee, .turn place {}, .turn place { address := 1 }, .turn place {},
    .turn place {}, .turn place {}, .turn place { number := nonce }, .turn place {}]

def feeNotFound : Turn where
  fate := .failed
  code := .deployFeeNotFound

/-- The transfer never reaches a node and another one takes its nonce; a retry puts the key back
to unpaid, and a new quote pays and deploys. -/
def paidAgain : List (Cue Call Turn Env) :=
  feeQuoted 0 ++ ([confirmOf 1 0, .turn 0 {}] : Cues) ++ feeRecorded 0 0 ++
    ([.turn 0 { fate := .failed }, .leave 0, .move (.otherTx 5 1),
      .enter (demoCall 2 (.deployAgent demoDeploy)), .turn 0 {}, .turn 0 demoFee,
      .turn 0 feeNotFound, .turn 0 {}, .turn 0 feeNotFound, .turn 0 {}, .turn 0 feeNotFound,
      .turn 0 {}, .turn 0 { number := 1 }, .turn 0 { number := 1 },
      .turn 0 { number := 1, flag := false }, .turn 0 {}, .turn 0 { number := 1 }, .turn 0 {},
      .leave 0] : Cues) ++
    feeQuoted 3 ++ ([confirmOf 4 1, .turn 0 {}] : Cues) ++ feeRecorded 0 1 ++
    ([.turn 0 {}, .move (.mineSigned (demoTransfer 1) true), .turn 0 { number := 2 },
      .turn 0 { number := 7 }, .turn 0 {}, .leave 0] : Cues)

theorem paidAgain_plays : ((stage deploysDemo).play paidAgain ⟨{}, []⟩).isSome = true := by decide

theorem key_pays_one_fee_paidAgain :
    FeePaidOnce (((stage deploysDemo).play paidAgain ⟨{}, []⟩).get paidAgain_plays).1
        (((stage deploysDemo).play paidAgain ⟨{}, []⟩).get paidAgain_plays).2.state ∧
      (((stage deploysDemo).play paidAgain ⟨{}, []⟩).get paidAgain_plays).2.state.agents =
        [(7, some (.signed (demoTransfer 1)))] :=
  ⟨key_pays_one_fee (fun t => deploysDemo t = true) 1 _ _ deploysDemo_deploys deploysDemo_wallet
    (Stage.play_get paidAgain_plays) (readsForward_of_forwardStep (by decide))
    (throughout_of_everywhere (fun _ _ => unmoved_of_unmovedStep) (by decide)), by decide⟩

/-- Two confirms of the key read the ledger before either has paid, and both pay. -/
def bothPay : List (Cue Call Turn Env) :=
  feeQuoted 0 ++ feeQuoted 1 ++ ([confirmOf 2 0, confirmOf 3 1, .turn 0 {}, .turn 1 {}] : Cues) ++
    feeRecorded 1 0 ++ ([.turn 1 {}] : Cues) ++ feeRecorded 0 1 ++ ([.turn 0 {}] : Cues) ++
    ([.move (.mineSigned (demoTransfer 0) true), .move (.mineSigned (demoTransfer 1) true)] : Cues)

theorem bothPay_plays : ((stage deploysDemo).play bothPay ⟨{}, []⟩).isSome = true := by decide

theorem key_pays_one_fee_bothPay :
    ¬ ∀ (admits : Call → Prop) (sender : Address) (tr : List Ev)
      (pool : Pool Ans Code Response Call State), (∀ t, admits t → t.op.deploys = true) →
      (∀ t, admits t → ∀ wallet, t.config.wallet = some wallet → wallet.address = sender) →
      PoolRun (mcp admits) ⟨{}, []⟩ tr pool → ReadsForward tr → FeePaidOnce tr pool.state := by
  intro h
  have hpaid := h _ 1 _ _ deploysDemo_deploys deploysDemo_wallet (Stage.play_get bothPay_plays)
    (readsForward_of_forwardStep (by decide))
  have hsame := hpaid.one (.named 0) (.signed (demoTransfer 0)) (.signed (demoTransfer 1))
    (by decide) (by decide) (by decide) (by decide)
  exact absurd hsame (by decide)

end McpSpends
