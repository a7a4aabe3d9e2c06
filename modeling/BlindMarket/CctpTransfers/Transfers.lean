import BlindMarket.CctpTransfers.Invariant

/-!
# A transfer burns once, and its record does not lie

One burn is sent for a key, and a confirmed row has one that landed, in every
run. Stages only go on, and a failed row has no burn that may still land, where
no write is stale, Iris takes nothing back, a broadcast that fails was refused,
and what is confirmed as reverted was the last burn made.
-/
namespace CctpTransfers

open Async Prog Runs

variable {cfg : Config} {t t' : Call} {s s' : State} {c : Cmd} {a a' : Answers Ans Code}
  {row old cur : CctpTransfer} {tr later earlier : List Ev} {e : Ev} {id : Nat} {patch : StagePatch}
  {pool : Pool Ans Code (Option CctpTransfer) Call State}

/-! ## The statement -/

/-- The order of the stages. -/
def Stage.rank : Stage → Nat
  | .created => 0
  | .approved => 1
  | .burnSubmitted => 2
  | .burnConfirmed => 3
  | .attestationPending => 4
  | .attestationReady => 5
  | .mintSubmitted => 6
  | .mintConfirmed => 7
  | .failed => 8

/-- A stage stays, or goes on from one that is not terminal. -/
def Stage.Onward (stage next : Stage) : Prop :=
  stage = next ∨ stage ∉ TERMINAL_STAGES ∧ stage.rank < next.rank

/-- No burn made for the transfer has landed, or still can. -/
def AllGone (cfg : Config) (s : State) (id : Nat) : Prop :=
  ∀ row, s.rows[id]? = some row → ∀ (h : TxHash) (tx : Tx), s.txs[h]? = some tx →
    tx.madeFor = some id → tx.Gone cfg row

/-- A step leaves every row in the table, moves its stage on if at all, and marks it failed only
when its burns are gone. -/
structure Truthful (cfg : Config) (e : Ev) : Prop where
  kept : ∀ (id : Nat) (row : CctpTransfer), e.pre.rows[id]? = some row →
    ∃ row' : CctpTransfer, e.post.rows[id]? = some row' ∧ row.stage.Onward row'.stage ∧
      (row.stage ≠ .failed → row'.stage = .failed → AllGone cfg e.pre id)

/-- A withdrawal with this key broadcasts a burn, whatever comes of it. -/
def BurnsFor (key : String) (e : Ev) : Prop :=
  ∃ t agent body chain wallet messenger call transfer r, t.op = .withdraw agent body ∧
    body.idempotencyKey = key ∧
      e.label = .ran t (.depositForBurn chain wallet messenger call transfer) r

/-! ## The condition -/

/-- The program has read the row so. -/
def ReadBy (earlier : List Ev) (t : Call) (row : CctpTransfer) : Prop :=
  ∃ e ∈ earlier, ∃ c r, e.label = .ran t c r ∧ row ∈ rowsRead c r

/-- Iris has nothing about the burn, or nothing complete. -/
def TakenBack : Option IrisMessage → Prop
  | none => True
  | some msg => msg.forwardTxHash = none ∧ msg.status ≠ .complete

/-- A /confirm under way was told that a transaction for the transfer reverted. -/
def ToldReverted (earlier : List Ev) (id : Nat) : Prop :=
  ∃ t a user body chain h receipt, known earlier t = some a ∧ t.op = .confirm user id body ∧
    (⟨.getTransactionReceipt chain h, .ok (some receipt)⟩ : (c : Cmd) × Except Code (Ans c)) ∈ a ∧
      receipt.status = false

/-- What a step has to keep to. -/
structure Careful (cfg : Config) (earlier : List Ev) (e : Ev) : Prop where
  /-- A write finds the row at the stage its writer read. -/
  fresh : ∀ t id patch r, e.label = .ran t (.updateTransfer id patch) r → ∀ row, ReadBy earlier t row →
    row.id = id → ∀ cur, e.pre.rows[id]? = some cur → cur.stage = row.stage
  /-- Of a burn whose row was attestation_ready, Iris has not answered less. -/
  steady : ∀ t id patch r, e.label = .ran t (.updateTransfer id patch) r → ∀ row, ReadBy earlier t row →
    row.id = id → row.stage = .attestationReady → ∀ h msg, row.burnTxHash = some h →
      (∃ e' ∈ earlier, e'.label = .ran t (.pollIrisAttestation row.sourceDomain h) (.ok msg)) →
      ¬ TakenBack msg
  /-- A burn whose broadcast fails was not taken. -/
  refused : ∀ t chain wallet messenger call transfer e',
    e.label = .ran t (.depositForBurn chain wallet messenger call transfer) (.error e') →
      e.post.txs = e.pre.txs
  /-- A /confirm is told of a revert only when all burns made for its transfer are gone, -/
  reverted : ∀ t user id body chain h receipt, t.op = .confirm user id body →
    e.label = .ran t (.getTransactionReceipt chain h) (.ok (some receipt)) →
      receipt.status = false → AllGone cfg e.pre id
  /-- and no other is made while it runs. -/
  quiet : ∀ tx id, e.label = .env → e.post.txs = e.pre.txs ++ [tx] → tx.madeFor = some id →
    ¬ ToldReverted earlier id
  /-- A tick finds its chains configured. -/
  configured : ∀ t key, t.op = .tick → e.label ≠ .ran t (.getCctpChain key) (.ok none)

/-! ## One burn for a key -/

/-- At most one burn is ever broadcast for a withdrawal's key. -/
theorem burns_once {key : String} (h : PoolRun (backend cfg) ⟨{}, []⟩ tr pool) {mid : List Ev}
    {e' : Ev} (htr : tr = later ++ e' :: (mid ++ e :: earlier)) (hburn : BurnsFor key e) :
    ¬ BurnsFor key e' := by
  rintro ⟨t', agent', body', chain', wallet', messenger', call', transfer', r', hop', hkey', hlabel'⟩
  obtain ⟨t, agent, body, chain, wallet, messenger, call, transfer, r, hop, hkey, hlabel⟩ := hburn
  have hcreated : ∀ {later earlier : List Ev} {e : Ev} {t : Call} {agent : AgentId}
      {body : WithdrawBody} {chain : CctpChainKey} {wallet messenger : Address}
      {call : DecodedDepositForBurn} {transfer : Nat} {r : Except Code TxHash},
      tr = later ++ e :: earlier → t.op = .withdraw agent body →
      e.label = .ran t (.depositForBurn chain wallet messenger call transfer) r →
      ∃ a, known earlier t = some a ∧ Silent a ∧ ∃ e₀ ∈ tr, ∃ opts row, Creates e₀ t opts row ∧
        opts.idempotencyKey = body.idempotencyKey := by
    intro later earlier e t agent body chain wallet messenger call transfer r htr hop hlabel
    rw [htr] at h
    obtain ⟨hm, -⟩ := backend_at h
    generalize e.post = s' at hm
    generalize e.pre = s at hm
    cases hm with
    | ran t₀ a c r₀ ha hasks hx =>
      cases hlabel
      obtain ⟨opts, row, agent', body', hop', hmem, hkey, -⟩ := hasks.row
      rw [hop] at hop'
      cases hop'
      obtain ⟨e₀, he₀, hcreates⟩ := known_mem ha hmem
      exact ⟨a, ha, hasks.first, e₀, by simp [htr, he₀], opts, row, hcreates, hkey⟩
    | _ => cases hlabel
  obtain ⟨a, -, -, e₀, he₀, opts, row, hcreates, hopts⟩ :=
    @hcreated (later ++ e' :: mid) earlier e t agent body _ _ _ _ _ _ (by simp [htr]) hop hlabel
  obtain ⟨a', ha', hsilent, e₀', he₀', opts', row', hcreates', hopts'⟩ := hcreated htr hop' hlabel'
  have heq : t = t' := (backend_inv h).once e₀ he₀ e₀' he₀' t t' opts opts' row row' hcreates hcreates'
    (by rw [hopts, hopts', hkey, hkey'])
  subst heq
  -- The same program has sent one before: it would know.
  rw [htr] at h
  obtain ⟨b, -, hrun, -, -⟩ := h.split
  have hmem := backend_numbered.known_all hrun ha' (by simp) hlabel
  exact Bool.noConfusion (hsilent _ _ hmem)

/-! ## Burns that are gone -/

/-- What is on the chains after a step was there before, or was just sent. -/
theorem tx_before (hdoes : s'.txs = s.txs ∨ ∃ new, s'.txs = s.txs ++ [new]) {h : TxHash} {tx : Tx}
    (htx : s'.txs[h]? = some tx) : (∃ tx', s.txs[h]? = some tx') ∨ s'.txs = s.txs ++ [tx] := by
  obtain heq | ⟨new, heq⟩ := hdoes
  · exact .inl ⟨tx, heq ▸ htx⟩
  · by_cases hlt : h < s.txs.length
    · exact .inl ⟨_, List.getElem?_eq_getElem hlt⟩
    · rw [heq, List.getElem?_append_right (Nat.le_of_not_lt hlt)] at htx
      obtain ⟨-, rfl⟩ := List.getElem?_eq_some_iff.mp htx
      exact .inr (by simpa using heq)

/-- Burns that are gone stay gone, unless another is made. -/
theorem AllGone.mono (h : AllGone cfg s id) (hs : Later s s') {row : CctpTransfer}
    (hrow : s.rows[id]? = some row)
    (hnew : ∀ (h : TxHash) (tx : Tx), s'.txs[h]? = some tx → tx.madeFor = some id →
      ∃ tx', s.txs[h]? = some tx') : AllGone cfg s' id := by
  intro cur hcur hash tx htx hfor
  obtain ⟨row', hrow', hsince⟩ := hs.rows id row hrow
  rw [hcur] at hrow'
  cases hrow'
  obtain ⟨tx', htx'⟩ := hnew hash tx htx hfor
  obtain ⟨tx'', htx'', hlater⟩ := hs.grows.txs hash tx' htx'
  rw [htx] at htx''
  cases htx''
  have hfor' : tx'.madeFor = some id := by
    rw [hlater.same]
    exact hfor
  obtain ⟨hfate, hlanded⟩ := hlater.gone (h row hrow hash tx' htx' hfor')
  exact ⟨hfate, fun h => hlanded (h.congr hsince.same.symm)⟩

theorem Does.sends (h : Does s c s') : s'.txs = s.txs ∨ ∃ new, s'.txs = s.txs ++ [new] := by
  cases h with
  | still hrows htxs => exact .inl htxs
  | create opts hnew hrows htxs => exact .inl htxs
  | update id patch hrows htxs => exact .inl htxs
  | approve chain wallet token spender amount hrows htxs => exact .inr ⟨_, htxs⟩
  | burn chain wallet messenger call transfer hrows htxs => exact .inr ⟨_, htxs⟩

/-- The row a /confirm under way is about. -/
theorem Inv.toldRow (h : Inv cfg tr s) (htold : ToldReverted tr id) :
    ∃ row, s.rows[id]? = some row ∧ row.direction = .inbound := by
  obtain ⟨t, a, user, body, chain, hash, receipt, ha, hop, hreceipt, -⟩ := htold
  obtain ⟨row, hmem, hin⟩ := h.asked t a ha _ _ _ hreceipt user id body hop
  obtain ⟨hread, hid⟩ : Shows cfg s (.getById id) (.ok (some row)) := h.known t a ha _ _ hmem
  obtain ⟨cur, hcur, hsince⟩ := hread.now
  exact ⟨cur, hid ▸ hcur, hsince.direction.trans hin⟩

/-- Who is told of a revert was told before, or is told now. -/
theorem toldReverted_cons {r : Except Code (Ans c)} (ha : known tr t = some a)
    (h : ToldReverted (⟨.ran t c r, s, s'⟩ :: tr) id) : ToldReverted tr id ∨
      ∃ user body chain h receipt, t.op = .confirm user id body ∧
        (⟨c, r⟩ : (c : Cmd) × Except Code (Ans c)) =
          ⟨.getTransactionReceipt chain h, .ok (some receipt)⟩ ∧ receipt.status = false := by
  obtain ⟨t', a', user, body, chain, hash, receipt, ha', hop, hreceipt, hstatus⟩ := h
  obtain ⟨rfl, rfl⟩ | ⟨-, hold⟩ := known_answered ha ha'
  · obtain heq | hreceipt := List.mem_cons.mp hreceipt
    · exact .inr ⟨user, body, chain, hash, receipt, hop, heq.symm, hstatus⟩
    · exact .inl ⟨t', a, user, body, chain, hash, receipt, ha, hop, hreceipt, hstatus⟩
  · exact .inl ⟨t', a', user, body, chain, hash, receipt, hold, hop, hreceipt, hstatus⟩

theorem toldReverted_silent (hne : ∀ (t : Call) (c : Cmd) (r : Except Code (Ans c)),
    e.label ≠ .ran t c r) (h : ToldReverted (e :: tr) id) : ToldReverted tr id := by
  obtain ⟨t, a, user, body, chain, hash, receipt, ha, hop, hreceipt, hstatus⟩ := h
  obtain rfl | ha := known_silent hne ha
  · cases hreceipt
  · exact ⟨t, a, user, body, chain, hash, receipt, ha, hop, hreceipt, hstatus⟩

/-- Where a /confirm was told of a revert, the burns of its transfer are gone. -/
def RevertsTrue (cfg : Config) (tr : List Ev) (s : State) : Prop :=
  ∀ id, ToldReverted tr id → AllGone cfg s id

theorem Moves.sends (h : Moves cfg s s') : s'.txs.length = s.txs.length ∨
    ∃ new : Tx, s'.txs = s.txs ++ [new] := by
  cases h with
  | send tx hnew hfor => exact .inr ⟨tx, rfl⟩
  | mine h tx receipt htx hnew hof => exact .inl (List.length_modify _ _ _)
  | replace h tx htx hnew => exact .inl (List.length_modify _ _ _)
  | disableCctpLeg process chain => exact .inl rfl

theorem RevertsTrue.memory (h : RevertsTrue cfg tr s) (hinv : Inv cfg tr s)
    (hne : ∀ (t : Call) (c : Cmd) (r : Except Code (Ans c)), e.label ≠ .ran t c r)
    (hrows : s'.rows = s.rows) (htxs : s'.txs = s.txs) : RevertsTrue cfg (e :: tr) s' := by
  intro id htold
  have htold := toldReverted_silent hne htold
  obtain ⟨row, hrow, -⟩ := hinv.toldRow htold
  exact (h id htold).mono (.of_rows hrows (grows_of_eq hrows htxs)) hrow fun hash tx htx _ =>
    ⟨tx, htxs ▸ htx⟩

theorem RevertsTrue.move (h : RevertsTrue cfg tr s) (hinv : Inv cfg tr s)
    (hm : Move (backend cfg) Asks (fun _ _ _ => True) tr s e s') (hcareful : Careful cfg tr e) :
    RevertsTrue cfg (e :: tr) s' := by
  cases hm with
  | ran t a c r ha hasks hx =>
    obtain ⟨x, hx⟩ := hx
    have hdoes := respond_does hx
    obtain ⟨-, hlater⟩ := hinv.sound.ran hasks (hinv.known t a ha) (hinv.makes t a ha) hdoes
    intro id htold
    obtain htold | ⟨user, body, chain, hash, receipt, hop, heq, hstatus⟩ := toldReverted_cons ha htold
    · obtain ⟨row, hrow, hin⟩ := hinv.toldRow htold
      refine (h id htold).mono hlater hrow fun hash tx htx hfor => ?_
      obtain ⟨tx', htx', -⟩ | ⟨-, -, chain, wallet, messenger, call, rfl⟩ :=
        hdoes.made ⟨tx, htx, hfor⟩
      · exact ⟨tx', htx'⟩
      · -- A withdrawal's burn is not for a deposit.
        obtain ⟨opts, own, agent, body, -, hmem, -, hout, rfl, -⟩ := hasks.row
        obtain ⟨hread, hdir⟩ := (hinv.known t a ha).owns ⟨opts, hmem, hout⟩
        have hcur := (hread.current hrow).direction
        rw [hin, hdir] at hcur
        cases hcur
    · cases heq
      have hgone := hcareful.reverted t user id body chain hash receipt hop rfl hstatus
      intro row hrow
      have hstill : s'.rows = s.rows ∧ s'.txs = s.txs := by
        cases hdoes
        exact ⟨‹_›, ‹_›⟩
      rw [hstill.1] at hrow
      rw [hstill.2]
      exact hgone row hrow
  | started t p tags hfresh hx =>
    obtain ⟨-, -, rfl⟩ := hx
    exact h.memory hinv (by simp) rfl rfl
  | finished t a r ha _ => exact h.memory hinv (by simp) rfl rfl
  | env hx =>
    intro id htold
    have htold := toldReverted_silent (by simp) htold
    obtain ⟨row, hrow, -⟩ := hinv.toldRow htold
    refine (h id htold).mono (.of_rows hx.rows hx.grows) hrow fun hash tx htx hfor => ?_
    obtain hlength | ⟨new, hnew⟩ := hx.sends
    · have hlt := (List.getElem?_eq_some_iff.mp htx).1
      rw [hlength] at hlt
      exact ⟨_, List.getElem?_eq_getElem hlt⟩
    · obtain hold | happend := tx_before (.inr ⟨new, hnew⟩) htx
      · exact hold
      · exact absurd htold (hcareful.quiet tx id rfl happend hfor)
  | died t a ha hx =>
    obtain rfl := hx
    exact h.memory hinv (by simp) crash_keeps.1 crash_keeps.2

/-! ## Writes -/

theorem careful_mem (h : Throughout (Careful cfg) tr) (he : e ∈ tr) :
    ∃ earlier, Careful cfg earlier e := by
  obtain ⟨later, earlier, rfl⟩ := List.append_of_mem he
  exact ⟨earlier, h later e earlier rfl⟩

/-- A withdrawal without a hash has no burn. -/
theorem Makes.allGone (h : Makes tr s t a) (hcareful : Throughout (Careful cfg) tr)
    (hown : Owns a row)
    (hburn : ∀ chain wallet messenger call transfer h,
      (⟨.depositForBurn chain wallet messenger call transfer, .ok h⟩ :
        (c : Cmd) × Except Code (Ans c)) ∉ a) : AllGone cfg s row.id := by
  intro cur hcur hash tx htx hfor
  obtain ⟨_, _, _, _, hmem⟩ | ⟨_, _, _, _, _, -, e, he, hlabel, hne⟩ :=
    h.made row hown hash ⟨tx, htx, hfor⟩
  · exact absurd hmem (hburn _ _ _ _ _ _)
  · obtain ⟨earlier, hat⟩ := careful_mem hcareful he
    exact absurd (hat.refused _ _ _ _ _ _ _ hlabel) hne

/-- A withdrawal whose burn reverted has no other. -/
theorem reverted_allGone (hsound : Sound cfg s) (hread : Read cfg s old)
    (hsent : old.stage = .burnSubmitted) {h : TxHash} (hhash : old.burnTxHash = some h)
    {chain : CctpChainKey} {receipt : Receipt}
    (hreceipt : Shows cfg s (.getTransactionReceipt chain h) (.ok (some receipt)))
    (hstatus : receipt.status = false) : AllGone cfg s old.id := by
  intro cur hcur h' tx htx hfor
  obtain ⟨hout, hsome⟩ := hread.good.sent hsent
  have hsince := hread.current hcur
  have hcurHash : cur.burnTxHash = some h := (hsince.sent hout hsome).trans hhash
  obtain rfl := hsound.only cur (List.mem_of_getElem? hcur) (hsince.direction.trans hout) h hcurHash h'
    ⟨tx, htx, by rw [hfor, hsince.id]⟩
  obtain ⟨tx', htx', -, hfate⟩ := hreceipt
  rw [htx] at htx'
  cases htx'
  have hof := hsound.mined tx (List.mem_of_getElem? htx) receipt hfate
  refine ⟨by simp [hfate], fun hlanded => ?_⟩
  obtain ⟨-, receipt', hfate', hstatus', -⟩ := hlanded
  rw [hfate] at hfate'
  cases hfate'
  rw [hstatus] at hstatus'
  cases hstatus'

theorem nextStage_onward {stage next : Stage} {msg : Option IrisMessage} (hat : stage.Attesting)
    (h : nextStage stage msg = some next) (hsteady : stage = .attestationReady → ¬ TakenBack msg) :
    stage.Onward next ∧ next ≠ .failed := by
  unfold nextStage at h
  split at h
  · split at h
    · cases h
      obtain rfl | rfl | rfl := hat
      · exact ⟨.inr (by decide), by simp⟩
      · exact ⟨.inl rfl, by simp⟩
      · exact absurd trivial (hsteady rfl)
    · cases h
  · next msg =>
    split at h
    · cases h
      refine ⟨.inr ?_, by simp⟩
      obtain rfl | rfl | rfl := hat <;> decide
    · next hforward =>
      split at h
      · split at h
        · cases h
          refine ⟨?_, by simp⟩
          obtain rfl | rfl | rfl := hat
          · exact .inr (by decide)
          · exact .inr (by decide)
          · exact .inl rfl
        · cases h
      · next hpending =>
        split at h
        · cases h
          obtain rfl | rfl | rfl := hat
          · exact ⟨.inr (by decide), by simp⟩
          · exact ⟨.inl rfl, by simp⟩
          · exact absurd ⟨by simpa using hforward, hpending⟩ (hsteady rfl)
        · cases h

/-- A write moves its row on, and marks it failed only when its burns are gone. -/
theorem write_truthful (hinv : Inv cfg tr s) (hreverts : RevertsTrue cfg tr s)
    (hearlier : Throughout (Careful cfg) tr) {r : Except Code (Ans (.updateTransfer id patch))}
    (hcareful : Careful cfg tr ⟨.ran t (.updateTransfer id patch) r, s, s'⟩)
    (ha : known tr t = some a) (hasks : MayUpdate t a id patch) (hcur : s.rows[id]? = some cur) :
    cur.stage.Onward patch.stage ∧ (patch.stage = .failed → AllGone cfg s id) := by
  have hsound := hinv.sound
  have hknown := hinv.known t a ha
  have hstage : ∀ {row c r}, (⟨c, r⟩ : (c : Cmd) × Except Code (Ans c)) ∈ a → row ∈ rowsRead c r →
      id = row.id → cur.stage = row.stage := by
    intro row c r hmem hrow hid
    obtain ⟨e, he, hlabel⟩ := known_mem ha hmem
    exact hcareful.fresh t id patch _ rfl row ⟨e, he, c, r, hlabel, hrow⟩ hid.symm cur hcur
  cases hasks with
  | sent opts row chain wallet messenger call h hid hrow hburn hcall hout hpatch hhash =>
    obtain ⟨-, -, hnew⟩ : Shows cfg s (.createTransfer opts) (.ok row) := hknown _ _ hrow
    rw [hstage hrow List.mem_cons_self hid, hnew, hpatch]
    exact ⟨.inr (by decide), by simp⟩
  | unsent opts row hid hrow hburn hout hpatch hhash =>
    obtain ⟨-, -, hnew⟩ : Shows cfg s (.createTransfer opts) (.ok row) := hknown _ _ hrow
    rw [hstage hrow List.mem_cons_self hid, hnew, hpatch, hid]
    exact ⟨.inr (by decide), fun _ =>
      (hinv.makes t a ha).allGone hearlier ⟨opts, hrow, hout⟩ hburn⟩
  | confirmed row source h receipt hid hread hverified hstatus hpatch hhash =>
    obtain ⟨⟨user, id', body, hop, hmem⟩, hin, hcreated, hsource, hreceipt⟩ := hread
    rw [hstage hmem List.mem_cons_self hid, hcreated, hpatch]
    exact ⟨.inr (by decide), by simp⟩
  | reverted row source h receipt hid hread hstatus hpatch hhash =>
    obtain ⟨⟨user, id', body, hop, hmem⟩, hin, hcreated, hsource, hreceipt⟩ := hread
    rw [hstage hmem List.mem_cons_self hid, hcreated, hpatch]
    refine ⟨.inr (by decide), fun _ => hreverts id ?_⟩
    obtain ⟨-, rfl⟩ : Shows cfg s (.getById id') (.ok (some row)) := hknown _ _ hmem
    subst hid
    exact ⟨t, a, user, body, _, h, receipt, ha, hop, hreceipt, hstatus⟩
  | polled rows row hop hid hrows hmem hpolled hhash =>
    have hread : ∀ row ∈ rows, Read cfg s row := hknown _ _ hrows
    have hread := hread row hmem
    rw [hstage hrows hmem hid]
    cases hpolled with
    | unconfigured hchain hpatch =>
      obtain ⟨e, he, hlabel⟩ := known_mem ha hchain
      obtain ⟨earlier, hat⟩ := careful_mem hearlier he
      exact absurd hlabel (hat.configured t _ hop)
    | hashless hsent hnone hpatch =>
      have hsome := (hread.good.sent hsent).2
      rw [hnone] at hsome
      cases hsome
    | mined source h receipt hsent hold hsource hreceipt hpatch =>
      rw [hsent, hpatch]
      cases hstatus : receipt.status with
      | true => exact ⟨.inr (by decide), by simp⟩
      | false =>
        refine ⟨.inr (by decide), fun _ => ?_⟩
        rw [hid]
        exact reverted_allGone hsound hread hsent hold (hknown _ _ hreceipt) hstatus
    | answered h msg hattesting hold hmsg hpatch =>
      have hsteady : row.stage = .attestationReady → ¬ TakenBack msg := by
        intro hready
        obtain ⟨e, he, hlabel⟩ := known_mem ha hrows
        obtain ⟨e', he', hlabel'⟩ := known_mem ha hmsg
        exact hcareful.steady t id patch _ rfl row ⟨e, he, _, _, hlabel, hmem⟩ hid.symm hready h msg
          hold ⟨e', he', hlabel'⟩
      obtain ⟨honward, hne⟩ := nextStage_onward hattesting hpatch hsteady
      exact ⟨honward, fun hfailed => absurd hfailed hne⟩
    | minting hminting => exact absurd hminting hread.good.written.2

/-- A step without a write leaves every stage. -/
theorem truthful_still (h : ∀ (id : Nat) (row : CctpTransfer), e.pre.rows[id]? = some row →
    e.post.rows[id]? = some row) : Truthful cfg e :=
  ⟨fun id row hrow => ⟨row, h id row hrow, .inl rfl, fun hne heq => absurd heq hne⟩⟩

theorem move_truthful (hinv : Inv cfg tr s) (hreverts : RevertsTrue cfg tr s)
    (hearlier : Throughout (Careful cfg) tr) (hcareful : Careful cfg tr e)
    (hm : Move (backend cfg) Asks (fun _ _ _ => True) tr s e s') : Truthful cfg e := by
  cases hm with
  | ran t a c r ha hasks hx =>
    obtain ⟨x, hx⟩ := hx
    have hdoes := respond_does hx
    cases hdoes with
    | still hrows htxs => exact truthful_still fun id row hrow => by rw [← hrow, ← hrows]
    | create opts hnew hrows htxs =>
      refine truthful_still fun id row hrow => ?_
      simp only [hrows]
      rw [List.getElem?_append_left (List.getElem?_eq_some_iff.mp hrow).1, hrow]
    | approve chain wallet token spender amount hrows htxs =>
      exact truthful_still fun id row hrow => by rw [← hrow, ← hrows]
    | burn chain wallet messenger call transfer hrows htxs =>
      exact truthful_still fun id row hrow => by rw [← hrow, ← hrows]
    | update id patch hrows htxs =>
      refine ⟨fun id' row hrow => ?_⟩
      simp only [hrows, List.getElem?_modify]
      by_cases heq : id = id'
      · subst heq
        obtain ⟨honward, hgone⟩ := write_truthful hinv hreverts hearlier hcareful ha hasks hrow
        refine ⟨patch.apply row, ?_, honward, fun _ => hgone⟩
        rw [hrow]
        simp
      · refine ⟨row, ?_, .inl rfl, fun hne h => absurd h hne⟩
        rw [hrow]
        simp [heq]
  | started t p tags hfresh hx =>
    obtain ⟨-, -, rfl⟩ := hx
    exact truthful_still fun _ _ h => h
  | finished t a r ha _ => exact truthful_still fun _ _ h => h
  | env hx => exact truthful_still fun id row h => by rw [← h, ← hx.rows]
  | died t a ha hx =>
    obtain rfl := hx
    exact truthful_still fun id row hrow => (congrArg (·[id]?) crash_keeps.1).trans hrow

theorem reverts_true (h : PoolRun (backend cfg) ⟨{}, []⟩ tr pool)
    (hcareful : Throughout (Careful cfg) tr) : RevertsTrue cfg tr pool.state := by
  refine Run.invariant (I := fun tr (pool : Pool Ans Code (Option CctpTransfer) Call State) =>
    Throughout (Careful cfg) tr → RevertsTrue cfg tr pool.state) h ?_ ?_ hcareful
  · rintro - id ⟨t, a, user, body, chain, hash, receipt, ha, -⟩
    cases ha
  · intro tr b e c hpre hb hs hcareful
    have hm := backend_numbered.move (P := Asks) (Q := fun _ _ _ => True) hpre hs
      fun _ _ _ _ _ hx => hx.2.1 ▸ told_prog
    exact (hb hcareful.tail).move (backend_inv hpre) hm hcareful.head

/-- In a run whose steps are careful, no key burns twice, every step is truthful, and every row from
burn_confirmed on has the hash of a burn that landed. -/
theorem transfers_true (h : PoolRun (backend cfg) ⟨{}, []⟩ tr pool)
    (hcareful : Throughout (Careful cfg) tr) :
    (∀ key later mid earlier e e', tr = later ++ e' :: (mid ++ e :: earlier) → BurnsFor key e →
      ¬ BurnsFor key e') ∧
    (∀ e ∈ tr, Truthful cfg e) ∧
    ∀ row ∈ pool.state.rows, row.stage.Confirmed → ∃ h tx, row.burnTxHash = some h ∧
      pool.state.txs[h]? = some tx ∧ tx.Landed cfg row := by
  refine ⟨fun key later mid earlier e e' htr hburn => burns_once h htr hburn, fun e he => ?_,
    fun row hrow hconfirmed => ((backend_inv h).sound.good row hrow).confirmed hconfirmed⟩
  obtain ⟨later, earlier, b, b', rfl, hrun, hstep, -⟩ := Run.split_mem h he
  have hm := backend_numbered.move (P := Asks) (Q := fun _ _ _ => True) hrun hstep
    fun _ _ _ _ _ hx => hx.2.1 ▸ told_prog
  have hearlier : Throughout (Careful cfg) earlier := by
    intro later' e' earlier' heq
    exact hcareful (later ++ e :: later') e' earlier' (by simp [heq])
  exact move_truthful (backend_inv hrun) (reverts_true hrun hearlier) hearlier
    (hcareful later e earlier rfl) hm

/-! ## A lost reply -/

abbrev Cues := List (Cue Call Turn Env)

/-- 2 USDC of agent 5 go from Arc to Ethereum, up to the broadcast of their burn. -/
def upToBurn : List (Cue Call Turn Env) :=
  [.enter ⟨0, 0, .withdraw 5 ⟨.ethereumSepolia, some 2000000, none, "k"⟩⟩, .turn 0 {},
    .turn 0 { agent := some ⟨5, 9, false, some 8⟩ }, .turn 0 {}, .turn 0 {}, .turn 0 {}, .turn 0 {},
    .turn 0 { number := 3 * 10 ^ 18 }, .turn 0 { number := 3000000 }, .turn 0 { number := 1000 },
    .turn 0 {}, .turn 0 {}, .move (.mine 0 true), .turn 0 {}]

/-- The broadcast fails after the chain has taken the burn, and the row is marked failed. -/
def lostReply : List (Cue Call Turn Env) := upToBurn ++ [.turn 0 { reply := .unanswered }, .turn 0 {}]

/-- The burn is saved and mined, and a tick confirms it. -/
def burnConfirmed : List (Cue Call Turn Env) :=
  upToBurn ++
    ([.turn 0 {}, .turn 0 {}, .leave 0, .move (.mine 1 true), .enter ⟨1, 0, .tick⟩] : Cues) ++
    (List.replicate 6 (.turn 0 {}) : Cues)

theorem lostReply_plays : ((stage demoConfig).play lostReply ⟨{}, []⟩).isSome = true := by decide

theorem burnConfirmed_plays : ((stage demoConfig).play burnConfirmed ⟨{}, []⟩).isSome = true := by
  decide

/-- Row 0 is marked failed while its burn may still land. -/
def failsLive (e : Ev) : Bool :=
  (e.pre.rows[0]?.any fun row => row.stage = .created) &&
    (e.post.rows[0]?.any fun row => row.stage = .failed) &&
    e.pre.txs[1]?.any fun tx => tx.madeFor = some 0 ∧ tx.fate = .pending

theorem failsLive_untrue (h : failsLive e = true) : ¬ Truthful demoConfig e := by
  simp only [failsLive, Bool.and_eq_true, Option.any_eq_true, decide_eq_true_eq] at h
  obtain ⟨⟨⟨row, hrow, hcreated⟩, row', hrow', hfailed⟩, tx, htx, hfor, hpending⟩ := h
  intro htrue
  obtain ⟨row'', hrow'', -, hgone⟩ := htrue.kept 0 row hrow
  rw [hrow'] at hrow''
  cases hrow''
  exact (hgone (by simp [hcreated]) hfailed row hrow 1 tx htx hfor).1 hpending

theorem lostReply_fails : (((stage demoConfig).play lostReply ⟨{}, []⟩).get
    lostReply_plays).1.any failsLive = true := by decide

/-- A withdrawal whose broadcast gets no answer is marked failed while its burn is under way. -/
theorem transfers_true_fails : ∃ tr pool, PoolRun (backend demoConfig) ⟨{}, []⟩ tr pool ∧
    ∃ e ∈ tr, ¬ Truthful demoConfig e := by
  obtain ⟨e, he, hfails⟩ := List.any_eq_true.mp lostReply_fails
  exact ⟨_, _, Stage.play_get lostReply_plays, e, he, failsLive_untrue hfails⟩

/-- A test of the condition, for runs without a deposit. -/
def careful (earlier : List Ev) (e : Ev) : Bool :=
  match e.label with
  | .ran t (.updateTransfer id _) _ =>
    earlier.all fun e' =>
      match e'.label with
      | .ran t' c r => t' ≠ t || (rowsRead c r).all fun row => row.id ≠ id ||
        row.stage ≠ .attestationReady && e.pre.rows[id]?.all fun cur => cur.stage = row.stage
      | _ => true
  | .ran _ (.depositForBurn _ _ _ _ _) (.error _) => false
  | .ran t (.getTransactionReceipt _ _) _ => t.op = .tick
  | .ran _ (.getCctpChain _) (.ok none) => false
  | .env => e.post.txs.length = e.pre.txs.length
  | _ => true

/-- What the test says of a row its writer read. -/
theorem careful_read {t : Call} {r : Except Code (Ans (.updateTransfer id patch))}
    (h : careful earlier e = true) (hlabel : e.label = .ran t (.updateTransfer id patch) r)
    (hread : ReadBy earlier t row) (hid : row.id = id) : row.stage ≠ .attestationReady ∧
      ∀ cur, e.pre.rows[id]? = some cur → cur.stage = row.stage := by
  obtain ⟨e', he', c, r', hlabel', hrow⟩ := hread
  simp only [careful, hlabel] at h
  have htest := List.all_eq_true.mp h e' he'
  simp only [hlabel', ne_eq, not_true, decide_false, Bool.false_or, List.all_eq_true] at htest
  have hat := htest row hrow
  simp only [hid, not_true, decide_false, Bool.false_or, Bool.and_eq_true, decide_eq_true_eq] at hat
  exact ⟨hat.1, fun cur hcur => by simpa [hcur] using hat.2⟩

theorem careful_careful (h : careful earlier e = true) : Careful demoConfig earlier e where
  fresh t id patch r hlabel row hread hid := (careful_read h hlabel hread hid).2
  steady t id patch r hlabel row hread hid hready :=
    absurd hready (careful_read h hlabel hread hid).1
  refused t chain wallet messenger call transfer e' hlabel := by simp [careful, hlabel] at h
  reverted t user id body chain hash receipt hop hlabel := by simp [careful, hlabel, hop] at h
  quiet tx id hlabel happend := by simp [careful, hlabel, happend] at h
  configured t key _ hlabel := by simp [careful, hlabel] at h

theorem burnConfirmed_careful : everywhere careful (((stage demoConfig).play burnConfirmed ⟨{}, []⟩).get
    burnConfirmed_plays).1 = true := by decide

theorem burnConfirmed_row : ((((stage demoConfig).play burnConfirmed ⟨{}, []⟩).get
    burnConfirmed_plays).2.state.rows[0]?.map (·.stage)) = some .burnConfirmed := by decide

/-- The row that the tick confirmed has a burn that landed. -/
theorem transfers_true_burnConfirmed :
    ∃ row ∈ (((stage demoConfig).play burnConfirmed ⟨{}, []⟩).get burnConfirmed_plays).2.state.rows,
      ∃ h tx, row.burnTxHash = some h ∧ (((stage demoConfig).play burnConfirmed ⟨{}, []⟩).get
        burnConfirmed_plays).2.state.txs[h]? = some tx ∧ tx.Landed demoConfig row := by
  obtain ⟨row, hrow, hstage⟩ := Option.map_eq_some_iff.mp burnConfirmed_row
  have hmem := List.mem_of_getElem? hrow
  exact ⟨row, hmem, (transfers_true (Stage.play_get burnConfirmed_plays)
    (throughout_of_everywhere (fun _ _ => careful_careful) burnConfirmed_careful)).2.2 row hmem
    (by rw [hstage]; trivial)⟩

end CctpTransfers
