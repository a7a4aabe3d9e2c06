import BlindMarket.CctpTransfers.System

/-!
# What a step does to the table and to the chains

A row keeps what it was created with, and a transaction what it is. A command
writes one row, adds one, sends one transaction, or changes neither.
-/
namespace CctpTransfers

open Async Prog Runs

variable {cfg : Config} {t : Call} {x : Turn} {s s' : State} {c : Cmd}

abbrev Ev := Event Ans Code (Option CctpTransfer) Call State

/-! ## Transactions -/

/-- A transaction later: what it is stays, and what has become of it. -/
structure Tx.Later (tx tx' : Tx) : Prop where
  same : tx = { tx' with fate := tx.fate }
  settled : tx.fate ≠ .pending → tx'.fate = tx.fate

theorem Tx.Later.refl (tx : Tx) : tx.Later tx := ⟨rfl, fun _ => rfl⟩

/-- It is for the row's transfer: the messenger of its chain burned the amount for the recipient on
the destination domain. -/
def BurnLog.Burns (cfg : Config) (row : CctpTransfer) (log : BurnLog) : Prop :=
  ∃ source, cfg.chain row.sourceChain = some source ∧ log.address = source.tokenMessengerAddress ∧
    log.amount = row.usdcAmountRaw ∧ log.mintRecipient = addressToBytes32 row.mintRecipient ∧
    log.destinationDomain = row.destDomain

/-- A successful burn of the row's amount, recipient and destination domain. -/
def Tx.Landed (cfg : Config) (row : CctpTransfer) (tx : Tx) : Prop :=
  tx.chain = row.sourceChain ∧ ∃ receipt, tx.fate = .mined receipt ∧ receipt.status = true ∧
    ∃ log ∈ receipt.logs, log.Burns cfg row

/-- It has not landed, and never will. -/
def Tx.Gone (cfg : Config) (row : CctpTransfer) (tx : Tx) : Prop :=
  tx.fate ≠ .pending ∧ ¬ tx.Landed cfg row

/-- The burn a withdrawal sends. -/
structure Tx.MadeAs (cfg : Config) (row : CctpTransfer) (tx : Tx) : Prop where
  chain : tx.chain = row.sourceChain
  madeFor : tx.madeFor = some row.id
  burn : ∃ source call, cfg.chain row.sourceChain = some source ∧
    tx.toAddress = some source.tokenMessengerAddress ∧ tx.data = .depositForBurnWithHook call ∧
    call.amount = row.usdcAmountRaw ∧ call.mintRecipient = addressToBytes32 row.mintRecipient ∧
    call.destinationDomain = row.destDomain

theorem Tx.Later.landed {tx tx' : Tx} {row : CctpTransfer} (h : tx.Later tx')
    (hlanded : tx.Landed cfg row) : tx'.Landed cfg row := by
  obtain ⟨hchain, receipt, hfate, hstatus, hlog⟩ := hlanded
  have hkept := h.settled (by rw [hfate]; simp)
  rw [h.same] at hchain
  exact ⟨hchain, receipt, hkept.trans hfate, hstatus, hlog⟩

theorem Tx.Later.gone {tx tx' : Tx} {row : CctpTransfer} (h : tx.Later tx')
    (hgone : tx.Gone cfg row) : tx'.Gone cfg row := by
  have hkept := h.settled hgone.1
  have hchain : tx.chain = tx'.chain := by rw [h.same]
  refine ⟨by rw [hkept]; exact hgone.1, fun hlanded => hgone.2 ?_⟩
  obtain ⟨hon, receipt, hfate, hrest⟩ := hlanded
  exact ⟨hchain.trans hon, receipt, hkept.symm.trans hfate, hrest⟩

theorem Tx.Later.madeAs {tx tx' : Tx} {row : CctpTransfer} (h : tx.Later tx')
    (hmade : tx.MadeAs cfg row) : tx'.MadeAs cfg row := by
  obtain ⟨hchain, hfor, hburn⟩ := hmade
  rw [h.same] at hchain hfor hburn
  exact ⟨hchain, hfor, hburn⟩

/-- Whether it landed is about what the row was created with. -/
theorem Tx.Landed.congr {tx : Tx} {row row' : CctpTransfer} (h : tx.Landed cfg row)
    (hsame : row'.toCreateTransferOpts = row.toCreateTransferOpts) : tx.Landed cfg row' := by
  obtain ⟨opts, _, _, _, _, _, _⟩ := row
  obtain ⟨opts', _, _, _, _, _, _⟩ := row'
  obtain rfl : opts' = opts := hsame
  exact h

theorem Tx.MadeAs.congr {tx : Tx} {row row' : CctpTransfer} (h : tx.MadeAs cfg row)
    (hsame : row'.toCreateTransferOpts = row.toCreateTransferOpts) (hid : row'.id = row.id) :
    tx.MadeAs cfg row' := by
  obtain ⟨opts, id, _, _, _, _, _⟩ := row
  obtain ⟨opts', id', _, _, _, _, _⟩ := row'
  obtain rfl : opts' = opts := hsame
  obtain rfl : id' = id := hid
  exact ⟨h.chain, h.madeFor, h.burn⟩

/-! ## Growth -/

/-- Rows keep what they were created with, and transactions what they are. -/
structure Grows (s s' : State) : Prop where
  rows : ∀ (id : Nat) (row : CctpTransfer), s.rows[id]? = some row →
    ∃ row' : CctpTransfer, s'.rows[id]? = some row' ∧
    row'.toCreateTransferOpts = row.toCreateTransferOpts ∧ row'.id = row.id
  txs : ∀ (h : TxHash) (tx : Tx), s.txs[h]? = some tx →
    ∃ tx', s'.txs[h]? = some tx' ∧ tx.Later tx'

/-- A command changes neither, adds a row under a new key, writes one, or sends a transaction. -/
inductive Does (s : State) : Cmd → State → Prop where
  | still {s' : State} {c : Cmd} (hrows : s'.rows = s.rows) (htxs : s'.txs = s.txs) : Does s c s'
  | create {s' : State} (opts : CreateTransferOpts)
      (hnew : ∀ row ∈ s.rows, row.idempotencyKey ≠ opts.idempotencyKey)
      (hrows : s'.rows = s.rows ++ [s.newRow opts]) (htxs : s'.txs = s.txs) :
      Does s (.createTransfer opts) s'
  | update {s' : State} (id : Nat) (patch : StagePatch) (hrows : s'.rows = s.rows.modify id patch.apply)
      (htxs : s'.txs = s.txs) : Does s (.updateTransfer id patch) s'
  | approve {s' : State} (chain : CctpChainKey) (wallet token spender : Address) (amount : Nat)
      (hrows : s'.rows = s.rows)
      (htxs : s'.txs = s.txs ++
        [{ chain, sender := wallet, toAddress := some token, data := .approve spender amount }]) :
      Does s (.approve chain wallet token spender amount) s'
  | burn {s' : State} (chain : CctpChainKey) (wallet messenger : Address) (call : DecodedDepositForBurn)
      (transfer : Nat) (hrows : s'.rows = s.rows)
      (htxs : s'.txs = s.txs ++
        [{ chain
           sender := wallet
           toAddress := some messenger
           data := .depositForBurnWithHook call
           madeFor := some transfer }]) :
      Does s (.depositForBurn chain wallet messenger call transfer) s'

theorem effect_does : Does s c (effect cfg t x s c).2 := by
  cases c with
  | createTransfer opts =>
    simp only [effect]
    split
    · exact .still rfl rfl
    · next hnew =>
      simp only [not_exists, not_and] at hnew
      exact .create opts hnew rfl rfl
  | updateTransfer id patch => exact .update id patch rfl rfl
  | approve chain wallet token spender amount => exact .approve chain wallet token spender amount rfl rfl
  | depositForBurn chain wallet messenger call transfer =>
    exact .burn chain wallet messenger call transfer rfl rfl
  | wait chain h =>
    simp only [effect]
    split <;> exact .still rfl rfl
  | _ => exact .still rfl rfl

theorem respond_does {r : Except Code (Ans c)} (h : respond cfg t x s c = (r, s')) : Does s c s' := by
  have hdoes : Does s c (effect cfg t x s c).2 := effect_does
  simp only [respond] at h
  split at h
  · cases h
    exact hdoes
  · split at h <;> cases h
    · exact hdoes
    · exact .still rfl rfl
    · exact hdoes

/-- An answer is that of the effect; one that is no failure comes with it. -/
theorem respond_ok {v : Ans c} (h : respond cfg t x s c = (.ok v, s')) :
    effect cfg t x s c = (.ok v, s') := by
  simp only [respond] at h
  split at h
  · exact h
  · split at h
    · exact h
    · cases h
    · cases h

theorem Does.grows (h : Does s c s') : Grows s s' := by
  have hsame : ∀ {l l' : List Tx}, l' = l ∨ (∃ tx, l' = l ++ [tx]) → ∀ (h : TxHash) (tx : Tx),
      l[h]? = some tx → ∃ tx', l'[h]? = some tx' ∧ tx.Later tx' := by
    intro l l' hl h tx htx
    obtain rfl | ⟨new, rfl⟩ := hl
    · exact ⟨tx, htx, .refl tx⟩
    · rw [List.getElem?_append_left (List.getElem?_eq_some_iff.mp htx).1]
      exact ⟨tx, htx, .refl tx⟩
  cases h with
  | still hrows htxs =>
    exact ⟨fun id row h => ⟨row, hrows ▸ h, rfl, rfl⟩, hsame (.inl htxs)⟩
  | create opts hnew hrows htxs =>
    refine ⟨fun id row h => ⟨row, ?_, rfl, rfl⟩, hsame (.inl htxs)⟩
    rw [hrows, List.getElem?_append_left (List.getElem?_eq_some_iff.mp h).1, h]
  | update id patch hrows htxs =>
    refine ⟨fun id' row h => ?_, hsame (.inl htxs)⟩
    rw [hrows, List.getElem?_modify, h]
    by_cases heq : id = id'
    · exact ⟨patch.apply row, by simp [heq], rfl, rfl⟩
    · exact ⟨row, by simp [heq], rfl, rfl⟩
  | approve chain wallet token spender amount hrows htxs =>
    exact ⟨fun id row h => ⟨row, hrows ▸ h, rfl, rfl⟩, hsame (.inr ⟨_, htxs⟩)⟩
  | burn chain wallet messenger call transfer hrows htxs =>
    exact ⟨fun id row h => ⟨row, hrows ▸ h, rfl, rfl⟩, hsame (.inr ⟨_, htxs⟩)⟩

theorem later_setFate {h : TxHash} {tx : Tx} {fate : Fate} (htx : s.txs[h]? = some tx)
    (hnew : tx.fate = .pending) : Grows s (s.setFate h fate) := by
  refine ⟨fun id row h => ⟨row, h, rfl, rfl⟩, fun h' tx' htx' => ?_⟩
  simp only [State.setFate, List.getElem?_modify, htx']
  by_cases heq : h = h'
  · subst heq
    rw [htx] at htx'
    cases htx'
    exact ⟨{ tx with fate }, by simp, rfl, fun hne => absurd hnew hne⟩
  · exact ⟨tx', by simp [heq], .refl tx'⟩

theorem Moves.grows (h : Moves cfg s s') : Grows s s' := by
  cases h with
  | send tx hnew hfor =>
    refine ⟨fun id row h => ⟨row, h, rfl, rfl⟩, fun h tx' htx => ⟨tx', ?_, .refl tx'⟩⟩
    simp only [State.send]
    rw [List.getElem?_append_left (List.getElem?_eq_some_iff.mp htx).1, htx]
  | mine h tx receipt htx hnew hof => exact later_setFate htx hnew
  | replace h tx htx hnew => exact later_setFate htx hnew
  | disableCctpLeg process chain =>
    exact ⟨fun id row h => ⟨row, h, rfl, rfl⟩, fun h tx htx => ⟨tx, htx, .refl tx⟩⟩

theorem crash_keeps : (s.crash t).rows = s.rows ∧ (s.crash t).txs = s.txs := by
  unfold State.crash
  split <;> exact ⟨rfl, rfl⟩

end CctpTransfers
