import BlindMarket.CctpTransfers.Programs

/-!
# What the table says is true

The hash of a row is that of its burn: the one sent for it when it is a
withdrawal, a verified one when it is a deposit. From burn_confirmed on that
burn has landed. What a program has read of a row stays true of it while it runs.
-/
namespace CctpTransfers

open Async Prog Runs

variable {cfg : Config} {t : Call} {x : Turn} {s s' : State} {c : Cmd} {a a' : Answers Ans Code}
  {row old cur : CctpTransfer} {source : CctpChainConfig} {tr : List Ev} {e : Ev}

/-! ## Rows -/

/-- The burn is confirmed. -/
def Stage.Confirmed : Stage → Prop
  | .burnConfirmed | .attestationPending | .attestationReady | .mintSubmitted | .mintConfirmed => True
  | _ => False

/-- What holds of a row, whatever wrote it. -/
structure Good (cfg : Config) (s : State) (row : CctpTransfer) : Prop where
  written : row.stage ≠ .approved ∧ row.stage ≠ .mintSubmitted
  sent : row.stage = .burnSubmitted → row.direction = .outbound ∧ row.burnTxHash.isSome = true
  made : row.direction = .outbound → ∀ h, row.burnTxHash = some h →
    ∃ tx, s.txs[h]? = some tx ∧ tx.MadeAs cfg row
  verified : row.direction = .inbound → ∀ h, row.burnTxHash = some h →
    ∃ tx, s.txs[h]? = some tx ∧ tx.Landed cfg row
  confirmed : row.stage.Confirmed → ∃ h tx, row.burnTxHash = some h ∧ s.txs[h]? = some tx ∧
    tx.Landed cfg row

theorem Good.grows (h : Good cfg s row) (hs : Grows s s') : Good cfg s' row where
  written := h.written
  sent := h.sent
  made hout hash hhash := by
    obtain ⟨tx, htx, hmade⟩ := h.made hout hash hhash
    obtain ⟨tx', htx', hlater⟩ := hs.txs hash tx htx
    exact ⟨tx', htx', hlater.madeAs hmade⟩
  verified hin hash hhash := by
    obtain ⟨tx, htx, hlanded⟩ := h.verified hin hash hhash
    obtain ⟨tx', htx', hlater⟩ := hs.txs hash tx htx
    exact ⟨tx', htx', hlater.landed hlanded⟩
  confirmed hstage := by
    obtain ⟨hash, tx, hhash, htx, hlanded⟩ := h.confirmed hstage
    obtain ⟨tx', htx', hlater⟩ := hs.txs hash tx htx
    exact ⟨hash, tx', hhash, htx', hlater.landed hlanded⟩

/-- A row since it was read: a hash stays, and a withdrawal's is never another. -/
structure Since (old row : CctpTransfer) : Prop where
  same : row.toCreateTransferOpts = old.toCreateTransferOpts
  id : row.id = old.id
  hash : old.burnTxHash.isSome = true → row.burnTxHash.isSome = true
  sent : old.direction = .outbound → old.burnTxHash.isSome = true → row.burnTxHash = old.burnTxHash

theorem Since.refl (row : CctpTransfer) : Since row row := ⟨rfl, rfl, fun h => h, fun _ _ => rfl⟩

theorem Since.trans (h : Since old row) (h' : Since row cur) : Since old cur where
  same := h'.same.trans h.same
  id := h'.id.trans h.id
  hash hsome := h'.hash (h.hash hsome)
  sent hout hsome := by
    have hdir : row.direction = old.direction := congrArg (·.direction) h.same
    rw [h'.sent (hdir.trans hout) (h.hash hsome), h.sent hout hsome]

/-- A state later: rows are what they were, and so are transactions. -/
structure Later (s s' : State) : Prop where
  rows : ∀ (id : Nat) (row : CctpTransfer), s.rows[id]? = some row →
    ∃ row', s'.rows[id]? = some row' ∧ Since row row'
  grows : Grows s s'

theorem Later.of_rows (hrows : s'.rows = s.rows) (hgrows : Grows s s') : Later s s' :=
  ⟨fun id row h => ⟨row, by rw [hrows, h], .refl row⟩, hgrows⟩

/-! ## Answers -/

/-- What was read of a row was so, and the row is still there. -/
structure Read (cfg : Config) (s : State) (old : CctpTransfer) : Prop where
  good : Good cfg s old
  now : ∃ row, s.rows[old.id]? = some row ∧ Since old row

theorem Read.later (h : Read cfg s old) (hs : Later s s') : Read cfg s' old := by
  obtain ⟨row, hrow, hsince⟩ := h.now
  obtain ⟨row', hrow', hsince'⟩ := hs.rows _ row hrow
  exact ⟨h.good.grows hs.grows, row', hrow', hsince.trans hsince'⟩

/-- What an answer says from then on. -/
def Shows (cfg : Config) (s : State) : (c : Cmd) → Except Code (Ans c) → Prop
  | .getCctpChain key, .ok (some source) => cfg.chain key = some source
  | .createTransfer opts, .ok row =>
    Read cfg s row ∧ row.toCreateTransferOpts = opts ∧ row.stage = .created
  | .getById id, .ok (some row) => Read cfg s row ∧ row.id = id
  | .listNonTerminal, .ok rows => ∀ row ∈ rows, Read cfg s row
  | .depositForBurn chain _ messenger call transfer, .ok h => ∃ tx : Tx, s.txs[h]? = some tx ∧
    tx.chain = chain ∧ tx.toAddress = some messenger ∧ tx.data = .depositForBurnWithHook call ∧
    tx.madeFor = some transfer
  | .getTransaction chain h, .ok (some view) => ∃ tx : Tx, s.txs[h]? = some tx ∧
    tx.chain = chain ∧ tx.toAddress = view.toAddress ∧ tx.data = view.data
  | .getTransactionReceipt chain h, .ok (some receipt) => ∃ tx : Tx, s.txs[h]? = some tx ∧
    tx.chain = chain ∧ tx.fate = .mined receipt
  | _, _ => True

theorem Shows.later {r : Except Code (Ans c)} (h : Shows cfg s c r) (hs : Later s s') :
    Shows cfg s' c r := by
  unfold Shows at h ⊢
  split
  · exact h
  · exact ⟨h.1.later hs, h.2⟩
  · exact ⟨h.1.later hs, h.2⟩
  · exact fun row hrow => (h row hrow).later hs
  · obtain ⟨tx, htx, hrest⟩ := h
    obtain ⟨tx', htx', hlater⟩ := hs.grows.txs _ tx htx
    rw [hlater.same] at hrest
    exact ⟨tx', htx', hrest⟩
  · obtain ⟨tx, htx, hrest⟩ := h
    obtain ⟨tx', htx', hlater⟩ := hs.grows.txs _ tx htx
    rw [hlater.same] at hrest
    exact ⟨tx', htx', hrest⟩
  · obtain ⟨tx, htx, hchain, hfate⟩ := h
    obtain ⟨tx', htx', hlater⟩ := hs.grows.txs _ tx htx
    have hkept := hlater.settled (by rw [hfate]; simp)
    rw [hlater.same] at hchain
    exact ⟨tx', htx', hchain, hkept.trans hfate⟩
  · trivial

/-- Everything the program was answered still stands. -/
def Answered (cfg : Config) (s : State) (a : Answers Ans Code) : Prop :=
  ∀ c r, (⟨c, r⟩ : (c : Cmd) × Except Code (Ans c)) ∈ a → Shows cfg s c r

theorem Answered.later (h : Answered cfg s a) (hs : Later s s') : Answered cfg s' a :=
  fun c r hmem => (h c r hmem).later hs

theorem Answered.chainOf {opts : CreateTransferOpts} (h : Answered cfg s a)
    (hsource : SourceOf a opts source) :
    cfg.chain opts.sourceChain = some source ∧ source.chainKey = opts.sourceChain := by
  obtain ⟨key, hmem, hkey⟩ := hsource
  have hshows : cfg.chain key = some source := h _ _ hmem
  have hkeyed := cfg.keyed key source hshows
  obtain rfl | hkey := hkey
  · exact ⟨hshows, hkeyed⟩
  · rw [hkey, hkeyed]
    exact ⟨hshows, rfl⟩

/-! ## The table -/

/-- The transaction was made to be the transfer's burn. -/
def State.Made (s : State) (id : Nat) (h : TxHash) : Prop :=
  ∃ tx : Tx, s.txs[h]? = some tx ∧ tx.madeFor = some id

structure Sound (cfg : Config) (s : State) : Prop where
  ids : ∀ (id : Nat) (row : CctpTransfer), s.rows[id]? = some row → row.id = id
  good : ∀ row ∈ s.rows, Good cfg s row
  mined : ∀ tx ∈ s.txs, ∀ receipt, tx.fate = .mined receipt → receipt.Of cfg tx
  forRow : ∀ id h, s.Made id h → id < s.rows.length
  /-- The burn of a withdrawal whose hash is saved is the only one made for it. -/
  only : ∀ row ∈ s.rows, row.direction = .outbound → ∀ h, row.burnTxHash = some h →
    ∀ h', s.Made row.id h' → h' = h

theorem sound_start : Sound cfg {} where
  ids _ _ h := by cases h
  good _ h := by cases h
  mined _ h := by cases h
  forRow _ _ h := by
    obtain ⟨_, h, -⟩ := h
    cases h
  only _ h := by cases h

theorem Sound.read (h : Sound cfg s) {id : Nat} (hrow : s.rows[id]? = some row) : Read cfg s row := by
  refine ⟨h.good row (List.mem_of_getElem? hrow), row, ?_, .refl row⟩
  rw [h.ids id row hrow, hrow]

theorem mem_rows (h : row ∈ s.rows) : ∃ id : Nat, s.rows[id]? = some row := List.getElem?_of_mem h

theorem Sound.read_mem (h : Sound cfg s) (hrow : row ∈ s.rows) : Read cfg s row := by
  obtain ⟨id, hid⟩ := mem_rows hrow
  exact h.read hid

/-- A call of the messenger for the row that succeeded has burned for it. -/
theorem landed_direct {tx : Tx} {receipt : Receipt} {call : DecodedDepositForBurn}
    (hof : receipt.Of cfg tx) (hsource : cfg.chain row.sourceChain = some source)
    (hchain : tx.chain = row.sourceChain) (hto : tx.toAddress = some source.tokenMessengerAddress)
    (hdata : tx.data = .depositForBurnWithHook call) (hcall : call.For row.toCreateTransferOpts)
    (hfate : tx.fate = .mined receipt) (hstatus : receipt.status = true) : tx.Landed cfg row := by
  have hlog := hof.burned hstatus source call (by rw [hchain, hsource]) hto hdata
  exact ⟨hchain, receipt, hfate, hstatus, _, hlog, source, hsource, rfl, hcall.amount,
    hcall.mintRecipient, hcall.destinationDomain⟩

/-- What /confirm verified has landed. -/
theorem Verified.landed {h : TxHash} {receipt : Receipt} (hverified : Verified a row source h receipt)
    (hsound : Sound cfg s) (hknown : Answered cfg s a)
    (hsource : SourceOf a row.toCreateTransferOpts source)
    (hreceipt : ⟨.getTransactionReceipt source.chainKey h, .ok (some receipt)⟩ ∈ a)
    (hstatus : receipt.status = true) : ∃ tx, s.txs[h]? = some tx ∧ tx.Landed cfg row := by
  obtain ⟨hchain, hkey⟩ := hknown.chainOf hsource
  obtain ⟨tx, htx, hon, hfate⟩ : Shows cfg s (.getTransactionReceipt source.chainKey h)
    (.ok (some receipt)) := hknown _ _ hreceipt
  refine ⟨tx, htx, ?_⟩
  cases hverified with
  | direct view call hview hto hdata hcall =>
    obtain ⟨tx', htx', -, hto', hdata'⟩ : Shows cfg s (.getTransaction source.chainKey h)
      (.ok (some view)) := hknown _ _ hview
    rw [htx] at htx'
    cases htx'
    exact landed_direct (hsound.mined tx (List.mem_of_getElem? htx) receipt hfate) hchain
      (hon.trans hkey) (hto'.trans hto) (hdata'.trans hdata) hcall hfate hstatus
  | bundled depositor hlogs =>
    obtain ⟨log, hlog, hmatch⟩ := List.any_eq_true.mp hlogs
    obtain ⟨haddress, -, hamount, hrecipient, hdomain⟩ := of_decide_eq_true hmatch
    exact ⟨hon.trans hkey, receipt, hfate, hstatus, log, hlog, source, hchain, haddress, hamount,
      hrecipient, hdomain⟩

/-- A transaction sent as the burn of a row is made as it asks. -/
theorem BurnOf.madeAs {opts : CreateTransferOpts} {chain : CctpChainKey} {wallet messenger : Address}
    {call : DecodedDepositForBurn} {h : TxHash} (hof : BurnOf a opts chain messenger call)
    (hknown : Answered cfg s a) (hrow : row.toCreateTransferOpts = opts)
    (hburn : ⟨.depositForBurn chain wallet messenger call row.id, .ok h⟩ ∈ a) :
    ∃ tx, s.txs[h]? = some tx ∧ tx.MadeAs cfg row := by
  obtain ⟨source, hsource, rfl, rfl, hcall⟩ := hof
  subst hrow
  obtain ⟨hchain, hkey⟩ := hknown.chainOf hsource
  obtain ⟨tx, htx, hon, hto, hdata, hfor⟩ : Shows cfg s
    (.depositForBurn source.chainKey wallet source.tokenMessengerAddress call row.id) (.ok h) :=
    hknown _ _ hburn
  exact ⟨tx, htx, hon.trans hkey, hfor, source, call, hchain, hto, hdata, hcall.amount,
    hcall.mintRecipient, hcall.destinationDomain⟩

end CctpTransfers
