import BlindMarket.CctpTransfers.Effects

/-!
# What a program has been told before it acts

A burn comes on its new row, and a write on what was read of the row, of its
burn's receipt and of Iris.
-/
namespace CctpTransfers

open Async Prog Runs

variable {cfg : Config} {t : Call} {a a' : Answers Ans Code} {α β : Type}
  {R : α → Answers Ans Code → Prop} {row : CctpTransfer} {source : CctpChainConfig}

/-! ## Grounds -/

/-- The rows an answer shows, a write's own apart. -/
def rowsRead : (c : Cmd) → Except Code (Ans c) → List CctpTransfer
  | .createTransfer _, .ok row => [row]
  | .getById _, .ok (some row) => [row]
  | .listNonTerminal, .ok rows => rows
  | _, _ => []

/-- A burn's answer. -/
def Cmd.burns : Cmd → Bool
  | .depositForBurn _ _ _ _ _ => true
  | _ => false

/-- The arguments are the transfer's. -/
structure DecodedDepositForBurn.For (call : DecodedDepositForBurn) (opts : CreateTransferOpts) :
    Prop where
  amount : call.amount = opts.usdcAmountRaw
  mintRecipient : call.mintRecipient = addressToBytes32 opts.mintRecipient
  destinationDomain : call.destinationDomain = opts.destDomain

/-- The chain of the transfer, as the backend was started with it. -/
def SourceOf (a : Answers Ans Code) (opts : CreateTransferOpts) (source : CctpChainConfig) : Prop :=
  ∃ key, ⟨.getCctpChain key, .ok (some source)⟩ ∈ a ∧
    (key = opts.sourceChain ∨ opts.sourceChain = source.chainKey)

/-- The burn is the transfer's, on its chain. -/
def BurnOf (a : Answers Ans Code) (opts : CreateTransferOpts) (chain : CctpChainKey)
    (messenger : Address) (call : DecodedDepositForBurn) : Prop :=
  ∃ source, SourceOf a opts source ∧ chain = source.chainKey ∧
    messenger = source.tokenMessengerAddress ∧ call.For opts

/-- The transaction was seen to be the row's burn, by its calldata or by its logs. -/
inductive Verified (a : Answers Ans Code) (row : CctpTransfer) (source : CctpChainConfig)
    (h : TxHash) (receipt : Receipt) : Prop where
  | direct (tx : TxResponse) (call : DecodedDepositForBurn)
      (htx : ⟨.getTransaction source.chainKey h, .ok (some tx)⟩ ∈ a)
      (hto : tx.toAddress = some source.tokenMessengerAddress)
      (hdata : tx.data = .depositForBurnWithHook call) (hcall : call.For row.toCreateTransferOpts)
  | bundled (depositor : Address)
      (hlogs : logsContainBurn receipt.logs ⟨source.tokenMessengerAddress, depositor,
        row.usdcAmountRaw, addressToBytes32 row.mintRecipient, row.destDomain⟩ = true)

/-- What a /confirm read before it writes. -/
structure Confirming (t : Call) (a : Answers Ans Code) (row : CctpTransfer)
    (source : CctpChainConfig) (h : TxHash) (receipt : Receipt) : Prop where
  op : ∃ user id body, t.op = .confirm user id body ∧
    (⟨.getById id, .ok (some row)⟩ : (c : Cmd) × Except Code (Ans c)) ∈ a
  inbound : row.direction = .inbound
  created : row.stage = .created
  chain : SourceOf a row.toCreateTransferOpts source
  receipt : ⟨.getTransactionReceipt source.chainKey h, .ok (some receipt)⟩ ∈ a

/-- Where Iris' answer moves a row to. -/
def nextStage (stage : Stage) : Option IrisMessage → Option Stage
  | none => if stage ≠ .attestationPending then some .attestationPending else none
  | some msg =>
    if msg.forwardTxHash.isSome then some .mintConfirmed
    else if msg.status = .complete then
      if stage ≠ .attestationReady then some .attestationReady else none
    else if stage ≠ .attestationPending then some .attestationPending else none

/-- The burn is confirmed, and its mint is not under way. -/
def Stage.Attesting (stage : Stage) : Prop :=
  stage = .burnConfirmed ∨ stage = .attestationPending ∨ stage = .attestationReady

/-- What a tick found of a row before it writes it. -/
inductive Polled (a : Answers Ans Code) (row : CctpTransfer) (patch : StagePatch) : Prop where
  | unconfigured (hchain : ⟨.getCctpChain row.sourceChain, .ok none⟩ ∈ a)
      (hstage : patch.stage = .failed)
  | hashless (hsent : row.stage = .burnSubmitted) (hnone : row.burnTxHash = none)
      (hstage : patch.stage = .failed)
  | mined (source : CctpChainConfig) (h : TxHash) (receipt : Receipt)
      (hsent : row.stage = .burnSubmitted) (hhash : row.burnTxHash = some h)
      (hsource : SourceOf a row.toCreateTransferOpts source)
      (hreceipt : ⟨.getTransactionReceipt source.chainKey h, .ok (some receipt)⟩ ∈ a)
      (hstage : patch.stage = if receipt.status then .burnConfirmed else .failed)
  | answered (h : TxHash) (msg : Option IrisMessage) (hattesting : row.stage.Attesting)
      (hhash : row.burnTxHash = some h)
      (hmsg : ⟨.pollIrisAttestation row.sourceDomain h, .ok msg⟩ ∈ a)
      (hstage : nextStage row.stage msg = some patch.stage)
  | minting (hminting : row.stage = .mintSubmitted)

/-- The grounds of a write. -/
inductive MayUpdate (t : Call) (a : Answers Ans Code) (id : Nat) (patch : StagePatch) : Prop where
  | sent (opts : CreateTransferOpts) (row : CctpTransfer) (chain : CctpChainKey)
      (wallet messenger : Address) (call : DecodedDepositForBurn) (h : TxHash) (hid : id = row.id)
      (hrow : ⟨.createTransfer opts, .ok row⟩ ∈ a)
      (hburn : ⟨.depositForBurn chain wallet messenger call row.id, .ok h⟩ ∈ a)
      (hcall : BurnOf a opts chain messenger call) (hout : opts.direction = .outbound)
      (hstage : patch.stage = .burnSubmitted) (hhash : patch.burnTxHash = some h)
  | unsent (opts : CreateTransferOpts) (row : CctpTransfer) (hid : id = row.id)
      (hrow : ⟨.createTransfer opts, .ok row⟩ ∈ a)
      (hburn : ∀ chain wallet messenger call transfer h,
        ⟨.depositForBurn chain wallet messenger call transfer, .ok h⟩ ∉ a)
      (hout : opts.direction = .outbound)
      (hstage : patch.stage = .failed) (hhash : patch.burnTxHash = none)
  | confirmed (row : CctpTransfer) (source : CctpChainConfig) (h : TxHash) (receipt : Receipt)
      (hid : id = row.id) (hread : Confirming t a row source h receipt)
      (hverified : Verified a row source h receipt) (hstatus : receipt.status = true)
      (hstage : patch.stage = .burnConfirmed) (hhash : patch.burnTxHash = some h)
  | reverted (row : CctpTransfer) (source : CctpChainConfig) (h : TxHash) (receipt : Receipt)
      (hid : id = row.id) (hread : Confirming t a row source h receipt)
      (hstatus : receipt.status = false) (hstage : patch.stage = .failed)
      (hhash : patch.burnTxHash = none)
  | polled (rows : List CctpTransfer) (row : CctpTransfer) (hop : t.op = .tick) (hid : id = row.id)
      (hrows : ⟨.listNonTerminal, .ok rows⟩ ∈ a) (hmem : row ∈ rows)
      (hpolled : Polled a row patch) (hhash : patch.burnTxHash = none)

/-- The grounds of a burn: its row is new, it is the row's, and no other was sent. -/
structure MayBurn (t : Call) (a : Answers Ans Code) (chain : CctpChainKey) (messenger : Address)
    (call : DecodedDepositForBurn) (transfer : Nat) : Prop where
  row : ∃ opts row agent body, t.op = .withdraw agent body ∧
    (⟨.createTransfer opts, .ok row⟩ : (c : Cmd) × Except Code (Ans c)) ∈ a ∧
    opts.idempotencyKey = body.idempotencyKey ∧ opts.direction = .outbound ∧ transfer = row.id ∧
    BurnOf a opts chain messenger call
  first : ∀ c r, (⟨c, r⟩ : (c : Cmd) × Except Code (Ans c)) ∈ a → c.burns = false

/-- The grounds of a new row: the key of a withdrawal is its own. -/
structure MayCreate (t : Call) (a : Answers Ans Code) (opts : CreateTransferOpts) : Prop where
  key : ∀ agent body, t.op = .withdraw agent body → opts.idempotencyKey = body.idempotencyKey
  outbound : opts.direction = .outbound → ∃ agent body, t.op = .withdraw agent body

/-- A /confirm asks for receipts once it has read a deposit. -/
def MayAskReceipt (t : Call) (a : Answers Ans Code) : Prop :=
  ∀ user id body, t.op = .confirm user id body → ∃ row,
    (⟨.getById id, .ok (some row)⟩ : (c : Cmd) × Except Code (Ans c)) ∈ a ∧ row.direction = .inbound

/-- What a program has been told when it asks for a command. -/
def Asks (t : Call) (a : Answers Ans Code) : Cmd → Prop
  | .updateTransfer id patch => MayUpdate t a id patch
  | .depositForBurn chain _ messenger call transfer => MayBurn t a chain messenger call transfer
  | .createTransfer opts => MayCreate t a opts
  | .getTransactionReceipt _ _ => MayAskReceipt t a
  | _ => True

/-! ## Commands without grounds -/

/-- Commands that need no grounds. -/
def Cmd.free : Cmd → Bool
  | .updateTransfer _ _ | .depositForBurn _ _ _ _ _ | .createTransfer _
  | .getTransactionReceipt _ _ => false
  | _ => true

theorem free_asks {c : Cmd} (h : c.free = true) : Asks t a c := by
  cases c with
  | updateTransfer | depositForBurn | createTransfer | getTransactionReceipt => cases h
  | _ => trivial

/-- No burn was sent. -/
def Silent (a : Answers Ans Code) : Prop :=
  ∀ c r, (⟨c, r⟩ : (c : Cmd) × Except Code (Ans c)) ∈ a → c.burns = false

theorem silent_nil : Silent [] := fun _ _ h => by cases h

theorem Silent.cons {c : Cmd} {r : Except Code (Ans c)} (h : Silent a) (hc : c.burns = false) :
    Silent (⟨c, r⟩ :: a) := by
  intro c' r' hmem
  obtain heq | hmem := List.mem_cons.mp hmem
  · cases heq
    exact hc
  · exact h c' r' hmem

theorem free_burns {c : Cmd} (h : c.free = true) : c.burns = false := by
  cases c with
  | depositForBurn => cases h
  | _ => rfl

/-- A program that needs none. -/
abbrev Free (p : Backend α) : Prop := p.Issues fun c => c.free = true

/-- What has been read so far stays read, and no burn is sent. -/
theorem Free.yields {p : Backend α} (hp : Free p) (h : Silent a) :
    Yields (Asks t) (fun _ a' => a <:+ a' ∧ Silent a') p a := by
  have htold : p.Told (Asks t) (fun a' _ => Silent a') a :=
    hp.told h (fun _ _ _ hi hc => hi.cons (free_burns hc)) fun _ _ _ hc => free_asks hc
  exact htold.suffix.mono (fun _ _ => id) fun a' r hq _ _ => hq

theorem yields_free {c : Cmd} {k : Ans c → Backend α} (h : c.free = true)
    (hk : ∀ v, Yields (Asks t) R (k v) (⟨c, .ok v⟩ :: a)) :
    Yields (Asks t) R (call c >>= k) a := yields_call (free_asks h) hk

theorem yields_ite {p q : Backend α} {b : Prop} [Decidable b]
    (hp : b → Yields (Asks t) R p a) (hq : ¬ b → Yields (Asks t) R q a) :
    Yields (Asks t) R (if b then p else q) a := by
  by_cases h : b
  · simpa only [if_pos h] using hp h
  · simpa only [if_neg h] using hq h

theorem yields_true {c : Cmd} (h : Asks t a c) : Yields (Asks t) (fun _ _ => True) (call c) a :=
  yields_one h fun _ => trivial

/-! ## Withdrawing -/

theorem free_call {c : Cmd} (h : c.free = true) : Free (call c) := issues_call h

theorem free_quoteFee {dest : CctpChainConfig} {amount : Nat} : Free (quoteFee source dest amount) := by
  refine Issues.bind (Issues.attempt (free_call rfl)) fun quoted => ?_
  cases quoted with
  | error e => trivial
  | ok maxFeeRaw =>
    simp only
    split <;> trivial

/-- A burn that was sent has a hash; without one none was answered. -/
def Executed (source : CctpChainConfig) (wallet : Address) (params : DepositForBurnParams)
    (transfer : Nat) (a : Answers Ans Code) : Except Code (TxHash × TxHash) → Prop
  | .ok (_, h) => ⟨.depositForBurn source.chainKey wallet source.tokenMessengerAddress
      (depositForBurnCall source params) transfer, .ok h⟩ ∈ a
  | .error _ => ∀ chain wallet messenger call transfer h,
      ⟨.depositForBurn chain wallet messenger call transfer, .ok h⟩ ∉ a

theorem told_execute {wallet : Address} {params : DepositForBurnParams} {transfer : Nat}
    (hsilent : Silent a) (hburn : ∀ a', a <:+ a' → Silent a' →
      MayBurn t a' source.chainKey source.tokenMessengerAddress (depositForBurnCall source params)
        transfer) :
    (executeApproveAndDepositForBurn source wallet params transfer).Told (Asks t) (fun a' r =>
      a <:+ a' ∧ Executed source wallet params transfer a' r) a := by
  have hnone : ∀ {a' : Answers Ans Code}, Silent a' → ∀ chain wallet messenger call transfer h,
      (⟨.depositForBurn chain wallet messenger call transfer, .ok h⟩ :
        (c : Cmd) × Except Code (Ans c)) ∉ a' :=
    fun h _ _ _ _ _ _ hmem => Bool.noConfusion (h _ _ hmem)
  unfold executeApproveAndDepositForBurn
  refine Told.suffix ⟨trivial, fun r => ?_⟩
  have hsilent := hsilent.cons (c := .approve source.chainKey wallet source.usdcAddress
    source.tokenMessengerAddress params.amountRaw) (r := r) rfl
  cases r with
  | error e => exact hnone hsilent
  | ok approveTx =>
    refine ⟨trivial, fun r => ?_⟩
    have hsilent := hsilent.cons (c := .wait source.chainKey approveTx) (r := r) rfl
    cases r with
    | error e => exact hnone hsilent
    | ok ok =>
      cases ok with
      | false => exact hnone hsilent
      | true =>
        refine ⟨hburn _ ((List.suffix_cons _ _).trans (List.suffix_cons _ _)) hsilent, fun r => ?_⟩
        cases r with
        | ok h => exact List.mem_cons_self
        | error e =>
          intro chain wallet messenger call transfer h hmem
          obtain heq | hmem := List.mem_cons.mp hmem
          · cases heq
          · exact hnone hsilent _ _ _ _ _ _ hmem

theorem SourceOf.mono {opts : CreateTransferOpts} (h : SourceOf a opts source) (hsuffix : a <:+ a') :
    SourceOf a' opts source := by
  obtain ⟨key, hmem, hkey⟩ := h
  exact ⟨key, hsuffix.subset hmem, hkey⟩

theorem yields_burnTransfer {opts : CreateTransferOpts} {wallet : Address} {agent : AgentId}
    {body : WithdrawBody} (hop : t.op = .withdraw agent body)
    (hkey : opts.idempotencyKey = body.idempotencyKey) (hout : opts.direction = .outbound)
    (hsource : SourceOf a opts source) (hsilent : Silent a) :
    Yields (Asks t) (fun _ _ => True) (burnTransfer cfg source wallet opts) a := by
  refine yields_call ⟨?_, fun _ => ⟨agent, body, hop⟩⟩ fun row => ?_
  · intro agent' body' hop'
    rw [hop] at hop'
    cases hop'
    exact hkey
  · have hcreated : (⟨.createTransfer opts, .ok row⟩ : (c : Cmd) × Except Code (Ans c)) ∈
        (⟨.createTransfer opts, .ok row⟩ : (c : Cmd) × Except Code (Ans c)) :: a :=
      List.mem_cons_self
    have hof : ∀ {a'}, a <:+ a' → BurnOf a' opts source.chainKey source.tokenMessengerAddress
        (depositForBurnCall source ⟨opts.usdcAmountRaw, opts.destDomain, opts.mintRecipient,
          opts.maxFeeRaw, opts.minFinalityThreshold⟩) := fun hsuffix =>
      ⟨source, hsource.mono hsuffix, rfl, rfl, rfl, rfl, rfl⟩
    have hexecute := @told_execute t _ source wallet _ row.id
      (hsilent.cons (c := .createTransfer opts) (r := .ok row) rfl) fun a' hsuffix hsilent =>
        ⟨⟨opts, row, agent, body, hop, hsuffix.subset hcreated, hkey, hout, rfl,
          hof ((List.suffix_cons _ _).trans hsuffix)⟩, hsilent⟩
    refine Told.bind (Told.attempt (R := fun a' r => ∃ r', r = .ok r' ∧
      (⟨.createTransfer opts, .ok row⟩ : (c : Cmd) × Except Code (Ans c)) :: a <:+ a' ∧
        Executed source wallet _ row.id a' r') hexecute fun a' r _ hr => ⟨r, rfl, hr⟩) ?_ ?_
    · rintro a' r - ⟨r', heq, hsuffix, hr⟩
      cases heq
      cases r with
      | error e =>
        exact yields_call (.unsent opts row rfl (hsuffix.subset hcreated) hr hout rfl rfl) fun _ =>
          yields_throw
      | ok v =>
        obtain ⟨approveTxHash, h⟩ := v
        exact yields_true (.sent opts row _ wallet _ _ h rfl (hsuffix.subset hcreated) hr
          (hof ((List.suffix_cons _ _).trans hsuffix)) hout rfl rfl)
    · rintro a' e - ⟨r', heq, -⟩
      cases heq

theorem yields_withdrawFrom {dest : CctpChainConfig} {agent : Agent} {wallet mintRecipient : Address}
    {agentId : AgentId} {body : WithdrawBody} {key : CctpChainKey}
    (hop : t.op = .withdraw agentId body) (hsource : ⟨.getCctpChain key, .ok (some source)⟩ ∈ a)
    (hsilent : Silent a) :
    Yields (Asks t) (fun _ _ => True)
      (withdrawFrom cfg source dest agent wallet mintRecipient body) a := by
  refine yields_free rfl fun nativeBalance => yields_ite (fun _ => yields_throw) fun _ => ?_
  refine yields_free rfl fun usdcBalance => ?_
  have hread : ∀ {a'}, a <:+ a' → ∀ opts : CreateTransferOpts, opts.sourceChain = source.chainKey →
      SourceOf a' opts source := fun hsuffix opts hopts =>
    ⟨key, hsuffix.subset hsource, .inr hopts⟩
  split
  · exact yields_throw
  · next amount hamount =>
    refine (free_quoteFee.yields ((hsilent.cons rfl).cons rfl)).bind ?_
    rintro maxFeeRaw a' - ⟨hsuffix, hsilent⟩
    refine yields_burnTransfer hop rfl rfl (hread ?_ _ rfl) hsilent
    exact ((List.suffix_cons _ _).trans (List.suffix_cons _ _)).trans hsuffix

theorem yields_startWithdraw {agent : Agent} {agentId : AgentId} {body : WithdrawBody}
    (hop : t.op = .withdraw agentId body) (hsilent : Silent a) :
    Yields (Asks t) (fun _ _ => True) (startWithdraw cfg agent body) a := by
  refine yields_ite (fun _ => yields_throw) fun _ => ?_
  split
  · exact yields_throw
  · refine yields_free rfl fun supported => yields_ite (fun _ => yields_throw) fun _ => ?_
    refine yields_free rfl fun source => yields_free rfl fun dest => ?_
    split
    · refine yields_ite (fun _ => yields_throw) fun _ => ?_
      split
      · exact yields_throw
      · have hsource : ∀ {x y} {found : CctpChainConfig},
            (⟨.getCctpChain cfg.settlementLeg, .ok (some found)⟩ :
              (c : Cmd) × Except Code (Ans c)) ∈ x :: ⟨.getCctpChain cfg.settlementLeg,
                .ok (some found)⟩ :: y := by simp
        exact yields_withdrawFrom hop hsource (((hsilent.cons rfl).cons rfl).cons rfl)
    · exact yields_throw

theorem yields_withdraw {agentId : AgentId} {body : WithdrawBody}
    (hop : t.op = .withdraw agentId body) :
    Yields (Asks t) (fun _ _ => True) (withdraw cfg agentId body) [] := by
  refine yields_free rfl fun configured => yields_ite (fun _ => yields_throw) fun _ => ?_
  refine yields_free rfl fun owned => ?_
  cases owned with
  | none => exact yields_throw
  | some agent =>
    refine yields_free rfl fun existing => ?_
    cases existing with
    | some row => exact yields_ite (fun _ => yields_throw) fun _ => yields_pure trivial
    | none =>
      exact yields_startWithdraw hop (((silent_nil.cons rfl).cons rfl).cons rfl)

/-! ## Depositing -/

theorem free_keepsReserve {account : Address} {amount : Nat} :
    Free (keepsReserve source account amount) := by
  unfold keepsReserve
  split
  · trivial
  · exact Issues.bind (free_call rfl) fun _ => trivial

theorem asks_deposit {user : User} {body : DepositIntentBody} {opts : CreateTransferOpts}
    (hop : t.op = .depositIntent user body) (hin : opts.direction = .inbound) :
    Asks t a (.createTransfer opts) := by
  refine ⟨fun agent body' hop' => ?_, fun hout => ?_⟩
  · rw [hop] at hop'
    cases hop'
  · rw [hin] at hout
    cases hout

theorem yields_depositFrom {dest : CctpChainConfig} {user : User} {mintRecipient account : Address}
    {body : DepositIntentBody} (hop : t.op = .depositIntent user body) (hsilent : Silent a) :
    Yields (Asks t) (fun _ _ => True)
      (depositFrom source dest user mintRecipient account body) a := by
  refine yields_ite (fun _ => yields_throw) fun _ => (free_quoteFee.yields hsilent).bind ?_
  rintro maxFeeRaw a' - ⟨-, hsilent⟩
  refine (free_keepsReserve.yields hsilent).bind fun keeps a'' _ _ => ?_
  refine yields_ite (fun _ => yields_throw) fun _ => yields_free rfl fun allowance => ?_
  exact yields_call (asks_deposit hop rfl) fun row => yields_pure trivial

theorem yields_depositIntent {user : User} {body : DepositIntentBody}
    (hop : t.op = .depositIntent user body) :
    Yields (Asks t) (fun _ _ => True) (depositIntent cfg user body) [] := by
  refine yields_free rfl fun configured => yields_ite (fun _ => yields_throw) fun _ => ?_
  refine yields_free rfl fun existing => ?_
  cases existing with
  | some row => exact yields_ite (fun _ => yields_throw) fun _ => yields_pure trivial
  | none =>
    refine yields_free rfl fun supported => yields_ite (fun _ => yields_throw) fun _ => ?_
    refine yields_free rfl fun source => yields_free rfl fun dest => ?_
    split
    · refine yields_ite (fun _ => yields_throw) fun _ => ?_
      split
      · exact yields_depositFrom hop
          (((((silent_nil.cons rfl).cons rfl).cons rfl).cons rfl).cons rfl)
      · exact yields_throw
    · exact yields_throw

/-! ## Confirming -/

theorem yields_confirmBundle {user : User} {id : Nat} {body : ConfirmBody} {tx : TxHash}
    (hop : t.op = .confirm user id body) (hread : ⟨.getById id, .ok (some row)⟩ ∈ a)
    (hin : row.direction = .inbound) (hcreated : row.stage = .created)
    (hsource : SourceOf a row.toCreateTransferOpts source) :
    Yields (Asks t) (fun _ _ => True) (confirmBundle cfg source row tx) a := by
  have hask : ∀ {a'}, a <:+ a' → MayAskReceipt t a' := by
    intro a' hsuffix user' id' body' hop'
    rw [hop] at hop'
    cases hop'
    exact ⟨row, hsuffix.subset hread, hin⟩
  have hconfirming : ∀ {a' receipt}, a <:+ a' →
      ⟨.getTransactionReceipt source.chainKey tx, .ok (some receipt)⟩ ∈ a' →
      Confirming t a' row source tx receipt := fun hsuffix hreceipt =>
    ⟨⟨user, id, body, hop, hsuffix.subset hread⟩, hin, hcreated, hsource.mono hsuffix, hreceipt⟩
  unfold confirmBundle
  split
  · exact yields_throw
  · refine yields_free rfl fun response => ?_
    cases response with
    | none => exact yields_throw
    | some response =>
      refine yields_ite (fun _ => yields_throw) fun _ => ?_
      refine yields_call (hask (List.suffix_cons _ _)) fun receipt => ?_
      cases receipt with
      | none => exact yields_pure trivial
      | some receipt =>
        refine yields_ite (fun hstatus => yields_true ?_) fun hstatus => ?_
        · exact .reverted row source tx receipt rfl
            (hconfirming ((List.suffix_cons _ _).trans (List.suffix_cons _ _)) List.mem_cons_self)
            hstatus rfl rfl
        · refine Yields.attempt (S := fun _ _ => True) (yields_true trivial) ?_
          intro depositor a' hsuffix _
          cases depositor with
          | error e => exact yields_throw
          | ok depositor =>
            refine yields_ite (fun _ => yields_throw) fun hlogs => yields_true ?_
            refine .confirmed row source tx receipt rfl (hconfirming ?_ ?_)
              (.bundled depositor (by simpa using hlogs)) (by simpa using hstatus) rfl rfl
            · exact ((List.suffix_cons _ _).trans (List.suffix_cons _ _)).trans hsuffix
            · exact hsuffix.subset List.mem_cons_self

theorem yields_confirmBurn {user : User} {id : Nat} {body : ConfirmBody} {tx : TxHash}
    (hop : t.op = .confirm user id body) (hread : ⟨.getById id, .ok (some row)⟩ ∈ a)
    (hin : row.direction = .inbound) (hcreated : row.stage = .created)
    (hsource : SourceOf a row.toCreateTransferOpts source) :
    Yields (Asks t) (fun _ _ => True) (confirmBurn source row tx) a := by
  have hask : ∀ {a'}, a <:+ a' → MayAskReceipt t a' := by
    intro a' hsuffix user' id' body' hop'
    rw [hop] at hop'
    cases hop'
    exact ⟨row, hsuffix.subset hread, hin⟩
  have hconfirming : ∀ {a' receipt}, a <:+ a' →
      ⟨.getTransactionReceipt source.chainKey tx, .ok (some receipt)⟩ ∈ a' →
      Confirming t a' row source tx receipt := fun hsuffix hreceipt =>
    ⟨⟨user, id, body, hop, hsuffix.subset hread⟩, hin, hcreated, hsource.mono hsuffix, hreceipt⟩
  refine yields_free rfl fun response => ?_
  cases response with
  | none => exact yields_throw
  | some response =>
    refine yields_ite (fun _ => yields_throw) fun hto => ?_
    split
    · exact yields_throw
    · next decoded hdecoded =>
      have hdata : response.data = .depositForBurnWithHook decoded := by
        unfold decodeDepositForBurnCalldata at hdecoded
        split at hdecoded <;> simp_all
      refine yields_ite (fun _ => yields_throw) fun hmatch => ?_
      simp only [not_or, not_not] at hmatch hto
      obtain ⟨hamount, hdomain, hrecipient, -⟩ := hmatch
      refine yields_call (hask (List.suffix_cons _ _)) fun receipt => ?_
      have hsuffix : ∀ {y z : (c : Cmd) × Except Code (Ans c)}, a <:+ y :: z :: a :=
        (List.suffix_cons _ _).trans (List.suffix_cons _ _)
      cases receipt with
      | none => exact yields_pure trivial
      | some receipt =>
        refine yields_ite (fun hstatus => yields_true ?_) fun hstatus => yields_true ?_
        · exact .reverted row source tx receipt rfl (hconfirming hsuffix List.mem_cons_self)
            hstatus rfl rfl
        · exact .confirmed row source tx receipt rfl (hconfirming hsuffix List.mem_cons_self)
            (.direct response decoded (by simp) hto hdata ⟨hamount, hrecipient, hdomain⟩)
            (by simpa using hstatus) rfl rfl

theorem yields_confirm {user : User} {id : Nat} {body : ConfirmBody}
    (hop : t.op = .confirm user id body) :
    Yields (Asks t) (fun _ _ => True) (confirm cfg user id body) [] := by
  refine yields_free rfl fun found => ?_
  cases found with
  | none => exact yields_throw
  | some row =>
    refine yields_ite (fun _ => yields_throw) fun hmine => ?_
    refine yields_ite (fun _ => yields_pure trivial) fun hcreated => ?_
    simp only [not_or, not_not] at hmine hcreated
    refine yields_free rfl fun source => ?_
    cases source with
    | none => exact yields_throw
    | some source =>
      have hsource : SourceOf [⟨.getCctpChain row.sourceChain, .ok (some source)⟩,
          ⟨.getById id, .ok (some row)⟩] row.toCreateTransferOpts source :=
        ⟨row.sourceChain, List.mem_cons_self, .inl rfl⟩
      cases body with
      | bundleTxHash tx => exact yields_confirmBundle hop (by simp) hmine.1 hcreated hsource
      | burnTxHash tx => exact yields_confirmBurn hop (by simp) hmine.1 hcreated hsource

/-! ## Polling -/

theorem tick_asks (hop : t.op = .tick) : MayAskReceipt t a := by
  intro user id body hop'
  rw [hop] at hop'
  cases hop'

theorem yields_update {patch : StagePatch} (h : MayUpdate t a row.id patch) :
    Yields (Asks t) (fun _ _ => True) (update row patch) a :=
  yields_call h fun _ => yields_pure trivial

theorem SourceOf.own (h : ⟨.getCctpChain row.sourceChain, .ok (some source)⟩ ∈ a) :
    SourceOf a row.toCreateTransferOpts source := ⟨row.sourceChain, h, .inl rfl⟩

theorem yields_advanceBurn {rows : List CctpTransfer} (hop : t.op = .tick)
    (hrows : ⟨.listNonTerminal, .ok rows⟩ ∈ a) (hmem : row ∈ rows)
    (hsent : row.stage = .burnSubmitted)
    (hsource : ⟨.getCctpChain row.sourceChain, .ok (some source)⟩ ∈ a) :
    Yields (Asks t) (fun _ _ => True) (advanceBurn source row) a := by
  unfold advanceBurn
  split
  · next hnone =>
    exact yields_update (.polled rows row hop rfl hrows hmem (.hashless hsent hnone rfl) rfl)
  · next tx hhash =>
    refine yields_call (tick_asks hop) fun receipt => ?_
    cases receipt with
    | none => exact yields_pure trivial
    | some receipt =>
      have hmined : ∀ {a' : Answers Ans Code} {patch : StagePatch}, a <:+ a' →
          ⟨.getTransactionReceipt source.chainKey tx, .ok (some receipt)⟩ ∈ a' →
          patch.stage = (if receipt.status then .burnConfirmed else .failed) →
          patch.burnTxHash = none → MayUpdate t a' row.id patch :=
        fun hsuffix hreceipt hstage hhash' => .polled rows row hop rfl (hsuffix.subset hrows) hmem
          (.mined source tx receipt hsent hhash (.own (hsuffix.subset hsource)) hreceipt hstage) hhash'
      refine yields_ite (fun hstatus => yields_update ?_) fun hstatus => yields_update ?_
      · exact hmined (List.suffix_cons _ _) List.mem_cons_self (by simp [hstatus]) rfl
      · exact hmined (List.suffix_cons _ _) List.mem_cons_self (by simp [hstatus]) rfl

theorem yields_advanceAttestation {rows : List CctpTransfer} {msg : Option IrisMessage} {tx : TxHash}
    (hop : t.op = .tick) (hrows : ⟨.listNonTerminal, .ok rows⟩ ∈ a) (hmem : row ∈ rows)
    (hattesting : row.stage.Attesting) (hhash : row.burnTxHash = some tx)
    (hmsg : ⟨.pollIrisAttestation row.sourceDomain tx, .ok msg⟩ ∈ a) :
    Yields (Asks t) (fun _ _ => True) (advanceAttestation row msg) a := by
  have hanswered : ∀ {patch : StagePatch}, nextStage row.stage msg = some patch.stage →
      patch.burnTxHash = none → MayUpdate t a row.id patch := fun hstage hnone =>
    .polled rows row hop rfl hrows hmem (.answered tx msg hattesting hhash hmsg hstage) hnone
  cases msg with
  | none =>
    refine yields_ite (fun hne => yields_update (hanswered ?_ rfl)) fun _ => yields_pure trivial
    simp [nextStage, hne]
  | some msg =>
    simp only [advanceAttestation]
    split
    · next forward hforward =>
      exact yields_update (hanswered (by simp [nextStage, hforward]) rfl)
    · next hforward =>
      refine yields_ite (fun hcomplete => ?_) fun hpending => ?_
      · refine yields_ite (fun hne => yields_update (hanswered ?_ rfl)) fun _ => yields_pure trivial
        simp [nextStage, hforward, hcomplete, hne]
      · refine yields_ite (fun hne => yields_update (hanswered ?_ rfl)) fun _ => yields_pure trivial
        simp [nextStage, hforward, hpending, hne]

theorem yields_advanceMint {rows : List CctpTransfer} (hop : t.op = .tick)
    (hrows : ⟨.listNonTerminal, .ok rows⟩ ∈ a) (hmem : row ∈ rows)
    (hminting : row.stage = .mintSubmitted) :
    Yields (Asks t) (fun _ _ => True) (advanceMint row) a := by
  refine yields_free rfl fun dest => ?_
  split
  · refine yields_call (tick_asks hop) fun receipt => ?_
    have hmint : ∀ {y z : (c : Cmd) × Except Code (Ans c)} {patch : StagePatch},
        patch.burnTxHash = none → MayUpdate t (y :: z :: a) row.id patch := fun hnone =>
      .polled rows row hop rfl (by simp [hrows]) hmem (.minting hminting) hnone
    cases receipt with
    | none => exact yields_pure trivial
    | some receipt =>
      exact yields_ite (fun _ => yields_update (hmint rfl)) fun _ => yields_update (hmint rfl)
  · exact yields_pure trivial

/-- A row that waits for its attestation asks for it, once its burn has a hash. -/
theorem yields_poll {rows : List CctpTransfer} (hop : t.op = .tick)
    (hrows : ⟨.listNonTerminal, .ok rows⟩ ∈ a) (hmem : row ∈ rows)
    (hattesting : row.stage.Attesting) : Yields (Asks t) (fun _ _ => True)
    (match row.burnTxHash with
      | none => return ()
      | some tx => do
        let msg ← call (Cmd.pollIrisAttestation row.sourceDomain tx)
        advanceAttestation row msg) a := by
  split
  · exact yields_pure trivial
  · next tx hhash =>
    exact yields_free rfl fun msg => yields_advanceAttestation hop
      (List.mem_cons_of_mem _ hrows) hmem hattesting hhash List.mem_cons_self

theorem yields_advance {rows : List CctpTransfer} (hop : t.op = .tick)
    (hrows : ⟨.listNonTerminal, .ok rows⟩ ∈ a) (hmem : row ∈ rows) :
    Yields (Asks t) (fun _ _ => True) (advance row) a := by
  refine yields_free rfl fun source => ?_
  have hlisted : ∀ {y : (c : Cmd) × Except Code (Ans c)}, ⟨.listNonTerminal, .ok rows⟩ ∈ y :: a :=
    List.mem_cons_of_mem _ hrows
  cases source with
  | none =>
    exact yields_update (.polled rows row hop rfl hlisted hmem
      (.unconfigured List.mem_cons_self rfl) rfl)
  | some source =>
    simp only
    split
    · next hsent => exact yields_advanceBurn hop hlisted hmem hsent List.mem_cons_self
    · next h => exact yields_poll hop hlisted hmem (.inl h)
    · next h => exact yields_poll hop hlisted hmem (.inr (.inl h))
    · next h => exact yields_poll hop hlisted hmem (.inr (.inr h))
    · next hminting => exact yields_advanceMint hop hlisted hmem hminting
    · exact yields_pure trivial

theorem yields_advanceAll {rows left : List CctpTransfer} (hop : t.op = .tick)
    (hrows : ⟨.listNonTerminal, .ok rows⟩ ∈ a) (hleft : left ⊆ rows) :
    Yields (Asks t) (fun _ _ => True) (advanceAll left) a := by
  induction left generalizing a with
  | nil => exact yields_pure trivial
  | cons row left ih =>
    have hmem : row ∈ rows := hleft List.mem_cons_self
    have hleft : left ⊆ rows := fun r hr => hleft (List.mem_cons_of_mem _ hr)
    refine yields_ite (fun _ => ih hrows hleft) fun _ => ?_
    exact (yields_advance hop hrows hmem).attempt fun r a' hsuffix _ => ih (hsuffix.subset hrows) hleft

theorem yields_tick (hop : t.op = .tick) : Yields (Asks t) (fun _ _ => True) tick [] := by
  refine yields_free rfl fun allowed => yields_ite (fun _ => yields_pure trivial) fun _ => ?_
  refine yields_free rfl fun busy => yields_ite (fun _ => yields_pure trivial) fun _ => ?_
  refine Yields.attempt (S := fun rows a' => ⟨.listNonTerminal, .ok rows⟩ ∈ a')
    (yields_one trivial fun rows => List.mem_cons_self) fun r a' hsuffix hr => ?_
  cases r with
  | error e => exact yields_true trivial
  | ok rows =>
    exact (yields_advanceAll hop (hr rows rfl) (List.Subset.refl rows)).bind fun _ _ _ _ =>
      yields_true trivial

/-- Every program acts on its grounds. -/
theorem told_prog : (t.prog cfg).Told (Asks t) (fun _ _ => True) [] := by
  have hprog : Yields (Asks t) (fun _ _ => True) (t.prog cfg) [] := by
    unfold Call.prog
    split
    · next hop => exact yields_withdraw hop
    · next hop => exact yields_depositIntent hop
    · next hop => exact yields_confirm hop
    · next hop => exact (yields_tick hop).bind fun _ _ _ _ => yields_pure trivial
  exact Told.mono hprog (fun _ _ => id) fun _ _ _ => trivial

end CctpTransfers
