import BlindMarket.McpSpends.Reads

/-!
# What a call holds of an escrow

The last createTask a call has handed to the relay and not yet recorded, or
has recorded: what the ledger of its key must agree with.
-/
namespace McpSpends

open Async Prog Runs

inductive Phase where
  | relayed | recorded
  deriving DecidableEq, Repr

structure Hold where
  phase : Phase
  key : Key
  hash : TxHash
  deriving DecidableEq, Repr

def Hold.next (prev : Option Hold) : (c : Cmd) → Except Code (Ans c) → Option Hold
  | .relayTx key _ _ tx, .ok ⟨some hash, _⟩ =>
    if tx.data.isCreate then some ⟨.relayed, key, hash⟩ else prev
  | .updateSpend key (.funded hash _), .ok _ => some ⟨.recorded, key, hash⟩
  | .updateSpend key (.fundedNative hash), .ok _ => some ⟨.recorded, key, hash⟩
  | .updateSpend _ .unfunded, .ok _ => none
  | .updateSpend _ .unfundedNative, .ok _ => none
  | _, _ => prev

def hold : Answers Ans Code → Option Hold
  | [] => none
  | ⟨c, r⟩ :: a => Hold.next (hold a) c r

variable {a : Answers Ans Code} {cfg : Config} {record : SpendRecord}

@[simp] theorem hold_nil : hold [] = none := rfl

@[simp] theorem hold_cons {c : Cmd} {r : Except Code (Ans c)} :
    hold (⟨c, r⟩ :: a) = Hold.next (hold a) c r := rfl

/-- The call has seen the transaction revert. -/
def SeenReverted (a : Answers Ans Code) (hash : TxHash) : Prop :=
  (∃ chainId, ⟨.getTransactionReceipt chainId hash, .ok (some false)⟩ ∈ a) ∨
    ⟨.waitTx hash, .error .callException⟩ ∈ a

/-- A createTask is broadcast once it is recorded, and un-recorded once it is seen to revert. -/
def Fits (a : Answers Ans Code) : Cmd → Prop
  | .updateSpend key (.funded hash _) =>
    hold a = some ⟨.relayed, key, hash⟩ ∨ ∃ raw, hash = .signed raw
  | .updateSpend _ (.fundedNative hash) => ∃ raw, hash = .signed raw
  | .updateSpend key .unfunded =>
    ∃ hash, hold a = some ⟨.recorded, key, hash⟩ ∧ SeenReverted a hash
  | .updateSpend key .unfundedNative =>
    ∃ hash, hold a = some ⟨.recorded, key, hash⟩ ∧ SeenReverted a hash
  | .updateSpend _ (.approved _) => True
  | .updateSpend _ .indexed => True
  | .updateSpend _ _ => False
  | .broadcast key raw =>
    hold a = some ⟨.recorded, key, .signed raw⟩ ∨
      ∃ chainId request, ⟨.sign key chainId request, .ok raw⟩ ∈ a ∧ request.data.isCreate = false
  | _ => True

/-- Whatever a program has been told before, what it asks for fits. -/
abbrev Fit {α : Type} (p : Mcp α) : Prop := Heeds Fits p

/-- Commands that always fit. -/
def Cmd.free : Cmd → Bool
  | .updateSpend _ (.approved _) => true
  | .updateSpend _ .indexed => true
  | .updateSpend _ _ => false
  | .broadcast _ _ => false
  | _ => true

theorem free_fits {c : Cmd} (h : c.free = true) : Fits a c := by
  cases c with
  | updateSpend key patch =>
    cases patch with
    | approved hash => trivial
    | indexed => trivial
    | _ => cases h
  | broadcast spend raw => cases h
  | _ => trivial

theorem free_of_reads {c : Cmd} (h : c.reads = true) : c.free = true := by
  cases c <;> first | rfl | cases h

/-! ## Programs that always fit -/

variable {α β : Type}

theorem fit_call {c : Cmd} {k : Ans c → Mcp α} (h : c.free = true) (hk : ∀ v, Fit (k v)) :
    Fit (call c >>= k) := heeds_call (fun _ => free_fits h) hk

theorem fit_one {c : Cmd} (h : c.free = true) : Fit (call c) := heeds_one fun _ => free_fits h

theorem fit_reads {p : Mcp α} (hp : Reads p) : Fit p :=
  hp.heeds fun _ _ hc => free_fits (free_of_reads hc)

theorem fit_handled {p : Mcp Response} (hp : Fit p) : Fit (handled p) :=
  heeds_attempt hp fun r => by cases r <;> exact heeds_done _

theorem hold_reads {c : Cmd} {r : Except Code (Ans c)} (h : c.reads = true) :
    hold (⟨c, r⟩ :: a) = hold a := by
  cases c <;> first | rfl | cases h

/-- What only looks leaves what the call holds. -/
theorem told_reads {p : Mcp α} (hp : Reads p) :
    p.Told Fits (fun a' _ => hold a' = hold a) a :=
  hp.told (I := fun a' => hold a' = hold a) rfl
    (fun _ _ _ heq hc => (hold_reads hc).trans heq) fun _ _ _ hc => free_fits (free_of_reads hc)

/-! ## The approve -/

theorem fit_signRecordBroadcast {spend : Key} {chainId : Nat} {request : TxRequest}
    {recorded : TxHash → Nat → Patch} (hdata : request.data.isCreate = false)
    (hfree : ∀ hash nonce, (Cmd.updateSpend spend (recorded hash nonce)).free = true) :
    Fit (signRecordBroadcast spend chainId request recorded) := by
  refine fun a => ⟨trivial, fun r => ?_⟩
  cases r with
  | error code => exact (trivial : True)
  | ok raw =>
    refine ⟨free_fits (hfree _ _), fun r' => ?_⟩
    cases r' with
    | error code => exact (trivial : True)
    | ok _ =>
      refine ⟨.inr ⟨chainId, request, by simp, hdata⟩, fun r'' => ?_⟩
      cases r'' <;> exact (trivial : True)

theorem fit_approve {spend : Key} {s : Erc20Settlement} {need : Nat} :
    Fit (approve spend s need) := by
  have hassert : Fit (assertApprove s (approveTx s need) need) := by
    unfold assertApprove
    split <;> exact heeds_done _
  refine hassert.bind fun _ => Heeds.bind ?_ fun sent => heeds_done _
  unfold sendErc20
  split
  · refine Heeds.bind (fit_call rfl fun r => ?_) fun r => fit_call rfl fun _ => heeds_done _
    cases r.hash <;> exact heeds_done _
  · exact (fit_signRecordBroadcast rfl fun _ _ => rfl).bind fun _ => heeds_done _

theorem fit_reapprove {spend : Key} {s : Erc20Settlement} {need : Nat} {next : Option Nat} :
    Fit (reapprove spend s need next) := by
  refine (fit_reads (reads_settled 30)).bind fun done => ?_
  split
  · exact heeds_done _
  · refine fit_approve.bind fun sent => (fit_reads (reads_settled 30)).bind fun done' => ?_
    split <;> exact heeds_done _

theorem fit_ensureAllowance {s : Erc20Settlement} : Fit (ensureAllowance s record) := by
  unfold ensureAllowance
  split
  · exact heeds_done _
  · refine fit_call rfl fun allowance => ?_
    split
    · exact heeds_done _
    · split
      · refine fit_approve.bind fun sent => (fit_reads (reads_settled 30)).bind fun done => ?_
        split
        · exact heeds_done _
        · exact fit_reapprove
      · exact fit_reapprove

/-! ## The createTask -/

/-- A createTask that was sent is recorded. -/
def AfterSend (spend : Key) (a : Answers Ans Code) : Except Code SentErc20 → Prop
  | .ok sent => hold a = some ⟨.recorded, spend, sent.hash⟩
  | .error _ => True

theorem told_signRecord {spend : Key} {chainId : Nat} {request : TxRequest}
    (recorded : TxHash → Nat → Patch)
    (hfits : ∀ (a : Answers Ans Code) (raw : Raw) (nonce : Nat),
      Fits a (.updateSpend spend (recorded (.signed raw) nonce)))
    (hnext : ∀ prev hash nonce, Hold.next prev (.updateSpend spend (recorded hash nonce)) (.ok ()) =
      some ⟨.recorded, spend, hash⟩) :
    (signRecordBroadcast spend chainId request recorded).Told Fits
      (fun a' r => ∀ raw, r = .ok raw → hold a' = some ⟨.recorded, spend, .signed raw⟩) a := by
  refine ⟨trivial, fun r => ?_⟩
  cases r with
  | error code => exact fun raw h => by cases h
  | ok raw =>
    refine ⟨hfits _ raw raw.nonce, fun r' => ?_⟩
    cases r' with
    | error code => exact fun raw h => by cases h
    | ok _ =>
      have hheld : hold (⟨.updateSpend spend (recorded (.signed raw) raw.nonce), .ok ()⟩ ::
          ⟨.sign spend chainId request, .ok raw⟩ :: a) = some ⟨.recorded, spend, .signed raw⟩ := by
        rw [hold_cons, hnext]
      refine ⟨.inl hheld, fun r'' => ?_⟩
      cases r'' with
      | error code => exact fun raw h => by cases h
      | ok _ =>
        rintro raw' h
        cases h
        exact hheld

theorem told_relayRecord {spend : Key} {s : Erc20Settlement} {tx : TxRequest}
    (hdata : tx.data.isCreate = true) {r : Relayed} :
    (match r.hash with
      | none => Prog.throw .relayNoHash
      | some hash => return (hash, r.isUserOp) : Mcp (TxHash × Bool)).Told Fits
      (fun a' r => ∀ hash u, r = .ok (hash, u) → hold a' = some ⟨.relayed, spend, hash⟩)
      (⟨.relayTx spend s.payFrom s.chainId tx, .ok r⟩ :: a) := by
  obtain ⟨hash, isUserOp⟩ := r
  cases hash with
  | none => exact fun hash u h => by cases h
  | some hash =>
    rintro hash' u h
    cases h
    simp [Hold.next, hdata]

theorem told_sendCreate {spend : Key} {s : Erc20Settlement} (tx : TxRequest) {nonce : Option Nat}
    (hdata : tx.data.isCreate = true) :
    (sendErc20 spend s tx nonce .funded).Told Fits (AfterSend spend) a := by
  unfold sendErc20
  split
  · have hrelay : (relaySend spend s tx).Told Fits (fun a' r => ∀ hash u, r = .ok (hash, u) →
        hold a' = some ⟨.relayed, spend, hash⟩) a := by
      refine ⟨trivial, fun r => ?_⟩
      cases r with
      | error code => exact fun hash u h => by cases h
      | ok r => exact told_relayRecord hdata
    refine hrelay.bind (fun a' sent _ hsent => ?_) fun _ _ _ _ => trivial
    refine ⟨.inl (hsent sent.1 sent.2 rfl), fun r => ?_⟩
    cases r with
    | error code => exact (trivial : True)
    | ok _ => exact (rfl : hold _ = _)
  · refine (told_signRecord (fun hash _ => .funded hash false)
      (fun _ raw _ => .inr ⟨raw, rfl⟩) fun _ _ _ => rfl).bind (fun a' raw _ hraw => ?_) fun _ _ _ _ => trivial
    exact hraw raw rfl

/-- A wait changes nothing, and ends with a revert's code only when one is seen. -/
def AfterWait (held : Option Hold) (hash : TxHash) (code : Code) (a : Answers Ans Code)
    (r : Except Code Unit) : Prop :=
  hold a = held ∧ (r = .error code → SeenReverted a hash)

theorem told_sleep {k : Unit → Mcp α} {held : Option Hold}
    {Q : Answers Ans Code → Except Code α → Prop}
    (hk : ∀ a', hold a' = held → (k ()).Told Fits Q a') (h : hold a = held) :
    (sleep >>= k).Told Fits Q a := by
  have hsleep : sleep.Told Fits (fun a' r => ∃ v, r = .ok v ∧ hold a' = held) a := by
    refine told_orElse ?_
    refine ⟨trivial, fun r => ?_⟩
    cases r <;> exact h
  refine hsleep.bind (fun a' _ _ h => ?_) fun _ e _ h => (by obtain ⟨v, h, -⟩ := h; cases h)
  obtain ⟨-, -, hheld⟩ := h
  exact hk a' hheld

theorem told_pollReceipt {chainId : Nat} {hash : TxHash} {held : Option Hold} (n : Nat)
    (h : hold a = held) : (pollReceipt chainId hash n).Told Fits (AfterWait held hash .txReverted) a := by
  induction n generalizing a with
  | zero => exact ⟨h, fun h => by cases h⟩
  | succ n ih =>
    have hread : (orElse (call (Cmd.getTransactionReceipt chainId hash)) none).Told Fits
        (fun a' r => ∃ v, r = .ok v ∧ hold a' = held ∧
          (v = some false → SeenReverted a' hash)) a := by
      refine told_orElse ?_
      refine ⟨trivial, fun r => ?_⟩
      cases r with
      | ok v => exact ⟨h, fun hv => .inl ⟨chainId, by rw [← hv]; exact List.mem_cons_self⟩⟩
      | error code => exact ⟨h, fun hv => by cases hv⟩
    refine hread.bind (fun a' v _ hv => ?_) fun _ e _ h => (by obtain ⟨v, h, -⟩ := h; cases h)
    obtain ⟨v', h', hheld, hseen⟩ := hv
    cases h'
    cases v with
    | none => exact told_sleep (fun _ h => ih h) hheld
    | some ok =>
      cases ok with
      | true => exact ⟨hheld, fun h => by cases h⟩
      | false => exact ⟨hheld, fun _ => hseen rfl⟩

theorem told_waitRelayed {chainId : Nat} {hash : TxHash} {isUserOp : Bool} {held : Option Hold}
    (h : hold a = held) :
    (waitRelayed chainId hash isUserOp).Told Fits (AfterWait held hash .txReverted) a := by
  unfold waitRelayed
  split
  · exact ⟨h, fun h => by cases h⟩
  · exact told_pollReceipt 30 h

theorem told_waitTx {hash : TxHash} {held : Option Hold} (h : hold a = held) :
    (call (Cmd.waitTx hash)).Told Fits (AfterWait held hash .callException) a := by
  refine ⟨trivial, fun r => ?_⟩
  cases r with
  | ok _ => exact ⟨h, fun h => by cases h⟩
  | error err =>
    refine ⟨h, fun h => ?_⟩
    cases h
    exact .inr List.mem_cons_self

/-- After a createTask is recorded: nothing, or its reset once it is seen to revert. -/
theorem told_unfundOn {p : Mcp Unit} {key : Key} {hash : TxHash} (reset : Patch) {code : Code}
    (hp : p.Told Fits (AfterWait (some ⟨.recorded, key, hash⟩) hash code) a)
    (hreset : ∀ a, (∃ hash, hold a = some ⟨.recorded, key, hash⟩ ∧ SeenReverted a hash) →
      Fits a (.updateSpend key reset)) :
    (unfundOn code key reset p).Told Fits (fun _ _ => True) a := by
  refine (hp.attempt (R := fun a' r => ∃ r', r = .ok r' ∧
    AfterWait (some ⟨.recorded, key, hash⟩) hash code a' r') fun a' r _ h => ⟨r, rfl, h⟩).bind
    (fun a' r _ h => ?_) fun _ _ _ _ => trivial
  obtain ⟨r', h, hheld, hseen⟩ := h
  cases h
  cases r with
  | ok _ => exact (trivial : True)
  | error err =>
    simp only
    split
    · next heq =>
      refine ⟨hreset a' ⟨hash, hheld, hseen (by rw [heq])⟩, fun r => ?_⟩
      cases r <;> exact (trivial : True)
    · exact (trivial : True)

theorem fit_fundErc20 {s : Erc20Settlement} {tx : UnsignedTx} {nonce : Option Nat}
    (hcreate : tx.call.isCreate = true) : Fit (fundErc20 record s tx nonce) := by
  intro a
  refine (told_sendCreate { target := tx.target, data := .escrow tx.call } hcreate).bind
    (fun a' sent _ hsent => ?_) fun _ _ _ _ => trivial
  exact (told_unfundOn .unfunded (told_waitRelayed hsent) fun _ h => h).bind (fun _ _ _ _ => trivial)
    fun _ _ _ _ => trivial

theorem fit_fundNative {s : OgSettlement} {tx : UnsignedTx} {next : Option Nat} :
    Fit (fundNative cfg record s tx next) := by
  intro a
  unfold fundNative
  split
  · refine (told_signRecord (fun hash _ => .fundedNative hash)
      (fun _ raw _ => ⟨raw, rfl⟩) fun _ _ _ => rfl).bind (fun a' raw _ hraw => ?_)
      fun _ _ _ _ => trivial
    exact (told_unfundOn .unfundedNative (told_waitTx (hraw raw rfl)) fun _ h => h).bind
      (fun _ _ _ _ => trivial) fun _ _ _ _ => trivial
  · exact (trivial : True)

theorem createArgsOk_isCreate {s : Settlement} {amount : Nat} {call : EscrowCall}
    (h : createArgsOk s record amount call = true) : call.isCreate = true := by
  cases call <;> first | rfl | cases h

theorem fit_fund {next : Option Nat} : Fit (fund cfg record next) := by
  refine (fit_reads reads_fundingSettlement).bind fun s a => ?_
  refine ((told_reads reads_buildCreateTask).ends ends_buildCreateTask).bind
    (fun a' tx _ hbuilt => ?_) fun _ _ _ _ => trivial
  obtain ⟨amount, -, hargs⟩ := (hbuilt.2 tx rfl).args
  cases s with
  | erc20 s =>
    exact (fit_ensureAllowance.bind fun nonce => fit_fundErc20 (createArgsOk_isCreate hargs)) a'
  | og s => exact fit_fundNative a'

theorem fit_fundAndIndex {next : Option Nat} : Fit (fundAndIndex cfg record next) := by
  have hrest : ∀ funding : Funding, Fit (do
      call (Cmd.indexTask (indexBody record funding.txHash funding.isUserOp))
      call (Cmd.updateSpend record.idempotencyKey .indexed)
      return (⟨record.taskHash, funding.txHash, funding.next⟩ : Done)) := fun funding =>
    fit_call rfl fun _ => fit_call rfl fun _ => heeds_done _
  unfold fundAndIndex
  split
  · exact fit_fund.bind hrest
  · exact hrest _

/-! ## The tools -/

theorem fit_quoteStep {kind : SpendKind} {spend : SpendFields} {s : Settlement}
    {payFrom : Address} : Fit (quoteStep kind spend s payFrom) :=
  fit_call rfl fun _ => (fit_reads (reads_orElse (issues_call rfl))).bind fun _ => heeds_done _

theorem fit_finishRent {resumed : Bool} : Fit (finishRent cfg record resumed) :=
  fit_fundAndIndex.bind fun _ => fit_call rfl fun _ => heeds_done _

theorem fit_finishPosting {resumed : Bool} : Fit (finishPosting cfg record resumed) :=
  fit_fundAndIndex.bind fun _ => heeds_done _

theorem fit_rentService {args : RentArgs} : Fit (rentService cfg args) := by
  refine fit_call rfl fun existing => ?_
  cases existing with
  | some existing =>
    simp only [resumeRent]
    split
    · exact fit_call rfl fun _ => heeds_done _
    · exact fit_handled fit_finishRent
  | none =>
    refine (fit_reads reads_postingTerms).bind fun terms => ?_
    cases terms with
    | error code => exact heeds_done _
    | ok terms =>
      refine fit_call rfl fun service => ?_
      simp only
      split
      · exact heeds_done _
      · split
        · exact heeds_done _
        · split
          · exact fit_quoteStep
          · refine fit_call rfl fun check => ?_
            split
            · exact heeds_done _
            · refine fit_handled ((fit_reads reads_sealBrief).bind fun taskHash => ?_)
              exact fit_call rfl fun _ => fit_call rfl fun _ => fit_finishRent

theorem fit_createPostRecord {o : PostSpec} {s : Settlement} : Fit (createPostRecord o s) := by
  have hrest : Fit (do
      let taskHash ← sealBrief o.instructions o.isPublic
      let rootHash ← call (Cmd.upload taskHash)
      call (Cmd.putSpend (postRecord o s taskHash rootHash))
      return postRecord o s taskHash rootHash) :=
    (fit_reads reads_sealBrief).bind fun _ => fit_call rfl fun _ => fit_call rfl fun _ => heeds_done _
  unfold createPostRecord
  split
  · exact fit_call rfl fun _ => hrest
  · exact hrest

theorem fit_postTask {args : PostArgs} : Fit (postTask cfg args) := by
  refine fit_call rfl fun existing => ?_
  cases existing with
  | some existing =>
    simp only [resumePost]
    split
    · exact heeds_done _
    · split
      · exact heeds_done _
      · exact fit_handled fit_finishPosting
  | none =>
    refine (fit_reads reads_postingTerms).bind fun terms => ?_
    cases terms with
    | error code => exact heeds_done _
    | ok terms =>
      refine (fit_reads reads_openTermsOf).bind fun judged => ?_
      cases judged with
      | error code => exact heeds_done _
      | ok judged =>
        simp only [quoteOrPost]
        split
        · exact heeds_done _
        · split
          · exact heeds_done _
          · split
            · exact fit_quoteStep
            · refine fit_call rfl fun check => ?_
              split
              · exact heeds_done _
              · exact fit_handled (fit_createPostRecord.bind fun _ => fit_finishPosting)

theorem fit_postRow {s : Settlement} {list : Key} {r : Row} {next : Option Nat} :
    Fit (postRow cfg s list r next) := by
  refine fit_call rfl fun existing => ?_
  cases existing with
  | some record => exact fit_fundAndIndex
  | none => exact fit_createPostRecord.bind fun _ => fit_fundAndIndex

theorem fit_postRows {s : Settlement} {list : Key} (rows : List Row) (next : Option Nat) :
    Fit (postRows cfg s list rows next) := by
  induction rows generalizing next with
  | nil => exact heeds_done _
  | cons r rows ih =>
    refine heeds_attempt fit_postRow fun result => ?_
    cases result with
    | ok posted => exact (ih _).bind fun _ => heeds_done _
    | error code => exact fit_call rfl fun _ => heeds_done _

theorem fit_approveList {args : PostListArgs} {s : Settlement} {raw : Nat} :
    Fit (approveList args s raw) := by
  refine fit_call rfl fun _ => ?_
  cases s with
  | og s => exact heeds_done _
  | erc20 s =>
    simp only
    split
    · exact fit_ensureAllowance
    · exact heeds_done _

theorem fit_postTasks {args : PostListArgs} : Fit (postTasks cfg args) := by
  refine fit_call rfl fun existing => ?_
  split
  · exact heeds_done _
  · refine (fit_reads reads_postingTerms).bind fun terms => ?_
    cases terms with
    | error code => exact heeds_done _
    | ok terms =>
      simp only
      split
      · exact heeds_done _
      · refine fit_call rfl fun spends => ?_
        simp only
        split
        · exact heeds_done _
        · refine heeds_attempt (fit_reads (reads_checkExecutors _ _)) fun checked => ?_
          split
          · exact heeds_done _
          · exact heeds_done _
          · simp only [quoteOrPostList]
            split
            · exact fit_quoteStep
            · refine fit_call rfl fun check => ?_
              split
              · exact heeds_done _
              · refine heeds_attempt fit_approveList fun approved => ?_
                cases approved with
                | error code => exact heeds_done _
                | ok next => exact (fit_postRows _ _).bind fun _ => heeds_done _

/-- The tools that fund an escrow. -/
def Op.funds : Op → Bool
  | .rentService _ => true
  | .postTask _ => true
  | .postTasks _ => true
  | _ => false

theorem fit_op {op : Op} (h : op.funds = true) : Fit (op.prog cfg) := by
  cases op with
  | rentService args => exact fit_rentService
  | postTask args => exact fit_postTask
  | postTasks args => exact fit_postTasks
  | _ => cases h

end McpSpends
