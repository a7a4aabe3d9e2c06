import BlindMarket.McpSpends.Reads

/-!
# What a deploy holds of its record

The record of a key as a call last read or wrote it, and what the call has
been answered when it records a fee, puts the record back to unpaid, or
confirms it.
-/
namespace McpSpends

open Async Prog Runs

def mineNext (key : Key) (prev : Option SpendRecord) :
    (c : Cmd) → Except Code (Ans c) → Option SpendRecord
  | .getSpend key', .ok v => if key' = key then v else prev
  | .putSpend record, .ok _ => if record.idempotencyKey = key then some record else prev
  | .updateSpend key' patch, .ok _ => if key' = key then prev.map (patch.apply ·) else prev
  | _, _ => prev

/-- The record of a key as the call last read or wrote it. -/
def mine (key : Key) : Answers Ans Code → Option SpendRecord
  | [] => none
  | ⟨c, r⟩ :: a => mineNext key (mine key a) c r

variable {a : Answers Ans Code} {key : Key} {record : SpendRecord} {sender : Address}

@[simp] theorem mine_cons {c : Cmd} {r : Except Code (Ans c)} :
    mine key (⟨c, r⟩ :: a) = mineNext key (mine key a) c r := rfl

/-- A node had no receipt after it had counted the sender's transactions. -/
def Passed (a : Answers Ans Code) (chainId : Nat) (sender : Address) (count : Nat)
    (hash : TxHash) : Prop :=
  ∃ a', (⟨.getTransactionReceipt chainId hash, .ok none⟩ :: a') <:+ a ∧
    ⟨.getTransactionCount chainId sender, .ok count⟩ ∈ a'

/-- The call has seen the transfer revert, or its nonce used by another transaction. -/
def Judged (sender : Address) (a : Answers Ans Code) (record : SpendRecord) (hash : TxHash) :
    Prop :=
  ⟨.waitTx hash, .error .callException⟩ ∈ a ∨
    ∃ chainId nonce count, record.chainId = some chainId ∧ record.nonce = some nonce ∧
      nonce < count ∧ Passed a chainId sender count hash

/-- A deploy with this fee, or its record, was refused with a code. -/
def Refused (a : Answers Ans Code) (fee : Option TxHash) (code : Code) : Prop :=
  (∃ key body, ⟨.deploy key body fee, .error code⟩ ∈ a) ∨
    ∃ key patch, ⟨.updateSpend key patch, .error code⟩ ∈ a

/-- The backend has named the agent it made for a fee. -/
def Made (a : Answers Ans Code) (fee : Option TxHash) (agentId : AgentId) : Prop :=
  (∃ key body started, ⟨.deploy key body fee, .ok ⟨agentId, started⟩⟩ ∈ a) ∨
    ∃ id started, Refused a fee (.deployFeeAlreadyUsed (some id)) ∧
      ⟨.ownAgent id, .ok (some ⟨agentId, started⟩)⟩ ∈ a

/-- What a deploy has been answered before it moves its record. -/
def Pays (sender : Address) (a : Answers Ans Code) : Cmd → Prop
  | .putSpend record => record.txHash = none ∧ record.stage = .created
  | .updateSpend key (.feeSent hash nonce) =>
    ∃ record raw chain chainId request, mine key a = some record ∧ record.kind = .deploy ∧
      record.txHash = none ∧ hash = .signed raw ∧ nonce = raw.nonce ∧
      ⟨.walletOn chain record.chainId, .ok chainId⟩ ∈ a ∧
      ⟨.sign key chainId request, .ok raw⟩ ∈ a
  | .updateSpend key .feeUnpaid =>
    ∃ record hash, mine key a = some record ∧ record.txHash = some hash ∧
      Judged sender a record hash
  | .updateSpend key (.deployed agentId) =>
    ∃ record, mine key a = some record ∧ Made a record.txHash agentId ∧
      (record.txHash = none → record.kind = .deploy ∧ ⟨.deployFee, .ok .notRequired⟩ ∈ a)
  | .updateSpend key (.onChain chainId) =>
    ∃ record hash chain connected, mine key a = some record ∧ record.txHash = some hash ∧
      ⟨.walletOn chain (some chainId), .ok connected⟩ ∈ a ∧
      ⟨.getTransactionReceipt connected hash, .ok (some true)⟩ ∈ a
  | .updateSpend _ .listDone => True
  | .updateSpend _ _ => False
  | .broadcast key raw => ⟨.updateSpend key (.feeSent (.signed raw) raw.nonce), .ok ()⟩ ∈ a
  | .relayTx _ _ _ _ => False
  | _ => True

/-- Commands that neither look at a record nor move one. -/
def Cmd.quiet : Cmd → Bool
  | .getSpend _ | .putSpend _ | .updateSpend _ _ | .broadcast _ _ | .relayTx _ _ _ _ => false
  | _ => true

theorem quiet_pays {c : Cmd} (h : c.quiet = true) : Pays sender a c := by
  cases c <;> trivial

theorem quiet_mine {c : Cmd} {r : Except Code (Ans c)} {m : Option SpendRecord}
    (h : c.quiet = true) : mineNext key m c r = m := by
  cases c <;> first | rfl | cases h

abbrev Quiet {α : Type} (p : Mcp α) : Prop := p.Issues fun c => c.quiet = true

variable {α β : Type}

/-- What is quiet leaves the call its record. -/
theorem Quiet.told {p : Mcp α} (hp : Quiet p) :
    p.Told (Pays sender) (fun a' _ => a <:+ a' ∧ ∀ key, mine key a' = mine key a) a := by
  refine Issues.told (I := fun a' => a <:+ a' ∧ ∀ key, mine key a' = mine key a) hp
    ⟨List.suffix_rfl, fun _ => rfl⟩ ?_ fun _ _ _ hc => quiet_pays hc
  rintro a' c r ⟨hsuffix, hmine⟩ hc
  exact ⟨hsuffix.trans (List.suffix_cons _ _), fun key => by
    rw [mine_cons, quiet_mine hc, hmine]⟩

theorem quiet_heeds {p : Mcp α} (hp : Quiet p) : Heeds (Pays sender) p :=
  hp.heeds fun _ _ hc => quiet_pays hc

theorem heeds_quiet {c : Cmd} {k : Ans c → Mcp α} (h : c.quiet = true)
    (hk : ∀ v, Heeds (Pays sender) (k v)) : Heeds (Pays sender) (call c >>= k) :=
  heeds_call (fun _ => quiet_pays h) hk

theorem quiet_orElse {p : Mcp α} {default : α} (hp : Quiet p) : Quiet (orElse p default) :=
  Issues.bind hp.attempt fun r => by cases r <;> trivial

theorem quiet_sleep : Quiet sleep := quiet_orElse (issues_call rfl)

/-- A timer leaves the call its record. -/
theorem told_pause {k : Unit → Mcp α} {Q : Answers Ans Code → Except Code α → Prop}
    (hk : ∀ a', a <:+ a' → (∀ key, mine key a' = mine key a) →
      (k ()).Told (Pays sender) Q a') : (sleep >>= k).Told (Pays sender) Q a := by
  have hends : sleep.Ends fun r => ∃ v, r = .ok v := fun r => by cases r <;> exact ⟨(), rfl⟩
  refine (quiet_sleep.told.ends hends).bind (fun a' _ _ h => hk a' h.1.1 h.1.2) fun a' e _ h => ?_
  obtain ⟨-, v, heq⟩ := h
  cases heq

theorem quiet_ownerRefusal {wallet : Wallet} : Quiet (ownerRefusal wallet) := by
  refine Issues.bind (issues_call rfl) fun owner => ?_
  split <;> trivial

theorem quiet_validateDeploy {body : DeployBody} : Quiet (validateDeploy body) :=
  Issues.bind (Issues.attempt (issues_call rfl)) fun r => by cases r <;> trivial

theorem quiet_payChecks {wallet : Wallet} {body : DeployBody} {checks : Bool} :
    Quiet (payChecks wallet body checks) := by
  unfold payChecks
  split
  · trivial
  · refine Issues.bind quiet_ownerRefusal fun refused => ?_
    cases refused with
    | some code => trivial
    | none => exact quiet_validateDeploy

/-! ## The deploy -/

/-- Going on from a record the call has. -/
structure On (key : Key) (record : SpendRecord) (a : Answers Ans Code) : Prop where
  mine : mine key a = some record
  kind : record.txHash = none → record.kind = .deploy ∧ ⟨.deployFee, .ok .notRequired⟩ ∈ a

theorem On.later {a' : Answers Ans Code} (h : On key record a) (hsuffix : a <:+ a')
    (hmine : McpSpends.mine key a' = McpSpends.mine key a) : On key record a' :=
  ⟨by rw [hmine, h.mine], fun hnone => ⟨(h.kind hnone).1, hsuffix.subset (h.kind hnone).2⟩⟩

/-- After a deploy: its agent, or a refusal. -/
def AfterDeploy (key : Key) (record : SpendRecord) (a : Answers Ans Code) :
    Except Code DeployedAgent → Prop
  | .ok agent => On key record a ∧
      ∃ key body, ⟨.deploy key body record.txHash, .ok agent⟩ ∈ a
  | .error code => On key record a ∧
      ∀ id, code = .deployFeeAlreadyUsed (some id) → Refused a record.txHash code

theorem told_postDeploy {spend : Key} {body : DeployBody} (n : Nat) (h : On key record a) :
    (postDeploy spend body record.txHash n).Told (Pays sender) (AfterDeploy key record) a := by
  induction n generalizing a with
  | zero => exact ⟨h, fun _ hid => by cases hid⟩
  | succ n ih =>
    refine ⟨trivial, fun r => ?_⟩
    have hon : On key record (⟨.deploy spend body record.txHash, r⟩ :: a) :=
      h.later (List.suffix_cons _ _) rfl
    cases r with
    | ok agent => exact ⟨hon, spend, body, List.mem_cons_self⟩
    | error code =>
      show (if code ≠ .deployFeeNotFound ∨ n = 0 then Prog.throw code >>= fun _ => sleep >>= fun _ =>
        postDeploy spend body record.txHash n else sleep >>= fun _ =>
        postDeploy spend body record.txHash n : Mcp DeployedAgent).Told _ _ _
      split
      · exact ⟨hon, fun id _ => .inl ⟨spend, body, List.mem_cons_self⟩⟩
      · exact told_pause fun a' hsuffix hmine => ih (hon.later hsuffix (hmine key))

/-- The deploy, and the confirm of its record. -/
def deployAndConfirm (key : Key) (body : DeployBody) (fee : Option TxHash) : Mcp DeployedAgent := do
  let agent ← postDeploy key body fee 3
  call (Cmd.updateSpend key (.deployed agent.id))
  return agent

theorem told_deployAndConfirm (sender : Address) (body : DeployBody) (h : On key record a) :
    (deployAndConfirm key body record.txHash).Told (Pays sender)
      (fun a' r => ∀ code, r = .error code → On key record a' ∧
        ∀ id, code = .deployFeeAlreadyUsed (some id) → Refused a' record.txHash code) a := by
  refine (told_postDeploy 3 h).bind (fun a' agent _ hagent => ?_) fun a' code _ hrefused => ?_
  · obtain ⟨hon, spend, body', hmem⟩ := hagent
    refine ⟨⟨record, hon.mine, .inl ⟨spend, body', agent.started, hmem⟩, hon.kind⟩, fun r => ?_⟩
    cases r with
    | ok _ => exact fun code h => by cases h
    | error err =>
      intro code heq
      cases heq
      exact ⟨hon.later (List.suffix_cons _ _) rfl, fun id _ => .inr ⟨key, _, List.mem_cons_self⟩⟩
  · intro code' heq
    cases heq
    exact hrefused

/-! ## A fee that was paid before -/

theorem quiet_lookAgain {chainId : Nat} {hash : TxHash} : Quiet (do
    let transaction ← call (Cmd.getTransaction chainId hash)
    if transaction then return false
    sleep
    let again ← call (Cmd.getTransactionReceipt chainId hash)
    return again.isNone : Mcp Bool) := by
  refine Issues.bind (issues_call rfl) fun transaction => ?_
  cases transaction with
  | true => trivial
  | false => exact Issues.bind quiet_sleep fun _ => Issues.bind (issues_call rfl) fun _ => trivial

theorem quiet_neverLanded (wallet : Wallet) (chain : ChainKey) (chainId nonce : Nat)
    (hash : TxHash) : Quiet (neverLanded wallet chain chainId nonce hash) := by
  refine Issues.bind (issues_call rfl) fun _ => Issues.bind (issues_call rfl) fun count => ?_
  split
  · trivial
  · refine Issues.bind (issues_call rfl) fun receipt => ?_
    cases receipt with
    | some ok => trivial
    | none => exact quiet_lookAgain

theorem told_neverLanded (wallet : Wallet) (chain : ChainKey) (chainId nonce : Nat)
    (hash : TxHash) : (neverLanded wallet chain chainId nonce hash).Told (Pays sender)
      (fun a' r => r = .ok true →
        ∃ count, nonce < count ∧ Passed a' chainId wallet.address count hash) a := by
  refine ⟨trivial, fun r => ?_⟩
  cases r with
  | error code => exact fun h => by cases h
  | ok connected =>
    refine ⟨trivial, fun r => ?_⟩
    cases r with
    | error code => exact fun h => by cases h
    | ok count =>
      show (if count ≤ nonce then _ else _ : Mcp Bool).Told _ _ _
      split
      · exact fun h => by cases h
      · next hcount =>
        refine ⟨trivial, fun r => ?_⟩
        cases r with
        | error code => exact fun h => by cases h
        | ok receipt =>
          cases receipt with
          | some ok => exact fun h => by cases h
          | none =>
            refine quiet_lookAgain.told.mono (fun _ _ h => h) fun a' r h _ => ?_
            exact ⟨count, Nat.lt_of_not_le hcount, _, h.1, List.mem_cons_self⟩

/-- A fee is found never to land: with the nonce and on the chain it was recorded with. -/
def Gone (sender : Address) (fee : PaidFee) (a : Answers Ans Code) : Prop :=
  ∃ chainId nonce count, fee.chainId = some chainId ∧ fee.nonce = some nonce ∧ nonce < count ∧
    Passed a chainId sender count fee.hash

theorem told_feeNeverLanded {wallet : Wallet} {fee : PaidFee} :
    (feeNeverLanded wallet fee).Told (Pays sender) (fun a' r => (a <:+ a' ∧
      ∀ key, mine key a' = mine key a) ∧ (r = .ok true → Gone wallet.address fee a')) a := by
  unfold feeNeverLanded
  split
  · next nonce chainId chain hnonce hchain hsettlement =>
    have htold := @told_neverLanded a sender wallet chain chainId nonce fee.hash
    have hquiet := quiet_neverLanded wallet chain chainId nonce fee.hash
    have hread := (@Quiet.told a sender _ _ hquiet).and htold
    refine (told_orElse (Q := fun v a' => (a <:+ a' ∧ ∀ key, mine key a' = mine key a) ∧
      (v = true → Gone wallet.address fee a')) (hread.mono (fun _ _ h => h.1) ?_)).mono
      (fun _ _ h => h) ?_
    · rintro a' (code | v) ⟨hmine, hgone⟩
      · exact ⟨hmine, fun h => by cases h⟩
      · refine ⟨hmine, fun h => ?_⟩
        obtain ⟨count, hcount, hpassed⟩ := hgone (by rw [h])
        exact ⟨chainId, nonce, count, hchain, hnonce, hcount, hpassed⟩
    · rintro a' r ⟨v, rfl, hmine, hgone⟩
      exact ⟨hmine, fun h => hgone (by cases h; rfl)⟩
  · exact ⟨⟨List.suffix_rfl, fun _ => rfl⟩, fun h => by cases h⟩

/-- Whether a fee is on its chain, as the RPC of that chain has it. -/
theorem told_feeOnChain {terms : TransferTerms} {hash : TxHash} :
    (feeOnChain terms hash).Told (Pays sender) (fun a' r => (a <:+ a' ∧
      ∀ key, mine key a' = mine key a) ∧ (r = .ok (some true) → ∃ connected,
        ⟨.walletOn terms.chain terms.chainId, .ok connected⟩ ∈ a' ∧
        ⟨.getTransactionReceipt connected hash, .ok (some true)⟩ ∈ a')) a := by
  have hquiet : Quiet (feeOnChain terms hash) :=
    quiet_orElse (Issues.bind (issues_call rfl) fun _ => Issues.bind (issues_call rfl) fun _ =>
      trivial)
  refine (hquiet.told.and (R := fun a' r => r = .ok (some true) → ∃ connected,
    ⟨.walletOn terms.chain terms.chainId, .ok connected⟩ ∈ a' ∧
    ⟨.getTransactionReceipt connected hash, .ok (some true)⟩ ∈ a') (U := fun _ _ => True) ?_).mono
    (fun _ _ h => h.1) fun _ _ h => h
  refine (told_orElse (Q := fun v a' => v = some true → ∃ connected,
    ⟨.walletOn terms.chain terms.chainId, .ok connected⟩ ∈ a' ∧
    ⟨.getTransactionReceipt connected hash, .ok (some true)⟩ ∈ a') ?_).mono (fun _ _ h => h) ?_
  · refine ⟨trivial, fun r => ?_⟩
    cases r with
    | error code => exact fun h => by cases h
    | ok connected =>
      refine ⟨trivial, fun r => ?_⟩
      cases r with
      | error code => exact fun h => by cases h
      | ok receipt =>
        intro h
        obtain rfl : receipt = some true := by simpa using h
        exact ⟨connected, List.mem_cons_of_mem _ List.mem_cons_self, List.mem_cons_self⟩
  · rintro a' r ⟨v, rfl, hv⟩ h
    exact hv (by cases h; rfl)

theorem told_unchainedFeeNotFound {hash : TxHash} {fee : Option TransferTerms}
    (h : On key record a) (hfee : record.txHash = some hash) :
    (unchainedFeeNotFound key hash fee).Told (Pays sender) (fun _ _ => True) a := by
  cases fee with
  | none => exact (trivial : True)
  | some terms =>
    refine told_feeOnChain.bind (fun a' landed _ hlanded => ?_) fun _ _ _ _ => trivial
    obtain ⟨⟨hsuffix, hmine⟩, hseen⟩ := hlanded
    match landed with
    | none => exact (trivial : True)
    | some false => exact (trivial : True)
    | some true =>
      simp only
      split
      · next chainId hchain =>
        obtain ⟨connected, hwallet, hreceipt⟩ := hseen rfl
        rw [hchain] at hwallet
        refine ⟨⟨record, hash, terms.chain, connected, by rw [hmine, h.mine], hfee, hwallet,
          hreceipt⟩, fun r => ?_⟩
        cases r <;> exact (trivial : True)
      · exact (trivial : True)

/-- What the ledger has of a fee that was paid. -/
def PaidWith (record : SpendRecord) (fee : PaidFee) : Prop :=
  record.txHash = some fee.hash ∧ record.chainId = fee.chainId ∧ record.nonce = fee.nonce

theorem paidFee_paidWith {fee : PaidFee} (h : record.paidFee = some fee) : PaidWith record fee := by
  unfold SpendRecord.paidFee at h
  split at h
  · obtain ⟨hash, hhash, rfl⟩ := Option.map_eq_some_iff.mp h
    exact ⟨hhash, rfl, rfl⟩
  · cases h

theorem Gone.judged {fee : PaidFee} (h : Gone sender fee a) (hfee : PaidWith record fee) :
    Judged sender a record fee.hash := by
  obtain ⟨chainId, nonce, count, hchain, hnonce, hcount, hpassed⟩ := h
  exact .inr ⟨chainId, nonce, count, by rw [hfee.2.1, hchain], by rw [hfee.2.2, hnonce], hcount,
    hpassed⟩

theorem told_deployRefused {wallet : Wallet} {fee : PaidFee} {current : Option TransferTerms}
    {code : Code} (h : On key record a) (hfee : PaidWith record fee)
    (hrefused : ∀ id, code = .deployFeeAlreadyUsed (some id) → Refused a record.txHash code) :
    (deployRefused wallet key fee current code).Told (Pays wallet.address) (fun _ _ => True) a := by
  unfold deployRefused
  split
  · split
    · refine (told_unchainedFeeNotFound h hfee.1).bind (fun _ _ _ _ => ?_) fun _ _ _ _ => trivial
      exact (trivial : True)
    · refine told_feeNeverLanded.bind (fun a' gone _ hgone => ?_) fun _ _ _ _ => trivial
      obtain ⟨⟨hsuffix, hmine⟩, hgone⟩ := hgone
      cases gone with
      | false => exact (trivial : True)
      | true =>
        refine ⟨⟨record, fee.hash, by rw [hmine, h.mine], hfee.1, (hgone rfl).judged hfee⟩,
          fun r => ?_⟩
        cases r <;> exact (trivial : True)
  · next id =>
    have hasks : (orElse (call (Cmd.ownAgent id)) none).Told (Pays wallet.address)
        (fun a' r => ∃ v, r = .ok v ∧ On key record a' ∧ a <:+ a' ∧
          ∀ agent, v = some agent → ⟨.ownAgent id, .ok (some agent)⟩ ∈ a') a := by
      refine told_orElse (Q := fun v a' => On key record a' ∧ a <:+ a' ∧
        ∀ agent, v = some agent → ⟨.ownAgent id, .ok (some agent)⟩ ∈ a') ?_
      refine ⟨trivial, fun r => ?_⟩
      have hon : On key record (⟨.ownAgent id, r⟩ :: a) := h.later (List.suffix_cons _ _) rfl
      cases r with
      | error err => exact ⟨hon, List.suffix_cons _ _, fun _ h => by cases h⟩
      | ok agent =>
        refine ⟨hon, List.suffix_cons _ _, fun agent' heq => ?_⟩
        rw [heq]
        exact List.mem_cons_self
    refine hasks.bind (fun a' agent _ hagent => ?_) fun _ _ _ _ => trivial
    obtain ⟨v, heq, hon, hsuffix, hmem⟩ := hagent
    cases heq
    cases agent with
    | none => exact (trivial : True)
    | some agent =>
      have hrefused' : Refused a' record.txHash (.deployFeeAlreadyUsed (some id)) := by
        obtain ⟨k, body, h⟩ | ⟨k, patch, h⟩ := hrefused id rfl
        · exact .inl ⟨k, body, hsuffix.subset h⟩
        · exact .inr ⟨k, patch, hsuffix.subset h⟩
      refine ⟨⟨record, hon.mine, .inr ⟨id, agent.started, hrefused', hmem agent rfl⟩, hon.kind⟩,
        fun r => ?_⟩
      cases r <;> exact (trivial : True)
  · exact (trivial : True)

theorem told_deployWithPaidFee (record : SpendRecord) {wallet : Wallet} {fee : PaidFee} {body : DeployBody}
    (h : mine key a = some record) (hfee : PaidWith record fee) :
    (deployWithPaidFee wallet key fee body).Told (Pays wallet.address) (fun _ _ => True) a := by
  have hon : On key record a := ⟨h, fun hnone => by rw [hfee.1] at hnone; cases hnone⟩
  have hterms : Quiet (orElse (call Cmd.deployFee) .notRequired) := quiet_orElse (issues_call rfl)
  refine hterms.told.bind (fun a' terms _ hs => ?_) fun _ _ _ _ => trivial
  have hon' := hon.later hs.1 (hs.2 key)
  show (if paidElsewhere fee terms.fee? then _ else _ : Mcp (Except Code DeployedAgent)).Told _ _ _
  split
  · exact (trivial : True)
  · have hdeployed := told_deployAndConfirm wallet.address body hon'
    rw [hfee.1] at hdeployed
    refine (hdeployed.attempt (R := fun a'' r => ∀ code, r = .ok (.error code) →
      On key record a'' ∧ ∀ id, code = .deployFeeAlreadyUsed (some id) →
        Refused a'' record.txHash code) fun a'' r _ hr code heq => ?_).bind
      (fun a'' r _ hr => ?_) fun _ _ _ _ => trivial
    · cases heq
      rw [hfee.1]
      exact hr code rfl
    · cases r with
      | ok agent => exact (trivial : True)
      | error code =>
        obtain ⟨hon'', hrefused⟩ := hr code rfl
        exact told_deployRefused hon'' hfee hrefused

/-! ## A fee that is paid now -/

theorem told_deployWith (record : SpendRecord) {body : DeployBody} {fee : Option TxHash} (h : On key record a)
    (hfee : record.txHash = fee) :
    (deployWith key body fee).Told (Pays sender) (fun _ _ => True) a := by
  subst hfee
  have hdeploy : deployWith key body record.txHash = (do
      let agent ← deployAndConfirm key body record.txHash
      return .ok (agent, record.txHash)) := by
    simp only [deployWith, deployAndConfirm, bind_assoc]
    rfl
  rw [hdeploy]
  exact (told_deployAndConfirm _ _ h).bind (fun _ _ _ _ => trivial) fun _ _ _ _ => trivial

/-- A transfer that is signed is recorded before it leaves. -/
theorem told_sendFee (record : SpendRecord) (chain : ChainKey) {chainId : Nat} {request : TxRequest}
    (h : mine key a = some record) (hkind : record.kind = .deploy) (hnone : record.txHash = none)
    (hchain : ⟨.walletOn chain record.chainId, .ok chainId⟩ ∈ a) :
    (signRecordBroadcast key chainId request .feeSent).Told (Pays sender)
      (fun a' r => ∀ raw, r = .ok raw →
        mine key a' = some ((Patch.feeSent (.signed raw) raw.nonce).apply record)) a := by
  refine ⟨trivial, fun r => ?_⟩
  cases r with
  | error code => exact fun raw h => by cases h
  | ok raw =>
    refine ⟨⟨record, raw, chain, chainId, request, h, hkind, hnone, rfl, rfl,
      List.mem_cons_of_mem _ hchain, List.mem_cons_self⟩, fun r => ?_⟩
    cases r with
    | error code => exact fun raw h => by cases h
    | ok _ =>
      refine ⟨List.mem_cons_self, fun r => ?_⟩
      cases r with
      | error code => exact fun raw h => by cases h
      | ok _ =>
        intro raw' heq
        cases heq
        simp [mineNext, h]

theorem told_payFee {terms : TransferTerms} :
    (payFee key terms).Told (Pays sender) (fun a' r => ∀ hash, r = .ok (.ok hash) →
      ∃ record, On key record a' ∧ record.txHash = some hash) a := by
  refine ⟨trivial, fun r => ?_⟩
  cases r with
  | error code => exact fun hash h => by cases h
  | ok chainId =>
    refine ⟨⟨rfl, rfl⟩, fun r => ?_⟩
    cases r with
    | error code => exact fun hash h => by cases h
    | ok _ =>
      refine (told_sendFee (feeRecord key terms) terms.chain
        (by simp [mineNext, feeRecord]) rfl rfl (List.mem_cons_of_mem _ List.mem_cons_self)).bind
        (fun a' raw _ hmine => ?_) fun _ _ _ _ _ h => by cases h
      have hsent := hmine raw rfl
      have hon : ∀ {r : Except Code Unit} hash, (Except.ok (Except.ok (TxHash.signed raw)) :
          Except Code (Except Code TxHash)) = .ok (.ok hash) →
          ∃ record, On key record (⟨.waitTx (.signed raw), r⟩ :: a') ∧
            record.txHash = some hash := by
        rintro r hash heq
        cases heq
        exact ⟨_, ⟨hsent, fun h => by cases h⟩, rfl⟩
      refine ⟨trivial, fun r => ?_⟩
      cases r with
      | ok _ => exact hon
      | error err =>
        show (if err = .callException then _ else _ : Mcp (Except Code TxHash)).Told _ _ _
        split
        · next heq =>
          subst heq
          refine ⟨⟨_, .signed raw, hsent, rfl, .inl List.mem_cons_self⟩, fun r => ?_⟩
          cases r <;> exact fun hash h => by cases h
        · exact hon

/-- A call that pays nothing has been told that nothing is due. -/
def Due (fee : Option TransferTerms) (a : Answers Ans Code) : Prop :=
  fee = none → ⟨.deployFee, .ok .notRequired⟩ ∈ a

theorem Due.later {fee : Option TransferTerms} {a' : Answers Ans Code} (h : Due fee a)
    (hsuffix : a <:+ a') : Due fee a' := fun hnone => hsuffix.subset (h hnone)

theorem told_payAndDeploy {wallet : Wallet} {body : DeployBody} {fee : Option TransferTerms}
    {checks : Bool} (h : Due fee a) :
    (payAndDeploy wallet key body fee checks).Told (Pays sender) (fun _ _ => True) a := by
  have hbody : (payAndDeployBody wallet key body fee checks).Told (Pays sender)
      (fun _ _ => True) a := by
    cases fee with
    | none =>
      refine ⟨⟨rfl, rfl⟩, fun r => ?_⟩
      cases r with
      | error code => exact (trivial : True)
      | ok _ =>
        refine told_deployWith (unpaidRecord key) ⟨?_, fun _ => ⟨rfl, ?_⟩⟩ rfl
        · simp [mineNext, unpaidRecord]
        · exact List.mem_cons_of_mem _ (h rfl)
    | some terms =>
      refine quiet_payChecks.told.bind (fun a' refused _ _ => ?_) fun _ _ _ _ => trivial
      cases refused with
      | some code => exact (trivial : True)
      | none =>
        refine told_payFee.bind (fun a'' paid _ hpaid => ?_) fun _ _ _ _ => trivial
        cases paid with
        | error code => exact (trivial : True)
        | ok hash =>
          obtain ⟨record, hon, hhash⟩ := hpaid hash rfl
          exact told_deployWith _ hon hhash
  refine (hbody.attempt (R := fun _ _ => True) fun _ _ _ h => h).bind (fun a' r _ _ => ?_)
    fun _ _ _ _ => trivial
  cases r <;> exact (trivial : True)

/-! ## The tools -/

theorem quiet_quoteBalance {wallet : Wallet} {fee : Option TransferTerms} :
    Quiet (quoteBalance wallet fee) := by
  cases fee with
  | none => trivial
  | some terms =>
    refine Issues.bind (Issues.attempt (Issues.bind (issues_call rfl) fun _ =>
      Issues.bind (issues_call rfl) fun _ => trivial)) fun read => ?_
    match read with
    | .ok _ => trivial
    | .error code => cases code <;> trivial

theorem quiet_quoteDeploy {wallet : Wallet} {args : DeployArgs} {fee : Option TransferTerms} :
    Quiet (quoteDeploy wallet args fee) := by
  refine Issues.bind quiet_validateDeploy fun refused => ?_
  cases refused with
  | some code => trivial
  | none =>
    refine Issues.bind quiet_quoteBalance fun refused' => ?_
    cases refused' with
    | some code => trivial
    | none => exact Issues.bind (issues_call rfl) fun _ => trivial

theorem told_deployConfirmed {wallet : Wallet} {args : DeployArgs} {fee : Option TransferTerms}
    (h : Due fee a) :
    (deployConfirmed wallet args fee).Told (Pays sender) (fun _ _ => True) a := by
  refine (told_payAndDeploy h).bind (fun a' r _ _ => ?_) fun _ _ _ _ => trivial
  cases r <;> exact (trivial : True)

/-- What is due is what the deploy-fee answer says. -/
theorem due_answered {terms : FeeTerms} (h : terms ≠ .factory) :
    Due terms.fee? (⟨.deployFee, .ok terms⟩ :: a) := by
  intro hnone
  cases terms with
  | notRequired => exact List.mem_cons_self
  | transfer terms => cases hnone
  | factory => exact absurd rfl h

/-- On known terms a deploy is quoted, or goes on with its quote. -/
theorem told_deployTerms {wallet : Wallet} {args : DeployArgs} {fee : Option TransferTerms}
    (hdue : Due fee a) : (if (!args.confirm) = true then quoteDeploy wallet args fee
      else do
        match quoteRefused (← call (Cmd.consumeQuote args.quoteId .deploy
            (deployFields args wallet fee))) with
        | some code => return .refused code
        | none => deployConfirmed wallet args fee : Mcp Response).Told (Pays sender)
      (fun _ _ => True) a := by
  split
  · exact quiet_heeds quiet_quoteDeploy a
  · refine ⟨trivial, fun r => ?_⟩
    cases r with
    | error code => exact (trivial : True)
    | ok check =>
      cases check with
      | ok => exact told_deployConfirmed (hdue.later (List.suffix_cons _ _))
      | quoteRequired => exact (trivial : True)
      | quoteMismatch => exact (trivial : True)

theorem told_deployFresh {wallet : Wallet} {args : DeployArgs} :
    (deployFresh wallet args).Told (Pays sender) (fun _ _ => True) a := by
  refine ⟨trivial, fun r => ?_⟩
  cases r with
  | error code => exact (trivial : True)
  | ok fee =>
    cases fee with
    | factory => exact (trivial : True)
    | notRequired => exact told_deployTerms (due_answered fun h => by cases h)
    | transfer terms => exact told_deployTerms (due_answered fun h => by cases h)

theorem heeds_deployAgent {cfg : Config} {args : DeployArgs}
    (hsender : ∀ wallet, cfg.wallet = some wallet → wallet.address = sender) :
    Heeds (Pays sender) (deployAgent cfg args) := by
  intro a
  unfold deployAgent
  split
  · exact (trivial : True)
  · next wallet hwallet =>
    obtain rfl := hsender wallet hwallet
    split
    · exact (trivial : True)
    · refine ⟨trivial, fun r => ?_⟩
      match r with
      | .error code => exact (trivial : True)
      | .ok none => exact told_deployFresh
      | .ok (some existing) =>
        show (if existing.kind ≠ .deploy then _ else _ : Mcp Response).Told _ _ _
        split
        · exact (trivial : True)
        · split
          · exact (trivial : True)
          · cases hfee : existing.paidFee with
            | none => exact told_deployFresh
            | some fee =>
              refine (told_deployWithPaidFee existing (by simp [mineNext])
                (paidFee_paidWith hfee)).bind (fun _ r _ _ => ?_) fun _ _ _ _ => trivial
              cases r <;> exact (trivial : True)

/-- After an attempt a deploy ends, or pauses and is tried again. -/
theorem told_deployAgain {wallet : Wallet} {body : DeployBody} {fee : Option TransferTerms} {n : Nat}
    (hagain : ∀ a', a <:+ a' →
      (deployOne wallet key body fee n).Told (Pays wallet.address) (fun _ _ => True) a')
    (r : Except Code DeployedAgent) : (match r with
      | .error .rateLimit => if n = 0 then return r else do
          sleep
          deployOne wallet key body fee n
      | _ => return r : Mcp (Except Code DeployedAgent)).Told (Pays wallet.address)
        (fun _ _ => True) a := by
  split
  · split
    · exact (trivial : True)
    · exact told_pause fun a' hsuffix _ => hagain a' hsuffix
  · exact (trivial : True)

theorem told_deployOne {wallet : Wallet} {body : DeployBody} {fee : Option TransferTerms} (n : Nat)
    (h : Due fee a) :
    (deployOne wallet key body fee n).Told (Pays wallet.address) (fun _ _ => True) a := by
  induction n generalizing a with
  | zero => exact (trivial : True)
  | succ n ih =>
    refine ⟨trivial, fun r => ?_⟩
    cases r with
    | error code => exact (trivial : True)
    | ok read =>
      have hagain : ∀ a', a <:+ a' →
          (deployOne wallet key body fee n).Told (Pays wallet.address) (fun _ _ => True) a' :=
        fun a' hsuffix => ih (h.later hsuffix)
      have hdue := h.later (List.suffix_cons ⟨.getSpend key, .ok read⟩ a)
      dsimp only [andThen]
      split
      · next paid hfee =>
        obtain ⟨record, rfl, hpaid⟩ := Option.bind_eq_some_iff.mp hfee
        exact (told_deployWithPaidFee record (by simp [mineNext])
          (paidFee_paidWith hpaid)).bind (fun a' r hsuffix _ =>
            told_deployAgain (fun a'' hsuffix' => hagain a''
              (((List.suffix_cons _ _).trans hsuffix).trans hsuffix')) r) fun _ _ _ _ => trivial
      · exact (told_payAndDeploy hdue).bind (fun a' paid hsuffix _ =>
          told_deployAgain (fun a'' hsuffix' => hagain a''
            (((List.suffix_cons _ _).trans hsuffix).trans hsuffix')) _) fun _ _ _ _ => trivial

theorem told_deployRows {wallet : Wallet} {args : DeployListArgs} {fee : Option TransferTerms}
    (agents : List Agent) (h : Due fee a) :
    (deployRows wallet args fee agents).Told (Pays wallet.address) (fun _ _ => True) a := by
  induction agents generalizing a with
  | nil => exact (trivial : True)
  | cons agent rest ih =>
    refine (told_deployOne DEPLOY_ATTEMPTS h).bind (fun a' r hsuffix _ => ?_) fun _ _ _ _ => trivial
    cases r with
    | error code =>
      refine ⟨trivial, fun r => ?_⟩
      cases r <;> exact (trivial : True)
    | ok deployed =>
      simp only
      split
      · exact (ih (h.later hsuffix)).bind (fun _ _ _ _ => trivial) fun _ _ _ _ => trivial
      · exact (trivial : True)

theorem quiet_capacityRefusal {todo : Nat} : Quiet (capacityRefusal todo) := by
  refine Issues.bind (Issues.attempt (issues_call rfl)) fun r => ?_
  match r with
  | .error code => trivial
  | .ok none => trivial
  | .ok (some free) => trivial

theorem quiet_listPayChecks {wallet : Wallet} {args : DeployListArgs}
    {fee : Option TransferTerms} {toPay : List Agent} :
    Quiet (listPayChecks wallet args fee toPay) := by
  unfold listPayChecks
  split
  · exact quiet_payChecks
  · trivial

theorem told_deployList {wallet : Wallet} {args : DeployListArgs} {progress : DeployProgress}
    {fee : Option TransferTerms} (h : Due fee a) :
    (deployList wallet args progress fee).Told (Pays wallet.address) (fun _ _ => True) a := by
  refine quiet_capacityRefusal.told.bind (fun a' refused hsuffix _ => ?_) fun _ _ _ _ => trivial
  cases refused with
  | some code => exact (trivial : True)
  | none =>
    refine (Quiet.told (Issues.attempt quiet_listPayChecks)).bind (fun a'' checked hsuffix' _ => ?_)
      fun _ _ _ _ => trivial
    match checked with
    | .error code => exact (trivial : True)
    | .ok (some code) => exact (trivial : True)
    | .ok none =>
      refine ⟨⟨rfl, rfl⟩, fun r => ?_⟩
      cases r with
      | error code => exact (trivial : True)
      | ok _ =>
        refine (told_deployRows progress.todo (h.later (hsuffix.trans (hsuffix'.trans
          (List.suffix_cons _ _))))).bind (fun _ rows _ _ => ?_) fun _ _ _ _ => trivial
        obtain ⟨results, stopped⟩ := rows
        cases stopped with
        | some code => exact (trivial : True)
        | none =>
          refine ⟨trivial, fun r => ?_⟩
          cases r <;> exact (trivial : True)

theorem quiet_quoteDeployList {wallet : Wallet} {args : DeployListArgs}
    {progress : DeployProgress} {fee : Option TransferTerms} :
    Quiet (quoteDeployList wallet args progress fee) := by
  unfold quoteDeployList
  split
  · trivial
  · refine Issues.bind quiet_validateDeploy fun refused => ?_
    cases refused with
    | some code => trivial
    | none =>
      refine Issues.bind quiet_capacityRefusal fun refused => ?_
      cases refused with
      | some code => trivial
      | none =>
        have hbalance : Quiet (if progress.toPay.isEmpty then pure none
            else quoteBalance wallet fee : Mcp (Option Code)) := by
          split
          · trivial
          · exact quiet_quoteBalance
        refine Issues.bind hbalance fun refused => ?_
        cases refused with
        | some code => trivial
        | none => exact Issues.bind (issues_call rfl) fun _ => trivial

/-- On known terms a list is quoted, or goes on with its quote. -/
theorem told_deployListDue {wallet : Wallet} {args : DeployListArgs} {progress : DeployProgress}
    {fee : Option TransferTerms} (hdue : Due fee a) : (if (!args.confirm) = true then
      quoteDeployList wallet args progress fee
      else do
        match quoteRefused (← call (Cmd.consumeQuote args.quoteId .deployBatch
            (deployListFields args wallet progress fee))) with
        | some code => return .refused code
        | none => deployList wallet args progress fee : Mcp Response).Told (Pays wallet.address)
      (fun _ _ => True) a := by
  split
  · exact quiet_heeds quiet_quoteDeployList a
  · refine ⟨trivial, fun r => ?_⟩
    cases r with
    | error code => exact (trivial : True)
    | ok check =>
      cases check with
      | ok => exact told_deployList (hdue.later (List.suffix_cons _ _))
      | quoteRequired => exact (trivial : True)
      | quoteMismatch => exact (trivial : True)

theorem told_deployListTerms {wallet : Wallet} {args : DeployListArgs}
    {progress : DeployProgress} :
    (deployListTerms wallet args progress).Told (Pays wallet.address) (fun _ _ => True) a := by
  refine ⟨trivial, fun r => ?_⟩
  cases r with
  | error code => exact (trivial : True)
  | ok fee =>
    cases fee with
    | factory => exact (trivial : True)
    | notRequired => exact told_deployListDue (due_answered fun h => by cases h)
    | transfer terms => exact told_deployListDue (due_answered fun h => by cases h)

theorem heeds_deployAgents {cfg : Config} {args : DeployListArgs}
    (hsender : ∀ wallet, cfg.wallet = some wallet → wallet.address = sender) :
    Heeds (Pays sender) (deployAgents cfg args) := by
  intro a
  unfold deployAgents
  split
  · exact (trivial : True)
  · next wallet hwallet =>
    obtain rfl := hsender wallet hwallet
    split
    · exact (trivial : True)
    · refine ⟨trivial, fun r => ?_⟩
      cases r with
      | error code => exact (trivial : True)
      | ok read =>
        dsimp only [andThen]
        split
        · exact (trivial : True)
        · split
          · exact (trivial : True)
          · exact told_deployListTerms

/-- The tools that deploy. -/
def Op.deploys : Op → Bool
  | .deployAgent _ => true
  | .deployAgents _ => true
  | _ => false

theorem pays_op {cfg : Config} {op : Op} (h : op.deploys = true)
    (hsender : ∀ wallet, cfg.wallet = some wallet → wallet.address = sender) :
    Heeds (Pays sender) (op.prog cfg) := by
  cases op with
  | deployAgent args => exact heeds_deployAgent hsender
  | deployAgents args => exact heeds_deployAgents hsender
  | _ => cases h

end McpSpends
