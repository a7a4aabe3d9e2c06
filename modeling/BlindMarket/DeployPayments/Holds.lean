import BlindMarket.DeployPayments.System
import BlindMarket.Support.Knowledge

/-!
# What a request holds of a payment

The answers a request has had say how far it is with its payment: a credit
taken out of its set, a key claimed, an agent created, a deploy that failed and
what has been given back of it.
-/
namespace DeployPayments

open Async Prog Runs

inductive Phase where
  | taken | refused | claimed | created | failed | released | restored | noted | lost
  deriving DecidableEq, Repr

structure Hold where
  phase : Phase
  key : PaymentKey
  deriving DecidableEq, Repr

/-- A command that fails loses a credit that is out of its set, and a claim that is to be given
back. -/
def Hold.fail (hold : Hold) : Option Hold :=
  match hold.phase with
  | .taken => some ⟨.lost, hold.key⟩
  | .failed => some ⟨.lost, hold.key⟩
  | .released => some ⟨.lost, hold.key⟩
  | .restored => some ⟨.lost, hold.key⟩
  | .refused => none
  | .noted => none
  | _ => some hold

def Hold.next (cfg : Config) (prev : Option Hold) :
    (c : Cmd) → Except Failure (Ans c) → Option Hold
  | .srem _ nonce, .ok true => some ⟨.taken, creditPaymentKey cfg nonce⟩
  | .insertClaim key _ _, .ok true => some ⟨.claimed, key⟩
  | .insertClaim key _ _, .ok false => some ⟨.refused, key⟩
  | .takeOver key _ _ _, .ok true => some ⟨.claimed, key⟩
  | .selectAgentId _, .ok _ => none
  | .claimTransaction key _ _ _, .ok .claimed => some ⟨.claimed, key⟩
  | .claimTransaction _ _ _ _, .ok (.notClaimed _ _) => none
  | .deployAgent _ (some key), .ok _ => some ⟨.created, key⟩
  | .deployAgent _ (some key), .error _ => some ⟨.failed, key⟩
  | .markPaymentUsed _ _, _ => none
  | .releasePayment key, .ok _ => some ⟨.released, key⟩
  | .setCredit _ nonce _, .ok _ =>
    some ⟨if prev = none then .noted else .restored, creditPaymentKey cfg nonce⟩
  | .sadd _ _, .ok _ => none
  | _, .error _ => prev.bind Hold.fail
  | _, .ok _ => prev

def hold (cfg : Config) : Answers Ans Failure → Option Hold
  | [] => none
  | ⟨c, r⟩ :: a => Hold.next cfg (hold cfg a) c r

variable {cfg : Config} {a : Answers Ans Failure} {key : PaymentKey}

@[simp] theorem hold_nil : hold cfg [] = none := rfl

@[simp] theorem hold_cons {c : Cmd} {r : Except Failure (Ans c)} :
    hold cfg (⟨c, r⟩ :: a) = Hold.next cfg (hold cfg a) c r := rfl

/-- A key may be claimed: its credit has been taken, or it needs none. -/
def MayClaim (cfg : Config) (a : Answers Ans Failure) (key : PaymentKey) : Prop :=
  hold cfg a = some ⟨.taken, key⟩ ∨ hold cfg a = none ∧ ∃ txHash, key = transferPaymentKey txHash

/-- What is asked for in which phase. -/
def Fits (cfg : Config) (a : Answers Ans Failure) : Cmd → Prop
  | .srem _ _ => hold cfg a = none
  | .delCredit _ nonce => hold cfg a = some ⟨.taken, creditPaymentKey cfg nonce⟩
  | .insertClaim key _ _ => MayClaim cfg a key
  | .takeOver key _ _ _ => hold cfg a = some ⟨.refused, key⟩
  | .selectAgentId key => hold cfg a = some ⟨.refused, key⟩
  | .claimTransaction key _ _ _ => MayClaim cfg a key
  | .deployAgent _ none => hold cfg a = none
  | .deployAgent _ (some key) => hold cfg a = some ⟨.claimed, key⟩
  | .markPaymentUsed key _ => hold cfg a = some ⟨.created, key⟩
  | .releasePayment key => hold cfg a = some ⟨.failed, key⟩
  | .recordUsedPayment key _ _ _ =>
    hold cfg a = none ∧ ∃ txHash, key = transferPaymentKey txHash
  | .setCredit _ nonce _ =>
    hold cfg a = none ∨ hold cfg a = some ⟨.released, creditPaymentKey cfg nonce⟩
  | .sadd _ nonce =>
    hold cfg a = some ⟨.restored, creditPaymentKey cfg nonce⟩ ∨
      hold cfg a = some ⟨.noted, creditPaymentKey cfg nonce⟩
  | _ => True

/-- A call ends with nothing in its hands but what it has lost. -/
def Ended (cfg : Config) (a : Answers Ans Failure) : Prop :=
  hold cfg a = none ∨ (∃ key, hold cfg a = some ⟨.lost, key⟩) ∨
    ∃ txHash, hold cfg a = some ⟨.released, transferPaymentKey txHash⟩

/-- What a program may have in its hands as it ends. -/
def Leaves {α : Type} (cfg : Config) (ok : α → Answers Ans Failure → Prop)
    (a : Answers Ans Failure) : Except Failure α → Prop
  | .ok v => ok v a
  | .error _ => Ended cfg a

/-- A command that leaves empty hands empty. -/
theorem told_plain {α : Type} {c : Cmd} {k : Ans c → Deploys α} {ok : α → Answers Ans Failure → Prop}
    (hfits : Fits cfg a c) (herror : ∀ e, Ended cfg (⟨c, .error e⟩ :: a))
    (hok : ∀ v, (k v).Told (Fits cfg) (Leaves cfg ok) (⟨c, .ok v⟩ :: a)) :
    (call c >>= k).Told (Fits cfg) (Leaves cfg ok) a := by
  refine ⟨hfits, fun r => ?_⟩
  cases r with
  | ok v => exact hok v
  | error e => exact herror e

theorem ended_empty {c : Cmd} (h : hold cfg a = none)
    (hnext : ∀ e, Hold.next cfg none c (.error e) = none) (e : Failure) :
    Ended cfg (⟨c, .error e⟩ :: a) := .inl (by rw [hold_cons, h, hnext])

/-! ## Claims -/

/-- A claim that is answered holds the key or nothing. -/
def AfterClaim (cfg : Config) (key : PaymentKey) : PaymentClaim → Answers Ans Failure → Prop
  | .claimed, a => hold cfg a = some ⟨.claimed, key⟩
  | .notClaimed _ _, a => hold cfg a = none

theorem mayClaim_error {c : Cmd} (h : MayClaim cfg a key)
    (hnext : ∀ prev e, Hold.next cfg prev c (.error e) = prev.bind Hold.fail) (e : Failure) :
    Ended cfg (⟨c, .error e⟩ :: a) := by
  obtain h | ⟨h, -⟩ := h
  · exact .inr (.inl ⟨key, by rw [hold_cons, h, hnext]; rfl⟩)
  · exact .inl (by rw [hold_cons, h, hnext]; rfl)

theorem told_claimPayment {owner : Address} (h : MayClaim cfg a key) :
    (claimPayment cfg key owner).Told (Fits cfg) (Leaves cfg (AfterClaim cfg key)) a := by
  refine told_plain trivial (mayClaim_error h fun _ _ => rfl) fun now => ?_
  have h' : MayClaim cfg (⟨.nowS, .ok now⟩ :: a) key := h
  by_cases hpg : cfg.usePg
  · simp only [hpg, if_true]
    refine told_plain h' (mayClaim_error h' fun _ _ => rfl) fun inserted => ?_
    cases inserted with
    | true => exact show hold cfg _ = _ from rfl
    | false =>
      refine told_plain (show hold cfg _ = _ from rfl) (fun e => .inl rfl) fun tookOver => ?_
      cases tookOver with
      | true => exact show hold cfg _ = _ from rfl
      | false =>
        refine told_plain (show hold cfg _ = _ from rfl) (fun e => .inl rfl) fun agentId => ?_
        exact show hold cfg _ = _ from rfl
  · simp only [hpg]
    refine ⟨h', fun r => ?_⟩
    cases r with
    | error e => exact mayClaim_error h' (fun _ _ => rfl) e
    | ok claim => cases claim <;> exact show hold cfg _ = _ from rfl

/-- What a program that claims nothing leaves. -/
abbrev Empty (cfg : Config) {α : Type} : α → Answers Ans Failure → Prop :=
  fun _ a => hold cfg a = none

theorem told_getCredits {user : Address} (nonces : List Nonce) (h : hold cfg a = none) :
    (getCredits user nonces).Told (Fits cfg) (Leaves cfg (Empty cfg)) a := by
  induction nonces generalizing a with
  | nil => exact h
  | cons nonce nonces ih =>
    refine told_plain trivial (ended_empty h fun _ => rfl) fun raw => ?_
    have h' : hold cfg (⟨.getCredit user nonce, .ok raw⟩ :: a) = none := h
    refine (ih h').bind (fun _ _ _ h => ?_) fun _ _ _ h => h
    exact h

theorem told_listDeployCredits {user : Address} (h : hold cfg a = none) :
    (listDeployCredits user).Told (Fits cfg) (Leaves cfg (Empty cfg)) a := by
  refine told_plain trivial (ended_empty h fun _ => rfl) fun nonces => ?_
  have h' : hold cfg (⟨.smembers user, .ok nonces⟩ :: a) = none := h
  refine (told_getCredits nonces h').bind (fun _ _ _ h => ?_) fun _ _ _ h => h
  exact h

/-- A claim of credits ends with the claim of the one it returns, or empty-handed. -/
def AfterClaims (cfg : Config) : Option AgentDeployCredit → Answers Ans Failure → Prop
  | some credit, a => hold cfg a = some ⟨.claimed, creditPaymentKey cfg credit.nonce⟩
  | none, a => hold cfg a = none

theorem told_claimFirst {user : Address} (credits : List AgentDeployCredit)
    (h : hold cfg a = none) :
    (claimFirst cfg user credits).Told (Fits cfg) (Leaves cfg (AfterClaims cfg)) a := by
  induction credits generalizing a with
  | nil => exact h
  | cons credit credits ih =>
    refine told_plain h (ended_empty h fun _ => rfl) fun removed => ?_
    cases removed with
    | false => exact ih (show hold cfg _ = none from h)
    | true =>
      simp only [if_true]
      have htaken : hold cfg (⟨.srem user credit.nonce, .ok true⟩ :: a) =
          some ⟨.taken, creditPaymentKey cfg credit.nonce⟩ := rfl
      refine told_plain htaken (fun e => .inr (.inl ⟨_, rfl⟩)) fun _ => ?_
      refine (told_claimPayment (.inl rfl)).bind (fun a' claim _ hclaim => ?_) fun _ _ _ h => h
      cases claim with
      | claimed => exact hclaim
      | notClaimed pending agentId => exact ih hclaim

theorem told_claimFromWallets (wallets : List Address) (h : hold cfg a = none) :
    (claimFromWallets cfg wallets).Told (Fits cfg) (Leaves cfg (AfterClaims cfg)) a := by
  induction wallets generalizing a with
  | nil => exact h
  | cons wallet wallets ih =>
    have hclaim : (claimDeployCredit cfg wallet).Told (Fits cfg) (Leaves cfg (AfterClaims cfg)) a :=
      (told_listDeployCredits h).bind (fun _ credits _ h => told_claimFirst credits h)
        fun _ _ _ h => h
    refine hclaim.bind (fun a' found _ hfound => ?_) fun _ _ _ h => h
    cases found with
    | some credit => exact hfound
    | none => exact ih hfound

theorem told_orElse {α : Type} {p : Deploys α} {default : α} (hp : p.Told (Fits cfg)
    (fun a' _ => hold cfg a' = none) a) :
    (orElse p default).Told (Fits cfg) (Leaves cfg (Empty cfg)) a := by
  refine (hp.attempt (R := Leaves cfg (Empty cfg)) fun _ _ _ h => h).bind
    (fun a' r _ h => ?_) fun _ _ _ h => h
  cases r <;> exact h

theorem told_recordUsedPayment {txHash : TxHash} {owner : Address} {agentId : AgentId}
    (h : hold cfg a = none) :
    (recordUsedPayment (transferPaymentKey txHash) owner agentId).Told (Fits cfg)
      (Leaves cfg (Empty cfg)) a := by
  refine told_plain trivial (ended_empty h fun _ => rfl) fun now => ?_
  refine ⟨⟨h, txHash, rfl⟩, fun r => ?_⟩
  cases r with
  | ok _ => exact h
  | error e => exact ended_empty (a := ⟨.nowS, .ok now⟩ :: a) h (fun _ => rfl) e

theorem told_claimArcDeployFee {txHash : TxHash} {owner : Address} (h : hold cfg a = none) :
    (claimArcDeployFee cfg txHash owner).Told (Fits cfg)
      (Leaves cfg (AfterClaim cfg (transferPaymentKey txHash))) a := by
  have hlegacy : (orElse (call (Cmd.getLegacyMark txHash)) none).Told (Fits cfg)
      (Leaves cfg (Empty cfg)) a := by
    refine told_orElse ⟨trivial, fun r => ?_⟩
    cases r <;> exact show hold cfg _ = none by rw [hold_cons, h]; rfl
  refine hlegacy.bind (fun a' legacy _ h => ?_) fun _ _ _ h => h
  have hclaim : ∀ a'', hold cfg a'' = none →
      (claimPayment cfg (transferPaymentKey txHash) owner).Told (Fits cfg)
        (Leaves cfg (AfterClaim cfg (transferPaymentKey txHash))) a'' :=
    fun _ h => told_claimPayment (.inr ⟨h, txHash, rfl⟩)
  have hplain : ((pure () : Deploys Unit) >>= fun _ =>
      claimPayment cfg (transferPaymentKey txHash) owner).Told (Fits cfg)
        (Leaves cfg (AfterClaim cfg (transferPaymentKey txHash))) a' := hclaim a' h
  cases legacy with
  | none => exact hplain
  | some mark =>
    cases mark with
    | other => exact hplain
    | used agentId =>
      exact (told_recordUsedPayment h).bind (fun _ _ _ h => hclaim _ h) fun _ _ _ h => h

/-! ## The route -/

/-- What the route holds as it deploys. -/
def AfterPayment (cfg : Config) : Except Response Payment → Answers Ans Failure → Prop
  | .error _, a => hold cfg a = none
  | .ok payment, a => hold cfg a = (payment.key cfg).map (Hold.mk .claimed)

theorem told_takePayment {req : DeployRequest} (h : hold cfg a = none) :
    (takePayment cfg req).Told (Fits cfg) (Leaves cfg (AfterPayment cfg)) a := by
  unfold takePayment
  split
  · split
    · next feeTxHash _ =>
      refine told_plain trivial (ended_empty h fun _ => rfl) fun payer => ?_
      have h' : hold cfg (⟨.verifyArcDeployFee feeTxHash req.callerWallets, .ok payer⟩ :: a) = none := h
      refine Told.bind (told_claimArcDeployFee h') (fun a' claim _ hclaim => ?_) fun _ _ _ h => h
      cases claim with
      | claimed => exact hclaim
      | notClaimed pending agentId => cases pending <;> exact hclaim
    · refine (told_claimFromWallets req.callerWallets h).bind (fun a' found _ hfound => ?_)
        fun _ _ _ h => h
      cases found <;> exact hfound
  · exact h

/-- What a deploy that failed has in its hands, it gives back or loses. -/
theorem told_giveBack (payment : Payment)
    (h : hold cfg a = (payment.key cfg).map (Hold.mk .failed)) :
    (giveBack cfg payment).Told (Fits cfg) (fun a' _ => Ended cfg a') a := by
  cases payment with
  | free => exact .inl h
  | fee txHash =>
    refine ⟨h, fun r => ?_⟩
    cases r with
    | ok _ => exact .inr (.inr ⟨txHash, rfl⟩)
    | error e => exact .inr (.inl ⟨transferPaymentKey txHash, by rw [hold_cons, h]; rfl⟩)
  | credit credit =>
    refine ⟨h, fun r => ?_⟩
    cases r with
    | error e => exact .inr (.inl ⟨_, by rw [hold_cons, h]; rfl⟩)
    | ok _ =>
      refine ⟨.inr rfl, fun r => ?_⟩
      cases r with
      | error e => exact .inr (.inl ⟨_, rfl⟩)
      | ok _ =>
        refine ⟨.inl rfl, fun r => ?_⟩
        cases r with
        | error e => exact .inr (.inl ⟨_, rfl⟩)
        | ok _ => exact .inl rfl

theorem told_markUsed {agentId : AgentId} (payment : Payment)
    (h : hold cfg a = (payment.key cfg).map (Hold.mk .created)) :
    (markUsed cfg agentId payment).Told (Fits cfg) (Leaves cfg (Empty cfg)) a := by
  cases payment with
  | free => exact h
  | fee txHash =>
    refine told_orElse ⟨h, fun r => ?_⟩
    cases r <;> exact show hold cfg _ = none from rfl
  | credit credit =>
    refine told_orElse ⟨h, fun r => ?_⟩
    cases r <;> exact show hold cfg _ = none from rfl

theorem told_deployPaid {req : DeployRequest} (payment : Payment)
    (h : hold cfg a = (payment.key cfg).map (Hold.mk .claimed)) :
    (deployPaid cfg req payment).Told (Fits cfg) (fun a' _ => Ended cfg a') a := by
  have hfits : Fits cfg a (.deployAgent req.ownerAddress (payment.key cfg)) := by
    cases hkey : payment.key cfg with
    | none => exact show hold cfg a = none by rw [h, hkey]; rfl
    | some key => exact show hold cfg a = some ⟨.claimed, key⟩ by rw [h, hkey]; rfl
  have hnext : ∀ r : Except Failure AgentId,
      hold cfg (⟨.deployAgent req.ownerAddress (payment.key cfg), r⟩ :: a) =
        (payment.key cfg).map (Hold.mk (match r with | .ok _ => .created | .error _ => .failed)) := by
    intro r
    cases hkey : payment.key cfg with
    | none =>
      rw [hold_cons, h, hkey]
      cases r <;> rfl
    | some key => cases r <;> rfl
  refine ⟨hfits, fun r => ?_⟩
  cases r with
  | error e =>
    refine (told_giveBack payment (hnext (.error e))).bind (fun a' _ _ h => h) fun _ _ _ h => h
  | ok agentId =>
    refine (told_markUsed payment (hnext (.ok agentId))).bind (fun a' _ _ h => ?_) fun _ _ _ h => h
    refine ⟨trivial, fun r => ?_⟩
    cases r <;> exact .inl (by rw [hold_cons, show hold cfg a' = none from h]; rfl)

theorem told_postDeploy (req : DeployRequest) (h : hold cfg a = none) :
    (postDeploy cfg req).Told (Fits cfg) (fun a' _ => Ended cfg a') a := by
  refine ⟨trivial, fun r => ?_⟩
  cases r with
  | error e => exact ended_empty h (fun _ => rfl) e
  | ok prepared =>
    cases prepared with
    | false => exact .inl h
    | true =>
      refine ⟨trivial, fun r => ?_⟩
      cases r with
      | error e => exact .inl (show hold cfg _ = none by simp only [hold_cons, h]; rfl)
      | ok refused =>
        cases refused with
        | true => exact .inl h
        | false =>
          have h' : hold cfg (⟨.startRefusal req.ownerAddress, .ok false⟩ ::
              ⟨.prepareDeploy, .ok true⟩ :: a) = none := h
          refine Told.bind (told_takePayment h') (fun a' payment _ h => ?_) fun _ _ _ h => h
          cases payment with
          | error response => exact .inl h
          | ok payment => exact told_deployPaid payment h

/-! ## The listener -/

/-- The two keys of a credit, written by one that holds nothing. -/
theorem told_putCredit {credit : AgentDeployCredit} (h : hold cfg a = none) :
    (do
      call (Cmd.setCredit credit.user credit.nonce credit)
      call (Cmd.sadd credit.user credit.nonce) : Deploys Unit).Told (Fits cfg)
        (fun a' _ => hold cfg a' = none) a := by
  refine ⟨.inl h, fun r => ?_⟩
  cases r with
  | error e => exact show hold cfg (_ :: a) = none by rw [hold_cons, h]; rfl
  | ok u =>
    have hnoted : hold cfg (⟨.setCredit credit.user credit.nonce credit, .ok u⟩ :: a) =
        some ⟨.noted, creditPaymentKey cfg credit.nonce⟩ := by
      rw [hold_cons, h]
      rfl
    refine ⟨.inr hnoted, fun r => ?_⟩
    cases r with
    | ok _ => exact show hold cfg (_ :: _) = none from rfl
    | error e => exact show hold cfg (_ :: _) = none by rw [hold_cons, hnoted]; rfl

theorem told_recordCredit (event : EventLog) (h : hold cfg a = none) :
    (recordCredit cfg event).Told (Fits cfg) (fun a' _ => hold cfg a' = none) a := by
  unfold recordCredit
  split
  · exact h
  · next credit _ =>
    refine ⟨trivial, fun r => ?_⟩
    cases r with
    | error e => exact show hold cfg (_ :: a) = none by rw [hold_cons, h]; rfl
    | ok recorded =>
      cases recorded with
      | true => exact h
      | false =>
        refine ⟨trivial, fun r => ?_⟩
        cases r with
        | error e => exact show hold cfg (_ :: _ :: a) = none by simp only [hold_cons, h]; rfl
        | ok existed => exact told_putCredit (a := ⟨.existsCredit credit.user credit.nonce, .ok existed⟩ ::
            ⟨.isPaymentRecorded (creditPaymentKey cfg credit.nonce), .ok false⟩ :: a) h

theorem told_recordCredits (events : List EventLog) (h : hold cfg a = none) :
    (recordCredits cfg events).Told (Fits cfg) (fun a' _ => hold cfg a' = none) a := by
  induction events generalizing a with
  | nil => exact h
  | cons event events ih =>
    exact (told_recordCredit event h).bind (fun _ _ _ h => ih h) fun _ _ _ h => h

/-- A command of the listener itself. -/
theorem told_idle {α : Type} {c : Cmd} {k : Ans c → Deploys α} (h : hold cfg a = none)
    (hfits : ∀ a, hold cfg a = none → Fits cfg a c) (hnext : ∀ r, Hold.next cfg none c r = none)
    (hk : ∀ v, (k v).Told (Fits cfg) (fun a' _ => hold cfg a' = none) (⟨c, .ok v⟩ :: a)) :
    (call c >>= k).Told (Fits cfg) (fun a' _ => hold cfg a' = none) a := by
  refine ⟨hfits a h, fun r => ?_⟩
  cases r with
  | ok v => exact hk v
  | error e => exact show hold cfg (_ :: a) = none by rw [hold_cons, h, hnext]

theorem told_firstBlock {addr : Address} {latest : Nat} (h : hold cfg a = none) :
    (firstBlock cfg addr latest).Told (Fits cfg) (fun a' _ => hold cfg a' = none) a := by
  refine told_idle h (fun _ _ => trivial) (fun r => by cases r <;> rfl) fun checkpoint => ?_
  cases checkpoint with
  | some checkpoint => exact h
  | none =>
    refine told_idle (a := ⟨.getCheckpoint, .ok none⟩ :: a) h (fun _ _ => trivial)
      (fun r => by cases r <;> rfl) fun _ => ?_
    exact h

theorem told_poll (h : hold cfg a = none) :
    (poll cfg).Told (Fits cfg) (fun a' _ => hold cfg a' = none) a := by
  refine told_idle h (fun _ _ => trivial) (fun r => by cases r <;> rfl) fun addr => ?_
  cases addr with
  | none => exact h
  | some addr =>
    refine told_idle (a := ⟨.contract, .ok (some addr)⟩ :: a) h (fun _ _ => trivial)
      (fun r => by cases r <;> rfl) fun latest => ?_
    have h' : hold cfg (⟨.getBlockNumber, .ok latest⟩ :: ⟨.contract, .ok (some addr)⟩ :: a) =
      none := h
    refine (told_firstBlock h').bind (fun a₁ fromBlock _ h₁ => ?_) fun _ _ _ h => h
    split
    · exact h₁
    · refine told_idle h₁ (fun _ _ => trivial) (fun r => by cases r <;> rfl) fun events => ?_
      have h₂ : hold cfg (⟨.queryFilter fromBlock
          (min latest (fromBlock + MAX_BLOCKS_PER_TICK - 1)), .ok events⟩ :: a₁) = none := h₁
      refine (told_recordCredits events h₂).bind (fun a₃ _ _ h₃ => ?_) fun _ _ _ h => h
      refine ⟨trivial, fun r => ?_⟩
      cases r <;> exact show hold cfg (_ :: a₃) = none by rw [hold_cons, h₃]; rfl

theorem told_tick (h : hold cfg a = none) :
    (tick cfg).Told (Fits cfg) (fun a' _ => hold cfg a' = none) a := by
  refine told_idle h (fun _ _ => trivial) (fun r => by cases r <;> rfl) fun allowed => ?_
  cases allowed with
  | false => exact h
  | true =>
    refine told_idle (a := ⟨.backgroundWritesAllowed, .ok true⟩ :: a) h (fun _ _ => trivial)
      (fun r => by cases r <;> rfl) fun entered => ?_
    cases entered with
    | false => exact h
    | true =>
      have h' : hold cfg (⟨.enterTick, .ok true⟩ :: ⟨.backgroundWritesAllowed, .ok true⟩ :: a) =
        none := h
      have hignored : (ignore (poll cfg)).Told (Fits cfg) (fun a' _ => hold cfg a' = none)
          (⟨.enterTick, .ok true⟩ :: ⟨.backgroundWritesAllowed, .ok true⟩ :: a) :=
        ((told_poll h').attempt (R := fun a' _ => hold cfg a' = none) fun _ _ _ h => h).bind
          (fun a' r _ h => by cases r <;> exact h) fun _ _ _ h => h
      refine hignored.bind (fun a' _ _ h => ?_) fun _ _ _ h => h
      refine ⟨trivial, fun r => ?_⟩
      cases r <;> exact show hold cfg (_ :: a') = none by rw [hold_cons, h]; rfl

/-- What every call asks for fits what it holds, and it ends with nothing but its losses. -/
theorem start_told {chain : Chain} {env : State → State → Prop} (tags : List Call) (s : State)
    (t : Call) (p : Deploys (Option Response)) (s' : State)
    (h : (deploys cfg chain env).start tags s t p s') :
    p.Told (Fits cfg) (fun a _ => Ended cfg a) [] := by
  obtain ⟨-, rfl, -⟩ := h
  cases t.op with
  | deploy req => exact (told_postDeploy req rfl).bind (fun _ _ _ h => h) fun _ _ _ h => h
  | tick => exact (told_tick rfl).bind (fun _ _ _ h => .inl h) fun _ _ _ h => .inl h

end DeployPayments
