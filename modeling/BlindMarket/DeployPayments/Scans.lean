import BlindMarket.DeployPayments.Holds

/-!
# What a request and a tick write

A credit is written as it was read: by a request from Redis, by a tick from an
event. A tick moves the checkpoint over the blocks whose credits it has
recorded, and once before that, when it finds none.
-/
namespace DeployPayments

open Async Prog Runs

variable {cfg : Config} {isTick : Prop} {a b : Answers Ans Failure} {credit : AgentDeployCredit}

/-- The credit was read, from Redis or from an event. -/
def Source (a : Answers Ans Failure) (credit : AgentDeployCredit) : Prop :=
  (∃ user nonce, ⟨.getCredit user nonce, .ok (some credit)⟩ ∈ a) ∨
    ∃ fromBlock toBlock events, ⟨.queryFilter fromBlock toBlock, .ok events⟩ ∈ a ∧
      ∃ event ∈ events, event.credit? = some credit

/-- The event's credit was found recorded, or was recorded. -/
def RecordedIn (cfg : Config) (a : Answers Ans Failure) (credit : AgentDeployCredit) : Prop :=
  ⟨.isPaymentRecorded (creditPaymentKey cfg credit.nonce), .ok true⟩ ∈ a ∨
    ⟨.sadd credit.user credit.nonce, .ok ()⟩ ∈ a

/-- The first block of a scan follows the checkpoint, or is one the tick itself has stored. -/
def StartsAt (cfg : Config) (a : Answers Ans Failure) (fromBlock : Nat) : Prop :=
  (∃ checkpoint addr, ⟨.getCheckpoint, .ok (some checkpoint)⟩ ∈ a ∧
    ⟨.contract, .ok (some addr)⟩ ∈ a ∧
    fromBlock = max (checkpoint + 1) (factoryDeploymentBlock cfg addr)) ∨
    ⟨.setCheckpoint fromBlock, .ok ()⟩ ∈ a

/-- The scan up to a block is over. -/
def Scans (cfg : Config) (a : Answers Ans Failure) (block : Nat) : Prop :=
  ∃ fromBlock events, ⟨.queryFilter fromBlock block, .ok events⟩ ∈ a ∧ StartsAt cfg a fromBlock ∧
    ∀ event ∈ events, ∀ credit, event.credit? = some credit → RecordedIn cfg a credit

/-- What is written, given what was read. -/
def Writes (cfg : Config) (isTick : Prop) (a : Answers Ans Failure) : Cmd → Prop
  | .setCredit user nonce credit => user = credit.user ∧ nonce = credit.nonce ∧ Source a credit
  | .sadd user nonce => ∃ credit b, a = ⟨.setCredit user nonce credit, .ok ()⟩ :: b ∧
      user = credit.user ∧ nonce = credit.nonce ∧ Source b credit
  | .setCheckpoint block =>
    isTick ∧ ((∃ b, a = ⟨.getCheckpoint, .ok none⟩ :: b) ∨ Scans cfg a block)
  | _ => True

theorem Source.suffix (h : Source a credit) (hs : a <:+ b) : Source b credit := by
  obtain ⟨user, nonce, hmem⟩ | ⟨fromBlock, toBlock, events, hmem, hevent⟩ := h
  · exact .inl ⟨user, nonce, hs.subset hmem⟩
  · exact .inr ⟨fromBlock, toBlock, events, hs.subset hmem, hevent⟩

theorem RecordedIn.suffix (h : RecordedIn cfg a credit) (hs : a <:+ b) :
    RecordedIn cfg b credit := h.imp (fun h => hs.subset h) fun h => hs.subset h

theorem StartsAt.suffix {fromBlock : Nat} (h : StartsAt cfg a fromBlock) (hs : a <:+ b) :
    StartsAt cfg b fromBlock := by
  obtain ⟨checkpoint, addr, hmem, haddr, heq⟩ | hmem := h
  · exact .inl ⟨checkpoint, addr, hs.subset hmem, hs.subset haddr, heq⟩
  · exact .inr (hs.subset hmem)

/-- What writes nothing. -/
def Reads : Cmd → Prop
  | .setCredit _ _ _ => False
  | .sadd _ _ => False
  | .setCheckpoint _ => False
  | _ => True

theorem Reads.writes {c : Cmd} (h : Reads c) : Writes cfg isTick a c := by
  cases c <;> trivial

theorem told_reads {α : Type} {p : Deploys α} (h : p.Issues Reads) :
    p.Told (Writes cfg isTick) (fun _ _ => True) a :=
  h.told (I := fun _ => True) trivial (fun _ _ _ _ _ => trivial) fun _ _ _ h => h.writes

theorem reads_call {c : Cmd} (h : Reads c) : (call c : Deploys (Ans c)).Issues Reads :=
  issues_call h

theorem told_call {c : Cmd} (h : Reads c) :
    (call c : Deploys (Ans c)).Told (Writes cfg isTick) (fun _ _ => True) a := told_reads (reads_call h)

/-! ## Requests -/

theorem reads_orElse {α : Type} {p : Deploys α} {default : α} (h : p.Issues Reads) :
    (orElse p default).Issues Reads := by
  refine h.attempt.bind fun r => ?_
  cases r <;> exact issues_done _

theorem reads_claimPayment {key : PaymentKey} {owner : Address} :
    (claimPayment cfg key owner).Issues Reads := by
  refine (issues_call trivial).bind fun now => ?_
  split
  · refine (issues_call trivial).bind fun inserted => ?_
    split
    · exact issues_done _
    · refine (issues_call trivial).bind fun tookOver => ?_
      split
      · exact issues_done _
      · exact (issues_call trivial).bind fun agentId => issues_done _
  · exact issues_call trivial

/-- What a program that was given only credits it has read may return. -/
def Returns {α : Type} (good : Answers Ans Failure → α → Prop) (a : Answers Ans Failure) :
    Except Failure α → Prop
  | .ok v => good a v
  | .error _ => True

theorem writes_getCredits {user : Address} (nonces : List Nonce) :
    (getCredits user nonces).Told (Writes cfg isTick)
      (Returns fun a credits => ∀ credit ∈ credits, Source a credit) a := by
  induction nonces generalizing a with
  | nil => exact show ∀ credit ∈ [], Source a credit by simp
  | cons nonce nonces ih =>
    refine ⟨trivial, fun r => ?_⟩
    cases r with
    | error e => trivial
    | ok raw =>
      refine (ih (a := ⟨.getCredit user nonce, .ok raw⟩ :: a)).bind (fun a' rest hs hrest => ?_)
        fun _ _ _ _ => trivial
      intro credit hmem
      obtain hmem | hmem := List.mem_append.mp hmem
      · rw [Option.mem_toList] at hmem
        obtain rfl : raw = some credit := hmem
        exact .inl ⟨user, nonce, hs.subset List.mem_cons_self⟩
      · exact hrest credit hmem

theorem writes_listDeployCredits {user : Address} :
    (listDeployCredits user).Told (Writes cfg isTick)
      (Returns fun a credits => ∀ credit ∈ credits, Source a credit) a := by
  refine ⟨trivial, fun r => ?_⟩
  cases r with
  | error e => trivial
  | ok nonces =>
    refine (writes_getCredits nonces).bind (fun a' credits _ h => ?_) fun _ _ _ _ => trivial
    exact fun credit hmem => h credit ((List.mem_insertionSort byNonce).mp hmem)

theorem writes_claimFirst {user : Address} (credits : List AgentDeployCredit)
    (h : ∀ credit ∈ credits, Source a credit) :
    (claimFirst cfg user credits).Told (Writes cfg isTick)
      (Returns fun a found => ∀ credit, found = some credit → Source a credit) a := by
  induction credits generalizing a with
  | nil => exact fun credit heq => by cases heq
  | cons credit credits ih =>
    have hrest : ∀ {b : Answers Ans Failure}, a <:+ b → ∀ c ∈ credits, Source b c :=
      fun hs c hc => (h c (List.mem_cons_of_mem _ hc)).suffix hs
    refine ⟨trivial, fun r => ?_⟩
    cases r with
    | error e => trivial
    | ok removed =>
      cases removed with
      | false => exact ih (hrest (List.suffix_cons _ _))
      | true =>
        refine ⟨trivial, fun r => ?_⟩
        cases r with
        | error e => trivial
        | ok _ =>
          have hs₀ : a <:+ ⟨.delCredit user credit.nonce, .ok ()⟩ ::
              ⟨.srem user credit.nonce, .ok true⟩ :: a :=
            (List.suffix_cons _ _).trans (List.suffix_cons _ _)
          refine (told_reads reads_claimPayment).bind (fun a' claim hs _ => ?_)
            fun _ _ _ _ => trivial
          cases claim with
          | claimed =>
            intro c heq
            cases heq
            exact (h credit List.mem_cons_self).suffix (hs₀.trans hs)
          | notClaimed pending agentId => exact ih (hrest (hs₀.trans hs))

theorem writes_claimFromWallets (wallets : List Address) :
    (claimFromWallets cfg wallets).Told (Writes cfg isTick)
      (Returns fun a found => ∀ credit, found = some credit → Source a credit) a := by
  induction wallets generalizing a with
  | nil => exact fun credit heq => by cases heq
  | cons wallet wallets ih =>
    have hclaim : (claimDeployCredit cfg wallet).Told (Writes cfg isTick)
        (Returns fun a found => ∀ credit, found = some credit → Source a credit) a :=
      writes_listDeployCredits.bind (fun a' credits _ h => writes_claimFirst credits h)
        fun _ _ _ _ => trivial
    refine hclaim.bind (fun a' found _ hfound => ?_) fun _ _ _ _ => trivial
    cases found with
    | some credit => exact hfound
    | none => exact ih

/-- A payment whose credit, if it has one, was read. -/
def Payment.Read (a : Answers Ans Failure) : Payment → Prop
  | .credit credit => Source a credit
  | _ => True

theorem writes_takePayment {req : DeployRequest} :
    (takePayment cfg req).Told (Writes cfg isTick)
      (Returns fun a taken => ∀ payment, taken = .ok payment → payment.Read a) a := by
  unfold takePayment
  split
  · split
    · next feeTxHash _ =>
      have hfee : (claimArcDeployFee cfg feeTxHash req.ownerAddress).Issues Reads := by
        refine (reads_orElse (reads_call (c := .getLegacyMark feeTxHash) trivial)).bind fun legacy => ?_
        cases legacy with
        | none => exact reads_claimPayment
        | some mark =>
          cases mark with
          | other => exact reads_claimPayment
          | used agentId =>
            have hrecord : (recordUsedPayment (transferPaymentKey feeTxHash) req.ownerAddress
                agentId).Issues Reads :=
              (issues_call trivial).bind fun now => issues_call trivial
            exact hrecord.bind fun _ => reads_claimPayment
      refine (told_call (c := .verifyArcDeployFee feeTxHash req.callerWallets) trivial).bind
        (fun a₁ payer _ _ => ?_) fun _ _ _ _ => trivial
      refine (told_reads hfee).bind (fun a' claim _ _ => ?_) fun _ _ _ _ => trivial
      cases claim with
      | claimed =>
        intro payment heq
        cases heq
        trivial
      | notClaimed pending agentId =>
        cases pending <;> exact fun payment heq => by cases heq
    · refine (writes_claimFromWallets req.callerWallets).bind (fun a' found _ hfound => ?_)
        fun _ _ _ _ => trivial
      cases found with
      | none => exact fun payment heq => by cases heq
      | some credit =>
        intro payment heq
        cases heq
        exact hfound credit rfl
  · intro payment heq
    cases heq
    trivial

theorem writes_giveBack {payment : Payment} (h : payment.Read a) :
    (giveBack cfg payment).Told (Writes cfg isTick) (fun _ _ => True) a := by
  cases payment with
  | free => trivial
  | fee txHash => exact told_reads (reads_orElse (issues_call trivial))
  | credit credit =>
    have hrestore : (restoreDeployCredit cfg credit).Told (Writes cfg isTick) (fun _ _ => True) a := by
      refine ⟨trivial, fun r => ?_⟩
      cases r with
      | error e => trivial
      | ok _ =>
        refine ⟨⟨rfl, rfl, h.suffix (List.suffix_cons _ _)⟩, fun r => ?_⟩
        cases r with
        | error e => trivial
        | ok _ =>
          refine ⟨⟨credit, _, rfl, rfl, rfl, h.suffix (List.suffix_cons _ _)⟩, fun r => ?_⟩
          cases r <;> trivial
    refine (hrestore.attempt (R := fun _ _ => True) fun _ _ _ h => h).bind
      (fun a' r _ _ => ?_) fun _ _ _ _ => trivial
    cases r <;> trivial

theorem writes_deployPaid {req : DeployRequest} {payment : Payment} (h : payment.Read a) :
    (deployPaid cfg req payment).Told (Writes cfg isTick) (fun _ _ => True) a := by
  refine ⟨trivial, fun r => ?_⟩
  cases r with
  | error e =>
    have h' : payment.Read (⟨.deployAgent req.ownerAddress (payment.key cfg), .error e⟩ :: a) := by
      cases payment with
      | credit credit => exact Source.suffix h (List.suffix_cons _ _)
      | _ => trivial
    exact (writes_giveBack h').bind (fun _ _ _ _ => trivial) fun _ _ _ _ => trivial
  | ok agentId =>
    have hmark : (markUsed cfg agentId payment).Issues Reads := by
      cases payment with
      | free => exact issues_done _
      | _ => exact reads_orElse (issues_call trivial)
    refine (told_reads hmark).bind (fun a' _ _ _ => ?_) fun _ _ _ _ => trivial
    refine ⟨trivial, fun r => ?_⟩
    cases r <;> trivial

theorem writes_postDeploy (req : DeployRequest) :
    (postDeploy cfg req).Told (Writes cfg isTick) (fun _ _ => True) a := by
  refine (told_call (c := .prepareDeploy) trivial).bind (fun a₁ prepared _ _ => ?_)
    fun _ _ _ _ => trivial
  split
  · trivial
  · refine (told_call (c := .startRefusal req.ownerAddress) trivial).bind
      (fun a₂ refused _ _ => ?_) fun _ _ _ _ => trivial
    split
    · trivial
    · refine writes_takePayment.bind (fun a₃ taken _ h => ?_) fun _ _ _ _ => trivial
      cases taken with
      | error response => trivial
      | ok payment => exact writes_deployPaid (h payment rfl)

/-! ## Ticks -/

theorem writes_recordCredit {event : EventLog} {fromBlock toBlock : Nat} {events : List EventLog}
    (hread : ⟨.queryFilter fromBlock toBlock, .ok events⟩ ∈ a) (hevent : event ∈ events) :
    (recordCredit cfg event).Told (Writes cfg isTick)
      (Returns fun a _ => ∀ credit, event.credit? = some credit → RecordedIn cfg a credit) a := by
  unfold recordCredit
  split
  · next hnone => exact fun credit heq => by rw [hnone] at heq; cases heq
  · next credit hcredit =>
    have hsource : Source a credit :=
      .inr ⟨fromBlock, toBlock, events, hread, event, hevent, hcredit⟩
    have honly : ∀ {b}, RecordedIn cfg b credit →
        ∀ c, event.credit? = some c → RecordedIn cfg b c := by
      intro b hb c hc
      rw [hcredit] at hc
      cases hc
      exact hb
    refine ⟨trivial, fun r => ?_⟩
    cases r with
    | error e => trivial
    | ok recorded =>
      cases recorded with
      | true => exact honly (.inl List.mem_cons_self)
      | false =>
        refine ⟨trivial, fun r => ?_⟩
        cases r with
        | error e => trivial
        | ok existed =>
          have hsource' := hsource.suffix (b := ⟨.existsCredit credit.user credit.nonce, .ok existed⟩
            :: ⟨.isPaymentRecorded (creditPaymentKey cfg credit.nonce), .ok false⟩ :: a)
            ((List.suffix_cons _ _).trans (List.suffix_cons _ _))
          refine ⟨⟨rfl, rfl, hsource'⟩, fun r => ?_⟩
          cases r with
          | error e => trivial
          | ok _ =>
            refine ⟨⟨credit, _, rfl, rfl, rfl, hsource'⟩, fun r => ?_⟩
            cases r with
            | error e => trivial
            | ok _ => exact honly (.inr List.mem_cons_self)

theorem writes_recordCredits {fromBlock toBlock : Nat} {all : List EventLog}
    (events : List EventLog) (hall : ∀ event ∈ events, event ∈ all)
    (hread : ⟨.queryFilter fromBlock toBlock, .ok all⟩ ∈ a) :
    (recordCredits cfg events).Told (Writes cfg isTick) (Returns fun a _ =>
      ∀ event ∈ events, ∀ credit, event.credit? = some credit → RecordedIn cfg a credit) a := by
  induction events generalizing a with
  | nil => exact show ∀ event ∈ [], _ by simp
  | cons event events ih =>
    refine (writes_recordCredit hread (hall event List.mem_cons_self)).bind
      (fun a₁ _ hs h₁ => ?_) fun _ _ _ _ => trivial
    refine ((ih (fun e he => hall e (List.mem_cons_of_mem _ he)) (hs.subset hread)).suffix).mono
      (fun _ _ => id) fun a₂ r h₂ => ?_
    cases r with
    | error e => trivial
    | ok _ =>
      intro e he credit hcredit
      obtain rfl | he := List.mem_cons.mp he
      · exact (h₁ credit hcredit).suffix h₂.1
      · exact h₂.2 e he credit hcredit

theorem writes_firstBlock {addr : Address} {latest : Nat} (htick : isTick)
    (haddr : ⟨.contract, .ok (some addr)⟩ ∈ a) :
    (firstBlock cfg addr latest).Told (Writes cfg isTick) (Returns fun a fromBlock =>
      StartsAt cfg a fromBlock) a := by
  refine ⟨trivial, fun r => ?_⟩
  cases r with
  | error e => trivial
  | ok checkpoint =>
    cases checkpoint with
    | some checkpoint =>
      exact .inl ⟨checkpoint, addr, List.mem_cons_self, List.mem_cons_of_mem _ haddr, rfl⟩
    | none =>
      refine ⟨⟨htick, .inl ⟨_, rfl⟩⟩, fun r => ?_⟩
      cases r with
      | error e => trivial
      | ok _ => exact .inr List.mem_cons_self

theorem writes_poll (htick : isTick) : (poll cfg).Told (Writes cfg isTick) (fun _ _ => True) a := by
  refine ⟨trivial, fun r => ?_⟩
  cases r with
  | error e => trivial
  | ok addr =>
    cases addr with
    | none => trivial
    | some addr =>
      refine ⟨trivial, fun r => ?_⟩
      cases r with
      | error e => trivial
      | ok latest =>
        refine (writes_firstBlock htick (List.mem_cons_of_mem _ List.mem_cons_self)).bind
          (fun a₁ fromBlock _ hstarts => ?_) fun _ _ _ _ => trivial
        split
        · trivial
        · refine ⟨trivial, fun r => ?_⟩
          cases r with
          | error e => trivial
          | ok events =>
            refine ((writes_recordCredits events (fun _ h => h) List.mem_cons_self).suffix).bind
              (fun a₂ _ _ h => ?_) fun _ _ _ _ => trivial
            refine ⟨⟨htick, .inr ⟨fromBlock, events, h.1.subset List.mem_cons_self, ?_, h.2⟩⟩,
              fun r => ?_⟩
            · exact (hstarts.suffix (List.suffix_cons _ _)).suffix h.1
            · cases r <;> trivial

theorem writes_tick (htick : isTick) : (tick cfg).Told (Writes cfg isTick) (fun _ _ => True) a := by
  refine (told_call (c := .backgroundWritesAllowed) trivial).bind
    (fun a₁ allowed _ _ => ?_) fun _ _ _ _ => trivial
  split
  · trivial
  · refine (told_call (c := .enterTick) trivial).bind (fun a₂ entered _ _ => ?_)
      fun _ _ _ _ => trivial
    split
    · trivial
    · have hignored : (ignore (poll cfg)).Told (Writes cfg isTick) (fun _ _ => True) a₂ :=
        ((writes_poll htick).attempt (R := fun _ _ => True) fun _ _ _ h => h).bind
          (fun a' r _ _ => by cases r <;> trivial) fun _ _ _ _ => trivial
      refine hignored.bind (fun a₃ _ _ _ => ?_) fun _ _ _ _ => trivial
      exact told_reads (issues_call trivial)

theorem start_writes {chain : Chain} {env : State → State → Prop} (tags : List Call) (s : State)
    (t : Call) (p : Deploys (Option Response)) (s' : State)
    (h : (deploys cfg chain env).start tags s t p s') :
    p.Told (Writes cfg (t.op = .tick)) (fun _ _ => True) [] := by
  obtain ⟨-, rfl, -⟩ := h
  cases hop : t.op with
  | deploy req =>
    exact (writes_postDeploy req).bind (fun _ _ _ _ => trivial) fun _ _ _ _ => trivial
  | tick => exact (writes_tick rfl).bind (fun _ _ _ _ => trivial) fun _ _ _ _ => trivial

end DeployPayments
