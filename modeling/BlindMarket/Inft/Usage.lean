import BlindMarket.Inft.System

/-!
# Usage authorisations

A grant counts while its nonce is the token's, and each change of owner moves
the token's nonce. So the grants in force are those of the present owner.
-/
namespace Inft

open BlindEscrow (Address)
open Checked Runs

variable {Approvals : Type} {D : Deployment Approvals} {c c' c₀ : Config Approvals}
  {e : Event Approvals} {tr : Trace Approvals} {s s' : State Approvals} {w : World Approvals}
  {m : Msg Approvals} {rest : Option (Address × Frame)} {tokenId : TokenId} {executor : Address}
  {permissions : Bytes}

def Op.creates : Op Approvals → Bool
  | .mint _ _ _ | .clone _ _ _ => true
  | _ => false

def Op.transfers : Op Approvals → Option TokenId
  | .transferWithProof _ _ tokenId _ | .transferFrom _ _ tokenId
  | .safeTransferFrom _ _ tokenId => some tokenId
  | _ => none

/-- The event gives the token an owner: its mint, or a transfer. -/
def Event.moves (tokenId : TokenId) (e : Event Approvals) : Prop :=
  ∃ m, e.kind = .called m ∧ (m.op.creates = true ∧ e.pre.world.inft.nextTokenId = tokenId ∨
    m.op.transfers = some tokenId)

/-- The owner authorises the executor. -/
def Event.authorizes (tokenId : TokenId) (executor : Address) (permissions : Bytes)
    (e : Event Approvals) : Prop :=
  ∃ sender, e.kind = .called ⟨sender, .authorizeUsage tokenId executor permissions⟩ ∧
    e.pre.world.inft.owners tokenId = sender

def Event.revokes (tokenId : TokenId) (executor : Address) (e : Event Approvals) : Prop :=
  ∃ sender, e.kind = .called ⟨sender, .revokeUsage tokenId executor⟩

/-- The event says nothing on the executor of the token. -/
structure Event.Silent (tokenId : TokenId) (executor : Address) (e : Event Approvals) : Prop where
  moves : ¬ e.moves tokenId
  revokes : ¬ e.revokes tokenId executor
  authorizes : ∀ permissions, ¬ e.authorizes tokenId executor permissions

/-- The token came to its owner, who then authorised the executor, and nothing was said since. -/
def Granted (tr : Trace Approvals) (tokenId : TokenId) (executor : Address)
    (permissions : Bytes) : Prop :=
  permissions ≠ [] ∧ ∃ later e earlier, tr = later ++ e :: earlier ∧
    e.authorizes tokenId executor permissions ∧ (∃ e' ∈ earlier, e'.moves tokenId) ∧
    ∀ e' ∈ later, e'.Silent tokenId executor

theorem granted_cons : Granted (e :: tr) tokenId executor permissions ↔
    (permissions ≠ [] ∧ e.authorizes tokenId executor permissions ∧
      ∃ e' ∈ tr, e'.moves tokenId) ∨
    (e.Silent tokenId executor ∧ Granted tr tokenId executor permissions) := by
  constructor
  · rintro ⟨hne, later, e', earlier, heq, hauth, hmoves, hsilent⟩
    cases later with
    | nil =>
      cases heq
      exact .inl ⟨hne, hauth, hmoves⟩
    | cons e'' later =>
      cases heq
      exact .inr ⟨hsilent e List.mem_cons_self, hne, later, e', earlier, rfl, hauth, hmoves,
        fun e' he' => hsilent e' (List.mem_cons_of_mem _ he')⟩
  · rintro (⟨hne, hauth, hmoves⟩ | ⟨he, hne, later, e', earlier, rfl, hauth, hmoves, hsilent⟩)
    · exact ⟨hne, [], e, tr, rfl, hauth, hmoves, by simp⟩
    · refine ⟨hne, e :: later, e', earlier, rfl, hauth, hmoves, fun e'' he'' => ?_⟩
      obtain rfl | he'' := List.mem_cons.mp he''
      · exact he
      · exact hsilent e'' he''

/-! ## What a call does -/

/-- The part of the storage that tells who may use a token. -/
structure Usage where
  owners : TokenId → Address
  authorizations : TokenId → Address → Bytes
  tokenAuthNonce : TokenId → Nat
  authNonceAt : TokenId → Address → Nat

def State.usage (s : State Approvals) : Usage :=
  ⟨s.owners, s.authorizations, s.tokenAuthNonce, s.authNonceAt⟩

/-- What a call does to the usage of the tokens. -/
inductive Change (u : Usage) (next : TokenId) (m : Msg Approvals) : Usage → Prop where
  | created (receiver : Address) (hop : m.op.creates = true) (hreceiver : receiver ≠ 0)
      (hnew : u.owners next = 0) :
      Change u next m { u with owners := Function.update u.owners next receiver }
  | moved (tokenId : TokenId) (receiver : Address) (hop : m.op.transfers = some tokenId)
      (hreceiver : receiver ≠ 0) (hold : u.owners tokenId ≠ 0) :
      Change u next m { u with
        owners := Function.update u.owners tokenId receiver
        tokenAuthNonce := Function.update u.tokenAuthNonce tokenId (u.tokenAuthNonce tokenId + 1) }
  | granted (tokenId : TokenId) (executor : Address) (permissions : Bytes)
      (hop : m.op = .authorizeUsage tokenId executor permissions)
      (howner : u.owners tokenId = m.sender) (hold : u.owners tokenId ≠ 0) :
      Change u next m { u with
        authorizations := Function.update u.authorizations tokenId
          (Function.update (u.authorizations tokenId) executor permissions)
        authNonceAt := Function.update u.authNonceAt tokenId
          (Function.update (u.authNonceAt tokenId) executor (u.tokenAuthNonce tokenId)) }
  | revoked (tokenId : TokenId) (executor : Address) (hop : m.op = .revokeUsage tokenId executor) :
      Change u next m { u with
        authorizations := Function.update u.authorizations tokenId
          (Function.update (u.authorizations tokenId) executor []) }
  | none (hcreates : m.op.creates = false) (htransfers : m.op.transfers = none)
      (hauth : ∀ tokenId executor permissions, m.op ≠ .authorizeUsage tokenId executor permissions)
      (hrevoke : ∀ tokenId executor, m.op ≠ .revokeUsage tokenId executor) : Change u next m u

theorem ownerOf_eq {owner : Address} : ownerOf tokenId s = .ok owner ↔
    s.owners tokenId ≠ 0 ∧ owner = s.owners tokenId := by
  simp only [ownerOf, seq_eq_ok, require_eq_ok, exists_const, pure_eq, Except.ok.injEq,
    @eq_comm _ owner]

theorem update_owner (receiver : Address) (tokenId : TokenId) (s : State Approvals) :
    (update D receiver tokenId s).1 = s.owners tokenId := by
  unfold update
  dsimp only
  split <;> rfl

theorem created_usage {receiver : Address} (hnew : s.owners tokenId = 0) :
    (update D receiver tokenId s).2.usage =
      { s.usage with owners := Function.update s.owners tokenId receiver } := by
  unfold update
  dsimp only
  rw [if_neg (not_not.mpr hnew)]
  rfl

theorem mintToken_usage {receiver : Address} (h : mintToken D receiver tokenId s = .ok s') :
    receiver ≠ 0 ∧ s.owners tokenId = 0 ∧
      s'.usage = { s.usage with owners := Function.update s.owners tokenId receiver } := by
  simp only [mintToken, seq_eq_ok, require_eq_ok, exists_const, pure_eq, Except.ok.injEq] at h
  obtain ⟨hreceiver, hnew, rfl⟩ := h
  rw [update_owner] at hnew
  exact ⟨hreceiver, hnew, created_usage hnew⟩

theorem moved_usage {receiver : Address} (hold : s.owners tokenId ≠ 0) :
    (update D receiver tokenId s).2.usage = { s.usage with
      owners := Function.update s.owners tokenId receiver
      tokenAuthNonce :=
        Function.update s.tokenAuthNonce tokenId (s.tokenAuthNonce tokenId + 1) } := by
  unfold update
  dsimp only
  rw [if_pos hold]
  rfl

theorem transferFrom_usage {sender owner receiver : Address}
    (h : transferFrom D sender owner receiver tokenId s = .ok s') :
    receiver ≠ 0 ∧ s.owners tokenId ≠ 0 ∧ s'.usage = { s.usage with
      owners := Function.update s.owners tokenId receiver
      tokenAuthNonce :=
        Function.update s.tokenAuthNonce tokenId (s.tokenAuthNonce tokenId + 1) } := by
  simp only [transferFrom, seq_eq_ok, require_eq_ok, exists_const, ownerOf_eq, pure_eq,
    Except.ok.injEq] at h
  obtain ⟨hreceiver, -, ⟨hold, -⟩, -, -, rfl⟩ := h
  exact ⟨hreceiver, hold, moved_usage hold⟩

/-- Every call that goes through does one of these. -/
theorem begin_change (h : begin D m w = .ok (s', rest)) :
    Change w.inft.usage w.inft.nextTokenId m s'.usage := by
  obtain ⟨sender, op⟩ := m
  cases op with
  | mint receiver uri hash =>
    simp only [begin, mint, onlyOwner, seq_eq_ok, require_eq_ok, exists_const, pure_eq,
      Except.ok.injEq, Prod.mk.injEq] at h
    obtain ⟨⟨s₁, frame⟩, ⟨-, s₂, hmint, heq⟩, rfl, -⟩ := h
    cases heq
    obtain ⟨hreceiver, hnew, husage⟩ := mintToken_usage hmint
    rw [husage]
    exact .created receiver rfl hreceiver hnew
  | clone receiver tokenId proof =>
    simp only [begin, clone, nonReentrant, seq_eq_ok, require_eq_ok, exists_const, ownerOf_eq,
      orElse_eq_ok, pure_eq, Except.ok.injEq, Prod.mk.injEq] at h
    obtain ⟨⟨s₁, frame⟩, ⟨-, owner, -, -, -, metadata, -, s₂, hmint, heq⟩, rfl, -⟩ := h
    cases heq
    obtain ⟨hreceiver, hnew, husage⟩ := mintToken_usage hmint
    rw [husage]
    exact .created receiver rfl hreceiver hnew
  | transferWithProof owner receiver tokenId proof =>
    simp only [begin, transferWithProof, transfer, nonReentrant, seq_eq_ok, require_eq_ok,
      exists_const, ownerOf_eq, orElse_eq_ok, pure_eq, Except.ok.injEq, Prod.mk.injEq] at h
    obtain ⟨s₁, ⟨-, -, ⟨hold, -⟩, -, hreceiver, -, -, -, -, -, -, -, rfl⟩, rfl, -⟩ := h
    rw [moved_usage (show (setMetadata tokenId _ _ w.inft).owners tokenId ≠ 0 from hold)]
    exact .moved tokenId receiver rfl hreceiver hold
  | transferFrom owner receiver tokenId =>
    simp only [begin, seq_eq_ok, pure_eq, Except.ok.injEq, Prod.mk.injEq] at h
    obtain ⟨s₁, hmove, rfl, -⟩ := h
    obtain ⟨hreceiver, hold, husage⟩ := transferFrom_usage hmove
    rw [husage]
    exact .moved tokenId receiver rfl hreceiver hold
  | safeTransferFrom owner receiver tokenId =>
    simp only [begin, seq_eq_ok, pure_eq, Except.ok.injEq, Prod.mk.injEq] at h
    obtain ⟨s₁, hmove, rfl, -⟩ := h
    obtain ⟨hreceiver, hold, husage⟩ := transferFrom_usage hmove
    rw [husage]
    exact .moved tokenId receiver rfl hreceiver hold
  | approve approvals =>
    simp only [begin, pure_eq, Except.ok.injEq, Prod.mk.injEq] at h
    obtain ⟨rfl, -⟩ := h
    exact .none rfl rfl (by simp) (by simp)
  | authorizeUsage tokenId executor permissions =>
    simp only [begin, authorizeUsage, seq_eq_ok, require_eq_ok, exists_const, ownerOf_eq, pure_eq,
      Except.ok.injEq, Prod.mk.injEq] at h
    obtain ⟨s₁, ⟨owner, ⟨hold, rfl⟩, howner, -, rfl⟩, rfl, -⟩ := h
    exact .granted tokenId executor permissions rfl howner hold
  | revokeUsage tokenId executor =>
    simp only [begin, revokeUsage, seq_eq_ok, require_eq_ok, exists_const, ownerOf_eq, pure_eq,
      Except.ok.injEq, Prod.mk.injEq] at h
    obtain ⟨s₁, ⟨owner, -, -, rfl⟩, rfl, -⟩ := h
    exact .revoked tokenId executor rfl
  | setOracle newOracle | transferOwnership newOwner =>
    simp only [begin, onlyOwner, seq_eq_ok, require_eq_ok, exists_const, pure_eq, Except.ok.injEq,
      Prod.mk.injEq] at h
    obtain ⟨-, -, rfl, -⟩ := h
    exact .none rfl rfl (by simp) (by simp)
  | renounceOwnership =>
    simp only [begin, onlyOwner, seq_eq_ok, require_eq_ok, exists_const, pure_eq, Except.ok.injEq,
      Prod.mk.injEq] at h
    obtain ⟨-, rfl, -⟩ := h
    exact .none rfl rfl (by simp) (by simp)

@[simp] theorem finish_usage (frame : Frame) (s : State Approvals) :
    (frame.finish s).usage = s.usage := by
  cases frame <;> rfl

@[simp] theorem stop_usage (s : State Approvals) (rest : Option (Address × Frame)) :
    (c.stop s rest).world.inft.usage = s.usage := by
  cases rest with
  | none => rfl
  | some x =>
    obtain ⟨receiver, frame⟩ := x
    simp only [Config.stop]
    split
    · rfl
    · exact finish_usage frame s

/-! ## The invariant -/

/-- What `getAuthorization` reads. -/
def Usage.inForce (u : Usage) (tokenId : TokenId) (executor : Address) : Bytes :=
  if u.authNonceAt tokenId executor = u.tokenAuthNonce tokenId then
    u.authorizations tokenId executor
  else []

/-- Grants of an earlier owner have an earlier nonce; those of the present one are in force. -/
structure UsageOk (tr : Trace Approvals) (u : Usage) : Prop where
  nonce : ∀ tokenId executor, u.authNonceAt tokenId executor ≤ u.tokenAuthNonce tokenId
  unowned : ∀ tokenId executor, u.owners tokenId = 0 → u.authorizations tokenId executor = []
  owned : ∀ tokenId, u.owners tokenId ≠ 0 → ∃ e ∈ tr, e.moves tokenId
  granted : ∀ tokenId executor permissions, Granted tr tokenId executor permissions ↔
    permissions ≠ [] ∧ u.inForce tokenId executor = permissions

theorem Event.moves_iff : (⟨.called m, c⟩ : Event Approvals).moves tokenId ↔
    m.op.creates = true ∧ c.world.inft.nextTokenId = tokenId ∨ m.op.transfers = some tokenId := by
  constructor
  · rintro ⟨m', hkind, h⟩
    cases hkind
    exact h
  · exact fun h => ⟨m, rfl, h⟩

theorem Event.silent_called (hmoves : ¬ (⟨.called m, c⟩ : Event Approvals).moves tokenId)
    (hrevoke : m.op ≠ .revokeUsage tokenId executor)
    (hauth : ∀ permissions, m.op ≠ .authorizeUsage tokenId executor permissions) :
    (⟨.called m, c⟩ : Event Approvals).Silent tokenId executor where
  moves := hmoves
  revokes := by
    rintro ⟨sender, hkind⟩
    cases hkind
    exact hrevoke rfl
  authorizes := by
    rintro permissions ⟨sender, hkind, -⟩
    cases hkind
    exact hauth permissions rfl

/-- The word of one event: none, that nothing is granted, or a grant. -/
inductive Word (tr : Trace Approvals) (e : Event Approvals) (tokenId : TokenId)
    (executor : Address) (before : Bytes) : Bytes → Prop where
  | silent (h : e.Silent tokenId executor) : Word tr e tokenId executor before before
  | ended (h : ¬ e.Silent tokenId executor)
      (hauth : ∀ permissions, ¬ e.authorizes tokenId executor permissions) :
      Word tr e tokenId executor before []
  | granted (permissions : Bytes) (h : e.authorizes tokenId executor permissions)
      (howned : ∃ e' ∈ tr, e'.moves tokenId) : Word tr e tokenId executor before permissions

theorem Word.granted_iff {before after : Bytes} (h : Word tr e tokenId executor before after)
    (hbefore : Granted tr tokenId executor permissions ↔ permissions ≠ [] ∧ before = permissions) :
    Granted (e :: tr) tokenId executor permissions ↔
      permissions ≠ [] ∧ after = permissions := by
  rw [granted_cons]
  cases h with
  | silent h =>
    rw [← hbefore]
    exact ⟨fun hgranted => hgranted.elim (fun he => absurd he.2.1 (h.authorizes _)) And.right,
      fun hgranted => .inr ⟨h, hgranted⟩⟩
  | ended h hauth =>
    constructor
    · rintro (⟨-, he, -⟩ | ⟨he, -⟩)
      · exact absurd he (hauth _)
      · exact absurd he h
    · rintro ⟨hne, rfl⟩
      exact absurd rfl hne
  | granted permissions' h howned =>
    have hsame : ∀ permissions, e.authorizes tokenId executor permissions →
        after = permissions := by
      rintro permissions ⟨sender, hkind, -⟩
      obtain ⟨sender', hkind', -⟩ := h
      rw [hkind] at hkind'
      cases hkind'
      rfl
    constructor
    · rintro (⟨hne, he, -⟩ | ⟨he, -⟩)
      · exact ⟨hne, hsame _ he⟩
      · exact absurd h (he.authorizes _)
    · rintro ⟨hne, rfl⟩
      exact .inl ⟨hne, h, howned⟩

theorem Word.of_eq {before after after' : Bytes} (heq : after = after')
    (h : Word tr e tokenId executor before after') : Word tr e tokenId executor before after :=
  heq ▸ h

theorem Usage.inForce_stale {u : Usage}
    (h : u.authNonceAt tokenId executor < u.tokenAuthNonce tokenId) :
    u.inForce tokenId executor = [] := if_neg h.ne

theorem Usage.inForce_empty {u : Usage} (h : u.authorizations tokenId executor = []) :
    u.inForce tokenId executor = [] := by
  unfold Usage.inForce
  rw [h, ite_self]

theorem Usage.inForce_congr {u u' : Usage}
    (hnonce : u'.tokenAuthNonce tokenId = u.tokenAuthNonce tokenId)
    (hat : u'.authNonceAt tokenId executor = u.authNonceAt tokenId executor)
    (hauth : u'.authorizations tokenId executor = u.authorizations tokenId executor) :
    u'.inForce tokenId executor = u.inForce tokenId executor := by
  unfold Usage.inForce
  rw [hnonce, hat, hauth]

/-- A call of another function says nothing, unless it moves the token. -/
theorem Event.silent_other (hmoves : ¬ (⟨.called m, c⟩ : Event Approvals).moves tokenId)
    (hop : m.op.creates = true ∨ m.op.transfers ≠ none) :
    (⟨.called m, c⟩ : Event Approvals).Silent tokenId executor := by
  refine Event.silent_called hmoves (fun hm => ?_) fun permissions hm => ?_ <;>
    · rw [hm] at hop
      simp [Op.creates, Op.transfers] at hop

theorem Event.not_authorizes (hop : m.op.creates = true ∨ m.op.transfers ≠ none) :
    ¬ (⟨.called m, c⟩ : Event Approvals).authorizes tokenId executor permissions := by
  rintro ⟨sender, hkind, -⟩
  cases hkind
  simp [Op.creates, Op.transfers] at hop

theorem UsageOk.cons {u u' : Usage} (h : UsageOk tr u)
    (hnonce : ∀ tokenId executor, u'.authNonceAt tokenId executor ≤ u'.tokenAuthNonce tokenId)
    (hunowned : ∀ tokenId executor, u'.owners tokenId = 0 →
      u'.authorizations tokenId executor = [])
    (howned : ∀ tokenId, u'.owners tokenId ≠ 0 → u.owners tokenId ≠ 0 ∨ e.moves tokenId)
    (hword : ∀ tokenId executor,
      Word tr e tokenId executor (u.inForce tokenId executor) (u'.inForce tokenId executor)) :
    UsageOk (e :: tr) u' where
  nonce := hnonce
  unowned := hunowned
  owned tokenId hold := by
    obtain hold | hmoves := howned tokenId hold
    · obtain ⟨e', he', hmoves⟩ := h.owned tokenId hold
      exact ⟨e', List.mem_cons_of_mem _ he', hmoves⟩
    · exact ⟨e, List.mem_cons_self, hmoves⟩
  granted tokenId executor permissions :=
    (hword tokenId executor).granted_iff (h.granted tokenId executor permissions)

/-- A step that says nothing on usage. -/
theorem UsageOk.silent {u : Usage} (h : UsageOk tr u)
    (hsilent : ∀ tokenId executor, e.Silent tokenId executor) : UsageOk (e :: tr) u :=
  h.cons h.nonce h.unowned (fun _ => .inl) fun tokenId executor =>
    .silent (hsilent tokenId executor)

theorem UsageOk.created {u : Usage} {receiver : Address} (h : UsageOk tr u)
    (hop : m.op.creates = true) (hreceiver : receiver ≠ 0)
    (hnew : u.owners c.world.inft.nextTokenId = 0) :
    UsageOk (⟨.called m, c⟩ :: tr)
      { u with owners := Function.update u.owners c.world.inft.nextTokenId receiver } := by
  have hmoves : ∀ id, (⟨.called m, c⟩ : Event Approvals).moves id ↔
      id = c.world.inft.nextTokenId := by
    intro id
    rw [Event.moves_iff]
    cases hm : m.op <;> simp [hm, Op.creates, Op.transfers, eq_comm] at hop ⊢
  refine h.cons h.nonce (fun id executor hid => ?_) (fun id hid => ?_) fun id executor => ?_
  · by_cases heq : id = c.world.inft.nextTokenId
    · subst heq
      simp [hreceiver] at hid
    · exact h.unowned id executor (by simpa [heq] using hid)
  · by_cases heq : id = c.world.inft.nextTokenId
    · exact .inr ((hmoves id).mpr heq)
    · exact .inl (by simpa [heq] using hid)
  · by_cases heq : id = c.world.inft.nextTokenId
    · subst heq
      exact .of_eq (Usage.inForce_empty (h.unowned _ executor hnew))
        (.ended (fun hs => hs.moves ((hmoves _).mpr rfl)) fun _ => Event.not_authorizes (.inl hop))
    · exact .silent (Event.silent_other (mt (hmoves id).mp heq) (.inl hop))

theorem UsageOk.moved {u : Usage} {receiver : Address} (h : UsageOk tr u)
    (hop : m.op.transfers = some tokenId) (hreceiver : receiver ≠ 0) :
    UsageOk (⟨.called m, c⟩ :: tr) { u with
      owners := Function.update u.owners tokenId receiver
      tokenAuthNonce :=
        Function.update u.tokenAuthNonce tokenId (u.tokenAuthNonce tokenId + 1) } := by
  have hmoves : ∀ id, (⟨.called m, c⟩ : Event Approvals).moves id ↔ id = tokenId := by
    intro id
    rw [Event.moves_iff, hop]
    cases hm : m.op <;> simp [hm, Op.creates, Op.transfers, eq_comm] at hop ⊢
  refine h.cons (fun id executor => ?_) (fun id executor hid => ?_) (fun id hid => ?_)
    fun id executor => ?_
  · by_cases heq : id = tokenId
    · subst heq
      simpa using Nat.le_succ_of_le (h.nonce id executor)
    · simpa [heq] using h.nonce id executor
  · by_cases heq : id = tokenId
    · subst heq
      simp [hreceiver] at hid
    · exact h.unowned id executor (by simpa [heq] using hid)
  · by_cases heq : id = tokenId
    · exact .inr ((hmoves id).mpr heq)
    · exact .inl (by simpa [heq] using hid)
  · by_cases heq : id = tokenId
    · subst heq
      refine .of_eq (Usage.inForce_stale ?_)
        (.ended (fun hs => hs.moves ((hmoves _).mpr rfl)) fun _ => Event.not_authorizes ?_)
      · simpa using Nat.lt_succ_of_le (h.nonce id executor)
      · exact .inr (by simp [hop])
    · exact .of_eq (Usage.inForce_congr (u := u) (by simp [heq]) rfl rfl)
        (.silent (Event.silent_other (mt (hmoves id).mp heq) (.inr (by simp [hop]))))

theorem update_update_apply {ι κ α : Type} [DecidableEq ι] [DecidableEq κ] (f : ι → κ → α)
    (i i' : ι) (j j' : κ) (v : α) :
    Function.update f i (Function.update (f i) j v) i' j' =
      if i' = i ∧ j' = j then v else f i' j' := by
  by_cases hi : i' = i
  · subst hi
    by_cases hj : j' = j
    · subst hj
      simp
    · simp [hj]
  · simp [hi]

theorem UsageOk.authorized {u : Usage} {sender : Address} (h : UsageOk tr u)
    (hu : c.world.inft.owners tokenId = sender) (hold : u.owners tokenId ≠ 0) :
    UsageOk (⟨.called ⟨sender, .authorizeUsage tokenId executor permissions⟩, c⟩ :: tr) { u with
      authorizations := Function.update u.authorizations tokenId
        (Function.update (u.authorizations tokenId) executor permissions)
      authNonceAt := Function.update u.authNonceAt tokenId
        (Function.update (u.authNonceAt tokenId) executor (u.tokenAuthNonce tokenId)) } := by
  refine h.cons (fun id x => ?_) (fun id x hid => ?_) (fun id => .inl) fun id x => ?_
  · simp only [update_update_apply]
    split
    · next heq => rw [heq.1]
    · exact h.nonce id x
  · have hne : ¬ (id = tokenId ∧ x = executor) := by
      rintro ⟨rfl, -⟩
      exact hold hid
    simp only [update_update_apply, if_neg hne]
    exact h.unowned id x hid
  · by_cases heq : id = tokenId ∧ x = executor
    · obtain ⟨rfl, rfl⟩ := heq
      refine .of_eq ?_ (.granted permissions ⟨sender, rfl, hu⟩ (h.owned id hold))
      simp [Usage.inForce]
    · refine .of_eq (Usage.inForce_congr (u := u) rfl ?_ ?_) (.silent (Event.silent_called ?_ ?_ ?_))
      · simp only [update_update_apply, if_neg heq]
      · simp only [update_update_apply, if_neg heq]
      · simp [Event.moves_iff, Op.creates, Op.transfers]
      · simp
      · rintro permissions' hop
        cases hop
        exact heq ⟨rfl, rfl⟩

theorem UsageOk.revoked {u : Usage} {sender : Address} (h : UsageOk tr u) :
    UsageOk (⟨.called ⟨sender, .revokeUsage tokenId executor⟩, c⟩ :: tr) { u with
      authorizations := Function.update u.authorizations tokenId
        (Function.update (u.authorizations tokenId) executor []) } := by
  refine h.cons h.nonce (fun id x hid => ?_) (fun id => .inl) fun id x => ?_
  · simp only [update_update_apply]
    split
    · rfl
    · exact h.unowned id x hid
  · by_cases heq : id = tokenId ∧ x = executor
    · obtain ⟨rfl, rfl⟩ := heq
      refine .of_eq (Usage.inForce_empty (by simp)) (.ended (fun hs => hs.revokes ⟨sender, rfl⟩) ?_)
      rintro permissions ⟨sender', hkind, -⟩
      cases hkind
    · refine .of_eq (Usage.inForce_congr (u := u) rfl rfl ?_) (.silent (Event.silent_called ?_ ?_ ?_))
      · simp only [update_update_apply, if_neg heq]
      · simp [Event.moves_iff, Op.creates, Op.transfers]
      · rintro hop
        cases hop
        exact heq ⟨rfl, rfl⟩
      · simp

theorem UsageOk.change {u : Usage} (h : UsageOk tr c.world.inft.usage)
    (hchange : Change c.world.inft.usage c.world.inft.nextTokenId m u) :
    UsageOk (⟨.called m, c⟩ :: tr) u := by
  obtain ⟨sender, op⟩ := m
  cases hchange with
  | created receiver hop hreceiver hnew => exact h.created hop hreceiver hnew
  | moved tokenId receiver hop hreceiver hold => exact h.moved hop hreceiver
  | granted tokenId executor permissions hop howner hold =>
    cases hop
    exact h.authorized howner hold
  | revoked tokenId executor hop =>
    cases hop
    exact h.revoked
  | none hcreates htransfers hauth hrevoke =>
    refine h.silent fun tokenId executor => Event.silent_called ?_ (hrevoke _ _) (hauth _ _)
    rw [Event.moves_iff, hcreates, htransfers]
    simp

theorem Initial.usageOk (h : Initial c) :
    UsageOk ([] : Trace Approvals) c.world.inft.usage := by
  obtain ⟨admin, oracle, approvals, hinft⟩ := h.inft
  rw [hinft]
  refine ⟨fun _ _ => le_refl _, fun _ _ _ => rfl, fun _ hold => (hold rfl).elim, ?_⟩
  intro tokenId executor permissions
  constructor
  · rintro ⟨-, later, e, earlier, heq, -⟩
    simp at heq
  · rintro ⟨hne, heq⟩
    exact absurd heq.symm hne

theorem InftRun.usageOk (h : InftRun D c₀ tr c) (h0 : Initial c₀) :
    UsageOk tr c.world.inft.usage := by
  refine Run.invariant (I := fun tr c => UsageOk tr c.world.inft.usage) h h0.usageOk ?_
  intro tr b e b' _ hok hs
  cases hs with
  | call m s rest hb =>
    rw [stop_usage]
    exact hok.change (begin_change hb)
  | ret frame frames =>
    rw [finish_usage]
    refine hok.silent fun tokenId executor => ⟨?_, ?_, ?_⟩
    · rintro ⟨m, hkind, -⟩
      cases hkind
    · rintro ⟨sender, hkind⟩
      cases hkind
    · rintro permissions ⟨sender, hkind, -⟩
      cases hkind
  | outside hasCode verifyProof =>
    refine hok.silent fun tokenId executor => ⟨?_, ?_, ?_⟩
    · rintro ⟨m, hkind, -⟩
      cases hkind
    · rintro ⟨sender, hkind⟩
      cases hkind
    · rintro permissions ⟨sender, hkind, -⟩
      cases hkind

/-- At any moment of any history an executor is authorised exactly when the owner who got the token
last has granted it something and not taken it back, and the grant is the one that is read. -/
theorem usage_follows_ownership (h : InftRun D c₀ tr c) (h0 : Initial c₀) (tokenId : TokenId)
    (executor : Address) :
    (isAuthorized tokenId executor c.world.inft = true ↔
      ∃ permissions, Granted tr tokenId executor permissions) ∧
    (∀ permissions, Granted tr tokenId executor permissions →
      getAuthorization tokenId executor c.world.inft = permissions) ∧
    ((¬ ∃ permissions, Granted tr tokenId executor permissions) →
      getAuthorization tokenId executor c.world.inft = []) := by
  have hok := h.usageOk h0
  have hread : getAuthorization tokenId executor c.world.inft =
      c.world.inft.usage.inForce tokenId executor := by
    unfold getAuthorization Usage.inForce
    rw [ite_not]
    rfl
  have hauthorized : isAuthorized tokenId executor c.world.inft = true ↔
      c.world.inft.usage.inForce tokenId executor ≠ [] := by
    unfold isAuthorized Usage.inForce State.usage
    split <;> simp_all [List.length_pos_iff]
  refine ⟨?_, fun permissions hgranted => ?_, fun hnone => ?_⟩
  · rw [hauthorized]
    constructor
    · exact fun hne => ⟨_, (hok.granted tokenId executor _).mpr ⟨hne, rfl⟩⟩
    · rintro ⟨permissions, hgranted⟩
      obtain ⟨hne, heq⟩ := (hok.granted tokenId executor permissions).mp hgranted
      rwa [heq]
  · rw [hread, ((hok.granted tokenId executor permissions).mp hgranted).2]
  · rw [hread]
    by_contra hne
    exact hnone ⟨_, (hok.granted tokenId executor _).mpr ⟨hne, rfl⟩⟩

/-- Granted, sold, and granted anew. -/
def resold : List Cue :=
  [.send 9 (.mint 1 "uri" 5), .send 1 (.authorizeUsage 1 7 [1]),
    .send 1 (.transferWithProof 1 2 1 [6]), .send 2 (.authorizeUsage 1 7 [2])]

theorem resold_plays : (play demo demoStart resold).isSome = true := by decide

theorem usage_follows_ownership_resold :
    ∃ permissions, Granted ((play demo demoStart resold).get resold_plays).1 1 7 permissions :=
  (usage_follows_ownership (play_get resold_plays) demoStart_initial 1 7).1.mp (by decide)

end Inft
