import BlindMarket.Inft.Usage

/-!
# Metadata

A mint writes the metadata after its receiver has returned, and what the
receiver proves in between is lost. Where that does not happen the metadata of
a token are those of the call on it that began last.
-/
namespace Inft

open BlindEscrow (Address)
open Checked Runs

variable {Approvals : Type} {D : Deployment Approvals} {c c' c₀ : Config Approvals}
  {e : Event Approvals} {tr : Trace Approvals} {s s' : State Approvals} {w : World Approvals}
  {m : Msg Approvals} {rest : Option (Address × Frame)} {tokenId : TokenId}

abbrev Metadata := Uri × Hash

def State.metadata (s : State Approvals) (tokenId : TokenId) : Metadata :=
  (s.encryptedURIs tokenId, s.metadataHashes tokenId)

/-- The metadata that a call supplies, and for which token. -/
def supplied (D : Deployment Approvals) (next : TokenId) : Op Approvals →
    Option (TokenId × Metadata)
  | .mint _ uri hash => some (next, uri, hash)
  | .clone _ _ proof => (D.decode proof).map fun p => (next, p.2, p.1)
  | .transferWithProof _ _ tokenId proof => (D.decode proof).map fun p => (tokenId, p.2, p.1)
  | _ => none

def Event.supplies (D : Deployment Approvals) (e : Event Approvals) :
    Option (TokenId × Metadata) :=
  match e.kind with
  | .called m => supplied D e.pre.world.inft.nextTokenId m.op
  | _ => none

/-- The metadata supplied last, by the order in which the calls began. -/
def latest (D : Deployment Approvals) (tokenId : TokenId) : Trace Approvals → Option Metadata
  | [] => none
  | e :: tr =>
    match e.supplies D with
    | some (id, metadata) => if id = tokenId then some metadata else latest D tokenId tr
    | none => latest D tokenId tr

/-- What a waiting function is going to write. -/
def Frame.writes : Frame → Option (TokenId × Metadata)
  | .mint tokenId uri hash | .clone tokenId uri hash => some (tokenId, uri, hash)
  | .transfer => none

/-- No proof is used on a token inside its own mint. -/
def Outside (e : Event Approvals) : Prop :=
  ∀ sender owner receiver tokenId proof,
    e.kind = .called ⟨sender, .transferWithProof owner receiver tokenId proof⟩ →
      ∀ uri hash, .mint tokenId uri hash ∉ e.pre.frames

/-! ## What a call writes -/

/-- What a call does to the metadata, and what it leaves to be written. -/
inductive Written (D : Deployment Approvals) (s : State Approvals) (op : Op Approvals) :
    State Approvals → Option (Address × Frame) → Prop where
  | mint (s' : State Approvals) (receiver : Address) (metadata : Metadata)
      (hop : op.creates = true) (hsupplied : supplied D s.nextTokenId op =
        some (s.nextTokenId, metadata))
      (hmetadata : s'.metadata = s.metadata) (hentered : s'.entered = s.entered) :
      Written D s op s' (some (receiver, .mint s.nextTokenId metadata.1 metadata.2))
  | clone (s' : State Approvals) (receiver : Address) (metadata : Metadata)
      (hop : op.creates = true) (hsupplied : supplied D s.nextTokenId op =
        some (s.nextTokenId, metadata))
      (hmetadata : s'.metadata = s.metadata) (hfree : s.entered = false)
      (hentered : s'.entered = true) :
      Written D s op s' (some (receiver, .clone s.nextTokenId metadata.1 metadata.2))
  | proven (s' : State Approvals) (owner receiver : Address) (tokenId : TokenId) (proof : Bytes)
      (metadata : Metadata) (hop : op = .transferWithProof owner receiver tokenId proof)
      (hsupplied : supplied D s.nextTokenId op = some (tokenId, metadata))
      (hmetadata : s'.metadata = Function.update s.metadata tokenId metadata)
      (hfree : s.entered = false) (hentered : s'.entered = false) : Written D s op s' none
  | other (s' : State Approvals) (rest : Option (Address × Frame)) (hop : op.creates = false)
      (hsupplied : supplied D s.nextTokenId op = none) (hmetadata : s'.metadata = s.metadata)
      (hentered : s'.entered = s.entered)
      (hrest : ∀ receiver frame, rest = some (receiver, frame) → frame = .transfer) :
      Written D s op s' rest

theorem setMetadata_metadata (uri : Uri) (hash : Hash) (s : State Approvals) :
    (setMetadata tokenId uri hash s).metadata =
      Function.update s.metadata tokenId (uri, hash) := by
  funext id
  by_cases hid : id = tokenId
  · subst hid
    simp [setMetadata, State.metadata]
  · simp [setMetadata, State.metadata, hid]

theorem update_metadata (receiver : Address) (tokenId : TokenId) (s : State Approvals) :
    (update D receiver tokenId s).2.metadata = s.metadata ∧
      (update D receiver tokenId s).2.entered = s.entered := by
  unfold update
  dsimp only
  split <;> exact ⟨rfl, rfl⟩

theorem mintToken_metadata {receiver : Address} (h : mintToken D receiver tokenId s = .ok s') :
    s'.metadata = s.metadata ∧ s'.entered = s.entered := by
  simp only [mintToken, seq_eq_ok, require_eq_ok, exists_const, pure_eq, Except.ok.injEq] at h
  obtain ⟨-, -, rfl⟩ := h
  exact update_metadata receiver tokenId s

theorem transferFrom_metadata {sender owner receiver : Address}
    (h : transferFrom D sender owner receiver tokenId s = .ok s') :
    s'.metadata = s.metadata ∧ s'.entered = s.entered := by
  simp only [transferFrom, seq_eq_ok, require_eq_ok, exists_const, pure_eq, Except.ok.injEq] at h
  obtain ⟨-, -, -, -, -, rfl⟩ := h
  exact update_metadata receiver tokenId s

theorem begin_written (h : begin D m w = .ok (s', rest)) : Written D w.inft m.op s' rest := by
  obtain ⟨sender, op⟩ := m
  cases op with
  | mint receiver uri hash =>
    simp only [begin, mint, onlyOwner, seq_eq_ok, require_eq_ok, exists_const, pure_eq,
      Except.ok.injEq, Prod.mk.injEq] at h
    obtain ⟨⟨s₁, frame⟩, ⟨-, s₂, hmint, heq⟩, rfl, rfl⟩ := h
    cases heq
    obtain ⟨hmetadata, hentered⟩ := mintToken_metadata hmint
    exact .mint _ receiver (uri, hash) rfl rfl hmetadata hentered
  | clone receiver tokenId proof =>
    simp only [begin, clone, nonReentrant, seq_eq_ok, require_eq_ok, exists_const, orElse_eq_ok,
      pure_eq, Except.ok.injEq, Prod.mk.injEq] at h
    obtain ⟨⟨s₁, frame⟩, ⟨hfree, owner, -, -, -, proven, hproof, s₂, hmint, heq⟩, rfl, rfl⟩ := h
    cases heq
    obtain ⟨hmetadata, hentered⟩ := mintToken_metadata hmint
    exact .clone _ receiver (proven.2, proven.1) rfl (by simp [supplied, hproof]) hmetadata hfree
      hentered
  | transferWithProof owner receiver tokenId proof =>
    simp only [begin, transferWithProof, transfer, nonReentrant, seq_eq_ok, require_eq_ok,
      exists_const, orElse_eq_ok, pure_eq, Except.ok.injEq, Prod.mk.injEq] at h
    obtain ⟨s₁, ⟨hfree, -, -, -, -, -, -, proven, hproof, -, -, -, rfl⟩, rfl, rfl⟩ := h
    obtain ⟨hmetadata, hentered⟩ := update_metadata (D := D) receiver tokenId
      (setMetadata tokenId proven.2 proven.1 w.inft)
    exact .proven _ owner receiver tokenId proof (proven.2, proven.1) rfl
      (by simp [supplied, hproof]) (hmetadata.trans (setMetadata_metadata _ _ _)) hfree
      (hentered.trans hfree)
  | transferFrom owner receiver tokenId =>
    simp only [begin, seq_eq_ok, pure_eq, Except.ok.injEq, Prod.mk.injEq] at h
    obtain ⟨s₁, hmove, rfl, rfl⟩ := h
    obtain ⟨hmetadata, hentered⟩ := transferFrom_metadata hmove
    exact .other _ _ rfl rfl hmetadata hentered (by simp)
  | safeTransferFrom owner receiver tokenId =>
    simp only [begin, seq_eq_ok, pure_eq, Except.ok.injEq, Prod.mk.injEq] at h
    obtain ⟨s₁, hmove, rfl, rfl⟩ := h
    obtain ⟨hmetadata, hentered⟩ := transferFrom_metadata hmove
    exact .other _ _ rfl rfl hmetadata hentered (by simp)
  | approve approvals =>
    simp only [begin, pure_eq, Except.ok.injEq, Prod.mk.injEq] at h
    obtain ⟨rfl, rfl⟩ := h
    exact .other _ _ rfl rfl rfl rfl (by simp)
  | authorizeUsage tokenId executor permissions =>
    simp only [begin, authorizeUsage, seq_eq_ok, require_eq_ok, exists_const, pure_eq,
      Except.ok.injEq, Prod.mk.injEq] at h
    obtain ⟨s₁, ⟨owner, -, -, -, rfl⟩, rfl, rfl⟩ := h
    exact .other _ _ rfl rfl rfl rfl (by simp)
  | revokeUsage tokenId executor =>
    simp only [begin, revokeUsage, seq_eq_ok, require_eq_ok, exists_const, pure_eq,
      Except.ok.injEq, Prod.mk.injEq] at h
    obtain ⟨s₁, ⟨owner, -, -, rfl⟩, rfl, rfl⟩ := h
    exact .other _ _ rfl rfl rfl rfl (by simp)
  | setOracle newOracle | transferOwnership newOwner =>
    simp only [begin, onlyOwner, seq_eq_ok, require_eq_ok, exists_const, pure_eq, Except.ok.injEq,
      Prod.mk.injEq] at h
    obtain ⟨-, -, rfl, rfl⟩ := h
    exact .other _ _ rfl rfl rfl rfl (by simp)
  | renounceOwnership =>
    simp only [begin, onlyOwner, seq_eq_ok, require_eq_ok, exists_const, pure_eq, Except.ok.injEq,
      Prod.mk.injEq] at h
    obtain ⟨-, rfl, rfl⟩ := h
    exact .other _ _ rfl rfl rfl rfl (by simp)

/-! ## The invariant -/

def Frame.isClone : Frame → Bool
  | .clone _ _ _ => true
  | _ => false

/-- What the waiting functions are going to write. -/
def pending (frames : List Frame) : List (TokenId × Metadata) := frames.filterMap Frame.writes

/-- The metadata of a token are the latest, or a function waits to write them. -/
structure MetadataOk (D : Deployment Approvals) (tr : Trace Approvals) (c : Config Approvals) :
    Prop where
  kept : ∀ tokenId, c.world.inft.owners tokenId ≠ 0 → ∃ metadata,
    latest D tokenId tr = some metadata ∧ ((tokenId, metadata) ∈ pending c.frames ∨
      (∀ metadata', (tokenId, metadata') ∉ pending c.frames) ∧
        c.world.inft.metadata tokenId = metadata)
  distinct : ((pending c.frames).map Prod.fst).Nodup
  owned : ∀ x ∈ pending c.frames, c.world.inft.owners x.1 ≠ 0
  guard : c.frames.countP Frame.isClone = if c.world.inft.entered then 1 else 0

theorem latest_none (h : e.supplies D = none) : latest D tokenId (e :: tr) = latest D tokenId tr := by
  rw [latest, h]

theorem latest_self {metadata : Metadata} (h : e.supplies D = some (tokenId, metadata)) :
    latest D tokenId (e :: tr) = some metadata := by
  rw [latest, h]
  exact if_pos rfl

theorem latest_other {id : TokenId} {metadata : Metadata} (h : e.supplies D = some (id, metadata))
    (hid : tokenId ≠ id) : latest D tokenId (e :: tr) = latest D tokenId tr := by
  rw [latest, h]
  exact if_neg hid.symm

theorem Change.owners_created {u u' : Usage} {next : TokenId} (h : Change u next m u')
    (hop : m.op.creates = true) : u.owners next = 0 ∧ u'.owners next ≠ 0 ∧
      ∀ tokenId, tokenId ≠ next → u'.owners tokenId = u.owners tokenId := by
  cases h with
  | created receiver _ hreceiver hnew =>
    exact ⟨hnew, by simpa using hreceiver, fun tokenId hne => Function.update_of_ne hne _ _⟩
  | moved tokenId receiver htransfers => cases hm : m.op <;> simp_all [Op.creates, Op.transfers]
  | granted tokenId executor permissions hauth => simp [hauth, Op.creates] at hop
  | revoked tokenId executor hrevoke => simp [hrevoke, Op.creates] at hop
  | none hcreates => simp [hcreates] at hop

theorem Change.owners_other {u u' : Usage} {next : TokenId} (h : Change u next m u')
    (hop : m.op.creates = false) (tokenId : TokenId) :
    u'.owners tokenId ≠ 0 ↔ u.owners tokenId ≠ 0 := by
  cases h with
  | created receiver hcreates => simp [hcreates] at hop
  | moved id receiver _ hreceiver hold =>
    by_cases hid : tokenId = id
    · subst hid
      simp [hreceiver, hold]
    · simp [hid]
  | _ => rfl

/-- A step that supplies nothing and changes neither metadata nor owners. -/
theorem MetadataOk.silent (h : MetadataOk D tr c) (hsupplies : e.supplies D = none)
    (hframes : pending c'.frames = pending c.frames)
    (hmetadata : c'.world.inft.metadata = c.world.inft.metadata)
    (howners : ∀ tokenId, c'.world.inft.owners tokenId ≠ 0 ↔ c.world.inft.owners tokenId ≠ 0)
    (hguard : c'.frames.countP Frame.isClone = if c'.world.inft.entered then 1 else 0) :
    MetadataOk D (e :: tr) c' where
  kept tokenId howner := by
    rw [latest_none hsupplies, hframes, hmetadata]
    exact h.kept tokenId ((howners tokenId).mp howner)
  distinct := hframes ▸ h.distinct
  owned x hx := (howners x.1).mpr (h.owned x (hframes ▸ hx))
  guard := hguard

/-- A token is created, and its metadata wait to be written. -/
theorem MetadataOk.created {w' : World Approvals} {frame : Frame} {next : TokenId}
    {metadata : Metadata} (h : MetadataOk D tr c) (hsupplies : e.supplies D = some (next, metadata))
    (hframe : frame.writes = some (next, metadata))
    (hmetadata : w'.inft.metadata = c.world.inft.metadata) (hnew : c.world.inft.owners next = 0)
    (hnext : w'.inft.owners next ≠ 0)
    (howners : ∀ tokenId, tokenId ≠ next → w'.inft.owners tokenId = c.world.inft.owners tokenId)
    (hguard : (frame :: c.frames).countP Frame.isClone = if w'.inft.entered then 1 else 0) :
    MetadataOk D (e :: tr) ⟨w', frame :: c.frames⟩ := by
  have hpending : pending (frame :: c.frames) = (next, metadata) :: pending c.frames :=
    List.filterMap_cons_some hframe
  have hfresh : ∀ metadata', (next, metadata') ∉ pending c.frames :=
    fun _ hmem => h.owned _ hmem hnew
  refine ⟨fun tokenId howner => ?_, ?_, fun x hx => ?_, hguard⟩
  · by_cases hid : tokenId = next
    · subst hid
      exact ⟨metadata, latest_self hsupplies, .inl (hpending ▸ List.mem_cons_self)⟩
    · rw [howners tokenId hid] at howner
      obtain ⟨metadata', hlatest, hkept⟩ := h.kept tokenId howner
      refine ⟨metadata', by rwa [latest_other hsupplies hid], ?_⟩
      rw [hpending, hmetadata]
      refine hkept.imp (List.mem_cons_of_mem _) (And.imp_left fun hnone metadata'' hmem => ?_)
      obtain heq | hmem := List.mem_cons.mp hmem
      · exact hid (Prod.mk.inj heq).1
      · exact hnone metadata'' hmem
  · rw [hpending, List.map_cons, List.nodup_cons]
    refine ⟨fun hmem => ?_, h.distinct⟩
    obtain ⟨⟨id, metadata'⟩, hx, rfl⟩ := List.mem_map.mp hmem
    exact hfresh metadata' hx
  · rw [hpending] at hx
    obtain rfl | hx := List.mem_cons.mp hx
    · exact hnext
    · have hne : x.1 ≠ next := fun heq => hfresh x.2 (heq ▸ hx)
      rw [howners x.1 hne]
      exact h.owned x hx

/-- Metadata are proven for a token that no function waits to write. -/
theorem MetadataOk.proven {w' : World Approvals} {metadata : Metadata} (h : MetadataOk D tr c)
    (hsupplies : e.supplies D = some (tokenId, metadata))
    (hfree : ∀ metadata', (tokenId, metadata') ∉ pending c.frames)
    (hmetadata : w'.inft.metadata = Function.update c.world.inft.metadata tokenId metadata)
    (howners : ∀ tokenId, w'.inft.owners tokenId ≠ 0 ↔ c.world.inft.owners tokenId ≠ 0)
    (hguard : c.frames.countP Frame.isClone = if w'.inft.entered then 1 else 0) :
    MetadataOk D (e :: tr) { c with world := w' } := by
  refine ⟨fun id howner => ?_, h.distinct, fun x hx => (howners x.1).mpr (h.owned x hx), hguard⟩
  by_cases hid : id = tokenId
  · subst hid
    exact ⟨metadata, latest_self hsupplies, .inr ⟨hfree, by simp [hmetadata]⟩⟩
  · obtain ⟨metadata', hlatest, hkept⟩ := h.kept id ((howners id).mp howner)
    refine ⟨metadata', by rwa [latest_other hsupplies hid], ?_⟩
    rwa [hmetadata, Function.update_of_ne hid]

/-- The innermost function writes what it waited to write. -/
theorem MetadataOk.finish {frame : Frame} {frames : List Frame}
    (h : MetadataOk D tr ⟨w, frame :: frames⟩) :
    MetadataOk D tr ⟨{ w with inft := frame.finish w.inft }, frames⟩ := by
  obtain ⟨hkept, hdistinct, howned, hguard⟩ := h
  have howners : (frame.finish w.inft).owners = w.inft.owners :=
    congrArg Usage.owners (finish_usage frame w.inft)
  cases hwrites : frame.writes with
  | none =>
    have hpending : pending (frame :: frames) = pending frames := List.filterMap_cons_none hwrites
    have htransfer : frame = .transfer := by cases frame <;> first | rfl | cases hwrites
    subst htransfer
    rw [hpending] at hkept hdistinct howned
    exact ⟨hkept, hdistinct, howned, hguard⟩
  | some x =>
    obtain ⟨id, metadata⟩ := x
    have hpending : pending (frame :: frames) = (id, metadata) :: pending frames :=
      List.filterMap_cons_some hwrites
    have hmetadata : (frame.finish w.inft).metadata =
        Function.update w.inft.metadata id metadata := by
      cases frame with
      | mint id' uri hash =>
        cases hwrites
        exact setMetadata_metadata uri hash w.inft
      | clone id' uri hash =>
        cases hwrites
        exact setMetadata_metadata uri hash w.inft
      | transfer => cases hwrites
    rw [hpending] at hkept hdistinct howned
    rw [List.map_cons, List.nodup_cons] at hdistinct
    have hlast : ∀ metadata', (id, metadata') ∉ pending frames := fun metadata' hmem =>
      hdistinct.1 (List.mem_map.mpr ⟨_, hmem, rfl⟩)
    refine ⟨fun tokenId howner => ?_, hdistinct.2, fun x hx => ?_, ?_⟩
    · simp only [howners] at howner
      obtain ⟨metadata', hlatest, hkept⟩ := hkept tokenId howner
      refine ⟨metadata', hlatest, ?_⟩
      simp only [hmetadata]
      by_cases hid : tokenId = id
      · subst hid
        obtain hmem | ⟨hnone, -⟩ := hkept
        · obtain heq | hmem := List.mem_cons.mp hmem
          · cases heq
            exact .inr ⟨hlast, by simp⟩
          · exact absurd hmem (hlast _)
        · exact absurd List.mem_cons_self (hnone metadata)
      · rw [Function.update_of_ne hid]
        refine hkept.imp (fun hmem => ?_) (And.imp_left fun hnone metadata'' hmem =>
          hnone metadata'' (List.mem_cons_of_mem _ hmem))
        exact (List.mem_cons.mp hmem).resolve_left fun heq => hid (Prod.mk.inj heq).1
    · simp only [howners]
      exact howned x (List.mem_cons_of_mem _ hx)
    · cases frame with
      | mint id' uri hash => exact hguard
      | clone id' uri hash =>
        rw [List.countP_cons_of_pos rfl] at hguard
        simp only [Frame.finish]
        split at hguard <;> simp_all
      | transfer => cases hwrites

/-! ## Runs -/

theorem guard_free (h : MetadataOk D tr c) (hfree : c.world.inft.entered = false) :
    ∀ frame ∈ c.frames, frame.isClone = false := by
  have hguard := h.guard
  rw [hfree] at hguard
  exact fun frame hframe => by simpa using List.countP_eq_zero.mp hguard frame hframe

theorem MetadataOk.called (h : MetadataOk D tr c) (hb : begin D m c.world = .ok (s', rest))
    (hout : Outside ⟨.called m, c⟩) : MetadataOk D (⟨.called m, c⟩ :: tr)
      ⟨{ c.world with inft := s' }, (rest.map Prod.snd).toList ++ c.frames⟩ := by
  have hchange := begin_change hb
  have hwritten := begin_written hb
  obtain ⟨sender, op⟩ := m
  cases hwritten with
  | mint receiver metadata hop hsupplied hmetadata hentered =>
    obtain ⟨hnew, hnext, howners⟩ := hchange.owners_created hop
    refine h.created hsupplied rfl hmetadata hnew hnext howners ?_
    rw [List.countP_cons_of_neg (by simp [Frame.isClone]), h.guard, hentered]
  | clone receiver metadata hop hsupplied hmetadata hfree hentered =>
    obtain ⟨hnew, hnext, howners⟩ := hchange.owners_created hop
    refine h.created hsupplied rfl hmetadata hnew hnext howners ?_
    rw [List.countP_cons_of_pos rfl, h.guard, hfree, hentered]
    rfl
  | proven owner receiver tokenId proof metadata hop hsupplied hmetadata hfree hentered =>
    cases hop
    refine h.proven hsupplied ?_ hmetadata (hchange.owners_other rfl) ?_
    · intro metadata' hmem
      obtain ⟨frame, hframe, hwrites⟩ := List.mem_filterMap.mp hmem
      have hclone := guard_free h hfree frame hframe
      cases frame with
      | mint id uri hash =>
        cases hwrites
        exact hout sender owner receiver tokenId proof rfl _ _ hframe
      | clone id uri hash => cases hclone
      | transfer => cases hwrites
    · rw [hentered, h.guard, hfree]
  | other rest hop hsupplied hmetadata hentered hrest =>
    have hframe : ∀ frame ∈ (rest.map Prod.snd).toList, frame = .transfer := by
      intro frame hmem
      obtain ⟨⟨receiver, frame⟩, hrest', rfl⟩ := Option.map_eq_some_iff.mp
        (Option.mem_toList.mp hmem)
      exact hrest receiver frame hrest'
    refine h.silent hsupplied ?_ hmetadata (hchange.owners_other hop) ?_
    · unfold pending
      rw [List.filterMap_append, List.filterMap_eq_nil_iff.mpr, List.nil_append]
      intro frame hmem
      rw [hframe frame hmem]
      rfl
    · rw [List.countP_append, List.countP_eq_zero.mpr, zero_add, h.guard, hentered]
      intro frame hmem
      rw [hframe frame hmem]
      simp [Frame.isClone]

theorem MetadataOk.step (h : MetadataOk D tr c) (hs : Step D c e c') (hout : Outside e) :
    MetadataOk D (e :: tr) c' := by
  cases hs with
  | call m s' rest hb =>
    have hcalled := h.called hb hout
    cases rest with
    | none => exact hcalled
    | some x =>
      obtain ⟨receiver, frame⟩ := x
      simp only [Config.stop]
      split
      · exact hcalled
      · exact hcalled.finish
  | ret frame frames =>
    exact h.finish.silent rfl rfl rfl (fun _ => Iff.rfl) h.finish.guard
  | outside hasCode verifyProof =>
    exact h.silent rfl rfl rfl (fun _ => Iff.rfl) h.guard

theorem Initial.metadataOk (h : Initial c) : MetadataOk D [] c := by
  obtain ⟨admin, oracle, approvals, hinft⟩ := h.inft
  refine ⟨fun tokenId howner => ?_, ?_, ?_, ?_⟩
  · rw [hinft] at howner
    exact absurd rfl howner
  · rw [h.frames]
    exact List.nodup_nil
  · rw [h.frames]
    simp [pending]
  · rw [h.frames, hinft]
    rfl

theorem InftRun.metadataOk (h : InftRun D c₀ tr c) (h0 : Initial c₀)
    (hout : ∀ e ∈ tr, Outside e) : MetadataOk D tr c := by
  revert hout
  refine Run.invariant (I := fun tr c => (∀ e ∈ tr, Outside e) → MetadataOk D tr c) h
    (fun _ => h0.metadataOk) ?_
  intro tr b e b' _ hok hs hout
  exact (hok fun e' he' => hout e' (List.mem_cons_of_mem _ he')).step hs
    (hout e List.mem_cons_self)

/-- Where no proof is used on a token inside its own mint, every token carries, when no function
waits for a receiver, the metadata of the call on it that began last. -/
theorem metadata_latest (h : InftRun D c₀ tr c) (h0 : Initial c₀) (hframes : c.frames = [])
    (hout : ∀ e ∈ tr, Outside e) (tokenId : TokenId)
    (howner : c.world.inft.owners tokenId ≠ 0) :
    ∃ uri hash, latest D tokenId tr = some (uri, hash) ∧
      getEncryptedURI tokenId c.world.inft = .ok uri ∧
      getMetadataHash tokenId c.world.inft = .ok hash := by
  obtain ⟨⟨uri, hash⟩, hlatest, hkept⟩ := (h.metadataOk h0 hout).kept tokenId howner
  rw [hframes] at hkept
  obtain hmem | ⟨-, hmetadata⟩ := hkept
  · cases hmem
  · obtain ⟨huri, hhash⟩ := Prod.mk.inj hmetadata
    refine ⟨uri, hash, hlatest, ?_, ?_⟩
    · unfold getEncryptedURI ownerOf
      rw [require_pos howner, ok_bind, pure_eq, ok_bind, huri]
      rfl
    · unfold getMetadataHash ownerOf
      rw [require_pos howner, ok_bind, pure_eq, ok_bind, hhash]
      rfl

/-! ## Receivers -/

/-- The receiver of a mint transfers its new token to 2 with a proof, before it returns. -/
def provenInside : List Cue :=
  [.send 9 (.mint 20 "minted" 5), .send 20 (.transferWithProof 20 2 1 [6]), .resume]

theorem provenInside_plays : (play demo demoStart provenInside).isSome = true := by decide

/-- The token is left with the metadata it was minted with. -/
theorem metadata_latest_fails : ∃ tr c, InftRun demo demoStart tr c ∧ Initial demoStart ∧
    c.frames = [] ∧ c.world.inft.owners 1 ≠ 0 ∧ latest demo 1 tr = some ("proven", 6) ∧
    getEncryptedURI 1 c.world.inft = .ok "minted" ∧ getMetadataHash 1 c.world.inft = .ok 5 :=
  ⟨_, _, play_get provenInside_plays, demoStart_initial, by decide, by decide, by decide,
    by decide, by decide⟩

/-- The receiver clones its new token before the mint returns, and proves it afterwards. -/
def provenAfter : List Cue :=
  [.send 9 (.mint 20 "minted" 5), .send 20 (.clone 3 1 [7]), .resume,
    .send 20 (.transferWithProof 20 2 1 [6])]

theorem provenAfter_plays : (play demo demoStart provenAfter).isSome = true := by decide

/-- A test of the condition. -/
def outside (e : Event Unit) : Bool :=
  match e.kind with
  | .called ⟨_, .transferWithProof _ _ tokenId _⟩ =>
    e.pre.frames.all fun frame =>
      match frame with
      | .mint id _ _ => id ≠ tokenId
      | _ => true
  | _ => true

theorem outside_outside {e : Event Unit} (h : outside e = true) : Outside e := by
  intro sender owner receiver tokenId proof hkind uri hash hmem
  rw [outside, hkind] at h
  have htest := List.all_eq_true.mp h _ hmem
  simp at htest

theorem provenAfter_outside :
    ((play demo demoStart provenAfter).get provenAfter_plays).1.all outside = true := by decide

theorem metadata_latest_provenAfter : ∃ uri hash,
    latest demo 1 ((play demo demoStart provenAfter).get provenAfter_plays).1 = some (uri, hash) ∧
    getEncryptedURI 1 ((play demo demoStart provenAfter).get provenAfter_plays).2.world.inft =
      .ok uri ∧
    getMetadataHash 1 ((play demo demoStart provenAfter).get provenAfter_plays).2.world.inft =
      .ok hash :=
  metadata_latest (play_get provenAfter_plays) demoStart_initial (by decide)
    (fun e he => outside_outside (List.all_eq_true.mp provenAfter_outside e he)) 1 (by decide)

end Inft
