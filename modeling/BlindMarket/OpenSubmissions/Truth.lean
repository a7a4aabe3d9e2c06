import BlindMarket.OpenSubmissions.Programs
import BlindMarket.Support.Knowledge

/-!
# What is stored is true

Records name open tasks of the escrow, recorded submissions and kept results are
the ones it holds, and a judge transaction mined as successful closed its task.
What a program has been told of such things stays true while it runs.
-/
namespace OpenSubmissions

open Async Prog Runs
open BlindEscrow (Address Bytes32 OpenPhase Deployed Msg)

variable {cfg : Config} {t : Call} {x : Turn} {s s' : State cfg} {c : Cmd}
  {r : Except Code (Ans c)} {a a' : Answers Ans Code} {ref : TaskRef} {submitter : Address}
  {record : OpenTaskRecord} {hash : Bytes32} {tr : List (Ev cfg)} {e : Ev cfg}

/-- A task of one of the backend's own networks. -/
def Own (cfg : Config) (ref : TaskRef) : Prop := ref.scope = cfg.chainScope ref.scope.chain

theorem own_taskRef (cfg : Config) (chain : TaskChain) (taskId : Nat) :
    Own cfg (cfg.taskRef chain taskId) := rfl

theorem Own.eq (h : Own cfg ref) : ref = cfg.taskRef ref.scope.chain ref.taskId := by
  obtain ⟨scope, taskId⟩ := ref
  simp only [Own] at h
  rw [Config.taskRef, ← h]

theorem own_of_mem (h : ref.scope ∈ ownScopes cfg) : Own cfg ref := by
  obtain ⟨chain, -, hscope⟩ := List.mem_map.mp h
  rw [Own, ← hscope]
  rfl

/-- The escrow holds this hash for the submitter. -/
def Committed (s : State cfg) (ref : TaskRef) (submitter : Address) (hash : Bytes32) : Prop :=
  Own cfg ref ∧ (s.escrows ref.scope.chain).escrow.submissionOf ref.taskId submitter = hash ∧
    hash ≠ 0

theorem Committed.later (h : Committed s ref submitter hash) (hs : Later s s') :
    Committed s' ref submitter hash := by
  obtain ⟨hown, heq, hne⟩ := h
  refine ⟨hown, ?_, hne⟩
  rw [(hs.escrows ref.scope.chain).submissionOf (by rwa [heq]), heq]

theorem Genuine.later (h : Genuine s ref record) (hs : Later s s') : Genuine s' ref record := by
  have hterms := (hs.escrows record.chain).terms h.isOpen
  exact ⟨h.ref, h.scope, hterms.isOpen.trans h.isOpen, h.taskHash.trans hterms.taskHash.symm⟩

theorem ready_later (h : Ready s t) (hs : Later s s') : Ready s' t := by
  unfold Ready at h ⊢
  split
  · next chain log hop =>
    simp only [hop] at h
    obtain ⟨e, he, hlog⟩ := h
    exact ⟨e, (hs.escrows chain).trace he, hlog⟩
  · trivial

/-- The task of an event is open. -/
theorem Ready.isOpen {chain : TaskChain} {log : BlindEscrow.Log} {taskId : Nat} (h : Ready s t)
    (hop : t.op = .handle chain log) (hlog : log.openTask = some taskId) :
    ((s.escrows chain).escrow.openTasks taskId).isOpen = true := by
  simp only [Ready, hop] at h
  obtain ⟨e, he, hmem⟩ := h
  exact Deployed.announced_open _ he hmem hlog

theorem Ready.committed {chain : TaskChain} {taskId count : Nat} (h : Ready s t)
    (hop : t.op = .handle chain (.openSubmission taskId submitter hash count)) :
    Committed s (cfg.taskRef chain taskId) submitter hash := by
  simp only [Ready, hop] at h
  obtain ⟨e, he, hmem⟩ := h
  obtain ⟨heq, hne, -⟩ := Deployed.announced_submission _ he hmem
  exact ⟨rfl, heq, hne⟩

/-! ## The store -/

structure Sound (s : State cfg) : Prop where
  record : ∀ ref record, s.record ref = some record → Own cfg ref → Genuine s ref record
  sub : ∀ ref submitter record, s.sub ref submitter = some record →
    Committed s ref submitter record.evidenceHash
  pending : ∀ ref submitter p, s.pending ref submitter = some p → Hashed cfg p.1
  result : ∀ ref submitter result, s.results ref submitter = some result →
    Committed s ref submitter result.evidenceHash ∧ Hashed cfg result
  mined : ∀ (tx : TxId) (t : JudgeTx), s.txs[tx]? = some t → t.mined = some true →
    (s.escrows t.chain).phase t.call.taskId = .ok .closed

theorem phase_closed_later {D : BlindEscrow.Deployment} {d d' : Deployed D} {taskId : Nat}
    (h : d.phase taskId = .ok .closed) (hd : d.Later d') : d'.phase taskId = .ok .closed := by
  obtain ⟨p, hp, hle⟩ := hd.phase h
  rw [hp]
  cases p <;> simp_all [OpenPhase.rank]

/-! ## The answers -/

/-- A task the program knows to be open: that of its event, or that of a record it has read. -/
def Concerns (cfg : Config) (t : Call) (a : Answers Ans Code) (chain : TaskChain) (taskId : Nat) :
    Prop :=
  (∃ log, t.op = .handle chain log ∧ log.openTask = some taskId) ∨
    ∃ ref record, Own cfg ref ∧ ⟨.redis (.getRecord ref), .ok (some record)⟩ ∈ a ∧
      record.chain = chain ∧ record.taskId = taskId

/-- What an answer says from then on, given the answers before it. -/
def Shows (t : Call) (a : Answers Ans Code) (s : State cfg) : (c : Cmd) → Except Code (Ans c) → Prop
  | .redis (.getRecord ref), .ok (some record) => s.record ref = some record
  | .redis (.setRecordNX ref _), .ok _ => (s.record ref).isSome = true
  | .redis (.getOutcome ref), .ok (some _) => (s.outcomes ref).isSome = true
  | .redis (.setOutcomeNX ref _), .ok _ => (s.outcomes ref).isSome = true
  | .redis (.getPending _ _), .ok (some result) => Hashed cfg result
  | .redis (.hscanSubs ref _ _), .ok page => ∀ sub ∈ page.items, s.sub ref sub.1 = some sub.2
  | .redis (.zrangeJudge scope _ _), .ok refs => ∀ ref ∈ refs, ref.scope = scope
  | .redis (.hmgetResults ref subs), .ok results => ∀ p ∈ subs.zip results, ∀ result,
    p.2 = some result → Committed s ref p.1 result.evidenceHash
  | .escrow chain (.openPhase taskId), .ok phase =>
    ∃ p, (s.escrows chain).phase taskId = .ok p ∧ phase.rank ≤ p.rank
  | .escrow chain (.getTask taskId), .ok task => Concerns cfg t a chain taskId →
    ((s.escrows chain).escrow.openTasks taskId).isOpen = true ∧
      ((s.escrows chain).escrow.tasks taskId).taskHash = task.taskHash
  | .escrow chain (.getOpenTask taskId), .ok openTask => Concerns cfg t a chain taskId →
    openTask.isOpen = true
  | .escrow chain (.submissionCount taskId), .ok count => ∀ phase : OpenPhase,
    phase ≠ .submissions → ⟨.escrow chain (.openPhase taskId), .ok phase⟩ ∈ a →
      (∃ p, (s.escrows chain).phase taskId = .ok p ∧ p ≠ .submissions) ∧
        (s.escrows chain).escrow.submissionCount taskId = count
  | .escrow chain (.submissionOf taskId submitter), .ok hash => hash ≠ 0 →
    (s.escrows chain).escrow.submissionOf taskId submitter = hash
  | .send chain call _, .ok tx => ∃ t, s.txs[tx]? = some t ∧ t.chain = chain ∧ t.call = call
  | .wait tx, .ok true => ∃ t, s.txs[tx]? = some t ∧ t.mined = some true
  | .leftForAdmin ref, .ok _ => ref ∈ s.left
  | _, _ => True

theorem rank_ne_submissions {p p' : OpenPhase} (hne : p ≠ .submissions) (hle : p.rank ≤ p'.rank) :
    p' ≠ .submissions := by
  rintro rfl
  cases p <;> simp_all [OpenPhase.rank]

/-- What an answer of Redis says stays true. -/
theorem shows_redis_later {c : RedisCmd} {r : Except Code c.Ans} (h : Shows t a s (.redis c) r)
    (hs : Later s s') : Shows t a s' (.redis c) r := by
  cases r with
  | error e => cases c <;> trivial
  | ok v =>
    cases c with
    | getRecord ref =>
      cases v with
      | none => trivial
      | some record => exact hs.record _ _ h
    | setRecordNX ref record =>
      obtain ⟨record', hrecord⟩ := Option.isSome_iff_exists.mp h
      exact Option.isSome_iff_exists.mpr ⟨record', hs.record _ _ hrecord⟩
    | getOutcome ref =>
      cases v with
      | none => trivial
      | some outcome => exact hs.outcome _ h
    | setOutcomeNX ref outcome => exact hs.outcome _ h
    | getPending ref submitter => cases v <;> exact h
    | hscanSubs ref cursor count => exact fun sub hsub => hs.sub _ _ _ (h sub hsub)
    | zrangeJudge scope nowSec limit => exact h
    | hmgetResults ref subs => exact fun p hp result hr => (h p hp result hr).later hs
    | _ => trivial

theorem shows_escrow_later {chain : TaskChain} {c : EscrowRead} {r : Except Code c.Ans}
    (h : Shows t a s (.escrow chain c) r) (hs : Later s s') : Shows t a s' (.escrow chain c) r := by
  have hd := hs.escrows chain
  cases r with
  | error e => cases c <;> trivial
  | ok v =>
    cases c with
    | openPhase taskId =>
      obtain ⟨p, hp, hle⟩ := h
      obtain ⟨p', hp', hle'⟩ := hd.phase hp
      exact ⟨p', hp', hle.trans hle'⟩
    | getTask taskId =>
      intro hconcerns
      obtain ⟨hopen, hhash⟩ := h hconcerns
      have hterms := hd.terms hopen
      exact ⟨hterms.isOpen.trans hopen, hterms.taskHash.trans hhash⟩
    | getOpenTask taskId => exact h
    | submissionCount taskId =>
      intro phase hne hmem
      obtain ⟨⟨p, hp, hp0⟩, hcount⟩ := h phase hne hmem
      obtain ⟨p', hp', hle⟩ := hd.phase hp
      exact ⟨⟨p', hp', rank_ne_submissions hp0 hle⟩, (hd.final hp hp0).2.trans hcount⟩
    | submissionOf taskId submitter =>
      intro hne
      have heq := h hne
      rw [hd.submissionOf (by rwa [heq]), heq]
    | _ => trivial

theorem Shows.later (h : Shows t a s c r) (hs : Later s s') : Shows t a s' c r := by
  cases c with
  | redis c => exact shows_redis_later h hs
  | escrow chain c => exact shows_escrow_later h hs
  | send chain call basis =>
    cases r with
    | error e => trivial
    | ok tx =>
      obtain ⟨t, ht, hchain, hcall⟩ := h
      obtain ⟨t', ht', hchain', hcall', -⟩ := hs.txs tx t ht
      exact ⟨t', ht', hchain'.trans hchain, hcall'.trans hcall⟩
  | wait tx =>
    match r, h with
    | .error e, _ => trivial
    | .ok false, _ => trivial
    | .ok true, h =>
      obtain ⟨t, ht, hmined⟩ := h
      obtain ⟨t', ht', -, -, hmined'⟩ := hs.txs tx t ht
      exact ⟨t', ht', (hmined' (by rw [hmined]; rfl)).trans hmined⟩
  | leftForAdmin ref =>
    cases r with
    | error e => trivial
    | ok v => exact hs.left _ h
  | _ => trivial

/-- Everything a program has been told. -/
def Answered (t : Call) (s : State cfg) : Answers Ans Code → Prop
  | [] => True
  | ⟨c, r⟩ :: a => Shows t a s c r ∧ Answered t s a

theorem Answered.later (h : Answered t s a) (hs : Later s s') : Answered t s' a := by
  induction a with
  | nil => trivial
  | cons x a ih => exact ⟨h.1.later hs, ih h.2⟩

theorem Answered.suffix (h : Answered t s a) (hsuffix : (⟨c, r⟩ :: a') <:+ a) :
    Shows t a' s c r := by
  induction a with
  | nil => cases List.suffix_nil.mp hsuffix
  | cons x a ih =>
    obtain heq | hsuffix := List.suffix_cons_iff.mp hsuffix
    · cases heq
      exact h.1
    · exact ih h.2 hsuffix

theorem Answered.mem (h : Answered t s a) (hmem : ⟨c, r⟩ ∈ a) :
    ∃ a', (⟨c, r⟩ :: a') <:+ a ∧ Shows t a' s c r := by
  obtain ⟨l, a', rfl⟩ := List.append_of_mem hmem
  exact ⟨a', List.suffix_append _ _, h.suffix (List.suffix_append _ _)⟩

/-- Whatever each program under way has been told holds. -/
def Known (tr : List (Ev cfg)) (s : State cfg) : Prop :=
  ∀ t a, known tr t = some a → Ready s t ∧ Answered t s a

/-! ## One command -/

theorem Concerns.isOpen {chain : TaskChain} {taskId : Nat} (h : Concerns cfg t a chain taskId)
    (hsound : Sound s) (hready : Ready s t) (hknown : Answered t s a) :
    ((s.escrows chain).escrow.openTasks taskId).isOpen = true := by
  obtain ⟨log, hop, hlog⟩ | ⟨ref, record, hown, hmem, rfl, rfl⟩ := h
  · exact hready.isOpen hop hlog
  · obtain ⟨_, _, hrecord⟩ := hknown.mem hmem
    exact (hsound.record ref record hrecord hown).isOpen

/-- What stands beside an element is its image. -/
theorem snd_of_mem_zip_map {α β : Type} {l : List α} {f : α → β} {p : α × β}
    (h : p ∈ l.zip (l.map f)) : p.2 = f p.1 := by
  induction l with
  | nil => cases h
  | cons a l ih =>
    obtain rfl | h := List.mem_cons.mp h
    · rfl
    · exact ih h

theorem shows_redis {c : RedisCmd} {v : c.Ans} (hsound : Sound s)
    (h : respond t x s (.redis c) = (.ok v, s')) : Shows t a s' (.redis c) (.ok v) := by
  have hlater : Later s s' := (respond_does h).later
  obtain ⟨rfl, rfl⟩ := respond_redis h
  cases c with
  | getRecord ref =>
    simp only [redisEffect]
    cases hrecord : s.record ref with
    | none => trivial
    | some record => exact hrecord
  | setRecordNX ref record =>
    simp only [redisEffect]
    split
    · next h => exact h
    · simp [Shows, record_cons]
  | getOutcome ref =>
    simp only [redisEffect]
    cases ho : s.outcomes ref with
    | none => trivial
    | some outcome => simp [Shows, ho]
  | setOutcomeNX ref outcome =>
    simp only [redisEffect]
    split
    · next h => exact h
    · simp [Shows]
  | getPending ref submitter =>
    simp only [redisEffect]
    cases hp : s.pending ref submitter with
    | none => trivial
    | some p => exact hsound.pending ref submitter p hp
  | hscanSubs ref cursor count =>
    intro sub hsub
    simp only [redisEffect] at hsub
    obtain ⟨address, -, hsome⟩ := List.mem_filterMap.mp hsub
    obtain ⟨record, hrecord, rfl⟩ := Option.map_eq_some_iff.mp hsome
    exact hlater.sub _ _ _ hrecord
  | zrangeJudge scope nowSec limit =>
    intro ref href
    simp only [redisEffect] at href
    have hmem := List.mem_filter.mp (List.mem_of_mem_take href)
    exact (of_decide_eq_true hmem.2).1
  | hmgetResults ref subs =>
    intro p hp result hr
    rw [snd_of_mem_zip_map hp] at hr
    exact (hsound.result ref p.1 result hr).1
  | _ => trivial

theorem viewed_eq_ok {ε α : Type} {o : Except ε α} {v : α} : viewed o = .ok v ↔ o = .ok v := by
  cases o <;> simp [viewed]

theorem shows_escrow {chain : TaskChain} {c : EscrowRead} {v : c.Ans} (hsound : Sound s)
    (hready : Ready s t) (hknown : Answered t s a)
    (h : escrowRead (s.escrows chain) c = .ok v) : Shows t a s (.escrow chain c) (.ok v) := by
  cases c with
  | openPhase taskId => exact ⟨v, viewed_eq_ok.mp h, le_rfl⟩
  | getTask taskId =>
    cases h
    exact fun hconcerns => ⟨hconcerns.isOpen hsound hready hknown, rfl⟩
  | getOpenTask taskId =>
    cases h
    exact fun hconcerns => hconcerns.isOpen hsound hready hknown
  | submissionCount taskId =>
    cases h
    intro phase hne hmem
    obtain ⟨_, _, p, hp, hle⟩ := hknown.mem hmem
    exact ⟨⟨p, hp, rank_ne_submissions hne hle⟩, rfl⟩
  | submissionOf taskId submitter =>
    cases h
    exact fun _ => rfl
  | _ => trivial

theorem shows_respond (hsound : Sound s) (hready : Ready s t) (hknown : Answered t s a)
    (h : respond t x s c = (r, s')) : Shows t a s' c r := by
  cases r with
  | error e =>
    cases c with
    | redis c => cases c <;> trivial
    | escrow chain c => cases c <;> trivial
    | _ => trivial
  | ok v =>
    obtain ⟨heffect, rfl⟩ := respond_ok h
    cases c with
    | redis c => exact shows_redis hsound h
    | escrow chain c => exact shows_escrow hsound hready hknown heffect
    | send chain call basis =>
      simp only [effect, sendEffect] at heffect ⊢
      cases hsigner : cfg.signer chain with
      | none => simp [hsigner] at heffect
      | some sender =>
        simp only [hsigner] at heffect ⊢
        cases heffect
        exact ⟨⟨chain, sender, call, none⟩, by simp, rfl, rfl⟩
    | wait tx =>
      simp only [effect, waited] at heffect ⊢
      split at heffect
      · next ok hmined =>
        cases heffect
        cases v with
        | false => trivial
        | true => exact Option.bind_eq_some_iff.mp hmined
      · cases heffect
    | leftForAdmin ref => exact List.mem_cons_self
    | _ => trivial

/-! ## One step -/

/-- What is saved, kept or recorded is true. -/
theorem Sound.ran (h : Sound s) (hready : Ready s t) (hknown : Answered t s a)
    (hasks : Asks cfg t a c) (hx : Does t s c s') : Sound s' where
  record ref record hr hown := by
    obtain hr | rfl := hx.record_of hr
    · exact (h.record ref record hr hown).later hx.later
    · obtain ⟨⟨log, hop, hlog⟩, hnames, hscope, ⟨task, htask, hhash⟩, -⟩ := hasks
      obtain ⟨_, _, hshows⟩ := hknown.mem htask
      obtain ⟨hopen, hsame⟩ := hshows (.inl ⟨log, hop, hlog⟩)
      refine Genuine.later ⟨hnames, ?_, hopen, hhash.trans hsame.symm⟩ hx.later
      simp [Config.onThisNetwork, hscope]
  sub ref submitter record hr := by
    obtain hr | rfl := hx.sub_of hr
    · exact (h.sub ref submitter record hr).later hx.later
    · obtain ⟨chain, taskId, count, hop, rfl⟩ := hasks
      exact (hready.committed hop).later hx.later
  pending ref submitter p hp := by
    obtain hp | rfl := hx.pending_of hp
    · exact h.pending ref submitter p hp
    · exact hasks
  result ref submitter result hr := by
    obtain heq | ⟨result', rfl, -, heq⟩ := hx.results ref submitter
    · obtain ⟨hcommitted, hhashed⟩ := h.result ref submitter result (by rwa [← heq])
      exact ⟨hcommitted.later hx.later, hhashed⟩
    · rw [heq] at hr
      cases hr
      cases hasks with
      | held chain taskId count hop href hmem =>
        subst href
        obtain ⟨_, _, hhashed⟩ := hknown.mem hmem
        exact ⟨(hready.committed hop).later hx.later, hhashed⟩
      | committed chain taskId href hmem hne hhashed =>
        subst href
        obtain ⟨_, _, hshows⟩ := hknown.mem hmem
        exact ⟨Committed.later ⟨rfl, hshows hne, hne⟩ hx.later, hhashed⟩
  mined tx t ht hmined := by
    obtain ht | hnone := hx.tx_of ht
    · exact phase_closed_later (h.mined tx t ht hmined) (hx.later.escrows t.chain)
    · rw [hnone] at hmined
      cases hmined

/-- A judge's call that went through settled its task. -/
theorem JudgeTx.announces {tx : JudgeTx} {e : BlindEscrow.Event} {cid : Nat}
    (h : e.kind = .called cid tx.msg) :
    ∃ log ∈ e.announces, log.decides tx.call.taskId = true := by
  obtain ⟨chain, sender, call, mined⟩ := tx
  cases call <;>
    simp [BlindEscrow.Event.announces, h, JudgeTx.msg, JudgeCall.op, JudgeCall.taskId,
      BlindEscrow.Log.decides]

theorem Moves.mined (h : Sound s) (hm : Moves s s') (tx : TxId) (t : JudgeTx)
    (ht : s'.txs[tx]? = some t) (hmined : t.mined = some true) :
    (s'.escrows t.chain).phase t.call.taskId = .ok .closed := by
  have hkept : s.txs[tx]? = some t → (s'.escrows t.chain).phase t.call.taskId = .ok .closed :=
    fun ht => phase_closed_later (h.mined tx t ht hmined) (hm.later.escrows t.chain)
  cases hm with
  | mine tx₀ t₀ e c htx hnew hstep hmsg =>
    obtain ⟨rfl, t₁, ht₁, rfl⟩ | ht := setMined_of ht
    · have hsame : s.txs[tx]? = some t₁ := ht₁
      rw [htx] at hsame
      cases hsame
      obtain ⟨cid, hkind⟩ := hmsg
      obtain ⟨log, hlog, hdecides⟩ := JudgeTx.announces hkind
      have hclosed := Deployed.announced_settled ((s.escrows t₀.chain).next e c hstep)
        List.mem_cons_self hlog hdecides
      simpa [State.setMined, State.setEscrow] using hclosed
    · exact hkept ht
  | revert tx₀ t₀ htx hnew =>
    obtain ⟨rfl, t₁, ht₁, rfl⟩ | ht := setMined_of ht
    · cases hmined
    · exact hkept ht
  | _ => exact hkept ht

/-- What moves by itself adds nothing but mined transactions. -/
theorem Sound.moved (h : Sound s) (hm : Moves s s') : Sound s' where
  record ref record hr hown := by
    rw [State.record, hm.lapsed.records] at hr
    exact (h.record ref record hr hown).later hm.later
  sub ref submitter record hr := by
    rw [State.sub, hm.lapsed.subs] at hr
    exact (h.sub ref submitter record hr).later hm.later
  pending ref submitter p hp := h.pending ref submitter p (hm.lapsed.pending _ _ _ hp)
  result ref submitter result hr := by
    obtain heq | ⟨hnone, -⟩ := hm.lapsed.results ref
    · rw [heq] at hr
      obtain ⟨hcommitted, hhashed⟩ := h.result ref submitter result hr
      exact ⟨hcommitted.later hm.later, hhashed⟩
    · rw [hnone] at hr
      cases hr
  mined := hm.mined h

theorem sound_calls (h : Sound s) (calls : Nat) : Sound { s with calls } := by
  have hs : Later s { s with calls } := { Later.refl s with }
  exact ⟨fun _ _ hr hown => (h.record _ _ hr hown).later hs, fun _ _ _ hr => (h.sub _ _ _ hr).later hs,
    h.pending, fun _ _ _ hr => (h.result _ _ _ hr).imp (fun hc => hc.later hs) id, h.mined⟩

theorem sound_crash (h : Sound s) (t : Call) : Sound (s.crash t) := by
  have hs := later_crash s t
  unfold State.crash at hs ⊢
  split at hs
  · exact ⟨fun _ _ hr hown => (h.record _ _ hr hown).later hs,
      fun _ _ _ hr => (h.sub _ _ _ hr).later hs, h.pending,
      fun _ _ _ hr => (h.result _ _ _ hr).imp (fun hc => hc.later hs) id, h.mined⟩
  · exact h

theorem Initial.sound (h : Initial s) : Sound s := by
  have hfresh := h.fresh
  refine ⟨fun ref record hr hown => h.genuine ref record hr hown, fun ref submitter record hr => ?_,
    fun ref submitter p hp => ?_, fun ref submitter result hr => ?_, fun tx t ht hmined => ?_⟩
  · rw [hfresh] at hr
    cases hr
  · rw [hfresh] at hp
    cases hp
  · rw [hfresh] at hr
    cases hr
  · rw [hfresh] at ht
    cases ht

/-! ## Runs -/

theorem backend_numbered : Numbered (backend cfg) Call.id State.calls where
  exec := by
    rintro t s c r s' ⟨x, hx⟩
    cases respond_does hx with
    | same c h => exact h.calls
    | _ => rfl
  start := by
    rintro tags s t p s' ⟨hid, -, -, rfl⟩
    exact ⟨hid, rfl⟩
  env := by
    intro s s' hm
    cases hm <;> rfl
  die := by
    rintro t s s' rfl
    unfold State.crash
    split <;> rfl

abbrev Ends (cfg : Config) (t : Call) (a : Answers Ans Code) (r : Except Code Response) : Prop :=
  ∀ v, r = .ok v → Shown cfg t a

/-- A step is a command of some program, or it only lets things lapse. -/
theorem backend_cases (h : Move (backend cfg) (Asks cfg) (Ends cfg) tr s e s') :
    (∃ t a c r x, known tr t = some a ∧ Asks cfg t a c ∧ respond t x s c = (r, s') ∧
      e = ⟨.ran t c r, s, s'⟩) ∨
    Lapsed s s' ∧ Later s s' ∧ (∀ t (c : Cmd) (r : Except Code (Ans c)), e.label ≠ .ran t c r) := by
  cases h with
  | ran t a c r hknown hasks hx =>
    obtain ⟨x, hx⟩ := hx
    exact .inl ⟨t, a, c, r, x, hknown, hasks, hx, rfl⟩
  | started t p tags hfresh hx =>
    obtain ⟨-, -, -, rfl⟩ := hx
    exact .inr ⟨{ Lapsed.refl s with }, { Later.refl s with }, by simp⟩
  | finished t a r hknown hends => exact .inr ⟨.refl s, .refl s, by simp⟩
  | env hx => exact .inr ⟨hx.lapsed, hx.later, by simp⟩
  | died t a hknown hx =>
    obtain rfl := hx
    refine .inr ⟨?_, later_crash s t, by simp⟩
    unfold State.crash
    split <;> exact { Lapsed.refl s with }

theorem Known.ran (h : Known tr s) (hsound : Sound s) (hknown : known tr t = some a)
    (hx : respond t x s c = (r, s')) : Known (⟨.ran t c r, s, s'⟩ :: tr) s' := by
  intro t' a' ha'
  have hs := (respond_does hx).later
  obtain ⟨rfl, rfl⟩ | ⟨-, ha'⟩ := known_answered hknown ha'
  · obtain ⟨hready, htold⟩ := h _ _ hknown
    exact ⟨ready_later hready hs, shows_respond hsound hready htold hx, htold.later hs⟩
  · obtain ⟨hready, htold⟩ := h _ _ ha'
    exact ⟨ready_later hready hs, htold.later hs⟩

/-- What every step keeps, given that what is stored and known is true, every run keeps. -/
theorem backend_invariant {I : List (Ev cfg) → State cfg → Prop} {s₀ : State cfg}
    {pool : Pool Ans Code Response Call (State cfg)}
    (h : PoolRun (backend cfg) ⟨s₀, []⟩ tr pool) (h0 : Initial s₀) (hI : I [] s₀)
    (hmove : ∀ tr s e s', I tr s → Sound s → Known tr s →
      Move (backend cfg) (Asks cfg) (Ends cfg) tr s e s' → I (e :: tr) s') :
    I tr pool.state ∧ Sound pool.state ∧ Known tr pool.state := by
  refine backend_numbered.known_invariant (P := Asks cfg) (Q := Ends cfg)
    (I := fun tr s => I tr s ∧ Sound s ∧ Known tr s) h ?_ ⟨hI, h0.sound, ?_⟩ ?_
  · rintro tags s t p s' ⟨-, -, rfl, -⟩
    exact yields_prog cfg t
  · intro t a ha
    cases ha
  · rintro tr s e s' ⟨hi, hsound, hknown⟩ hm
    have hkeep : Later s s' → (∀ t (c : Cmd) (r : Except Code (Ans c)), e.label ≠ .ran t c r) →
        (∀ t, known (e :: tr) t = some [] → known tr t = some [] ∨ Ready s' t) →
        Known (e :: tr) s' := by
      intro hs hne hnew t a ha
      obtain rfl | ha' := known_silent hne ha
      · obtain ha' | hready := hnew t ha
        · exact ⟨ready_later (hknown t [] ha').1 hs, trivial⟩
        · exact ⟨hready, trivial⟩
      · exact ⟨ready_later (hknown t a ha').1 hs, (hknown t a ha').2.later hs⟩
    refine ⟨hmove tr s e s' hi hsound hknown hm, ?_⟩
    cases hm with
    | ran t a c r ha hasks hx =>
      obtain ⟨x, hx⟩ := hx
      obtain ⟨hready, htold⟩ := hknown t a ha
      exact ⟨hsound.ran hready htold hasks (respond_does hx), hknown.ran hsound ha hx⟩
    | started t p tags hfresh hx =>
      obtain ⟨-, hready, -, rfl⟩ := hx
      have hs : Later s { s with calls := s.calls + 1 } := { Later.refl s with }
      refine ⟨sound_calls hsound _, hkeep hs (by simp) fun t' ha' => ?_⟩
      rw [known_started] at ha'
      split at ha'
      · next heq =>
        subst heq
        exact .inr (ready_later hready hs)
      · exact .inl ha'
    | finished t a r ha hends =>
      refine ⟨hsound, hkeep (.refl s) (by simp) fun t' ha' => ?_⟩
      rw [known_finished] at ha'
      split at ha'
      · cases ha'
      · exact .inl ha'
    | env hx => exact ⟨hsound.moved hx, hkeep hx.later (by simp) fun t' ha' => .inl ha'⟩
    | died t a ha hx =>
      obtain rfl := hx
      refine ⟨sound_crash hsound t, hkeep (later_crash s t) (by simp) fun t' ha' => ?_⟩
      rw [known_died] at ha'
      split at ha'
      · cases ha'
      · exact .inl ha'

/-! ## At a step of a run -/

section

variable {s₀ : State cfg} {pool : Pool Ans Code Response Call (State cfg)}
  {later earlier : List (Ev cfg)}

/-- Whatever happens in a run is a move of something true and known. -/
theorem backend_at (h : PoolRun (backend cfg) ⟨s₀, []⟩ (later ++ e :: earlier) pool)
    (h0 : Initial s₀) :
    Move (backend cfg) (Asks cfg) (Ends cfg) earlier e.pre e e.post ∧ Sound e.pre ∧
      Known earlier e.pre := by
  obtain ⟨b, b', hpre, hs, -⟩ := h.split
  obtain ⟨-, hsound, hknown⟩ := backend_invariant (I := fun _ _ => True) hpre h0 trivial
    fun _ _ _ _ _ _ _ _ => trivial
  obtain ⟨hb, hb'⟩ := hs.states
  rw [hb, hb']
  refine ⟨backend_numbered.move hpre hs ?_, hsound, hknown⟩
  rintro tags s t p s' ⟨-, -, rfl, -⟩
  exact yields_prog cfg t

theorem step_later {b b' : Pool Ans Code Response Call (State cfg)} (h : Step (backend cfg) b e b') :
    Later b.state b'.state := by
  cases h with
  | run l₁ l₂ t c k r hx =>
    obtain ⟨x, hx⟩ := hx
    exact (respond_does hx).later
  | start l t p hx =>
    obtain ⟨-, -, -, rfl⟩ := hx
    exact { Later.refl _ with }
  | finish l₁ l₂ t r => exact .refl _
  | env l hx => exact hx.later
  | die l₁ l₂ t p hx =>
    obtain rfl := hx
    exact later_crash _ t

theorem run_later {b : Pool Ans Code Response Call (State cfg)} (h : PoolRun (backend cfg) b tr pool) :
    Later b.state pool.state := by
  induction h with
  | nil => exact .refl _
  | snoc h hs ih => exact ih.trans (step_later hs)

/-- What a program that ended well shows, of answers that hold. -/
theorem backend_finished {v : Response}
    (h : PoolRun (backend cfg) ⟨s₀, []⟩ (later ++ e :: earlier) pool) (h0 : Initial s₀)
    (hlabel : e.label = .finished t (.ok v)) :
    ∃ a, known earlier t = some a ∧ Shown cfg t a ∧ Ready pool.state t ∧
      Answered t pool.state a := by
  obtain ⟨hm, -, hknown⟩ := backend_at h h0
  obtain ⟨b, b', hpre, hs, hpost⟩ := h.split
  obtain ⟨hb, hb'⟩ := hs.states
  have hlater : Later e.pre pool.state := by
    rw [hb]
    exact (step_later hs).trans (run_later hpost)
  generalize hpost' : e.post = s' at hm
  generalize e.pre = s at hm hknown hlater
  cases hm with
  | finished t' a r ha hends =>
    cases hlabel
    obtain ⟨hready, htold⟩ := hknown t a ha
    exact ⟨a, ha, hends v rfl, ready_later hready hlater, htold.later hlater⟩
  | _ => cases hlabel

/-- Every answer in a trace was given as its command took effect, or it is a rejection. -/
theorem ran_responds (h : PoolRun (backend cfg) ⟨s₀, []⟩ tr pool) (he : e ∈ tr)
    (hlabel : e.label = .ran t c r) : ∃ x, respond t x e.pre c = (r, e.post) := by
  obtain ⟨later, earlier, b, b', -, -, hs, -⟩ := Run.split_mem h he
  cases hs with
  | run l₁ l₂ t' c' k r' hx =>
    cases hlabel
    exact hx
  | _ => cases hlabel

end

end OpenSubmissions
