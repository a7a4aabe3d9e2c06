import BlindMarket.OpenSubmissions.Truth

/-!
# Kept for good

A kept result is the one the escrow holds the hash of. It stays until the
results of its task lapse together, and whatever is kept after that has the
same hash. Others than the task's judges see it once nobody can submit.
-/
namespace OpenSubmissions

open Async Prog Runs
open BlindEscrow (Address Bytes32 OpenPhase Deployed Msg Stop begin)

variable {cfg : Config} {t : Call} {s : State cfg} {ref : TaskRef} {submitter : Address}
  {result : OpenResult} {tr later earlier : List (Ev cfg)} {e : Ev cfg} {s₀ : State cfg}
  {b b' pool : Pool Ans Code Response Call (State cfg)}

/-- The kept results of a task lapse with time. -/
def Lapses (e : Ev cfg) (ref : TaskRef) : Prop :=
  e.label = .env ∧ e.post.results ref = (fun _ => none) ∧
    ∃ atSec, e.pre.resultsExpiry ref = some atSec ∧ atSec ≤ e.pre.clock

/-- The result is still kept, unless those of its task have lapsed since. -/
def KeptSince (later : List (Ev cfg)) (s : State cfg) (ref : TaskRef) (submitter : Address)
    (result : OpenResult) : Prop :=
  s.results ref submitter = some result ∨ ∃ e ∈ later, Lapses e ref

theorem step_keeps (h : Step (backend cfg) b e b') (hr : b.state.results ref submitter = some result) :
    b'.state.results ref submitter = some result ∨ Lapses e ref := by
  cases h with
  | run l₁ l₂ t c k r hx =>
    obtain ⟨x, hx⟩ := hx
    obtain heq | ⟨result', -, hnone, -⟩ := (respond_does hx).results ref submitter
    · exact .inl (heq.trans hr)
    · simp only at hr
      rw [hnone] at hr
      cases hr
  | start l t p hx =>
    obtain ⟨-, -, -, rfl⟩ := hx
    exact .inl hr
  | finish l₁ l₂ t r => exact .inl hr
  | env l hx =>
    obtain heq | ⟨hnone, hlapse⟩ := hx.lapsed.results ref
    · exact .inl ((congrFun heq submitter).trans hr)
    · exact .inr ⟨rfl, hnone, hlapse⟩
  | die l₁ l₂ t p hx =>
    obtain rfl := hx
    refine .inl ?_
    simp only [State.crash]
    split <;> exact hr

/-- From then on it is kept until it lapses. -/
theorem run_keeps (h : PoolRun (backend cfg) b later pool)
    (hr : b.state.results ref submitter = some result) :
    KeptSince later pool.state ref submitter result := by
  induction h with
  | nil => exact .inl hr
  | snoc h hs ih =>
    obtain hkept | ⟨e, he, hlapse⟩ := ih
    · obtain hkept | hlapse := step_keeps hs hkept
      · exact .inl hkept
      · exact .inr ⟨_, List.mem_cons_self, hlapse⟩
    · exact .inr ⟨e, List.mem_cons_of_mem _ he, hlapse⟩

/-- A handler read what was held for the submitter, and if it has the event's hash, a result with
that hash is kept since. -/
def KeptWhenHandled (tr : List (Ev cfg)) (s : State cfg) (t : Call) (ref : TaskRef)
    (submitter : Address) (hash : Bytes32) : Prop :=
  ∃ e ∈ tr, ∃ p : Option OpenResult,
    e.label = .ran t (.redis (.getPending ref submitter)) (.ok p) ∧
    p = (e.pre.pending ref submitter).map (·.1) ∧
    ∀ result, p = some result → result.evidenceHash = hash →
      ∃ later e earlier kept result', tr = later ++ e :: earlier ∧
        e.label = .ran t (.redis (.hsetnxResult ref submitter result)) (.ok kept) ∧
        e.post.results ref submitter = some result' ∧ result'.evidenceHash = hash ∧
        KeptSince later s ref submitter result'

/-- Nobody can submit to the task any more. -/
def NoneCanSubmit (s : State cfg) (chain : TaskChain) (taskId : Nat) : Prop :=
  ∀ (m : Msg) (hash : Bytes32) (stop : Stop), m.op = .submitOpen taskId hash →
    begin (cfg.deployment chain) m (s.escrows chain).config.world ≠ .ok stop

structure KeptForGood (tr : List (Ev cfg)) (s : State cfg) : Prop where
  committed : ∀ ref submitter result, s.results ref submitter = some result →
    Committed s ref submitter result.evidenceHash ∧ Hashed cfg result
  stays : ∀ later e earlier, tr = later ++ e :: earlier → ∀ ref submitter result,
    e.post.results ref submitter = some result → KeptSince later s ref submitter result
  same : ∀ e ∈ tr, ∀ ref submitter result result', e.post.results ref submitter = some result →
    s.results ref submitter = some result' → result'.evidenceHash = result.evidenceHash ∧
      (Function.Injective cfg.keccak256 → result'.content = result.content)
  handled : ∀ e ∈ tr, ∀ t v chain taskId submitter hash count, e.label = .finished t (.ok v) →
    t.op = .handle chain (.openSubmission taskId submitter hash count) →
    KeptWhenHandled tr s t (cfg.taskRef chain taskId) submitter hash
  hidden : ∀ later e earlier, tr = later ++ e :: earlier → ∀ t user taskHash cursor limit v,
    e.label = .finished t (.ok v) → t.op = .getSubmissions user taskHash cursor limit →
    ∃ task : OpenTaskInfo, (∃ e ∈ earlier, e.label = .ran t (.openTask taskHash) (.ok task)) ∧
      (∀ e ∈ earlier, ∀ ref subs r, e.label = .ran t (.redis (.hmgetResults ref subs)) r →
        ref = task.ref cfg) ∧
      (isJudge user task.listing = true ∨ NoneCanSubmit s task.chain task.taskId)

theorem Committed.hash_eq {hash hash' : Bytes32} (h : Committed s ref submitter hash)
    (h' : Committed s ref submitter hash') : hash' = hash := h'.2.1.symm.trans h.2.1

theorem Hashed.content_eq {result result' : OpenResult} (hinj : Function.Injective cfg.keccak256)
    (h : Hashed cfg result) (h' : Hashed cfg result')
    (heq : result'.evidenceHash = result.evidenceHash) : result'.content = result.content := by
  rw [Hashed, Config.openEvidenceHash] at h h'
  exact hinj (h'.symm.trans (heq.trans h))

/-- The task of a handled event is on record, and its held result was kept. -/
theorem handled_kept (h : PoolRun (backend cfg) ⟨s₀, []⟩ (later ++ e :: earlier) pool)
    (h0 : Initial s₀) {v : Response} (hlabel : e.label = .finished t (.ok v)) {chain : TaskChain}
    {taskId count : Nat} {hash : Bytes32}
    (hop : t.op = .handle chain (.openSubmission taskId submitter hash count)) :
    KeptWhenHandled (later ++ e :: earlier) pool.state t (cfg.taskRef chain taskId) submitter
      hash := by
  obtain ⟨a, ha, hshown, hready, htold⟩ := backend_finished h h0 hlabel
  have hevent : ∀ {c : Cmd} {r : Except Code (Ans c)}, ⟨c, r⟩ ∈ a →
      ∃ e' ∈ later ++ e :: earlier, e'.label = .ran t c r := by
    intro c r hmem
    obtain ⟨e', he', hran⟩ := known_mem ha hmem
    exact ⟨e', by simp [he'], hran⟩
  simp only [Shown, hop] at hshown
  obtain ⟨openTask, hopen, hclosed⟩ | ⟨-, p, hp, hkept⟩ := hshown
  · obtain ⟨_, _, hshows⟩ := htold.mem hopen
    rw [hshows (.inl ⟨_, hop, rfl⟩)] at hclosed
    cases hclosed
  · obtain ⟨e', he', hran⟩ := hevent hp
    refine ⟨e', he', p, hran, ?_, fun result hsome heq => ?_⟩
    · obtain ⟨x, hx⟩ := ran_responds h he' hran
      exact (respond_redis hx).1
    · obtain ⟨kept, hmem⟩ := hkept result hsome heq
      obtain ⟨e₁, he₁, hran₁⟩ := hevent hmem
      obtain ⟨later₁, earlier₁, htr⟩ := List.append_of_mem he₁
      obtain ⟨x, hx⟩ := ran_responds h he₁ hran₁
      rw [htr] at h
      obtain ⟨b, b', hpre, hs, hpost⟩ := h.split
      have hsome : (e₁.post.results (cfg.taskRef chain taskId) submitter).isSome = true := by
        obtain ⟨-, hpost⟩ := respond_redis hx
        rw [hpost]
        simp only [redisEffect]
        split
        · assumption
        · simp
      obtain ⟨result', hresult'⟩ := Option.isSome_iff_exists.mp hsome
      refine ⟨later₁, e₁, earlier₁, kept, result', htr, hran₁, hresult', ?_, ?_⟩
      · have hsound := (backend_invariant (I := fun _ _ => True) (.snoc hpre hs) h0 trivial
          fun _ _ _ _ _ _ _ _ => trivial).2.1
        rw [hs.states.2] at hresult'
        have hcommitted := ((hsound.result _ _ _ hresult').1).later (run_later hpost)
        exact (hready.committed hop).hash_eq hcommitted
      · rw [hs.states.2] at hresult'
        exact run_keeps hpost hresult'

theorem seen_hidden (h : PoolRun (backend cfg) ⟨s₀, []⟩ (later ++ e :: earlier) pool)
    (h0 : Initial s₀) {v : Response} (hlabel : e.label = .finished t (.ok v)) {user : User}
    {taskHash : Bytes32} {cursor limit : Nat}
    (hop : t.op = .getSubmissions user taskHash cursor limit) :
    ∃ task : OpenTaskInfo, (∃ e ∈ earlier, e.label = .ran t (.openTask taskHash) (.ok task)) ∧
      (∀ e ∈ earlier, ∀ ref subs r, e.label = .ran t (.redis (.hmgetResults ref subs)) r →
        ref = task.ref cfg) ∧
      (isJudge user task.listing = true ∨ NoneCanSubmit pool.state task.chain task.taskId) := by
  obtain ⟨a, ha, hshown, -, htold⟩ := backend_finished h h0 hlabel
  obtain ⟨b, b', hpre, -, -⟩ := h.split
  simp only [Shown, hop] at hshown
  obtain ⟨task, hopened, hallowed, hread⟩ := hshown
  refine ⟨task, known_mem ha hopened, fun e' he' ref subs r hran => ?_, hallowed.imp id ?_⟩
  · exact hread ref subs r (backend_numbered.known_all hpre ha he' hran)
  · rintro ⟨phase, hphase, hne⟩ m hash stop hsubmit
    obtain ⟨_, _, p, hp, hle⟩ := htold.mem hphase
    exact (Deployed.Later.refl _).refuses hp (rank_ne_submissions hne hle) hsubmit stop

/-- A kept open-submission result is the one the escrow committed to, for good. -/
theorem kept_for_good (h0 : Initial s₀) (h : PoolRun (backend cfg) ⟨s₀, []⟩ tr pool) :
    KeptForGood tr pool.state := by
  have hsound := (backend_invariant (I := fun _ _ => True) h h0 trivial
    fun _ _ _ _ _ _ _ _ => trivial).2.1
  refine ⟨fun ref submitter result hr => hsound.result ref submitter result hr, ?_, ?_, ?_, ?_⟩
  · rintro later e earlier rfl ref submitter result hr
    obtain ⟨b, b', -, hs, hpost⟩ := h.split
    rw [hs.states.2] at hr
    exact run_keeps hpost hr
  · intro e he ref submitter result result' hr hr'
    obtain ⟨later, earlier, b, b', -, hpre, hs, hpost⟩ := Run.split_mem h he
    have hsound' := (backend_invariant (I := fun _ _ => True) (.snoc hpre hs) h0 trivial
      fun _ _ _ _ _ _ _ _ => trivial).2.1
    rw [hs.states.2] at hr
    obtain ⟨hcommitted, hhashed⟩ := hsound'.result ref submitter result hr
    obtain ⟨hcommitted', hhashed'⟩ := hsound.result ref submitter result' hr'
    have heq := (hcommitted.later (run_later hpost)).hash_eq hcommitted'
    exact ⟨heq, fun hinj => hhashed.content_eq hinj hhashed' heq⟩
  · intro e he t v chain taskId submitter hash count hlabel hop
    obtain ⟨later, earlier, rfl⟩ := List.append_of_mem he
    exact handled_kept h h0 hlabel hop
  · rintro later e earlier rfl t user taskHash cursor limit v hlabel hop
    exact seen_hidden h h0 hlabel hop

/-- 20 sends its result, submits, and the event is handled; 30 reads it past the deadline. -/
def sendSubmitRead : List (Cue Call Turn Env) :=
  let hash := demoConfig.openEvidenceHash PARIS none
  ([.move (.listing demoRef (some ⟨some 10, some 11, some 8200, none⟩)),
    .enter ⟨0, 0, 0, .submitOpen ⟨20, []⟩ 7 ⟨⟨PARIS, none⟩, none⟩⟩, .turn 0 { ref := demoRef },
    .turn 0 { flag := true }, .turn 0 { flag := true }] : Cues) ++ plain 0 16 ++
  ([.leave 0, .move (.escrow .base (.send ⟨20, 0, .submitOpen 1 hash⟩)),
    .enter ⟨1, 0, 0, .handle .base (.openSubmission 1 20 hash 1)⟩] : Cues) ++ plain 0 18 ++
  ([.leave 0, .move (.escrow .base (.wait 7200)),
    .enter ⟨2, 0, 0, .getSubmissions ⟨30, []⟩ 7 0 10⟩, .turn 0 { ref := demoRef },
    .turn 0 { number := 9000 }, .turn 0 {}, .turn 0 { picks := [0] }] : Cues) ++ plain 0 2 ++
  ([.leave 0] : Cues)

theorem sendSubmitRead_plays :
    ((stage demoConfig).play sendSubmitRead ⟨demoStart demoOpen, []⟩).isSome = true := by decide

theorem kept_for_good_sendSubmitRead :
    KeptForGood (((stage demoConfig).play sendSubmitRead ⟨demoStart demoOpen, []⟩).get
        sendSubmitRead_plays).1
      (((stage demoConfig).play sendSubmitRead ⟨demoStart demoOpen, []⟩).get
        sendSubmitRead_plays).2.state ∧
      ((((stage demoConfig).play sendSubmitRead ⟨demoStart demoOpen, []⟩).get
        sendSubmitRead_plays).2.state.results demoRef 20).map (·.content) = some ⟨PARIS, none⟩ :=
  ⟨kept_for_good (demoStart_initial demoOpen) (Stage.play_get sendSubmitRead_plays), by decide⟩

end OpenSubmissions
