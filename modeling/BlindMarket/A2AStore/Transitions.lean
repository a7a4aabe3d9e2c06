import BlindMarket.A2AStore.System

/-!
# Stale writes

The transitions of a task are scripts, but `updateState` reads the record,
patches it and writes the whole of it back. What the last transition left is
in force as long as every such write finds, outside its patch, what it read.
-/
namespace A2AStore

open Async Prog Runs

variable {t : Text} {f : Field}

/-! ## Patches of one task -/

def Bookkeeping (f : Field) : Prop :=
  f ≠ .executorAddress ∧ f ≠ .acceptedAt ∧ f ≠ .failedReason

/-- A patch of bookkeeping fields only. -/
structure Patch.Keeps (patch : Patch) : Prop where
  status : patch.status = none
  fields : ∀ f, ¬ Bookkeeping f → patch.fields f = none

/-- The calls of one task that race: the four transitions and bookkeeping patches. -/
def Races (t : Text) : Op → Prop
  | .tryAccept taskId _ _ => toLowerCase taskId = t
  | .tryExpire taskId _ => toLowerCase taskId = t
  | .tryCloseOnChainTerminal taskId _ => toLowerCase taskId = t
  | .tryReleaseAccepted taskId _ => toLowerCase taskId = t
  | .updateState taskId patch => toLowerCase taskId = t ∧ patch.Keeps
  | _ => False

/-- The program of a call, without its result. -/
def Op.prog : Op → Store Unit
  | .setMeta m => A2AStore.setMeta m
  | .updateState taskId patch => do
    let _ ← A2AStore.updateState taskId patch
  | .tryAccept taskId executorAddress acceptedAt => do
    let _ ← A2AStore.tryAccept taskId executorAddress acceptedAt
  | .tryExpire taskId reason => do
    let _ ← A2AStore.tryExpire taskId reason
  | .tryCloseOnChainTerminal taskId reason => do
    let _ ← A2AStore.tryCloseOnChainTerminal taskId reason
  | .releaseToOpen taskId => A2AStore.releaseToOpen taskId
  | .tryReleaseAccepted taskId expected => do
    let _ ← A2AStore.tryReleaseAccepted taskId expected
  | .closeOpenSubmissionTask taskId winner => do
    let _ ← A2AStore.closeOpenSubmissionTask taskId winner

def Op.patch : Op → Patch
  | .updateState _ patch => patch
  | _ => {}

abbrev Ev := Event Ans Failure Unit (Call Op) State

/-! ## What is in force -/

/-- Whether a script answered `ok`. -/
def Script.committed : (script : Script) → script.Answer → Bool
  | .tryAccept .., .ok _ => true
  | .tryExpire .., .ok _ => true
  | .tryClose .., .ok _ => true
  | .closeOpen .., closed => closed
  | .tryRelease .., .ok _ => true
  | _, _ => false

def Committed (e : Ev) : Bool :=
  match e.label with
  | .ran _ (.eval script) (.ok a) => script.committed a
  | _ => false

/-- The record as the last transition left it. -/
def lastTransition (t : Text) (s₀ : State) : List Ev → Option A2ATaskState
  | [] => s₀.redis.states t
  | e :: tr => if Committed e then e.post.redis.states t else lastTransition t s₀ tr

/-- The last patch of a field written since. -/
def lastPatch (t : Text) (f : Field) : List Ev → Option (Option Text)
  | [] => none
  | e :: tr =>
    if Committed e then none
    else
      match e.label with
      | .ran call (.write (.setState key _)) _ =>
        if key = t then (call.op.patch.fields f).orElse fun _ => lastPatch t f tr
        else lastPatch t f tr
      | _ => lastPatch t f tr

/-- The status and the fields of the last transition stand, and each bookkeeping field holds its
last patch since. -/
def InForce (t : Text) (s₀ : State) (tr : List Ev) (s : State) : Prop :=
  ∃ b now, lastTransition t s₀ tr = some b ∧ s.redis.states t = some now ∧
    now.status = b.status ∧ (∀ f, ¬ Bookkeeping f → now.fields f = b.fields f) ∧
    ∀ f, Bookkeeping f → now.fields f = (lastPatch t f tr).getD (b.fields f)

/-- Outside a patch two records are the same. -/
def SameOutside (patch : Patch) (s s' : A2ATaskState) : Prop :=
  (patch.status = none → s.status = s'.status) ∧
    ∀ f, patch.fields f = none → s.fields f = s'.fields f

/-- A call writes its record over one that is, outside its patch, the one it read. -/
def Fresh (t : Text) (tr : List Ev) (e : Ev) : Prop :=
  ∀ call v r, e.label = .ran call (.write (.setState t v)) r →
    ∀ e' ∈ tr, ∀ read, e'.label = .ran call (.getState t) (.ok (some read)) →
      ∀ stored, e.pre.redis.states t = some stored → SameOutside call.op.patch stored read

/-! ## What the calls write -/

/-- The only record a call writes is the one it read, patched. -/
def WritesPatched (t : Text) (patch : Patch) (read : A2ATaskState) : Cmd → Prop
  | .write (.setState key v) => key = t → v = read.patched patch t
  | _ => True

/-- No record is written. -/
def WritesAside (t : Text) : Cmd → Prop
  | .write (.setState key _) => key ≠ t
  | _ => True

theorem issues_readMeta {P : Cmd → Prop} {finalTid taskId : Text} (h : ∀ key, P (.getMeta key)) :
    (readMeta finalTid taskId).Issues P := by
  refine (issues_call (h _)).bind fun m => ?_
  cases m with
  | some m => exact issues_done _
  | none => exact issues_call (h _)

theorem issues_getState {P : Cmd → Prop} {key : Text} (h : P (.getState key)) :
    (redisGetState key).Issues P := issues_call h

theorem mem_setState {key : Option SetKey} {k : Text} {v : A2ATaskState} {u : Text} :
    Write.setState k v ∉ sremGiven key u ∧ Write.setState k v ∉ saddGiven key u := by
  cases key <;> simp [sremGiven, saddGiven]

/-- Of the writes of an `updateState` one is a record. -/
theorem updateWrites_setState {finalTid k : Text} {existing updated v : A2ATaskState}
    (h : Write.setState k v ∈ updateWrites finalTid existing updated) :
    k = finalTid ∧ v = updated := by
  simp only [updateWrites, List.mem_append, List.mem_singleton, Write.setState.injEq] at h
  obtain (h | h) | h := h
  · exact h
  · split at h <;> simp at h
  · split at h
    · rcases List.mem_append.mp h with h | h
      · exact absurd h mem_setState.1
      · exact absurd h mem_setState.2
    · simp at h

theorem issues_verifierWrites {P : Cmd → Prop} {β : Type} {finalTid taskId : Text}
    {existing updated : A2ATaskState} {rest : List Write → Store β} (h : ∀ key, P (.getMeta key))
    (hrest : ∀ ws, (∀ k v, Write.setState k v ∉ ws) → (rest ws).Issues P) :
    (verifierWrites finalTid taskId existing updated >>= rest).Issues P := by
  unfold verifierWrites
  split
  · rw [bind_assoc]
    exact (issues_readMeta h).bind fun m => hrest _ fun k v => mem_setState.1
  · split
    · rw [bind_assoc]
      exact (issues_readMeta h).bind fun m => hrest _ fun k v => mem_setState.2
    · exact hrest [] (by simp)

/-- The record an `updateState` writes once it has read one. -/
theorem issues_patchRecord {P : Cmd → Prop} {taskId finalTid : Text} {patch : Patch}
    {existing : A2ATaskState} (h : ∀ key, P (.getMeta key))
    (hset : P (.write (.setState finalTid (existing.patched patch finalTid))))
    (hw : ∀ w, (∀ k v, w ≠ Write.setState k v) → P (.write w)) :
    (do
      let verifier ← verifierWrites finalTid taskId existing (existing.patched patch finalTid)
      exec (updateWrites finalTid existing (existing.patched patch finalTid) ++ verifier)
      return existing.patched patch finalTid : Store A2ATaskState).Issues P := by
  refine issues_verifierWrites h fun ws hws => ?_
  refine Issues.bind (issues_exec fun w hw' => ?_) fun _ => issues_done _
  by_cases hset' : ∃ k v, w = .setState k v
  · obtain ⟨k, v, rfl⟩ := hset'
    rcases List.mem_append.mp hw' with hmem | hmem
    · obtain ⟨rfl, rfl⟩ := updateWrites_setState hmem
      exact hset
    · exact absurd hmem (hws k v)
  · exact hw w fun k v heq => hset' ⟨k, v, heq⟩

/-- An `updateState` reads the record first, and then writes what it read, patched. -/
theorem updateState_first (taskId : Text) (patch : Patch) :
    ∃ k, (Op.updateState taskId patch).prog = .await (Cmd.getState (toLowerCase taskId)) k ∧
      (∀ read, (k (.ok (some read))).Issues (WritesPatched (toLowerCase taskId) patch read)) ∧
      (k (.ok none)).Issues (WritesAside (toLowerCase taskId)) := by
  have hkey : KEY.state (toLowerCase taskId) = toLowerCase taskId := toLowerCase_idem taskId
  suffices h : ∃ k, (Op.updateState taskId patch).prog =
      .await (Cmd.getState (KEY.state (toLowerCase taskId))) k ∧
      (∀ read, (k (.ok (some read))).Issues (WritesPatched (toLowerCase taskId) patch read)) ∧
      (k (.ok none)).Issues (WritesAside (toLowerCase taskId)) by rwa [hkey] at h
  refine ⟨_, rfl, fun read => ?_, ?_⟩
  · refine Issues.bind ?_ fun _ => issues_done _
    refine issues_patchRecord (fun _ => trivial) (fun _ => rfl) fun w hw => ?_
    cases w with
    | setState k v => exact absurd rfl (hw k v)
    | _ => trivial
  · refine Issues.bind ?_ fun _ => issues_done _
    by_cases hid : toLowerCase taskId ≠ taskId
    · simp only [done_andThen, if_pos hid]
      refine ⟨trivial, fun r => ?_⟩
      rcases r with e | read
      · trivial
      · cases read with
        | none => trivial
        | some read =>
          refine issues_patchRecord (fun _ => trivial) (Ne.symm hid) fun w hw => ?_
          cases w with
          | setState k v => exact absurd rfl (hw k v)
          | _ => trivial
    · simp only [done_andThen, if_neg hid]
      trivial

/-- A transition writes no record but in its script. -/
theorem issues_transition {op : Op} (h : Races t op) (hne : ∀ taskId patch, op ≠ .updateState taskId patch) :
    op.prog.Issues (WritesAside t) := by
  have hdone : ∀ {β : Type} {p : Store β}, p.Issues (WritesAside t) →
      (do let _ ← p : Store Unit).Issues (WritesAside t) :=
    fun hp => hp.bind fun _ => issues_done _
  cases op with
  | updateState taskId patch => exact absurd rfl (hne taskId patch)
  | tryAccept taskId executorAddress acceptedAt =>
    refine hdone (Issues.bind (issues_call trivial) fun a => ?_)
    cases a <;> trivial
  | tryExpire taskId reason =>
    refine hdone (Issues.bind (issues_call trivial) fun a => ?_)
    cases a <;> trivial
  | tryCloseOnChainTerminal taskId reason =>
    refine hdone ((issues_getMeta fun _ => trivial).bind fun m => ?_)
    refine Issues.bind (issues_call trivial) fun a => ?_
    cases a <;> trivial
  | tryReleaseAccepted taskId expected =>
    refine hdone ((issues_getMeta fun _ => trivial).bind fun m => ?_)
    cases m with
    | none => trivial
    | some m =>
      refine Issues.bind (issues_call trivial) fun a => ?_
      cases a <;> trivial
  | _ => exact h.elim

/-! ## Runs -/

variable {s₀ : State} {tr : List Ev} {c : Pool Ans Failure Unit (Call Op) State} {e : Ev}

abbrev raceStore (t : Text) : System Ans Failure Unit (Call Op) State := store (Races t) Op.prog

theorem thread_writes (h : PoolRun (raceStore t) ⟨s₀, []⟩ tr c) : ∀ th ∈ c.threads,
    (∃ taskId patch, toLowerCase taskId = t ∧ th.tag.op = .updateState taskId patch ∧
      th.prog = th.tag.op.prog) ∨
    (∃ read, (∃ e ∈ tr, e.label = .ran th.tag (.getState t) (.ok (some read))) ∧
      th.prog.Issues (WritesPatched t th.tag.op.patch read)) ∨
    th.prog.Issues (WritesAside t) := by
  refine store_numbered.threads (J := fun tr _ th => (∃ taskId patch, toLowerCase taskId = t ∧
      th.tag.op = .updateState taskId patch ∧ th.prog = th.tag.op.prog) ∨
    (∃ read, (∃ e ∈ tr, e.label = .ran th.tag (.getState t) (.ok (some read))) ∧
      th.prog.Issues (WritesPatched t th.tag.op.patch read)) ∨
    th.prog.Issues (WritesAside t)) h ?_ ?_ ?_
  · rintro tr tags s call p s' ⟨-, hraces, rfl, -⟩ -
    by_cases hupdate : ∃ taskId patch, call.op = .updateState taskId patch
    · obtain ⟨taskId, patch, hop⟩ := hupdate
      rw [hop] at hraces
      exact .inl ⟨taskId, patch, hraces.1, hop, rfl⟩
    · refine .inr (.inr (issues_transition hraces fun taskId patch hop => ?_))
      exact hupdate ⟨taskId, patch, hop⟩
  · rintro tr s call cmd k r s' ⟨rfl, -⟩ hj
    obtain ⟨taskId, patch, rfl, hop, hp⟩ | ⟨read, ⟨e, he, hlabel⟩, hissues⟩ | hissues := hj
    · obtain ⟨k', hfirst, hsome, hnone⟩ := updateState_first taskId patch
      replace hp : Prog.await cmd k = call.op.prog := hp
      rw [hop, hfirst] at hp
      cases hp
      cases hread : s.redis.states (toLowerCase taskId) with
      | none =>
        refine .inr (.inr ?_)
        simp only [respond, hread]
        exact hnone
      | some read =>
        refine .inr (.inl ⟨read, ⟨_, List.mem_cons_self, ?_⟩, ?_⟩)
        · simp only [respond, hread]
        · have hpatch : call.op.patch = patch := by rw [hop]; rfl
          simp only [respond, hread, hpatch]
          exact hsome read
    · exact .inr (.inl ⟨read, ⟨e, List.mem_cons_of_mem _ he, hlabel⟩, hissues.2 _⟩)
    · exact .inr (.inr (hissues.2 _))
  · intro tr b e c th _ _ hj _
    obtain hp | ⟨read, ⟨e', he', hlabel⟩, hissues⟩ | hissues := hj
    · exact .inl hp
    · exact .inr (.inl ⟨read, ⟨e', List.mem_cons_of_mem _ he', hlabel⟩, hissues⟩)
    · exact .inr (.inr hissues)

/-- A record that is written is one that was read, patched. -/
theorem written_patched {b : Pool Ans Failure Unit (Call Op) State} {call : Call Op}
    {v : A2ATaskState} {r : Except Failure Unit} (h : PoolRun (raceStore t) ⟨s₀, []⟩ tr b)
    (hs : Async.Step (raceStore t) b e c)
    (hlabel : e.label = .ran call (.write (.setState t v)) r) :
    ∃ read, (∃ e' ∈ tr, e'.label = .ran call (.getState t) (.ok (some read))) ∧
      v = read.patched call.op.patch t := by
  cases hs with
  | run l₁ l₂ call' cmd k r' hx =>
    cases hlabel
    obtain ⟨taskId, patch, -, hop, hp⟩ | ⟨read, hread, hissues⟩ | hissues :=
      thread_writes h ⟨call, .await _ k⟩ (by simp)
    · obtain ⟨k', hfirst, -⟩ := updateState_first taskId patch
      replace hp : Prog.await (Cmd.write (Write.setState t v)) k = call.op.prog := hp
      rw [hop, hfirst] at hp
      cases hp
    · exact ⟨read, hread, hissues.1 rfl⟩
    · exact absurd rfl hissues.1
  | _ => cases hlabel

theorem patch_keeps {b : Pool Ans Failure Unit (Call Op) State} {call : Call Op} {cmd : Cmd}
    {r : Except Failure (Ans cmd)} (h : PoolRun (raceStore t) ⟨s₀, []⟩ tr b)
    (hs : Async.Step (raceStore t) b e c) (hlabel : e.label = .ran call cmd r) :
    call.op.patch.Keeps := by
  have hraces : ∀ th ∈ b.threads, Races t th.tag.op := by
    refine store_numbered.threads (J := fun _ _ th => Races t th.tag.op) h ?_ ?_ ?_
    · exact fun _ _ _ _ _ _ hx _ => hx.2.1
    · exact fun _ _ _ _ _ _ _ _ hj => hj
    · exact fun _ _ _ _ _ _ _ hj _ => hj
  cases hs with
  | run l₁ l₂ call' cmd' k r' hx =>
    cases hlabel
    have := hraces ⟨call, .await cmd k⟩ (by simp)
    cases hop : call.op with
    | updateState taskId patch =>
      simp only [hop] at this
      exact this.2
    | _ => exact ⟨rfl, fun _ _ => rfl⟩
  | _ => cases hlabel

/-- A script either changes nothing, and does not answer `ok`, or writes and answers `ok`. -/
theorem script_cases (script : Script) (r : Redis) :
    (script.committed (script.run r).1 = false ∧ (script.run r).2 = r) ∨
      (script.committed (script.run r).1 = true ∧ ∃ ws, (script.run r).2 = r.write ws) := by
  cases script with
  | tryAccept stateKey executorSetKey tid executorAddress acceptedAt originalTaskId =>
    simp only [Script.run]
    split
    · exact .inl ⟨rfl, rfl⟩
    · split
      · exact .inl ⟨rfl, rfl⟩
      · exact .inr ⟨rfl, _, rfl⟩
  | tryExpire stateKey tid originalTaskId reason =>
    simp only [Script.run]
    split
    · exact .inl ⟨rfl, rfl⟩
    · split
      · exact .inl ⟨rfl, rfl⟩
      · exact .inr ⟨rfl, _, rfl⟩
  | tryClose stateKey tid originalTaskId reason verifierSetKey =>
    simp only [Script.run]
    split
    · exact .inl ⟨rfl, rfl⟩
    · split
      · exact .inl ⟨rfl, rfl⟩
      · exact .inr ⟨rfl, _, rfl⟩
  | closeOpen stateKey winner tid executorSetKey verifierSetKey =>
    simp only [Script.run]
    split
    · exact .inl ⟨rfl, rfl⟩
    · split
      · exact .inl ⟨rfl, rfl⟩
      · cases executorSetKey <;> exact .inr ⟨rfl, _, rfl⟩
  | tryRelease stateKey tid originalTaskId expectedExecutor expectedTx relist executorSetKey
      expectedStatus =>
    simp only [Script.run]
    split
    · exact .inl ⟨rfl, rfl⟩
    · split
      · exact .inl ⟨rfl, rfl⟩
      · split
        · exact .inl ⟨rfl, rfl⟩
        · exact .inr ⟨rfl, _, rfl⟩

theorem write_states_ne_none {r : Redis} {ws : List Write} (h : r.states t ≠ none) :
    (r.write ws).states t ≠ none := by
  induction ws generalizing r with
  | nil => exact h
  | cons w ws ih =>
    refine ih ?_
    cases w with
    | setState key s =>
      rw [states_setState]
      split
      · simp
      · exact h
    | _ => exact h

/-! ## The last transition stays in force -/

theorem InForce.same {s s' : State} (h : InForce t s₀ tr s)
    (hs : s'.redis.states t = s.redis.states t) (hc : Committed e = false)
    (hlast : ∀ f, lastPatch t f (e :: tr) = lastPatch t f tr) : InForce t s₀ (e :: tr) s' := by
  obtain ⟨b, now, hb, hnow, hstatus, hfixed, hbook⟩ := h
  refine ⟨b, now, ?_, hs.trans hnow, hstatus, hfixed, fun f hf => ?_⟩
  · rw [lastTransition, hc]
    exact hb
  · rw [hlast, hbook f hf]

/-- A transition puts its own record in force. -/
theorem InForce.committed {b : A2ATaskState} (hpost : e.post.redis.states t = some b)
    (hc : Committed e = true) : InForce t s₀ (e :: tr) e.post :=
  ⟨b, b, by rw [lastTransition, hc]; exact hpost, hpost, rfl, fun _ _ => rfl,
    fun f _ => by rw [lastPatch, hc]; rfl⟩

/-- A fresh write changes the fields it patches, and no other. -/
theorem InForce.patched {call : Call Op} {stored read : A2ATaskState}
    {r : Except Failure Unit} (h : InForce t s₀ tr e.pre) (hkeeps : call.op.patch.Keeps)
    (hstored : e.pre.redis.states t = some stored) (hsame : SameOutside call.op.patch stored read)
    (hpost : e.post.redis.states t = some (read.patched call.op.patch t))
    (hlabel : e.label = .ran call (.write (.setState t (read.patched call.op.patch t))) r) :
    InForce t s₀ (e :: tr) e.post := by
  obtain ⟨b, now, hb, hnow, hstatus, hfixed, hbook⟩ := h
  cases hstored.symm.trans hnow
  have hc : Committed e = false := by rw [Committed, hlabel]
  refine ⟨b, _, by rw [lastTransition, hc]; exact hb, hpost, ?_, fun f hf => ?_, fun f hf => ?_⟩
  · show call.op.patch.status.getD read.status = b.status
    rw [hkeeps.status, ← hstatus, hsame.1 hkeeps.status]
    rfl
  · show (call.op.patch.fields f).getD (read.fields f) = b.fields f
    rw [hkeeps.fields f hf, ← hfixed f hf, hsame.2 f (hkeeps.fields f hf)]
    rfl
  · show (call.op.patch.fields f).getD (read.fields f) = _
    have hlast : lastPatch t f (e :: tr) =
        (call.op.patch.fields f).orElse fun _ => lastPatch t f tr := by
      rw [lastPatch, hc, hlabel]
      simp
    rw [hlast]
    cases hpatch : call.op.patch.fields f with
    | some v => rfl
    | none =>
      show read.fields f = (lastPatch t f tr).getD (b.fields f)
      rw [← hsame.2 f hpatch, hbook f hf]

theorem InForce.step {b : Pool Ans Failure Unit (Call Op) State}
    (h : PoolRun (raceStore t) ⟨s₀, []⟩ tr b) (hs : Async.Step (raceStore t) b e c)
    (hfresh : Fresh t tr e) (hb : InForce t s₀ tr b.state) : InForce t s₀ (e :: tr) c.state := by
  obtain ⟨hpre, hpost⟩ := hs.states
  rw [← hpre] at hb
  rw [← hpost]
  obtain ⟨hredis, hnone⟩ | ⟨call, cmd, hlabel, hredis⟩ := store_step hs
  · have hc : Committed e = false := by
      unfold Committed
      split
      · next call script a hlabel => exact absurd hlabel (hnone call _ _)
      · rfl
    refine hb.same (by rw [hredis]) hc fun f => ?_
    rw [lastPatch, hc]
    simp only [Bool.false_eq_true, if_false]
    split
    · next call key v r hlabel => exact absurd hlabel (hnone call _ _)
    · rfl
  · cases cmd with
    | write w =>
      have hc : Committed e = false := by rw [Committed, hlabel]
      have hredis : e.post.redis = w.apply e.pre.redis := hredis
      cases w with
      | setState key v =>
        by_cases hkey : key = t
        · subst hkey
          obtain ⟨read, ⟨e', he', hread⟩, rfl⟩ := written_patched h hs hlabel
          obtain ⟨-, now, -, hnow, -⟩ := id hb
          refine hb.patched (patch_keeps h hs hlabel) hnow (hfresh call _ _ hlabel e' he' read hread
            now hnow) ?_ hlabel
          rw [hredis]
          simp
        · refine hb.same ?_ hc fun f => ?_
          · rw [hredis]
            simp [Ne.symm hkey]
          · rw [lastPatch, hc, hlabel]
            simp [hkey]
      | _ =>
        refine hb.same (by rw [hredis]; rfl) hc fun f => ?_
        rw [lastPatch, hc, hlabel]
        rfl
    | eval script =>
      have hredis : e.post.redis = (script.run e.pre.redis).2 := hredis
      have hcommitted : Committed e = script.committed (script.run e.pre.redis).1 := by
        rw [Committed, hlabel]
        rfl
      obtain ⟨hc, hsame⟩ | ⟨hc, ws, hws⟩ := script_cases script e.pre.redis
      · refine hb.same (by rw [hredis, hsame]) (hcommitted.trans hc) fun f => ?_
        rw [lastPatch, hcommitted.trans hc, hlabel]
        rfl
      · obtain ⟨-, now, -, hnow, -⟩ := hb
        have hsome : e.post.redis.states t ≠ none := by
          rw [hredis, hws]
          exact write_states_ne_none (by simp [hnow])
        obtain ⟨b', hb'⟩ := Option.ne_none_iff_exists'.mp hsome
        exact InForce.committed hb' (hcommitted.trans hc)
    | _ =>
      have hc : Committed e = false := by rw [Committed, hlabel]
      refine hb.same (by rw [hredis]; rfl) hc fun f => ?_
      rw [lastPatch, hc, hlabel]
      rfl

/-- Where every record is written over one that is, outside the patch, the one that was read, the
last transition that answered `ok` stays in force, with the last patches made since. -/
theorem transition_stays_in_force (t : Text) (s₀ : State) (tr : List Ev)
    (c : Pool Ans Failure Unit (Call Op) State) (h0 : s₀.redis.states t ≠ none)
    (h : PoolRun (store (Races t) Op.prog) ⟨s₀, []⟩ tr c)
    (hfresh : ∀ later e earlier, tr = later ++ e :: earlier → Fresh t earlier e) :
    InForce t s₀ tr c.state := by
  refine Run.invariant (I := fun tr c =>
    (∀ later e earlier, tr = later ++ e :: earlier → Fresh t earlier e) →
      InForce t s₀ tr c.state) h ?_ ?_ hfresh
  · intro _
    obtain ⟨b, hb⟩ := Option.ne_none_iff_exists'.mp h0
    exact ⟨b, b, hb, hb, rfl, fun _ _ => rfl, fun _ _ => rfl⟩
  · intro tr b e c hrun hb hs hfresh
    refine InForce.step hrun hs (hfresh [] e tr rfl) (hb fun later e' earlier heq => ?_)
    exact hfresh (e :: later) e' earlier (by rw [heq]; rfl)

/-! ## A write between -/

def Patch.keeps (patch : Patch) : Bool :=
  patch.status.isNone && (patch.fields .executorAddress).isNone &&
    (patch.fields .acceptedAt).isNone && (patch.fields .failedReason).isNone

theorem Patch.keeps_iff {patch : Patch} (h : patch.keeps = true) : patch.Keeps := by
  simp only [Patch.keeps, Bool.and_eq_true, Option.isNone_iff_eq_none] at h
  obtain ⟨⟨⟨hstatus, hexec⟩, haccepted⟩, hfailed⟩ := h
  refine ⟨hstatus, fun f hf => ?_⟩
  unfold Bookkeeping at hf
  cases f <;> first | assumption | exact absurd (by simp) hf

def races (t : Text) : Op → Bool
  | .tryAccept taskId _ _ => toLowerCase taskId = t
  | .updateState taskId patch => decide (toLowerCase taskId = t) && patch.keeps
  | _ => false

theorem races_iff (op : Op) (h : races t op = true) : Races t op := by
  cases op with
  | tryAccept taskId executorAddress acceptedAt =>
    show toLowerCase taskId = t
    exact of_decide_eq_true h
  | updateState taskId patch =>
    simp only [races, Bool.and_eq_true, decide_eq_true_eq] at h
    exact ⟨h.1, Patch.keeps_iff h.2⟩
  | _ => cases h

def raceStage : Stage (raceStore demoTask) Unit Empty := storeStage (races demoTask) races_iff

/-- One open task. -/
def demoStart : State where
  redis := {
    states := fun k => if k = demoTask then some { taskId := demoTask, status := .open } else none
    metas := fun k => if k = demoTask then some { taskId := demoTask } else none
    sets := fun k => if k = .open then {demoTask} else ∅ }

def accept (id : Nat) : Call Op := ⟨id, .tryAccept demoTask ['a'] ['1']⟩

def recordError (id : Nat) : Call Op :=
  ⟨id, .updateState demoTask
    { fields := fun f => if f = .assignError then some (some ['e']) else none }⟩

/-- The patch is read and written after the accept. -/
def patchAfter : List (Cue (Call Op) Unit Empty) :=
  [.enter (accept 0), .turn 0 (), .leave 0, .enter (recordError 1), .turn 0 (), .turn 0 (),
    .leave 0]

theorem patchAfter_plays : (raceStage.play patchAfter ⟨demoStart, []⟩).isSome = true := by decide

theorem sameOutside_self (patch : Patch) {s s' : A2ATaskState} (h : some s = some s') :
    SameOutside patch s s' := by
  cases h
  exact ⟨fun _ => rfl, fun _ _ => rfl⟩

/-- Every record is written over the one that was read. -/
theorem patchAfter_fresh (later : List Ev) (e : Ev) (earlier : List Ev)
    (htr : ((raceStage.play patchAfter ⟨demoStart, []⟩).get patchAfter_plays).1 =
      later ++ e :: earlier) : Fresh demoTask earlier e := by
  intro call v r hlabel e' he' read hread stored hstored
  have htail : e :: earlier ∈ [_, _, _, _, _, _, _, _] := (List.mem_tails _ _).mpr ⟨later, htr.symm⟩
  simp only [List.mem_cons, List.not_mem_nil, or_false] at htail
  obtain htail | htail | htail | htail | htail | htail | htail | htail := htail
  all_goals
    cases htail
    try (cases hlabel; done)
  cases hlabel
  replace he' : e' ∈ [_, _, _, _, _] := he'
  simp only [List.mem_cons, List.not_mem_nil, or_false] at he'
  obtain rfl | rfl | rfl | rfl | rfl := he'
  all_goals
    try (cases hread; done)
  cases hread
  exact sameOutside_self _ (hstored.symm.trans rfl)

theorem transition_stays_in_force_patchAfter :
    InForce demoTask demoStart ((raceStage.play patchAfter ⟨demoStart, []⟩).get patchAfter_plays).1
      ((raceStage.play patchAfter ⟨demoStart, []⟩).get patchAfter_plays).2.state :=
  transition_stays_in_force demoTask demoStart _ _ (by simp [demoStart])
    (Stage.play_get patchAfter_plays) patchAfter_fresh

/-- The patch is read before the accept and written after it. -/
def patchAcross : List (Cue (Call Op) Unit Empty) :=
  [.enter (recordError 0), .turn 0 (), .enter (accept 1), .turn 0 (), .leave 0, .turn 0 (),
    .leave 0]

theorem patchAcross_plays : (raceStage.play patchAcross ⟨demoStart, []⟩).isSome = true := by decide

/-- The accept answered `ok`, and the task is open again. -/
theorem accept_undone_patchAcross :
    ∃ (tr : List Ev) (c : Pool Ans Failure Unit (Call Op) State),
      PoolRun (raceStore demoTask) ⟨demoStart, []⟩ tr c ∧ c.threads = [] ∧
      (lastTransition demoTask demoStart tr).map (·.status) = some .accepted ∧
      (c.state.redis.states demoTask).map (·.status) = some .open ∧
      ¬ InForce demoTask demoStart tr c.state := by
  refine ⟨_, _, Stage.play_get patchAcross_plays, by decide, by decide, by decide, ?_⟩
  rintro ⟨b, now, hb, hnow, hstatus, -⟩
  have hlast : (lastTransition demoTask demoStart
      ((raceStage.play patchAcross ⟨demoStart, []⟩).get patchAcross_plays).1).map (·.status) =
        some .accepted := by decide
  have hstored : (((raceStage.play patchAcross ⟨demoStart, []⟩).get
      patchAcross_plays).2.state.redis.states demoTask).map (·.status) = some .open := by decide
  rw [hb] at hlast
  rw [hnow] at hstored
  cases Option.some.inj (hlast.symm.trans (congrArg some (hstatus.symm.trans
    (Option.some.inj hstored))))

end A2AStore
