import BlindMarket.A2AStore.Code

/-!
# The indexes follow the states

One call after the other, from an empty store. Exactly the calls that
`Fits` describes keep the two indexes in step with the states.
-/
namespace A2AStore

open Async Prog

variable {r r' : Redis} {t t' : Text} {ws ws' : List Write} {addr : Text}

/-! ## Writes -/

@[simp] theorem states_setState (key : Text) (s : A2ATaskState) (t : Text) :
    ((Write.setState key s).apply r).states t = if t = key then some s else r.states t := by
  simp [Write.apply, Function.update_apply]

@[simp] theorem states_setMeta (key : Text) (m : A2ATaskMeta) :
    ((Write.setMeta key m).apply r).states = r.states := rfl

@[simp] theorem states_sadd (key : SetKey) (x : Text) :
    ((Write.sadd key x).apply r).states = r.states := rfl

@[simp] theorem states_srem (key : SetKey) (x : Text) :
    ((Write.srem key x).apply r).states = r.states := rfl

@[simp] theorem metas_setMeta (key : Text) (m : A2ATaskMeta) (t : Text) :
    ((Write.setMeta key m).apply r).metas t = if t = key then some m else r.metas t := by
  simp [Write.apply, Function.update_apply]

@[simp] theorem metas_setState (key : Text) (s : A2ATaskState) :
    ((Write.setState key s).apply r).metas = r.metas := rfl

@[simp] theorem metas_sadd (key : SetKey) (x : Text) :
    ((Write.sadd key x).apply r).metas = r.metas := rfl

@[simp] theorem metas_srem (key : SetKey) (x : Text) :
    ((Write.srem key x).apply r).metas = r.metas := rfl

@[simp] theorem sets_setState (key : Text) (s : A2ATaskState) :
    ((Write.setState key s).apply r).sets = r.sets := rfl

@[simp] theorem sets_setMeta (key : Text) (m : A2ATaskMeta) :
    ((Write.setMeta key m).apply r).sets = r.sets := rfl

@[simp] theorem mem_sadd (key k : SetKey) (x : Text) :
    t ∈ ((Write.sadd key x).apply r).sets k ↔ (k = key ∧ t = x) ∨ t ∈ r.sets k := by
  by_cases h : k = key
  · subst h
    simp [Write.apply]
  · simp [Write.apply, h]

@[simp] theorem mem_srem (key k : SetKey) (x : Text) :
    t ∈ ((Write.srem key x).apply r).sets k ↔ ¬ (k = key ∧ t = x) ∧ t ∈ r.sets k := by
  by_cases h : k = key
  · subst h
    simp [Write.apply]
  · simp [Write.apply, h]

@[simp] theorem write_nil : r.write [] = r := rfl

@[simp] theorem write_cons (w : Write) (ws : List Write) :
    r.write (w :: ws) = (w.apply r).write ws := rfl

theorem write_append (ws ws' : List Write) : r.write (ws ++ ws') = (r.write ws).write ws' := by
  induction ws generalizing r with
  | nil => rfl
  | cons w ws ih => exact ih

/-! ## Agreement -/

def Listed (r : Redis) (t : Text) : Prop :=
  ∃ m s, r.metas t = some m ∧ m.targetExecutorType = .agent ∧ m.submissionMode ≠ some .open ∧
    r.states t = some s ∧ s.status = .open

def HeldBy (r : Redis) (t addr : Text) : Prop :=
  ∃ s a, r.states t = some s ∧ s.fields .executorAddress = some a ∧ toLowerCase a = addr

structure AgreesAt (r : Redis) (t : Text) : Prop where
  listed : t ∈ r.sets .open ↔ Listed r t
  held : ∀ addr, t ∈ r.sets (.executor addr) ↔ HeldBy r t addr

/-- The invariant stated at the top of `a2aStore.ts`. -/
def Agrees (r : Redis) : Prop := ∀ t, AgreesAt r t

/-- What the indexes and the record of one task show. -/
structure SameAt (r r' : Redis) (t : Text) : Prop where
  state : r'.states t = r.states t
  «meta» : r'.metas t = r.metas t
  isOpen : t ∈ r'.sets .open ↔ t ∈ r.sets .open
  executor : ∀ addr, t ∈ r'.sets (.executor addr) ↔ t ∈ r.sets (.executor addr)

theorem SameAt.agrees (h : SameAt r r' t) : AgreesAt r' t ↔ AgreesAt r t := by
  have hlisted : Listed r' t ↔ Listed r t := by simp only [Listed, h.state, h.meta]
  have hheld : ∀ addr, HeldBy r' t addr ↔ HeldBy r t addr := fun addr => by
    simp only [HeldBy, h.state]
  constructor
  · exact fun ha => ⟨by rw [← h.isOpen, ha.listed, hlisted],
      fun addr => by rw [← h.executor, ha.held, hheld]⟩
  · exact fun ha => ⟨by rw [h.isOpen, ha.listed, hlisted],
      fun addr => by rw [h.executor, ha.held, hheld]⟩

/-- A write of one task, or of an index that is not looked at. -/
def Write.On (t : Text) : Write → Prop
  | .setState key _ => key = t
  | .setMeta key _ => key = t
  | .sadd _ x => x = t
  | .srem _ x => x = t

/-- An index that the invariant does not speak of. -/
def SetKey.Aside : SetKey → Prop
  | .open => False
  | .executor _ => False
  | _ => True

def Write.Aside : Write → Prop
  | .sadd key _ => key.Aside
  | .srem key _ => key.Aside
  | _ => False

theorem sameAt_on (h : ∀ w ∈ ws, w.On t) (hne : t' ≠ t) : SameAt r (r.write ws) t' := by
  induction ws generalizing r with
  | nil => exact ⟨rfl, rfl, Iff.rfl, fun _ => Iff.rfl⟩
  | cons w ws ih =>
    obtain ⟨hs, hm, ho, he⟩ := ih (r := w.apply r) fun w' hw' => h w' (List.mem_cons_of_mem _ hw')
    have hw := h w List.mem_cons_self
    refine ⟨hs.trans ?_, hm.trans ?_, ho.trans ?_, fun addr => (he addr).trans ?_⟩ <;>
    cases w <;> cases hw <;> simp [hne]

theorem sameAt_aside (h : ∀ w ∈ ws, w.Aside) : SameAt r (r.write ws) t := by
  induction ws generalizing r with
  | nil => exact ⟨rfl, rfl, Iff.rfl, fun _ => Iff.rfl⟩
  | cons w ws ih =>
    obtain ⟨hs, hm, ho, he⟩ := ih (r := w.apply r) fun w' hw' => h w' (List.mem_cons_of_mem _ hw')
    have hw := h w List.mem_cons_self
    refine ⟨hs.trans ?_, hm.trans ?_, ho.trans ?_, fun addr => (he addr).trans ?_⟩ <;>
    cases w with
    | setState key s => exact hw.elim
    | setMeta key m => exact hw.elim
    | sadd key x => cases key <;> first | exact hw.elim | simp
    | srem key x => cases key <;> first | exact hw.elim | simp

/-! ## Calls -/

inductive Op where
  | setMeta («meta» : A2ATaskMeta)
  | updateState (taskId : Text) (patch : Patch)
  | tryAccept (taskId executorAddress acceptedAt : Text)
  | tryExpire (taskId reason : Text)
  | tryCloseOnChainTerminal (taskId reason : Text)
  | releaseToOpen (taskId : Text)
  | tryReleaseAccepted (taskId : Text) (expected : Expected)
  | closeOpenSubmissionTask (taskId : Text) (winner : Option Text)

def Op.taskId : Op → Text
  | .setMeta m => m.taskId
  | .updateState taskId _ => taskId
  | .tryAccept taskId _ _ => taskId
  | .tryExpire taskId _ => taskId
  | .tryCloseOnChainTerminal taskId _ => taskId
  | .releaseToOpen taskId => taskId
  | .tryReleaseAccepted taskId _ => taskId
  | .closeOpenSubmissionTask taskId _ => taskId

/-- Every command is answered. -/
def answer (r : Redis) (c : Cmd) : Except Failure (Ans c) × Redis :=
  (.ok (respond r c).1, (respond r c).2)

/-- The store after a call that runs to its end. -/
def Op.run (r : Redis) : Op → Redis
  | .setMeta m => ((A2AStore.setMeta m).run answer r).2
  | .updateState taskId patch => ((A2AStore.updateState taskId patch).run answer r).2
  | .tryAccept taskId executorAddress acceptedAt =>
    ((A2AStore.tryAccept taskId executorAddress acceptedAt).run answer r).2
  | .tryExpire taskId reason => ((A2AStore.tryExpire taskId reason).run answer r).2
  | .tryCloseOnChainTerminal taskId reason =>
    ((A2AStore.tryCloseOnChainTerminal taskId reason).run answer r).2
  | .releaseToOpen taskId => ((A2AStore.releaseToOpen taskId).run answer r).2
  | .tryReleaseAccepted taskId expected =>
    ((A2AStore.tryReleaseAccepted taskId expected).run answer r).2
  | .closeOpenSubmissionTask taskId winner =>
    ((A2AStore.closeOpenSubmissionTask taskId winner).run answer r).2

def runAll (r : Redis) : List Op → Redis
  | [] => r
  | op :: ops => runAll (op.run r) ops

def emptyStore : Redis := ⟨fun _ => none, fun _ => none, fun _ => ∅⟩

/-- When a call leaves the indexes in step with the states. -/
def Fits (r : Redis) : Op → Prop
  | .setMeta m =>
    if m.targetExecutorType = .agent ∧ m.submissionMode ≠ some .open then
      ∀ s, r.states m.taskId = some s → s.status = .open
    else ¬ Listed r m.taskId
  | .updateState t patch => ∀ s, r.states t = some s →
    (s.status ≠ .open → (s.patched patch t).status = .open → ∀ m, r.metas t = some m →
      ¬ (m.targetExecutorType = .agent ∧ m.submissionMode ≠ some .open)) ∧
    (s.fields .executorAddress ≠ (s.patched patch t).fields .executorAddress →
      s.fields .executorAddress ≠ some [] ∧ (s.patched patch t).fields .executorAddress ≠ some [])
  | .tryAccept t executorAddress _ => ∀ s, r.states t = some s → s.status = .open →
    ∀ a, s.fields .executorAddress = some a → toLowerCase a = toLowerCase executorAddress
  | .tryExpire _ _ => True
  | .tryCloseOnChainTerminal _ _ => True
  | .releaseToOpen t => ∀ s m, r.states t = some s → s.status ≠ .open → r.metas t = some m →
    ¬ (m.targetExecutorType = .agent ∧ m.submissionMode = some .open) ∧
      s.fields .executorAddress ≠ some []
  | .tryReleaseAccepted t expected => ∀ s m, r.states t = some s → r.metas t = some m →
    s.status = expected.status.status →
    toLowerCase ((s.fields .executorAddress).getD []) =
      (expected.executorAddress.map toLowerCase).getD [] →
    toLowerCase ((s.fields .assignTxHash).getD []) =
      (expected.assignTxHash.map toLowerCase).getD [] →
    ¬ (m.targetExecutorType = .agent ∧ m.submissionMode = some .open) ∧
      s.fields .executorAddress ≠ some []
  | .closeOpenSubmissionTask t winner => ∀ s w, r.states t = some s → s.status = .collecting →
    winner = some w → w ≠ [] → ∀ a, s.fields .executorAddress = some a →
      toLowerCase a = toLowerCase w

/-! ## What each call writes -/

theorem run_exec (ws : List Write) : (exec ws).run answer r = (.ok (), r.write ws) := by
  induction ws generalizing r with
  | nil => rfl
  | cons w ws ih => exact ih

theorem run_readState (h : toLowerCase t = t) :
    (readState t).run answer r = (.ok ((r.states t).map (t, ·)), r) := by
  have hkey : KEY.state t = t := h
  have hget : (redisGetState t).run answer r = (.ok (r.states t), r) := rfl
  simp only [readState, h, hkey]
  rw [run_bind_ok hget]
  cases r.states t with
  | some s => rfl
  | none => simp

theorem run_getMeta (h : toLowerCase t = t) :
    (getMeta t).run answer r = (.ok (r.metas t), r) := by
  have hkey : KEY.meta t = t := h
  have hget : (redisGetMeta t).run answer r = (.ok (r.metas t), r) := rfl
  unfold getMeta
  rw [hkey, run_bind_ok hget]
  cases r.metas t with
  | some m => rfl
  | none => simp [h]

theorem run_readMeta (h : toLowerCase t = t) :
    (readMeta t t).run answer r = (.ok (r.metas t), r) := by
  have hkey : KEY.meta t = t := h
  have hget : (redisGetMeta t).run answer r = (.ok (r.metas t), r) := rfl
  unfold readMeta
  rw [hkey, run_bind_ok hget]
  cases hm : r.metas t with
  | some m => rfl
  | none => rw [hget, hm]

theorem run_setMeta {m : A2ATaskMeta} (h : toLowerCase m.taskId = m.taskId) :
    (Op.setMeta m).run r = r.write (setMetaWrites m m.taskId (r.states m.taskId).isSome) := by
  have hkey : KEY.state m.taskId = m.taskId := h
  have hget : (redisExists m.taskId).run answer r = (.ok (r.states m.taskId).isSome, r) := rfl
  show ((setMeta m).run answer r).2 = _
  simp only [setMeta, h, hkey]
  rw [run_bind_ok hget]
  simp [run_exec]

theorem aside_sremGiven {key : Option SetKey} (h : ∀ k, key = some k → k.Aside) :
    ∀ w ∈ sremGiven key t, w.Aside := by
  cases key with
  | none => simp [sremGiven]
  | some k => simpa [sremGiven, Write.Aside] using h k rfl

theorem aside_saddGiven {key : Option SetKey} (h : ∀ k, key = some k → k.Aside) :
    ∀ w ∈ saddGiven key t, w.Aside := by
  cases key with
  | none => simp [saddGiven]
  | some k => simpa [saddGiven, Write.Aside] using h k rfl

theorem verifierKey {a : Option Text} (k : SetKey) (h : (given a).map KEY.verifier = some k) :
    k.Aside := by
  obtain ⟨a, -, rfl⟩ := Option.map_eq_some_iff.mp h
  trivial

theorem posterKey {a : Option Text} (k : SetKey) (h : (given a).map KEY.poster = some k) :
    k.Aside := by
  obtain ⟨a, -, rfl⟩ := Option.map_eq_some_iff.mp h
  trivial

theorem verifierKey_bind (m : Option A2ATaskMeta) (k : SetKey)
    (h : (m.bind fun m => given m.verifierAddress).map KEY.verifier = some k) : k.Aside := by
  obtain ⟨a, -, rfl⟩ := Option.map_eq_some_iff.mp h
  trivial

theorem run_verifierWrites (h : toLowerCase t = t) (s u : A2ATaskState) :
    ∃ ws, (∀ w ∈ ws, w.Aside) ∧ (verifierWrites t t s u).run answer r = (.ok ws, r) := by
  unfold verifierWrites
  split
  · rw [run_bind_ok (run_readMeta h)]
    exact ⟨_, aside_sremGiven (verifierKey_bind _), rfl⟩
  · split
    · rw [run_bind_ok (run_readMeta h)]
      exact ⟨_, aside_saddGiven (verifierKey_bind _), rfl⟩
    · exact ⟨[], by simp, rfl⟩

theorem run_updateState (h : toLowerCase t = t) (patch : Patch) :
    (r.states t = none ∧ (Op.updateState t patch).run r = r) ∨
    ∃ s ws, r.states t = some s ∧ (∀ w ∈ ws, w.Aside) ∧ (Op.updateState t patch).run r =
      (r.write (updateWrites t s (s.patched patch t))).write ws := by
  cases hs : r.states t with
  | none =>
    refine .inl ⟨rfl, ?_⟩
    show ((updateState t patch).run answer r).2 = r
    unfold updateState
    rw [run_bind_ok (run_readState h), hs]
    rfl
  | some s =>
    obtain ⟨ws, haside, hws⟩ := run_verifierWrites (r := r) h s (s.patched patch t)
    refine .inr ⟨s, ws, rfl, haside, ?_⟩
    show ((updateState t patch).run answer r).2 = _
    unfold updateState
    rw [run_bind_ok (run_readState h), hs]
    show ((verifierWrites t t s (s.patched patch t) >>= _).run answer r).2 = _
    rw [run_bind_ok hws, run_bind_ok (run_exec _), write_append]
    rfl

theorem findState_lower (h : toLowerCase t = t) :
    r.findState (KEY.state t) t t = (r.states t).map (t, t, ·) := by
  have hkey : KEY.state t = t := h
  unfold Redis.findState
  rw [hkey]
  cases r.states t <;> simp

/-- What follows a script in its writer only reads the answer. -/
theorem run_eval {α : Type} (script : Script) {f : script.Answer → Store α}
    (hf : ∀ a s, ((f a).run answer s).2 = s) :
    ((redisEval script >>= f).run answer r).2 = (script.run r).2 := by
  have heval : (redisEval script).run answer r = (.ok (script.run r).1, (script.run r).2) := rfl
  rw [run_bind_ok heval, hf]

theorem run_tryAccept (h : toLowerCase t = t) (executorAddress acceptedAt : Text) :
    (∃ s, r.states t = some s ∧ s.status = .open ∧
      (Op.tryAccept t executorAddress acceptedAt).run r =
        r.write [.setState t { ((s.field .executorAddress (some executorAddress)).field .acceptedAt
            (some acceptedAt)) with status := .accepted }, .srem .open t,
          .sadd (KEY.executor executorAddress) t]) ∨
    ((∀ s, r.states t = some s → s.status ≠ .open) ∧
      (Op.tryAccept t executorAddress acceptedAt).run r = r) := by
  have hrun : (Op.tryAccept t executorAddress acceptedAt).run r = (Script.run (.tryAccept
      (KEY.state (toLowerCase t)) (KEY.executor executorAddress) (toLowerCase t) executorAddress
      acceptedAt t) r).2 := by
    refine run_eval _ fun a s => ?_
    cases a <;> rfl
  rw [hrun, h]
  simp only [Script.run, findState_lower h]
  cases hs : r.states t with
  | none => exact .inr ⟨by simp, rfl⟩
  | some s =>
    by_cases hopen : s.status = .open
    · exact .inl ⟨s, rfl, hopen, by simp [hopen, dropOpen]⟩
    · exact .inr ⟨by simpa using hopen, by simp [hopen]⟩

theorem run_tryExpire (h : toLowerCase t = t) (reason : Text) :
    (∃ s, r.states t = some s ∧ s.status = .open ∧ (Op.tryExpire t reason).run r =
      r.write [.setState t { s.field .failedReason (some reason) with status := .failed },
        .srem .open t]) ∨
    (Op.tryExpire t reason).run r = r := by
  have hrun : (Op.tryExpire t reason).run r =
      (Script.run (.tryExpire (KEY.state (toLowerCase t)) (toLowerCase t) t reason) r).2 := by
    refine run_eval _ fun a s => ?_
    cases a <;> rfl
  rw [hrun, h]
  simp only [Script.run, findState_lower h]
  cases hs : r.states t with
  | none => exact .inr rfl
  | some s =>
    by_cases hopen : s.status = .open
    · exact .inl ⟨s, rfl, hopen, by simp [hopen, dropOpen]⟩
    · exact .inr (by simp [hopen])

theorem run_tryClose (h : toLowerCase t = t) (reason : Text) :
    (∃ s ws, r.states t = some s ∧ (∀ w ∈ ws, w.Aside) ∧
      (Op.tryCloseOnChainTerminal t reason).run r =
        (r.write [.setState t { s.field .failedReason (some reason) with status := .failed },
          .srem .open t]).write ws) ∨
    (Op.tryCloseOnChainTerminal t reason).run r = r := by
  have hrun : (Op.tryCloseOnChainTerminal t reason).run r = (Script.run (.tryClose
      (KEY.state (toLowerCase t)) (toLowerCase t) t reason
      (((r.metas t).bind fun m => given m.verifierAddress).map KEY.verifier)) r).2 := by
    show ((getMeta t >>= _).run answer r).2 = _
    rw [run_bind_ok (run_getMeta h)]
    refine run_eval _ fun a s => ?_
    cases a <;> rfl
  rw [hrun, h]
  simp only [Script.run, findState_lower h]
  cases hs : r.states t with
  | none => exact .inr rfl
  | some s =>
    by_cases hterminal : s.status = .verified ∨ s.status = .completed ∨ s.status = .failed
    · exact .inr (by simp [hterminal])
    · refine .inl ⟨s, _, rfl, aside_sremGiven (t := t) (verifierKey_bind (r.metas t)), ?_⟩
      simp [hterminal, dropOpen]

theorem run_releaseToOpen (h : toLowerCase t = t) :
    (∃ s m, r.states t = some s ∧ s.status ≠ .open ∧ r.metas t = some m ∧
      (Op.releaseToOpen t).run r = r.write ([.setState t { taskId := t, status := .open }] ++
        (if m.targetExecutorType = .agent then [.sadd .open t] else []) ++
        sremGiven ((given (s.fields .executorAddress)).map KEY.executor) t)) ∨
    ((∀ s m, r.states t = some s → s.status ≠ .open → r.metas t ≠ some m) ∧
      (Op.releaseToOpen t).run r = r) := by
  have hop : (Op.releaseToOpen t).run r = ((releaseToOpen t).run answer r).2 := rfl
  rw [hop]
  unfold releaseToOpen
  rw [run_bind_ok (run_readState h)]
  cases hs : r.states t with
  | none => exact .inr ⟨by simp, rfl⟩
  | some s =>
    by_cases hopen : s.status = .open
    · refine .inr ⟨?_, by simp [hopen]⟩
      rintro s' m ⟨⟩ hne
      exact absurd hopen hne
    simp only [Option.map_some, hopen, if_false]
    rw [run_bind_ok (run_readMeta h)]
    cases hm : r.metas t with
    | none => exact .inr ⟨by simp, rfl⟩
    | some m =>
      refine .inl ⟨s, m, rfl, hopen, rfl, ?_⟩
      simp only [run_exec]

/-- Without a meta there is no script to run. -/
theorem run_tryReleaseAccepted (h : toLowerCase t = t) (expected : Expected) :
    (Op.tryReleaseAccepted t expected).run r =
      match r.metas t with
      | none => r
      | some m => (Script.run (.tryRelease (KEY.state (toLowerCase t)) (toLowerCase t) t
          ((expected.executorAddress.map toLowerCase).getD [])
          ((expected.assignTxHash.map toLowerCase).getD []) (m.targetExecutorType = .agent)
          ((given expected.executorAddress).map KEY.executor) expected.status.status) r).2 := by
  show ((getMeta t >>= _).run answer r).2 = _
  rw [run_bind_ok (run_getMeta h)]
  cases r.metas t with
  | none => rfl
  | some m =>
    refine run_eval _ fun a s => ?_
    cases a <;> rfl

theorem run_tryRelease (h : toLowerCase t = t) (expected : Expected) :
    (∃ s m, r.states t = some s ∧ r.metas t = some m ∧ s.status = expected.status.status ∧
      toLowerCase ((s.fields .executorAddress).getD []) =
        (expected.executorAddress.map toLowerCase).getD [] ∧
      toLowerCase ((s.fields .assignTxHash).getD []) =
        (expected.assignTxHash.map toLowerCase).getD [] ∧
      (Op.tryReleaseAccepted t expected).run r =
        r.write (.setState t { taskId := t, status := .open } ::
          (if m.targetExecutorType = .agent then [.sadd .open t] else []) ++
          sremGiven ((given expected.executorAddress).map KEY.executor) t)) ∨
    ((∀ s m, r.states t = some s → r.metas t = some m → s.status = expected.status.status →
      toLowerCase ((s.fields .executorAddress).getD []) =
        (expected.executorAddress.map toLowerCase).getD [] →
      toLowerCase ((s.fields .assignTxHash).getD []) ≠
        (expected.assignTxHash.map toLowerCase).getD []) ∧
      (Op.tryReleaseAccepted t expected).run r = r) := by
  rw [run_tryReleaseAccepted h, h]
  cases hm : r.metas t with
  | none => exact .inr ⟨by simp, rfl⟩
  | some m =>
    simp only [Script.run, findState_lower h]
    cases hs : r.states t with
    | none => exact .inr ⟨by simp, rfl⟩
    | some s =>
      by_cases hstatus : s.status = expected.status.status
      · by_cases hexec : toLowerCase ((s.fields .executorAddress).getD []) =
            (expected.executorAddress.map toLowerCase).getD []
        · by_cases htx : toLowerCase ((s.fields .assignTxHash).getD []) =
              (expected.assignTxHash.map toLowerCase).getD []
          · exact .inl ⟨s, m, rfl, rfl, hstatus, hexec, htx, by simp [hstatus, hexec, htx]⟩
          · refine .inr ⟨?_, by simp [hstatus, htx]⟩
            rintro s' m' ⟨⟩ - - -
            exact htx
        · refine .inr ⟨?_, by simp [hstatus, hexec]⟩
          rintro s' m' ⟨⟩ - - hexec'
          exact absurd hexec' hexec
      · refine .inr ⟨?_, by simp [hstatus]⟩
        rintro s' m' ⟨⟩ - hstatus'
        exact absurd hstatus' hstatus

theorem run_closeOpen (h : toLowerCase t = t) (winner : Option Text) :
    (∃ s w ws, r.states t = some s ∧ s.status = .collecting ∧ winner = some w ∧ w ≠ [] ∧
      (∀ w ∈ ws, w.Aside) ∧ (Op.closeOpenSubmissionTask t winner).run r =
        (r.write [.sadd (KEY.executor (toLowerCase w)) t,
          .setState t { s.field .executorAddress (some (toLowerCase w)) with status := .completed },
          .srem .openSubmission t]).write ws) ∨
    (∃ s ws, r.states t = some s ∧ s.status = .collecting ∧ (∀ w, winner = some w → w = []) ∧
      (∀ w ∈ ws, w.Aside) ∧ (Op.closeOpenSubmissionTask t winner).run r =
        (r.write [.setState t { s.field .failedReason (some "voided".toList) with
          status := .failed }, .srem .openSubmission t]).write ws) ∨
    ((∀ s, r.states t = some s → s.status ≠ .collecting) ∧
      (Op.closeOpenSubmissionTask t winner).run r = r) := by
  have hkey : KEY.state t = t := h
  have hop : (Op.closeOpenSubmissionTask t winner).run r = (Script.run (.closeOpen
      (KEY.state (toLowerCase t)) ((winner.map toLowerCase).getD []) (toLowerCase t)
      ((given (some ((winner.map toLowerCase).getD []))).map KEY.executor)
      (((r.metas (toLowerCase t)).bind fun m => given m.verifierAddress).map KEY.verifier)) r).2 := by
    have hget : (getMeta (toLowerCase t)).run answer r = (.ok (r.metas (toLowerCase t)), r) := by
      rw [h]
      exact run_getMeta h
    show ((getMeta (toLowerCase t) >>= _).run answer r).2 = _
    rw [run_bind_ok hget]
    rfl
  rw [h, hkey] at hop
  have haside := aside_sremGiven (t := t) (verifierKey_bind (r.metas t))
  by_cases hw : ∃ w, winner = some w ∧ w ≠ []
  · obtain ⟨w, rfl, hw⟩ := hw
    have hlower : toLowerCase w ≠ [] := by simpa [toLowerCase] using hw
    rw [show (Option.map toLowerCase (some w)).getD [] = toLowerCase w from rfl,
      given_some hlower] at hop
    rw [hop]
    cases hs : r.states t with
    | none => exact .inr (.inr ⟨by simp, by simp [Script.run, hs]⟩)
    | some s =>
      by_cases hcollecting : s.status = .collecting
      · refine .inl ⟨s, w, _, rfl, hcollecting, rfl, hw, haside, ?_⟩
        simp [Script.run, hs, hcollecting]
      · exact .inr (.inr ⟨by simpa using hcollecting, by simp [Script.run, hs, hcollecting]⟩)
  · have hnone : ∀ w, winner = some w → w = [] :=
      fun w heq => by_contra fun hne => hw ⟨w, heq, hne⟩
    have hempty : (winner.map toLowerCase).getD [] = [] := by
      cases winner with
      | none => rfl
      | some w => rw [hnone w rfl]; rfl
    rw [hempty, given_nil] at hop
    rw [hop]
    cases hs : r.states t with
    | none => exact .inr (.inr ⟨by simp, by simp [Script.run, hs]⟩)
    | some s =>
      by_cases hcollecting : s.status = .collecting
      · refine .inr (.inl ⟨s, _, rfl, hcollecting, hnone, haside, ?_⟩)
        simp [Script.run, hs, hcollecting]
      · exact .inr (.inr ⟨by simpa using hcollecting, by simp [Script.run, hs, hcollecting]⟩)

@[simp] theorem states_sremGiven (key : Option SetKey) (x : Text) :
    (r.write (sremGiven key x)).states = r.states := by cases key <;> rfl

@[simp] theorem states_saddGiven (key : Option SetKey) (x : Text) :
    (r.write (saddGiven key x)).states = r.states := by cases key <;> rfl

@[simp] theorem metas_sremGiven (key : Option SetKey) (x : Text) :
    (r.write (sremGiven key x)).metas = r.metas := by cases key <;> rfl

@[simp] theorem metas_saddGiven (key : Option SetKey) (x : Text) :
    (r.write (saddGiven key x)).metas = r.metas := by cases key <;> rfl

@[simp] theorem mem_sremGiven (key : Option SetKey) (k : SetKey) (x : Text) :
    t ∈ (r.write (sremGiven key x)).sets k ↔ ¬ (key = some k ∧ t = x) ∧ t ∈ r.sets k := by
  cases key with
  | none => simp [sremGiven]
  | some key => simp [sremGiven, eq_comm]

@[simp] theorem mem_saddGiven (key : Option SetKey) (k : SetKey) (x : Text) :
    t ∈ (r.write (saddGiven key x)).sets k ↔ (key = some k ∧ t = x) ∨ t ∈ r.sets k := by
  cases key with
  | none => simp [saddGiven]
  | some key => simp [saddGiven, eq_comm]

theorem on_sremGiven (key : Option SetKey) : ∀ w ∈ sremGiven key t, w.On t := by
  cases key <;> simp [sremGiven, Write.On]

theorem on_saddGiven (key : Option SetKey) : ∀ w ∈ saddGiven key t, w.On t := by
  cases key <;> simp [saddGiven, Write.On]

theorem on_append (h : ∀ w ∈ ws, w.On t) (h' : ∀ w ∈ ws', w.On t) : ∀ w ∈ ws ++ ws', w.On t :=
  fun w hw => (List.mem_append.mp hw).elim (h w) (h' w)

theorem executorKey_eq {a : Option Text} :
    (given a).map KEY.executor = some (.executor addr) ↔
      a ≠ some [] ∧ a.map toLowerCase = some addr := by
  cases a with
  | none => simp
  | some a =>
    by_cases ha : a = []
    · simp [ha]
    · simp [given_some ha, KEY.executor, ha]

@[simp] theorem executorKey_ne_open {a : Option Text} :
    ¬ (given a).map KEY.executor = some .open := by
  intro h
  obtain ⟨b, -, hb⟩ := Option.map_eq_some_iff.mp h
  cases hb

theorem toLowerCase_idem (t : Text) : toLowerCase (toLowerCase t) = toLowerCase t := by
  simp [toLowerCase]

theorem lower_eq_nil {a : Option Text} : a.map toLowerCase = some [] ↔ a = some [] := by
  cases a <;> simp [toLowerCase]

/-- An executor that is moved to another: both are named. -/
theorem moved_iff {e u : Option Text} (hne : ¬ e = u) :
    (∀ addr, ((¬ u = some [] ∧ u.map toLowerCase = some addr) ∨
        ¬ (¬ e = some [] ∧ e.map toLowerCase = some addr) ∧ e.map toLowerCase = some addr) ↔
      u.map toLowerCase = some addr) ↔ ¬ e = some [] ∧ ¬ u = some [] := by
  constructor
  · intro hiff
    have hnil := hiff []
    simp only [lower_eq_nil] at hnil
    refine ⟨fun he => ?_, fun hu => ?_⟩
    · exact hne (he.trans (hnil.mp (.inr ⟨fun hleft => hleft.1 he, he⟩)).symm)
    · obtain hleft | hright := hnil.mpr hu
      · exact hleft.1 hu
      · exact hne (hright.2.trans hu.symm)
  · rintro ⟨he, hu⟩ addr
    simp only [he, hu, not_false_eq_true, true_and]
    tauto

/-- A release that was asked for the holder finds the holder's set. -/
theorem sameHolder_iff {held asked : Option Text}
    (h : toLowerCase (held.getD []) = (asked.map toLowerCase).getD []) :
    asked ≠ some [] ∧ asked.map toLowerCase = some addr ↔
      held ≠ some [] ∧ held.map toLowerCase = some addr := by
  have hnil : ∀ a : Text, toLowerCase a = [] ↔ a = [] := fun a => by simp [toLowerCase]
  cases held with
  | none =>
    cases asked with
    | none => simp
    | some b =>
      have hb : toLowerCase b = [] := h.symm
      simp [(hnil b).mp hb]
  | some a =>
    cases asked with
    | none =>
      have ha : toLowerCase a = [] := h
      simp [(hnil a).mp ha]
    | some b =>
      have hab : toLowerCase a = toLowerCase b := h
      have : a = [] ↔ b = [] := by rw [← hnil a, hab, hnil]
      simp [hab, this]

/-! ## Which calls keep the indexes -/

/-- Only the task a call writes can go out of step. -/
theorem agrees_iff_at (ha : Agrees r) (h : ∀ w ∈ ws, w.On t) (haside : ∀ w ∈ ws', w.Aside) :
    Agrees ((r.write ws).write ws') ↔ AgreesAt (r.write ws) t := by
  constructor
  · exact fun hall => (sameAt_aside haside).agrees.mp (hall t)
  · intro hat t'
    refine (sameAt_aside haside).agrees.mpr ?_
    by_cases heq : t' = t
    · exact heq ▸ hat
    · exact (sameAt_on h heq).agrees.mpr (ha t')

def Listable (m : A2ATaskMeta) : Prop :=
  m.targetExecutorType = .agent ∧ m.submissionMode ≠ some .open

theorem agreesAt_none (h : r.states t = none) :
    AgreesAt r t ↔ t ∉ r.sets .open ∧ ∀ addr, t ∉ r.sets (.executor addr) := by
  constructor
  · rintro ⟨hl, hh⟩
    exact ⟨by simp [hl, Listed, h], fun addr => by simp [hh, HeldBy, h]⟩
  · rintro ⟨hl, hh⟩
    exact ⟨by simp [hl, Listed, h], fun addr => by simp [hh, HeldBy, h]⟩

theorem agreesAt_some {s : A2ATaskState} (h : r.states t = some s) :
    AgreesAt r t ↔
      (t ∈ r.sets .open ↔ (∃ m, r.metas t = some m ∧ Listable m) ∧ s.status = .open) ∧
      ∀ addr, t ∈ r.sets (.executor addr) ↔ (s.fields .executorAddress).map toLowerCase =
        some addr := by
  have hlisted : Listed r t ↔ (∃ m, r.metas t = some m ∧ Listable m) ∧ s.status = .open := by
    simp only [Listed, Listable, h, Option.some.injEq]
    constructor
    · rintro ⟨m, s', hm, hagent, hmode, rfl, hs⟩
      exact ⟨⟨m, hm, hagent, hmode⟩, hs⟩
    · rintro ⟨⟨m, hm, hagent, hmode⟩, hs⟩
      exact ⟨m, s, hm, hagent, hmode, rfl, hs⟩
  have hheld : ∀ addr, HeldBy r t addr ↔ (s.fields .executorAddress).map toLowerCase =
      some addr := fun addr => by simp [HeldBy, h]
  constructor
  · rintro ⟨hl, hh⟩
    exact ⟨hl.trans hlisted, fun addr => (hh addr).trans (hheld addr)⟩
  · rintro ⟨hl, hh⟩
    exact ⟨hl.trans hlisted.symm, fun addr => (hh addr).trans (hheld addr).symm⟩

theorem agrees_setMeta {m : A2ATaskMeta} (h : toLowerCase m.taskId = m.taskId) (ha : Agrees r) :
    Agrees ((Op.setMeta m).run r) ↔ Fits r (.setMeta m) := by
  have hmeta : KEY.meta m.taskId = m.taskId := h
  have hstate : KEY.state m.taskId = m.taskId := h
  have haside : ∀ w ∈ saddGiven ((given m.posterAddress).map KEY.poster) m.taskId ++
      saddGiven ((given m.verifierAddress).map KEY.verifier) m.taskId, w.Aside := by
    intro w hw
    rcases List.mem_append.mp hw with hw | hw
    · exact aside_saddGiven posterKey w hw
    · exact aside_saddGiven verifierKey w hw
  rw [run_setMeta h, setMetaWrites, hmeta, hstate, List.append_assoc, write_append,
    agrees_iff_at (t := m.taskId) ha (fun w hw => ?_) haside]
  · cases hs : r.states m.taskId with
    | none =>
      obtain ⟨ho, hx⟩ := (agreesAt_none hs).mp (ha m.taskId)
      by_cases hopen : m.submissionMode = some .open
      · rw [agreesAt_some (s := ⟨m.taskId, .collecting, fun _ => none⟩) (by simp [hopen])]
        simp [hopen, Fits, Listed, Listable, hs, ho, hx]
      · rw [agreesAt_some (s := ⟨m.taskId, .open, fun _ => none⟩)
          (by by_cases hagent : m.targetExecutorType = .agent <;> simp [hopen, hagent])]
        by_cases hagent : m.targetExecutorType = .agent <;>
        simp [hopen, hagent, Fits, Listed, Listable, hs, ho, hx]
    | some s =>
      obtain ⟨ho, hx⟩ := (agreesAt_some hs).mp (ha m.taskId)
      have hlisted : Listed r m.taskId ↔ m.taskId ∈ r.sets .open := (ha m.taskId).listed.symm
      by_cases hopen : m.submissionMode = some .open
      · rw [agreesAt_some (s := s) (by simp [hopen, hs])]
        simp [hopen, Fits, Listable, hlisted, hx]
      · rw [agreesAt_some (s := s)
          (by by_cases hagent : m.targetExecutorType = .agent <;> simp [hopen, hagent, hs])]
        by_cases hagent : m.targetExecutorType = .agent <;>
        simp [hopen, hagent, Fits, Listable, hlisted, hs, hx]
  · have hcore : ∀ w ∈ (Write.setMeta m.taskId { m with taskId := m.taskId } ::
        (if (r.states m.taskId).isSome then [] else [Write.setState m.taskId ⟨m.taskId,
          if decide (m.submissionMode = some .open) then .collecting else .open, fun _ => none⟩]) ++
        (if decide (m.submissionMode = some .open) then [Write.sadd .openSubmission m.taskId]
          else if m.targetExecutorType = .agent then [Write.sadd .open m.taskId] else [])),
        w.On m.taskId := by
      refine on_append (show ∀ w ∈ _ :: _, Write.On m.taskId w from ?_) ?_
      · split <;> simp [Write.On]
      · split
        · simp [Write.On]
        · split <;> simp [Write.On]
    exact hcore w hw

theorem agrees_tryExpire {reason : Text} (h : toLowerCase t = t) (ha : Agrees r) :
    Agrees ((Op.tryExpire t reason).run r) := by
  obtain ⟨s, hs, hopen, hrun⟩ | hrun := run_tryExpire (r := r) h reason
  · obtain ⟨ho, hx⟩ := (agreesAt_some hs).mp (ha t)
    rw [hrun, ← write_nil (r := r.write _), agrees_iff_at (t := t) ha (by simp [Write.On]) (by simp),
      agreesAt_some (s := { s.field .failedReason (some reason) with status := .failed }) (by simp)]
    exact ⟨by simp, fun addr => by simp [hx, A2ATaskState.field]⟩
  · rwa [hrun]

theorem agrees_tryClose {reason : Text} (h : toLowerCase t = t) (ha : Agrees r) :
    Agrees ((Op.tryCloseOnChainTerminal t reason).run r) := by
  obtain ⟨s, ws, hs, haside, hrun⟩ | hrun := run_tryClose (r := r) h reason
  · obtain ⟨ho, hx⟩ := (agreesAt_some hs).mp (ha t)
    rw [hrun, agrees_iff_at (t := t) ha (by simp [Write.On]) haside,
      agreesAt_some (s := { s.field .failedReason (some reason) with status := .failed }) (by simp)]
    exact ⟨by simp, fun addr => by simp [hx, A2ATaskState.field]⟩
  · rwa [hrun]

theorem agrees_tryAccept {executorAddress acceptedAt : Text} (h : toLowerCase t = t)
    (ha : Agrees r) : Agrees ((Op.tryAccept t executorAddress acceptedAt).run r) ↔
      Fits r (.tryAccept t executorAddress acceptedAt) := by
  obtain ⟨s, hs, hopen, hrun⟩ | ⟨hnot, hrun⟩ :=
    run_tryAccept (r := r) h executorAddress acceptedAt
  · obtain ⟨ho, hx⟩ := (agreesAt_some hs).mp (ha t)
    rw [hrun, ← write_nil (r := r.write _), agrees_iff_at (t := t) ha (by simp [Write.On]) (by simp),
      agreesAt_some (s := { ((s.field .executorAddress (some executorAddress)).field .acceptedAt
        (some acceptedAt)) with status := .accepted }) (by simp)]
    constructor
    · rintro ⟨-, hexec⟩ s' hs' - a hexec'
      cases hs.symm.trans hs'
      have := (hexec (toLowerCase a)).mp (by simp [hx, hexec'])
      simpa [A2ATaskState.field, eq_comm] using this
    · intro hfits
      refine ⟨by simp [KEY.executor], fun addr => ?_⟩
      have hlower := hfits s hs hopen
      cases hexec : s.fields .executorAddress with
      | none => simp [KEY.executor, A2ATaskState.field, hx, hexec, eq_comm]
      | some a => simp [KEY.executor, A2ATaskState.field, hx, hexec, hlower a hexec, eq_comm]
  · rw [hrun]
    exact ⟨fun _ s hs hopen => absurd hopen (hnot s hs), fun _ => ha⟩

theorem agrees_updateState {patch : Patch} (h : toLowerCase t = t) (ha : Agrees r) :
    Agrees ((Op.updateState t patch).run r) ↔ Fits r (.updateState t patch) := by
  obtain ⟨hs, hrun⟩ | ⟨s, ws, hs, haside, hrun⟩ := run_updateState (r := r) h patch
  · rw [hrun]
    refine ⟨fun _ s hs' => ?_, fun _ => ha⟩
    rw [hs] at hs'
    cases hs'
  obtain ⟨ho, hx⟩ := (agreesAt_some hs).mp (ha t)
  have hfits : Fits r (.updateState t patch) ↔
      (s.status ≠ .open → (s.patched patch t).status = .open → ∀ m, r.metas t = some m →
        ¬ Listable m) ∧
      (s.fields .executorAddress ≠ (s.patched patch t).fields .executorAddress →
        s.fields .executorAddress ≠ some [] ∧
        (s.patched patch t).fields .executorAddress ≠ some []) := by
    simp only [Fits, hs, Option.some.injEq, forall_eq']
    rfl
  generalize s.patched patch t = u at hrun hfits
  have hon : ∀ w ∈ updateWrites t s u, w.On t := by
    refine on_append (on_append (by simp [Write.On]) ?_) ?_
    · split <;> simp [Write.On]
    · split
      · exact on_append (on_sremGiven _) (on_saddGiven _)
      · simp
  have hview : (r.write (updateWrites t s u)).states t = some u ∧
      (r.write (updateWrites t s u)).metas = r.metas ∧
      (t ∈ (r.write (updateWrites t s u)).sets .open ↔
        ¬ (s.status = .open ∧ u.status ≠ .open) ∧ t ∈ r.sets .open) ∧
      ∀ addr, t ∈ (r.write (updateWrites t s u)).sets (.executor addr) ↔
        if s.fields .executorAddress = u.fields .executorAddress then t ∈ r.sets (.executor addr)
        else (u.fields .executorAddress ≠ some [] ∧
            (u.fields .executorAddress).map toLowerCase = some addr) ∨
          ¬ (s.fields .executorAddress ≠ some [] ∧
            (s.fields .executorAddress).map toLowerCase = some addr) ∧
          t ∈ r.sets (.executor addr) := by
    unfold updateWrites
    by_cases hopen : s.status = .open ∧ u.status ≠ .open <;>
    by_cases hexec : s.fields .executorAddress = u.fields .executorAddress <;>
    simp [hopen, hexec, write_append, executorKey_eq, -Option.map_eq_some_iff]
  obtain ⟨hstate, hmetas, hopen, hexec⟩ := hview
  rw [hrun, agrees_iff_at ha hon haside, agreesAt_some hstate, hmetas, hopen, ho, hfits]
  refine and_congr ?_ ?_
  · constructor
    · rintro hiff hne hu m hm hlistable
      exact hne ((hiff.mpr ⟨⟨m, hm, hlistable⟩, hu⟩).2.2)
    · intro hno
      constructor
      · rintro ⟨hkeep, hlisted, hs'⟩
        exact ⟨hlisted, by_contra fun hu => hkeep ⟨hs', hu⟩⟩
      · rintro ⟨⟨m, hm, hlistable⟩, hu⟩
        have hs' : s.status = .open := by_contra fun hne => hno hne hu m hm hlistable
        exact ⟨fun hleft => hleft.2 hu, ⟨m, hm, hlistable⟩, hs'⟩
  · by_cases heq : s.fields .executorAddress = u.fields .executorAddress
    · simp only [hexec, heq, if_true, hx, implies_true, ne_eq, not_true_eq_false, false_implies]
    · simp only [hexec, heq, if_false, hx, ne_eq, not_false_eq_true, forall_const]
      exact moved_iff heq

/-- Releasing: the state is new, the task is listed again, and the old holder is dropped. -/
theorem agrees_release {s : A2ATaskState} {m : A2ATaskMeta} {key : Option SetKey} (ha : Agrees r)
    (hs : r.states t = some s) (hm : r.metas t = some m) (hopen : s.status ≠ .open)
    (hkey : ∀ addr, key = some (.executor addr) ↔
      s.fields .executorAddress ≠ some [] ∧ (s.fields .executorAddress).map toLowerCase = some addr)
    (hlist : key ≠ some .open) :
    Agrees (r.write (.setState t { taskId := t, status := .open } ::
      (if m.targetExecutorType = .agent then [.sadd .open t] else []) ++ sremGiven key t)) ↔
    ¬ (m.targetExecutorType = .agent ∧ m.submissionMode = some .open) ∧
      s.fields .executorAddress ≠ some [] := by
  obtain ⟨ho, hx⟩ := (agreesAt_some hs).mp (ha t)
  have hnot : t ∉ r.sets .open := fun hmem => hopen (ho.mp hmem).2
  have hon : ∀ w ∈ (.setState t { taskId := t, status := .open } ::
      (if m.targetExecutorType = .agent then [.sadd .open t] else []) ++ sremGiven key t :
      List Write), w.On t := by
    refine on_append ?_ (on_sremGiven _)
    split <;> simp [Write.On]
  generalize hws : (.setState t { taskId := t, status := .open } ::
      (if m.targetExecutorType = .agent then [.sadd .open t] else []) ++ sremGiven key t :
      List Write) = ws at hon
  have hview : (r.write ws).states t = some { taskId := t, status := .open } ∧
      (r.write ws).metas = r.metas ∧
      (t ∈ (r.write ws).sets .open ↔ m.targetExecutorType = .agent) ∧
      ∀ addr, t ∈ (r.write ws).sets (.executor addr) ↔
        ¬ (s.fields .executorAddress ≠ some [] ∧
          (s.fields .executorAddress).map toLowerCase = some addr) ∧
        (s.fields .executorAddress).map toLowerCase = some addr := by
    subst hws
    by_cases hagent : m.targetExecutorType = .agent <;>
    simp [hagent, hkey, hlist, hnot, hx, -Option.map_eq_some_iff]
  obtain ⟨hstate, hmetas, hlisted, hexec⟩ := hview
  rw [← write_nil (r := r.write ws), agrees_iff_at ha hon (by simp), agreesAt_some hstate, hlisted]
  simp only [hexec, hmetas, hm, Option.some.injEq, exists_eq_left', and_true]
  refine and_congr ?_ ?_
  · simp only [Listable]
    tauto
  · constructor
    · intro hiff hs'
      have := (hiff []).mp ⟨fun hleft => hleft.1 hs', by simp [hs', toLowerCase]⟩
      cases this
    · intro hs' addr
      exact ⟨fun hleft => absurd ⟨hs', hleft.2⟩ hleft.1, fun hleft => by cases hleft⟩

theorem agrees_releaseToOpen (h : toLowerCase t = t) (ha : Agrees r) :
    Agrees ((Op.releaseToOpen t).run r) ↔ Fits r (.releaseToOpen t) := by
  obtain ⟨s, m, hs, hopen, hm, hrun⟩ | ⟨hnot, hrun⟩ := run_releaseToOpen (r := r) h
  · have hfits : Fits r (.releaseToOpen t) ↔
        ¬ (m.targetExecutorType = .agent ∧ m.submissionMode = some .open) ∧
          s.fields .executorAddress ≠ some [] := by
      constructor
      · exact fun hf => hf s m hs hopen hm
      · intro hf s' m' hs' _ hm'
        cases hs.symm.trans hs'
        cases hm.symm.trans hm'
        exact hf
    rw [hrun, hfits]
    exact agrees_release ha hs hm hopen (fun addr => executorKey_eq) executorKey_ne_open
  · rw [hrun]
    exact ⟨fun _ s m hs hopen hm => absurd hm (hnot s m hs hopen), fun _ => ha⟩

theorem agrees_tryRelease {expected : Expected} (h : toLowerCase t = t) (ha : Agrees r) :
    Agrees ((Op.tryReleaseAccepted t expected).run r) ↔ Fits r (.tryReleaseAccepted t expected) := by
  obtain ⟨s, m, hs, hm, hstatus, hexec, htx, hrun⟩ | ⟨hnot, hrun⟩ :=
    run_tryRelease (r := r) h expected
  · have hfits : Fits r (.tryReleaseAccepted t expected) ↔
        ¬ (m.targetExecutorType = .agent ∧ m.submissionMode = some .open) ∧
          s.fields .executorAddress ≠ some [] := by
      constructor
      · exact fun hf => hf s m hs hm hstatus hexec htx
      · intro hf s' m' hs' hm' _ _ _
        cases hs.symm.trans hs'
        cases hm.symm.trans hm'
        exact hf
    have hopen : s.status ≠ .open := by
      rw [hstatus]
      cases expected.status <;> simp [Held.status]
    rw [hrun, hfits]
    refine agrees_release ha hs hm hopen (fun addr => ?_) executorKey_ne_open
    rw [executorKey_eq]
    exact sameHolder_iff hexec
  · rw [hrun]
    exact ⟨fun _ s m hs hm hstatus hexec htx => absurd htx (hnot s m hs hm hstatus hexec),
      fun _ => ha⟩

theorem agrees_closeOpen {winner : Option Text} (h : toLowerCase t = t) (ha : Agrees r) :
    Agrees ((Op.closeOpenSubmissionTask t winner).run r) ↔
      Fits r (.closeOpenSubmissionTask t winner) := by
  obtain ⟨s, w, ws, hs, hcollecting, rfl, hw, haside, hrun⟩ |
    ⟨s, ws, hs, hcollecting, hnone, haside, hrun⟩ | ⟨hnot, hrun⟩ :=
    run_closeOpen (r := r) h winner
  · obtain ⟨ho, hx⟩ := (agreesAt_some hs).mp (ha t)
    have hnot : t ∉ r.sets .open := fun hmem => by
      rw [hcollecting] at ho
      cases (ho.mp hmem).2
    rw [hrun, agrees_iff_at (t := t) ha (by simp [Write.On]) haside,
      agreesAt_some (s := { s.field .executorAddress (some (toLowerCase w)) with
        status := .completed }) (by simp)]
    constructor
    · rintro ⟨-, hexec⟩ s' w' hs' - hw' - a hexec'
      cases hs.symm.trans hs'
      cases hw'
      have := (hexec (toLowerCase a)).mp (by simp [hx, hexec'])
      simpa [A2ATaskState.field, toLowerCase_idem, eq_comm] using this
    · intro hfits
      refine ⟨by simp [KEY.executor, hnot], fun addr => ?_⟩
      have hlower := hfits s w hs hcollecting rfl hw
      cases hexec : s.fields .executorAddress with
      | none => simp [KEY.executor, A2ATaskState.field, hx, hexec, toLowerCase_idem, eq_comm]
      | some a =>
        simp [KEY.executor, A2ATaskState.field, hx, hexec, hlower a hexec, toLowerCase_idem,
          eq_comm]
  · obtain ⟨ho, hx⟩ := (agreesAt_some hs).mp (ha t)
    have hnot : t ∉ r.sets .open := fun hmem => by
      rw [hcollecting] at ho
      cases (ho.mp hmem).2
    rw [hrun, agrees_iff_at (t := t) ha (by simp [Write.On]) haside,
      agreesAt_some (s := { s.field .failedReason (some "voided".toList) with status := .failed })
        (by simp)]
    constructor
    · exact fun _ s' w _ _ hw hne => absurd (hnone w hw) hne
    · exact fun _ => ⟨by simp [hnot], fun addr => by simp [hx, A2ATaskState.field]⟩
  · rw [hrun]
    exact ⟨fun _ s w hs hcollecting => absurd hcollecting (hnot s hs), fun _ => ha⟩

/-- The indexes stay in step exactly when the call fits. -/
theorem agrees_step {op : Op} (h : toLowerCase op.taskId = op.taskId) (ha : Agrees r) :
    Agrees (op.run r) ↔ Fits r op := by
  cases op with
  | setMeta m => exact agrees_setMeta h ha
  | updateState t patch => exact agrees_updateState h ha
  | tryAccept t executorAddress acceptedAt => exact agrees_tryAccept h ha
  | tryExpire t reason => exact iff_of_true (agrees_tryExpire h ha) trivial
  | tryCloseOnChainTerminal t reason => exact iff_of_true (agrees_tryClose h ha) trivial
  | releaseToOpen t => exact agrees_releaseToOpen h ha
  | tryReleaseAccepted t expected => exact agrees_tryRelease h ha
  | closeOpenSubmissionTask t winner => exact agrees_closeOpen h ha

theorem agrees_empty : Agrees emptyStore :=
  fun t => (agreesAt_none rfl).mpr ⟨by simp [emptyStore], by simp [emptyStore]⟩

theorem runAll_append (ops ops' : List Op) : runAll r (ops ++ ops') = runAll (runAll r ops) ops' := by
  induction ops generalizing r with
  | nil => rfl
  | cons op ops ih => exact ih

/-- In a sequence of calls the indexes agree with the states at every moment if and only if every
call fits the store it finds. -/
theorem indexes_agree_iff (ops : List Op)
    (h : ∀ op ∈ ops, toLowerCase op.taskId = op.taskId) :
    (∀ done rest, ops = done ++ rest → Agrees (runAll emptyStore done)) ↔
      ∀ done op rest, ops = done ++ op :: rest → Fits (runAll emptyStore done) op := by
  constructor
  · intro hall done op rest hops
    have hop : toLowerCase op.taskId = op.taskId := h op (by simp [hops])
    have hnext := hall (done ++ [op]) rest (by simp [hops])
    rw [runAll_append] at hnext
    exact (agrees_step hop (hall done (op :: rest) hops)).mp hnext
  · intro hfits done
    -- by induction on the calls made so far
    induction done using List.reverseRecOn with
    | nil => exact fun _ _ => agrees_empty
    | append_singleton done op ih =>
      intro rest hops
      have hsplit : ops = done ++ op :: rest := by simpa using hops
      have hop : toLowerCase op.taskId = op.taskId := h op (by simp [hsplit])
      rw [runAll_append]
      exact (agrees_step hop (ih (op :: rest) hsplit)).mpr (hfits done op rest hsplit)

/-! ## A listing written again -/

def demoTask : Text := ['t']

/-- A task is listed, accepted, and its listing written again. -/
def listedAgain : List Op :=
  [.setMeta { taskId := demoTask }, .tryAccept demoTask ['a'] ['1'],
    .setMeta { taskId := demoTask }]

theorem indexes_agree_iff_listed :
    (∀ done rest, listedAgain.take 2 = done ++ rest → Agrees (runAll emptyStore done)) ↔
      ∀ done op rest, listedAgain.take 2 = done ++ op :: rest → Fits (runAll emptyStore done) op :=
  indexes_agree_iff _ (by decide)

/-- The accepted task is back in the index of open tasks. -/
theorem listed_again_disagrees : ¬ Agrees (runAll emptyStore listedAgain) ∧
    demoTask ∈ (runAll emptyStore listedAgain).sets .open ∧
    ((runAll emptyStore listedAgain).states demoTask).map (·.status) = some .accepted := by
  have hopen : demoTask ∈ (runAll emptyStore listedAgain).sets .open := by decide
  have hstatus : ((runAll emptyStore listedAgain).states demoTask).map (·.status) =
      some .accepted := by decide
  refine ⟨fun h => ?_, hopen, hstatus⟩
  obtain ⟨m, s, -, -, -, hs, hs'⟩ := (h demoTask).listed.mp hopen
  rw [hs] at hstatus
  simp [hs'] at hstatus

end A2AStore
