import BlindMarket.Escrow.Effects
import BlindMarket.Escrow.System

/-!
# What a step does

A step of the system changes the escrow's storage only by a call, through one
`Effect`; interactions move tokens and inform the other contracts but never
write storage. Seen from one task, a step leaves its row alone, moves it, or
creates it.
-/
namespace BlindEscrow

open Checked Runs TokenLedger

variable {D : Deployment} {c c' : Config} {e : Event} {w w' : World} {stop : Stop}
  {x : Ctx} {s s' : Escrow} {id : Nat} {op : Op} {todo : List Action}

/-! ## Interactions -/

theorem transferPayout_escrow {party : Party} {amount : Nat} {paid : List Payment} {yields : Bool}
    (h : transferPayout D id party amount w = .ok (w', paid, yields)) :
    w'.escrow = w.escrow ∧ w'.timestamp = w.timestamp := by
  unfold transferPayout at h
  split at h
  · simp only [pure_eq, Except.ok.injEq, Prod.mk.injEq] at h
    obtain ⟨rfl, -⟩ := h
    exact ⟨rfl, rfl⟩
  · simp only [seq_eq_ok, require_eq_ok, exists_const, orElse_eq_ok, pure_eq, Except.ok.injEq,
      Prod.mk.injEq] at h
    obtain ⟨-, ledger, -, rfl, -⟩ := h
    exact ⟨rfl, rfl⟩

/-- An interaction never writes storage and takes no time. -/
theorem act_escrow {a : Action} {paid : List Payment} {yields : Bool}
    (h : act D a w = .ok (w', paid, yields)) :
    w'.escrow = w.escrow ∧ w'.timestamp = w.timestamp := by
  cases a with
  | transferPayout id party amount => exact transferPayout_escrow h
  | pull token payer amount =>
    simp only [act, seq_eq_ok, orElse_eq_ok, pure_eq, Except.ok.injEq, Prod.mk.injEq] at h
    obtain ⟨ledger, -, rfl, -⟩ := h
    exact ⟨rfl, rfl⟩
  | lock | unlock | emit _ =>
    simp only [act, pure_eq, Except.ok.injEq, Prod.mk.injEq] at h
    obtain ⟨rfl, -⟩ := h
    exact ⟨rfl, rfl⟩
  | rate _ _ | recordDispute _ | publish _ _ _ _ _ | closeListing _ =>
    simp only [act] at h
    split at h
    all_goals
      simp only [pure_eq, Except.ok.injEq, Prod.mk.injEq] at h
      obtain ⟨rfl, -⟩ := h
      exact ⟨rfl, rfl⟩

/-- Inversion of one interaction in front of others. -/
theorem drive_cons {a : Action} {rest : List Action} (h : drive D (a :: rest) w = .ok stop) :
    ∃ w' paid yields, act D a w = .ok (w', paid, yields) ∧
      (yields = true ∧ stop = ⟨w', paid, some rest⟩ ∨
        yields = false ∧ ∃ stop', drive D rest w' = .ok stop' ∧
          stop = ⟨stop'.world, paid ++ stop'.paid, stop'.rest⟩) := by
  simp only [drive, seq_eq_ok, Prod.exists] at h
  obtain ⟨w', paid, yields, ha, h⟩ := h
  refine ⟨w', paid, yields, ha, ?_⟩
  cases yields with
  | true => exact .inl ⟨rfl, by simpa [eq_comm] using h⟩
  | false =>
    simp only [Bool.false_eq_true, ↓reduceIte, seq_eq_ok, pure_eq, Except.ok.injEq] at h
    obtain ⟨stop', hd, rfl⟩ := h
    exact .inr ⟨rfl, stop', hd, rfl⟩

theorem drive_nil (h : drive D [] w = .ok stop) : stop = ⟨w, [], none⟩ := by
  simpa [drive, eq_comm] using h

theorem drive_escrow (h : drive D todo w = .ok stop) :
    stop.world.escrow = w.escrow ∧ stop.world.timestamp = w.timestamp := by
  induction todo generalizing w stop with
  | nil => rw [drive_nil h]; exact ⟨rfl, rfl⟩
  | cons a rest ih =>
    obtain ⟨w', paid, yields, ha, ⟨-, rfl⟩ | ⟨-, stop', hd, rfl⟩⟩ := drive_cons h
    · exact act_escrow ha
    · have hact := act_escrow ha
      have hrest := ih hd
      exact ⟨hrest.1.trans hact.1, hrest.2.trans hact.2⟩

/-- The beginning of a call, taken apart. -/
theorem begin_ok {m : Msg} (h : begin D m w = .ok stop) :
    ∃ ledger s' todo, w.ledger.move 0 m.sender D.self m.value = some ledger ∧
      (m.op.payable = true ∨ m.value = 0) ∧
      enter D.recover (w.ctx m) m.op w.escrow = .ok (s', todo) ∧
      Effect (w.ctx m) w.escrow m.op s' todo ∧
      drive D todo { w with ledger, escrow := s' } = .ok stop ∧
      stop.world.escrow = s' ∧ stop.world.timestamp = w.timestamp := by
  simp only [begin, seq_eq_ok, require_eq_ok, exists_const, orElse_eq_ok, Prod.exists] at h
  obtain ⟨hpay, ledger, hledger, s', todo, henter, hdrive⟩ := h
  have hsame := drive_escrow hdrive
  exact ⟨ledger, s', todo, hledger, hpay, henter, enter_effect henter, hdrive, hsame.1, hsame.2⟩

/-! ## Steps and storage -/

/-- Seconds that pass in a step. -/
def Event.elapsed (e : Event) : Nat :=
  match e.kind with
  | .tick dt => dt
  | _ => 0

theorem Step.worlds (h : Step D c e c') : e.pre = c.world ∧ e.post = c'.world := by
  cases h <;> exact ⟨rfl, rfl⟩

/-- A step either is a call with its effect, or leaves storage alone. -/
theorem Step.storage (h : Step D c e c') :
    (∃ m todo, e.kind = .called c.calls m ∧ Sender D m.sender ∧
      Effect (c.world.ctx m) c.world.escrow m.op c'.world.escrow todo ∧
      c'.world.timestamp = c.world.timestamp ∧ c'.calls = c.calls + 1) ∨
    ((∀ cid m, e.kind ≠ .called cid m) ∧ c'.world.escrow = c.world.escrow ∧
      c'.world.timestamp = c.world.timestamp + e.elapsed ∧ c'.calls = c.calls) := by
  cases h with
  | call m stop hs h =>
    obtain ⟨ledger, s', todo, -, -, -, heff, -, rfl, ht⟩ := begin_ok h
    exact .inl ⟨m, todo, rfl, hs, heff, ht, rfl⟩
  | ret f stack stop h =>
    have hsame := drive_escrow h
    exact .inr ⟨by simp, hsame.1, by simpa [Event.elapsed] using hsame.2, rfl⟩
  | tick dt => exact .inr ⟨by simp, rfl, rfl, rfl⟩
  | funds ledger h => exact .inr ⟨by simp, rfl, rfl, rfl⟩
  | reputation sender op reputation hs h => exact .inr ⟨by simp, rfl, rfl, rfl⟩
  | registry sender op registry hs h => exact .inr ⟨by simp, rfl, rfl, rfl⟩

/-! ## Created rows -/

/-- The task that appending `tasks` at `next` puts at `id`. -/
def inputAt (next : Nat) (tasks : List TaskInput) (id : Nat) : Option TaskInput :=
  if next ≤ id then tasks[id - next]? else none

theorem inputAt_cons {next : Nat} {i : TaskInput} {tasks : List TaskInput} :
    inputAt next (i :: tasks) id = if id = next then some i else inputAt (next + 1) tasks id := by
  unfold inputAt
  by_cases h : id = next
  · subst h; simp
  · by_cases hle : next ≤ id
    · have hlt : next + 1 ≤ id := by omega
      have hsub : id - next = id - (next + 1) + 1 := by omega
      simp [h, hle, hlt, hsub]
    · have hlt : ¬ next + 1 ≤ id := by omega
      simp [h, hle, hlt]

theorem inputAt_eq_some {next : Nat} {tasks : List TaskInput} {i : TaskInput}
    (h : inputAt next tasks id = some i) : next ≤ id ∧ id < next + tasks.length ∧ i ∈ tasks := by
  unfold inputAt at h
  split at h
  · rename_i hle
    obtain ⟨hlt, rfl⟩ := List.getElem?_eq_some_iff.mp h
    exact ⟨hle, by omega, List.getElem_mem hlt⟩
  · cases h

theorem inputAt_eq_none {next : Nat} {tasks : List TaskInput} :
    inputAt next tasks id = none ↔ id < next ∨ next + tasks.length ≤ id := by
  unfold inputAt
  split
  · rw [List.getElem?_eq_none_iff]
    omega
  · simp; omega

@[simp] theorem inputAt_nil {next : Nat} : inputAt next [] id = none := by
  simp [inputAt]

@[simp] theorem recorded_nextTaskId (s : Escrow) (x : Ctx) (token : Address) (i : TaskInput) :
    (s.recorded x token i).nextTaskId = s.nextTaskId + 1 := rfl

theorem recorded_row (s : Escrow) (x : Ctx) (token : Address) (i : TaskInput) (id : Nat) :
    (s.recorded x token i).row id =
      if id = s.nextTaskId then newRow x token i s.pausedTotal (s.row id) else s.row id := by
  change (s.put s.nextTaskId (newRow x token i s.pausedTotal (s.row s.nextTaskId))).row id = _
  split
  · rename_i h; subst h; exact s.row_put_self _ _
  · rename_i h; exact s.row_put_other _ _ h

theorem recordedAll_row (x : Ctx) (token : Address) (tasks : List TaskInput) (s : Escrow)
    (id : Nat) :
    (s.recordedAll x token tasks).row id =
      match inputAt s.nextTaskId tasks id with
      | some i => newRow x token i s.pausedTotal (s.row id)
      | none => s.row id := by
  induction tasks generalizing s with
  | nil => simp [Escrow.recordedAll]
  | cons i tasks ih =>
    have hstep := ih (s.recorded x token i)
    rw [recorded_nextTaskId, recorded_row] at hstep
    change ((s.recorded x token i).recordedAll x token tasks).row id = _
    rw [hstep, inputAt_cons]
    by_cases h : id = s.nextTaskId
    · subst h
      have hnone : inputAt (s.nextTaskId + 1) tasks s.nextTaskId = none :=
        inputAt_eq_none.mpr (.inl (by omega))
      simp only [hnone, ↓reduceIte]
    · simp only [h, ↓reduceIte]
      rfl

/-- Everything but the appended rows and the next id stays. -/
structure SameSettings (s s' : Escrow) : Prop where
  admin : s'.admin = s.admin
  pendingAdmin : s'.pendingAdmin = s.pendingAdmin
  treasury : s'.treasury = s.treasury
  verifier : s'.verifier = s.verifier
  feeBps : s'.feeBps = s.feeBps
  allowedTokens : s'.allowedTokens = s.allowedTokens
  reputationContract : s'.reputationContract = s.reputationContract
  taskRegistry : s'.taskRegistry = s.taskRegistry
  teeSigner : s'.teeSigner = s.teeSigner
  minRatedAmount : s'.minRatedAmount = s.minRatedAmount

/-- The pause accounting of the escrow stays. -/
structure SameClock (s s' : Escrow) : Prop where
  paused : s'.paused = s.paused
  pausedTotal : s'.pausedTotal = s.pausedTotal
  pausedSince : s'.pausedSince = s.pausedSince

theorem recordedAll_same (x : Ctx) (token : Address) (tasks : List TaskInput) (s : Escrow) :
    SameSettings s (s.recordedAll x token tasks) ∧ SameClock s (s.recordedAll x token tasks) ∧
      (s.recordedAll x token tasks).nextTaskId = s.nextTaskId + tasks.length := by
  induction tasks generalizing s with
  | nil => exact ⟨⟨rfl, rfl, rfl, rfl, rfl, rfl, rfl, rfl, rfl, rfl⟩, ⟨rfl, rfl, rfl⟩, rfl⟩
  | cons i tasks ih =>
    obtain ⟨hs, hc, hn⟩ := ih (s.recorded x token i)
    refine ⟨⟨hs.admin, hs.pendingAdmin, hs.treasury, hs.verifier, hs.feeBps, hs.allowedTokens,
      hs.reputationContract, hs.taskRegistry, hs.teeSigner, hs.minRatedAmount⟩,
      ⟨hc.paused, hc.pausedTotal, hc.pausedSince⟩, ?_⟩
    change ((s.recorded x token i).recordedAll x token tasks).nextTaskId = _
    rw [hn, recorded_nextTaskId, List.length_cons]
    omega

/-! ## Effects by part -/

/-- A call changes settings only as an administrative call. -/
theorem Effect.settings (h : Effect x s op s' todo) :
    SameSettings s s' ∨
      ((x.sender = s.admin ∨ op = .acceptAdmin ∧ x.sender = s.pendingAdmin) ∧
        (s'.admin = s.admin ∨ s'.admin = x.sender) ∧
        (s'.treasury = s.treasury ∨ s'.treasury ≠ 0) ∧
        (s'.verifier = s.verifier ∨ s'.verifier ≠ 0) ∧
        (s'.feeBps = s.feeBps ∨ s'.feeBps ≤ MAX_FEE_BPS)) := by
  cases h with
  | batch => exact .inl (recordedAll_same _ _ _ _).1
  | configure => exact .inr ⟨‹_›, ‹_›, ‹_›, ‹_›, ‹_›⟩
  | _ => exact .inl ⟨rfl, rfl, rfl, rfl, rfl, rfl, rfl, rfl, rfl, rfl⟩

/-- A call changes the pause accounting only as `pause`, `unpause` or `recordPauseStart`. -/
theorem Effect.clock (h : Effect x s op s' todo) :
    SameClock s s' ∨
    (op = .pause ∧ x.sender = s.admin ∧ s.paused = false ∧ s'.paused = true ∧
      s'.pausedTotal = s.pausedTotal ∧ s'.pausedSince = x.timestamp) ∨
    (op = .unpause ∧ x.sender = s.admin ∧ s.paused = true ∧ s'.paused = false ∧
      s'.pausedSince = 0 ∧ s'.pausedTotal = s.pausedTotal +
        if s.pausedSince ≠ 0 then x.timestamp - s.pausedSince else 0) ∨
    (∃ at_, op = .recordPauseStart at_ ∧ x.sender = s.admin ∧ s.paused = true ∧
      s.pausedSince = 0 ∧ s'.paused = true ∧ s'.pausedTotal = s.pausedTotal ∧
      s'.pausedSince = at_ ∧ at_ ≠ 0 ∧ at_ ≤ x.timestamp) := by
  cases h with
  | batch => exact .inl (recordedAll_same _ _ _ _).2.1
  | pause hs hp => exact .inr (.inl ⟨rfl, hs, hp, rfl, rfl, rfl⟩)
  | unpause ran hs hp hran =>
    refine .inr (.inr (.inl ⟨rfl, hs, hp, rfl, rfl, ?_⟩))
    split at hran
    · rw [if_pos ‹_›, hran.2]
    · rw [if_neg ‹_›, hran]
  | recordPauseStart at_ hs hp h0 hat hle =>
    exact .inr (.inr (.inr ⟨at_, rfl, hs, hp, h0, hp, rfl, rfl, hat, hle⟩))
  | _ => exact .inl ⟨rfl, rfl, rfl⟩

theorem Effect.nextTaskId (h : Effect x s op s' todo) :
    s'.nextTaskId = s.nextTaskId + op.inputs.length := by
  cases h with
  | move id op r todo hid h => cases op <;> first | rfl | cases hid
  | create op token i hl hp hop hrec hval =>
    rcases hop with ⟨rfl, -⟩ | rfl <;> rfl
  | batch token tasks => exact (recordedAll_same _ _ _ _).2.2
  | createOpen => rfl
  | configure op _ _ _ _ _ _ _ _ _ _ _ hop hin => rw [hin]; rfl
  | pause | unpause | recordPauseStart => rfl

/-- How a created task relates to open submission. -/
def Opens (op : Op) (i : TaskInput) (old new : OpenTask) : Prop :=
  ((∀ hash token amount category zone duration v mode window,
      op ≠ .createTaskOpen hash token amount category zone duration v mode window) ∧ new = old) ∨
  (∃ token mode window,
    op = .createTaskOpen i.taskHash token i.amount i.category i.locationZone i.duration
      i.verifierAgent mode window ∧
    i.verifierAgent ≠ 0 ∧
    (if mode = .creatorReview then MIN_CREATOR_WINDOW ≤ window ∧ window ≤ MAX_CREATOR_WINDOW
      else window = 0) ∧
    new = ⟨true, mode, window, .none⟩)

/-- A call seen from one task: its row stays, moves, or is created. -/
theorem Effect.row (h : Effect x s op s' todo) (id : Nat) :
    (op.taskId ≠ some id ∧ inputAt s.nextTaskId op.inputs id = none ∧ s'.row id = s.row id) ∨
    (op.taskId = some id ∧ inputAt s.nextTaskId op.inputs id = none ∧
      Move x s id op (s'.row id) todo) ∨
    (∃ token i o, op.taskId = none ∧ inputAt s.nextTaskId op.inputs id = some i ∧
      x.locked = false ∧ s.paused = false ∧ Recordable x s token i ∧
      Opens op i (s.row id).openTask o ∧
      s'.row id = { newRow x token i s.pausedTotal (s.row id) with openTask := o }) := by
  cases h with
  | move j op r todo hid h =>
    have hin : op.inputs = [] := by cases op <;> first | rfl | cases hid
    by_cases hj : id = j
    · subst hj
      exact .inr (.inl ⟨hid, by simp [hin], by rwa [s.row_put_self]⟩)
    · refine .inl ⟨?_, by simp [hin], s.row_put_other _ _ hj⟩
      rw [hid]
      simpa using fun h => hj h.symm
  | create op token i hl hp hop hrec hval =>
    have hin : op.inputs = [i] ∧ op.taskId = none := by
      rcases hop with ⟨rfl, hv⟩ | rfl
      · exact ⟨by rw [Op.inputs, ← hv], rfl⟩
      · exact ⟨rfl, rfl⟩
    rw [hin.1, hin.2, inputAt_cons, recorded_row]
    by_cases hn : id = s.nextTaskId
    · refine .inr (.inr ⟨token, i, (s.row id).openTask, rfl, by simp [hn], hl, hp, hrec, ?_, ?_⟩)
      · refine .inl ⟨?_, rfl⟩
        rcases hop with ⟨rfl, -⟩ | rfl <;> simp
      · simp only [hn, ↓reduceIte]
        rfl
    · exact .inl ⟨by simp, by simp [hn], by simp [hn]⟩
  | batch token tasks hl hp h0 hmax htok hval hrec hsum =>
    rw [recordedAll_row]
    cases hi : inputAt s.nextTaskId tasks id with
    | none => exact .inl ⟨by simp [Op.taskId], hi, rfl⟩
    | some i =>
      refine .inr (.inr ⟨token, i, (s.row id).openTask, rfl, hi, hl, hp,
        hrec i (inputAt_eq_some hi).2.2, .inl ⟨by simp, rfl⟩, rfl⟩)
  | createOpen token i mode window hl hp hv hw hrec hval =>
    simp only [Op.inputs, inputAt_cons]
    by_cases hn : id = s.nextTaskId
    · subst hn
      refine .inr (.inr ⟨token, i, ⟨true, mode, window, .none⟩, rfl, by simp, hl, hp, hrec,
        .inr ⟨token, mode, window, rfl, hv, hw, rfl⟩, ?_⟩)
      exact s.row_put_self _ _
    · refine .inl ⟨by simp [Op.taskId], by simp [hn], ?_⟩
      exact s.row_put_other _ _ hn
  | configure op _ _ _ _ _ _ _ _ _ _ _ hop hin =>
    exact .inl ⟨by simp [hop], by simp [hin], rfl⟩
  | pause | unpause | recordPauseStart =>
    exact .inl ⟨by simp [Op.taskId], by simp [Op.inputs], rfl⟩

/-! ## Steps and rows -/

/-- The task an event's call creates at `id`. -/
def Event.input (e : Event) (id : Nat) : Option TaskInput :=
  match e.kind with
  | .called _ m => inputAt e.pre.escrow.nextTaskId m.op.inputs id
  | _ => none

/-- The event is a call on task `id`. -/
def Event.about (e : Event) (id : Nat) : Bool :=
  match e.kind with
  | .called _ m => m.op.taskId = some id
  | _ => false

/-- The step creates task `id` from `i`. -/
structure Created (D : Deployment) (c : Config) (e : Event) (c' : Config) (id : Nat)
    (m : Msg) (token : Address) (i : TaskInput) (o : OpenTask) : Prop where
  kind : e.kind = .called c.calls m
  sender : Sender D m.sender
  input : e.input id = some i
  locked : c.world.locked = false
  paused : c.world.escrow.paused = false
  recordable : Recordable (c.world.ctx m) c.world.escrow token i
  opens : Opens m.op i (c.world.escrow.openTasks id) o
  row : c'.world.escrow.row id =
    { newRow (c.world.ctx m) token i c.world.escrow.pausedTotal (c.world.escrow.row id) with
      openTask := o }
  next : c.world.escrow.nextTaskId ≤ id
  next' : id < c'.world.escrow.nextTaskId

/-- A step seen from one task. -/
theorem Step.row (h : Step D c e c') (id : Nat) :
    (e.about id = false ∧ e.input id = none ∧
      c'.world.escrow.row id = c.world.escrow.row id) ∨
    (∃ m todo, e.kind = .called c.calls m ∧ Sender D m.sender ∧ m.op.taskId = some id ∧
      e.input id = none ∧
      Move (c.world.ctx m) c.world.escrow id m.op (c'.world.escrow.row id) todo) ∨
    (∃ m token i o, Created D c e c' id m token i o) := by
  have hpre := h.worlds.1
  rcases h.storage with ⟨m, todo, hk, hs, heff, -, -⟩ | ⟨hk, hsame, -, -⟩
  · have habout : e.about id = decide (m.op.taskId = some id) := by simp [Event.about, hk]
    have hinput : e.input id = inputAt c.world.escrow.nextTaskId m.op.inputs id := by
      simp [Event.input, hk, hpre]
    rcases heff.row id with ⟨hid, hin, hrow⟩ | ⟨hid, hin, hmove⟩ |
      ⟨token, i, o, hid, hin, hl, hp, hrec, ho, hrow⟩
    · exact .inl ⟨by simp [habout, hid], by rw [hinput, hin], hrow⟩
    · exact .inr (.inl ⟨m, todo, hk, hs, hid, by rw [hinput, hin], hmove⟩)
    · have hn := inputAt_eq_some hin
      have hn' := heff.nextTaskId
      exact .inr (.inr ⟨m, token, i, o, hk, hs, by rw [hinput, hin], hl, hp, hrec, ho, hrow,
        hn.1, by omega⟩)
  · refine .inl ⟨?_, ?_, by rw [hsame]⟩
    · cases hkind : e.kind with
      | called cid m => exact absurd hkind (hk cid m)
      | _ => simp [Event.about, hkind]
    · cases hkind : e.kind with
      | called cid m => exact absurd hkind (hk cid m)
      | _ => simp [Event.input, hkind]

theorem Step.nextTaskId_le (h : Step D c e c') :
    c.world.escrow.nextTaskId ≤ c'.world.escrow.nextTaskId := by
  rcases h.storage with ⟨m, todo, -, -, heff, -, -⟩ | ⟨-, hsame, -, -⟩
  · have := heff.nextTaskId
    omega
  · rw [hsame]

/-- A task below the next id is not created again. -/
theorem Step.input_none (h : Step D c e c') (hid : id < c.world.escrow.nextTaskId) :
    e.input id = none := by
  rcases h.row id with ⟨-, hin, -⟩ | ⟨m, todo, -, -, -, hin, -⟩ | ⟨m, token, i, o, hc⟩
  · exact hin
  · exact hin
  · have := hc.next
    omega

end BlindEscrow
