import BlindMarket.Escrow.Transactions

/-!
# Batch creation

`createTasks` records and announces its tasks in order and pulls their total at
the end. What is told to the registry and the log does not depend on the token
balances, and pulling amounts one by one is pulling their sum, so a batch ends
where creating its tasks one after the other ends, or fails where that fails.
-/
namespace BlindEscrow

open Checked Runs TokenLedger

variable {D : Deployment} {c c' : Config} {e : Event} {w w' : World} {x : Ctx} {s : Escrow}
  {stop : Stop} {l l' todo : List Action} {paid : List Payment} {token sender : Address}
  {tasks : List TaskInput} {i : TaskInput}

/-! ## Notices -/

/-- Events and registry listings: interactions that always succeed and move nothing. -/
def Notice (a : Action) : Prop :=
  (∃ log, a = .emit log) ∨ ∃ id agent category zone amount, a = .publish id agent category zone amount

/-- The registry and the log after some notices. -/
def told (D : Deployment) (w : World) (l : List Action) : TaskRegistry.State × List Log :=
  l.foldl (fun p a => match a with
    | .emit log => (p.1, p.2 ++ [log])
    | .publish taskId agent category locationZone amount =>
      (if registryConnected D w then attempt (TaskRegistry.publishTask D.self w.timestamp taskId
        agent category locationZone amount) p.1 else p.1, p.2)
    | _ => p) (w.registry, w.logs)

/-- The world after some notices. -/
def tell (D : Deployment) (l : List Action) (w : World) : World :=
  { w with registry := (told D w l).1, logs := (told D w l).2 }

theorem told_append (l l' : List Action) (w : World) :
    told D w (l ++ l') = told D (tell D l w) l' :=
  List.foldl_append

theorem tell_append (l l' : List Action) (w : World) : tell D (l ++ l') w = tell D l' (tell D l w) := by
  simp only [tell, told_append]

/-- Notices depend on nothing that a creation changes. -/
theorem told_frame (l : List Action) (s : Escrow) (ledger : Funds) (locked : Bool)
    (hs : s.taskRegistry = w.escrow.taskRegistry) :
    told D { w with escrow := s, ledger, locked } l = told D w l := by
  have hreg : registryConnected D { w with escrow := s, ledger, locked } ↔
      registryConnected D w := by simp only [registryConnected, hs]
  refine congrArg (fun f => List.foldl f (w.registry, w.logs) l) ?_
  funext p a
  cases a with
  | publish id agent category zone amount => simp only [hreg]
  | _ => rfl

theorem act_notice {a : Action} (h : Notice a) : act D a w = .ok (tell D [a] w, [], false) := by
  rcases h with ⟨log, rfl⟩ | ⟨id, agent, category, zone, amount, rfl⟩
  · rfl
  · by_cases hreg : registryConnected D w <;> simp [act, tell, told, hreg]

/-! ## Creating calls to their end -/

theorem settle_append : settle D (l ++ l') w = .ok (w', paid) ↔
    ∃ w₁ paid₁ paid₂, settle D l w = .ok (w₁, paid₁) ∧ settle D l' w₁ = .ok (w', paid₂) ∧
      paid = paid₁ ++ paid₂ := by
  induction l generalizing w w' paid with
  | nil => simp [settle]
  | cons a l ih =>
    simp only [List.cons_append, settle, seq_eq_ok, pure_eq, Except.ok.injEq, Prod.mk.injEq,
      Prod.exists, ih]
    constructor
    · rintro ⟨w₁, paid₁, yields, ha, w₂, paid₂, ⟨w₃, p, p', hl, hl', rfl⟩, rfl, rfl⟩
      exact ⟨w₃, paid₁ ++ p, p', ⟨w₁, paid₁, yields, ha, w₃, p, hl, rfl, rfl⟩, hl', by simp⟩
    · rintro ⟨w₁, paid₁, paid₂, ⟨w₂, p, yields, ha, w₃, p', hl, rfl, rfl⟩, hl', rfl⟩
      exact ⟨w₂, p, yields, ha, w', p' ++ paid₂, ⟨w₃, p', paid₂, hl, hl', rfl⟩, rfl, by simp⟩

theorem settle_notices (h : ∀ a ∈ l, Notice a) : settle D l w = .ok (tell D l w, []) := by
  induction l generalizing w with
  | nil => rfl
  | cons a l ih =>
    simp only [settle, act_notice (h a (by simp)), ok_bind, ih fun b hb => h b (by simp [hb])]
    rfl

/-- One payment among notices: only the transfer can fail. -/
theorem settle_payment {payer : Address} {amount : Nat} (hl : w.locked = false)
    (hpre : ∀ a ∈ l, Notice a) (hpost : ∀ a ∈ l', Notice a) :
    settle D (guarded (l ++ [.pull token payer amount] ++ l')) w = .ok (w', paid) ↔
      paid = [] ∧ ∃ ledger, w.ledger.transferFrom token D.self payer D.self amount = some ledger ∧
        w' = { tell D (l ++ l') w with ledger } := by
  have hsplit : guarded (l ++ [.pull token payer amount] ++ l') =
      (.lock :: l) ++ (.pull token payer amount :: (l' ++ [.unlock])) := by
    simp [guarded]
  have hbegin : settle D (.lock :: l) w = .ok ({ tell D l w with locked := true }, []) := by
    simp only [settle, act, pure_eq, ok_bind, settle_notices hpre, tell,
      told_frame l w.escrow w.ledger true rfl]
    rfl
  have hend : ∀ ledger, settle D (l' ++ [.unlock]) { tell D l w with ledger, locked := true } =
      .ok ({ tell D (l ++ l') w with ledger }, []) := by
    intro ledger
    rw [settle_append]
    refine ⟨_, [], [], settle_notices hpost, ?_, rfl⟩
    have hframe := told_frame (D := D) (w := tell D l w) l' w.escrow ledger true rfl
    simp only [settle, act, pure_eq, ok_bind, tell, told_append, ← hl]
    simp only [tell] at hframe
    rw [hframe]
    rfl
  rw [hsplit, settle_append]
  constructor
  · rintro ⟨w₁, paid₁, paid₂, hfirst, hrest, rfl⟩
    rw [hbegin, Except.ok.injEq, Prod.mk.injEq] at hfirst
    obtain ⟨rfl, rfl⟩ := hfirst
    obtain ⟨w₂, p, yields, p', hpull, hlast, rfl⟩ := settle_cons hrest
    simp only [act, seq_eq_ok, orElse_eq_ok, pure_eq, Except.ok.injEq, Prod.mk.injEq] at hpull
    obtain ⟨ledger, hledger, rfl, rfl, rfl⟩ := hpull
    have hdone := hlast.symm.trans (hend ledger)
    rw [Except.ok.injEq, Prod.mk.injEq] at hdone
    obtain ⟨rfl, rfl⟩ := hdone
    exact ⟨rfl, ledger, hledger, rfl⟩
  · rintro ⟨rfl, ledger, hledger, rfl⟩
    refine ⟨_, _, [], hbegin, ?_, rfl⟩
    have hledger' : (tell D l w).ledger.transferFrom token D.self payer D.self amount =
      some ledger := hledger
    simp only [settle, act, hledger', orElse, pure_eq, ok_bind, hend]
    rfl

theorem notice_verifierEvents (i : TaskInput) (id : Nat) :
    ∀ a ∈ verifierEvents i id, Notice a := by
  unfold verifierEvents
  split <;> simp [Notice]

theorem notice_announceTask (x : Ctx) (token : Address) (i : TaskInput) (id deadline : Nat) :
    ∀ a ∈ announceTask x token i id deadline, Notice a := by
  simp [announceTask, Notice]

theorem notice_announceAll (x : Ctx) (token : Address) (tasks : List TaskInput) (next : Nat) :
    ∀ a ∈ announceAll x token tasks next, Notice a := by
  induction tasks generalizing next with
  | nil => simp [announceAll]
  | cons i tasks ih =>
    intro a ha
    simp only [announceAll, List.mem_append] at ha
    rcases ha with (ha | ha) | ha
    · exact notice_verifierEvents i next a ha
    · exact notice_announceTask x token i next _ a ha
    · exact ih (next + 1) a ha

/-! ## One task -/

/-- The call that creates one task: `createTask` without a verifier of its own. -/
def createOne (token : Address) (i : TaskInput) : Op :=
  if i.verifierAgent = 0 then
    .createTask i.taskHash token i.amount i.category i.locationZone i.duration
  else .createTaskWithVerifier i.taskHash token i.amount i.category i.locationZone i.duration
    i.verifierAgent

theorem enter_createOne (recover : Bytes → Bytes → Option Address) :
    enter recover x (createOne token i) s = createTaskCore x token i s := by
  unfold createOne
  split
  · rename_i h
    rw [enter, createTask, ← h]
  · rfl

/-- What a batch or a single creation leaves behind. -/
def World.created (D : Deployment) (w : World) (sender token : Address) (tasks : List TaskInput)
    (ledger : Funds) : World :=
  { tell D (announceAll ⟨sender, 0, w.timestamp, w.locked⟩ token tasks w.escrow.nextTaskId) w with
    escrow := w.escrow.recordedAll ⟨sender, 0, w.timestamp, w.locked⟩ token tasks
    ledger }

theorem created_of_tell (tasks : List TaskInput) {x : Ctx} {next : Nat} {ledger : Funds}
    (hx : x = ⟨sender, 0, w.timestamp, w.locked⟩) (hn : next = w.escrow.nextTaskId) :
    { tell D (announceAll x token tasks next)
        { w with escrow := w.escrow.recordedAll x token tasks } with ledger } =
      w.created D sender token tasks ledger := by
  subst hx hn
  have hframe := told_frame (D := D) (w := w)
    (announceAll ⟨sender, 0, w.timestamp, w.locked⟩ token tasks w.escrow.nextTaskId)
    (w.escrow.recordedAll ⟨sender, 0, w.timestamp, w.locked⟩ token tasks) w.ledger w.locked
    (recordedAll_same _ _ _ _).1.taskRegistry
  simp only [World.created, tell, hframe]

/-- A token task is created when it passes its checks and its amount can be pulled. -/
theorem createOne_eq_ok (ht : token ≠ 0) :
    transact D ⟨sender, 0, createOne token i⟩ w = .ok (w', paid) ↔
      (w.locked = false ∧ w.escrow.paused = false) ∧
      Recordable ⟨sender, 0, w.timestamp, w.locked⟩ w.escrow token i ∧ paid = [] ∧
      ∃ ledger, w.ledger.transferFrom token D.self sender D.self i.amount = some ledger ∧
        w' = w.created D sender token [i] ledger := by
  have hval : ∀ x : Ctx, x.value = 0 → ValueOk x token i.amount := by
    intro x hx
    simp [ValueOk, ht, hx]
  have hsettle : ∀ {v : World}, v.locked = false → ∀ x : Ctx, x.sender = sender →
      ∀ next, (settle D (guarded (verifierEvents i next ++ paymentOf x token i.amount ++
          announceTask x token i next (x.timestamp + i.duration))) v = .ok (w', paid) ↔
        paid = [] ∧ ∃ ledger, v.ledger.transferFrom token D.self sender D.self i.amount =
          some ledger ∧ w' = { tell D (announceAll x token [i] next) v with ledger }) := by
    intro v hl x hx next
    have hannounce : announceAll x token [i] next =
        verifierEvents i next ++ announceTask x token i next (x.timestamp + i.duration) := by
      simp [announceAll]
    rw [paymentOf, if_neg ht, hx, hannounce]
    exact settle_payment hl (notice_verifierEvents i next) (notice_announceTask x token i next _)
  rw [transact_free]
  simp only [enter_createOne, createTaskCore_eq_ok]
  constructor
  · rintro ⟨s', todo, ⟨hl, hp, hrec, -, rfl, rfl⟩, h⟩
    obtain ⟨rfl, ledger, hledger, rfl⟩ := (hsettle (by exact hl) _ (by rfl) _).mp h
    exact ⟨⟨hl, hp⟩, hrec, rfl, ledger, hledger, created_of_tell [i] rfl rfl⟩
  · rintro ⟨⟨hl, hp⟩, hrec, rfl, ledger, hledger, rfl⟩
    refine ⟨_, _, ⟨hl, hp, hrec, hval _ rfl, rfl, rfl⟩, ?_⟩
    exact (hsettle (by exact hl) _ (by rfl) _).mpr
      ⟨rfl, ledger, hledger, (created_of_tell [i] rfl rfl).symm⟩

/-! ## A batch -/

theorem createTasks_settles :
    transact D ⟨sender, 0, .createTasks token tasks⟩ w = .ok (w', paid) ↔
      (w.locked = false ∧ w.escrow.paused = false) ∧ tasks ≠ [] ∧ tasks.length ≤ MAX_BATCH ∧
      token ≠ 0 ∧
      (∀ i ∈ tasks, Recordable ⟨sender, 0, w.timestamp, w.locked⟩ w.escrow token i) ∧ paid = [] ∧
      ∃ ledger, w.ledger.transferFrom token D.self sender D.self
          (tasks.map TaskInput.amount).sum = some ledger ∧
        w' = w.created D sender token tasks ledger := by
  have hsettle : ∀ {v : World}, v.locked = false → ∀ (x : Ctx) (next : Nat),
      (settle D (guarded (announceAll x token tasks next ++
          [.pull token sender (tasks.map TaskInput.amount).sum])) v = .ok (w', paid) ↔
        paid = [] ∧ ∃ ledger, v.ledger.transferFrom token D.self sender D.self
          (tasks.map TaskInput.amount).sum = some ledger ∧
          w' = { tell D (announceAll x token tasks next) v with ledger }) := by
    intro v hl x next
    have h : settle D (guarded (announceAll x token tasks next ++
        [.pull token sender (tasks.map TaskInput.amount).sum] ++ [])) v = .ok (w', paid) ↔ _ :=
      settle_payment hl (notice_announceAll x token tasks next) (by simp)
    simpa using h
  rw [transact_free]
  simp only [enter, seq_eq_ok, Prod.exists, createTasks_eq_ok, pure_eq, Except.ok.injEq,
    Prod.mk.injEq]
  constructor
  · rintro ⟨s', todo, ⟨_, _, _, ⟨hl, hp, hne, hmax, ht, -, hrec, -, rfl, rfl, rfl⟩, rfl, rfl⟩, h⟩
    obtain ⟨rfl, ledger, hledger, rfl⟩ := (hsettle (by exact hl) _ _).mp h
    exact ⟨⟨hl, hp⟩, hne, hmax, ht, hrec, rfl, ledger, hledger, created_of_tell tasks rfl rfl⟩
  · rintro ⟨⟨hl, hp⟩, hne, hmax, ht, hrec, rfl, ledger, hledger, rfl⟩
    have hsum : (tasks.map TaskInput.amount).sum < word :=
      (Ledger.transferFrom_eq_some.mp hledger).1.trans_lt (w.ledger.bal_lt token sender)
    refine ⟨_, _, ⟨_, _, _, ⟨hl, hp, hne, hmax, ht, trivial, hrec, hsum, rfl, rfl, rfl⟩, rfl, rfl⟩, ?_⟩
    exact (hsettle (by exact hl) _ _).mpr
      ⟨rfl, ledger, hledger, (created_of_tell tasks rfl rfl).symm⟩

/-- Creating the tasks one after the other, each by a call of its own. -/
def createEach (D : Deployment) (sender token : Address) (tasks : List TaskInput) (w : World) :
    Except Revert World :=
  tasks.foldlM (fun w i => do
    let (w, _) ← transact D ⟨sender, 0, createOne token i⟩ w
    return w) w

theorem createEach_cons : createEach D sender token (i :: tasks) w = .ok w' ↔
    ∃ w₁ paid, transact D ⟨sender, 0, createOne token i⟩ w = .ok (w₁, paid) ∧
      createEach D sender token tasks w₁ = .ok w' := by
  simp only [createEach, List.foldlM_cons, seq_eq_ok, pure_eq, Except.ok.injEq, Prod.exists]
  constructor
  · rintro ⟨w₁, ⟨w₂, paid, h, rfl⟩, h'⟩
    exact ⟨w₂, paid, h, h'⟩
  · rintro ⟨w₁, paid, h, h'⟩
    exact ⟨w₁, ⟨w₁, paid, h, rfl⟩, h'⟩

/-- A creation after a creation is a creation of both. -/
theorem created_created (ledger ledger' : Funds) :
    (w.created D sender token [i] ledger).created D sender token tasks ledger' =
      w.created D sender token (i :: tasks) ledger' := by
  have hnotices : announceAll ⟨sender, 0, w.timestamp, w.locked⟩ token (i :: tasks)
        w.escrow.nextTaskId =
      announceAll ⟨sender, 0, w.timestamp, w.locked⟩ token [i] w.escrow.nextTaskId ++
        announceAll ⟨sender, 0, w.timestamp, w.locked⟩ token tasks (w.escrow.nextTaskId + 1) := by
    simp [announceAll]
  have hframe := told_frame (D := D)
    (w := tell D (announceAll ⟨sender, 0, w.timestamp, w.locked⟩ token [i] w.escrow.nextTaskId) w)
    (announceAll ⟨sender, 0, w.timestamp, w.locked⟩ token tasks (w.escrow.nextTaskId + 1))
    (w.escrow.recordedAll ⟨sender, 0, w.timestamp, w.locked⟩ token [i]) ledger w.locked rfl
  have htold := (told_append (D := D)
    (announceAll ⟨sender, 0, w.timestamp, w.locked⟩ token [i] w.escrow.nextTaskId)
    (announceAll ⟨sender, 0, w.timestamp, w.locked⟩ token tasks (w.escrow.nextTaskId + 1))
    w).symm.trans (by rw [← hnotices])
  simp only [World.created, tell] at hframe htold ⊢
  rw [← htold, ← hframe]
  rfl

/-- Creating one after the other is one pull of the total and one list of notices. -/
theorem createEach_eq_ok (ht : token ≠ 0) (hs : sender ≠ D.self) (hl : w.locked = false)
    (hp : w.escrow.paused = false) :
    createEach D sender token tasks w = .ok w' ↔
      (∀ i ∈ tasks, Recordable ⟨sender, 0, w.timestamp, w.locked⟩ w.escrow token i) ∧
      ∃ ledger, w.ledger.transferFrom token D.self sender D.self
          (tasks.map TaskInput.amount).sum = some ledger ∧
        w' = w.created D sender token tasks ledger := by
  induction tasks generalizing w with
  | nil =>
    simp only [createEach, List.foldlM_nil, pure_eq, Except.ok.injEq, List.map_nil, List.sum_nil,
      Ledger.transferFrom_zero, Option.some.injEq, exists_eq_left']
    simp [World.created, tell, told, announceAll, Escrow.recordedAll, eq_comm]
  | cons i tasks ih =>
    have hrest : ∀ ledger, (w.created D sender token [i] ledger).locked = false ∧
        (w.created D sender token [i] ledger).escrow.paused = false := fun _ => ⟨hl, hp⟩
    simp only [createEach_cons, createOne_eq_ok ht, List.forall_mem_cons, List.map_cons,
      List.sum_cons, Ledger.transferFrom_add hs]
    constructor
    · rintro ⟨w₁, paid, ⟨-, hrec, rfl, ledger, hledger, rfl⟩, h⟩
      obtain ⟨hall, ledger', hledger', rfl⟩ := (ih (hrest ledger).1 (hrest ledger).2).mp h
      refine ⟨⟨hrec, fun j hj => recordable_recorded.mp (hall j hj)⟩, ledger', ⟨ledger, hledger,
        hledger'⟩, created_created ledger ledger'⟩
    · rintro ⟨⟨hrec, hall⟩, ledger', ⟨ledger, hledger, hledger'⟩, rfl⟩
      refine ⟨_, [], ⟨⟨hl, hp⟩, hrec, rfl, ledger, hledger, rfl⟩, ?_⟩
      exact (ih (hrest ledger).1 (hrest ledger).2).mpr
        ⟨fun j hj => recordable_recorded.mpr (hall j hj), ledger', hledger',
          (created_created ledger ledger').symm⟩

/-! ## The batch and the sequence -/

theorem drive_settles (h : drive D todo w = .ok stop) (hrest : stop.rest = none) :
    settle D todo w = .ok (stop.world, stop.paid) := by
  induction todo generalizing w stop with
  | nil =>
    rw [drive_nil h]
    rfl
  | cons a todo ih =>
    obtain ⟨w₁, paid, yields, ha, ⟨-, rfl⟩ | ⟨-, stop', hd, rfl⟩⟩ := drive_cons h
    · cases hrest
    · simp only [settle, ha, ok_bind, ih hd hrest]
      rfl

/-- A call about no task runs to its end at once. -/
theorem begin_settles {m : Msg} (hop : m.op.taskId = none) (h : begin D m w = .ok stop) :
    stop.rest = none ∧ transact D m w = .ok (stop.world, stop.paid) := by
  obtain ⟨ledger, s', todo, hledger, hpay, henter, heff, hdrive, -⟩ := begin_ok h
  obtain ⟨hdues, hpaid, -⟩ := drive_books hdrive
  rw [heff.dues_none hop] at hdues
  simp only [List.nil_eq, List.append_eq_nil_iff, List.map_eq_nil_iff] at hdues
  have hrest : stop.rest = none := by_contra fun hr => hpaid hr hdues.1
  refine ⟨hrest, ?_⟩
  simp only [transact, require_pos hpay, ok_bind, hledger, orElse, henter,
    drive_settles hdrive hrest]

/-- `createTasks` is the atomic fold of single creation. It succeeds exactly when creating its tasks
one after the other would, and then leaves the same world: escrow storage, registry, balances,
allowances and events. Its ids are consecutive from the returned one. In a run, any such call is a
step to that world, so where the sequence fails there is no step at all. -/
theorem create_tasks_fold (hs : Sender D sender) (ht : token ≠ 0) (h0 : tasks ≠ [])
    (hmax : tasks.length ≤ MAX_BATCH) (w : World) :
    (∀ w' : World, (∃ paid, transact D ⟨sender, 0, .createTasks token tasks⟩ w = .ok (w', paid)) ↔
      createEach D sender token tasks w = .ok w') ∧
    (∀ first s' todo, createTasks ⟨sender, 0, w.timestamp, w.locked⟩ token tasks w.escrow =
        .ok (first, s', todo) →
      s'.nextTaskId = first + tasks.length ∧ ∀ k i, tasks[k]? = some i →
        s'.row (first + k) = newRow ⟨sender, 0, w.timestamp, w.locked⟩ token i w.escrow.pausedTotal
          (w.escrow.row (first + k))) ∧
    ∀ c e c' cid, c.world = w → Step D c e c' →
      e.kind = .called cid ⟨sender, 0, .createTasks token tasks⟩ →
      createEach D sender token tasks w = .ok c'.world ∧ c'.stack = c.stack := by
  have hfold : ∀ w' : World,
      (∃ paid, transact D ⟨sender, 0, .createTasks token tasks⟩ w = .ok (w', paid)) ↔
        createEach D sender token tasks w = .ok w' := by
    intro w'
    simp only [createTasks_settles]
    constructor
    · rintro ⟨paid, ⟨hl, hp⟩, -, -, -, hrec, -, hledger⟩
      exact (createEach_eq_ok ht hs.2 hl hp).mpr ⟨hrec, hledger⟩
    · intro h
      have hready : w.locked = false ∧ w.escrow.paused = false := by
        obtain ⟨i, rest, rfl⟩ := List.exists_cons_of_ne_nil h0
        obtain ⟨w₁, paid, hone, -⟩ := createEach_cons.mp h
        exact ((createOne_eq_ok ht).mp hone).1
      obtain ⟨hrec, hledger⟩ := (createEach_eq_ok ht hs.2 hready.1 hready.2).mp h
      exact ⟨[], hready, h0, hmax, ht, hrec, rfl, hledger⟩
  refine ⟨hfold, ?_, ?_⟩
  · intro first s' todo h
    obtain ⟨-, -, -, -, -, -, -, -, rfl, rfl, -⟩ := createTasks_eq_ok.mp h
    refine ⟨(recordedAll_same _ _ _ _).2.2, ?_⟩
    intro k i hk
    have hi : inputAt w.escrow.nextTaskId tasks (w.escrow.nextTaskId + k) = some i := by
      simp [inputAt, hk]
    rw [recordedAll_row, hi]
  · intro c e c' cid hw hstep hk
    subst hw
    cases hstep with
    | call m stop hsender hbegin =>
      obtain ⟨-, rfl⟩ := (Kind.called.injEq _ _ _ _).mp hk
      obtain ⟨hrest, htransact⟩ := begin_settles rfl hbegin
      exact ⟨(hfold _).mp ⟨_, htransact⟩, by simp [hrest, suspend]⟩
    | _ => cases hk

/-- A world in which 10 may spend 900 of token 5 on tasks. -/
def approvedWorld : World :=
  let w := (demoStart (10 ^ 24) demoSupply_lt).world
  { w with
    escrow := { w.escrow with allowedTokens := fun token => token = 5 }
    ledger := w.ledger.approve 5 10 100 900 }

/-- Two tasks whose total is the whole allowance, the second with a verifier of its own. -/
def twoTasks : List TaskInput :=
  [⟨7, 400, "delivery", "north", 7200, 0⟩, ⟨7, 500, "delivery", "north", 7200, 11⟩]

theorem create_tasks_fold_twoTasks :
    ∃ w' paid, transact demo ⟨10, 0, .createTasks 5 twoTasks⟩ approvedWorld = .ok (w', paid) ∧
      createEach demo 10 5 twoTasks approvedWorld = .ok w' := by
  have hfold := (create_tasks_fold (show Sender demo 10 from ⟨by decide, by decide⟩)
    (show (5 : Address) ≠ 0 by decide) (show twoTasks ≠ [] by decide) (by decide) approvedWorld).1
  have hok : (createEach demo 10 5 twoTasks approvedWorld).toBool = true := by decide
  cases heach : createEach demo 10 5 twoTasks approvedWorld with
  | error e =>
    rw [heach] at hok
    cases hok
  | ok w' =>
    obtain ⟨paid, h⟩ := (hfold w').mpr heach
    exact ⟨w', paid, h, rfl⟩

end BlindEscrow
