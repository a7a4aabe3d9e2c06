import BlindMarket.AgentRunner.CrashMemory
import BlindMarket.AgentRunner.Workers

/-!
# Crashes in a run

What is remembered of an agent's crashes is what its exits, stops and finished
tasks have left; a crash is charged to the task that its worker had in hand; and
restarts are granted five in ten minutes.
-/
namespace AgentRunner

open Async Prog Runs

variable {config : Config} {r : Runner} {c : Cmd} {id : AgentId} {s s' s₀ : State} {tr : List Ev}
  {pool : Pool Ans Failure Unit Call State}

/-! ## The memory -/

/-- The task in flight on record. -/
def Runner.inFlight (r : Runner) (id : AgentId) : Option Task := (r.inFlightTasks.lookup id).join

def Runner.uptime (r : Runner) (child : Nat) : Nat :=
  r.now - (r.children[child]?.map Child.startedAt).getD 0

/-- What an event says of an agent's crashes. -/
def noteOf (id : AgentId) (e : Ev) : Option Note :=
  match e.label with
  | .ran _ (.stop id') _ => if id' = id then some .stopped else none
  | .ran _ (.settle id' child true _) _ =>
    if id' = id then some (.crashed (e.pre.runner.inFlight id) (e.pre.runner.uptime child)) else none
  | .ran _ (.taskFinished id' child task true) _ =>
    if id' = id ∧ e.pre.runner.processes.lookup id = some child then some (.completed task)
    else none
  | _ => none

def notes (id : AgentId) (tr : List Ev) : List Note := tr.filterMap (noteOf id)

/-- The records of crashes, restarts and tasks are left as they are. -/
structure SameBooks (r r' : Runner) : Prop where
  crashMemory : r'.crashMemory = r.crashMemory
  restartTimes : r'.restartTimes = r.restartTimes
  inFlightTasks : r'.inFlightTasks = r.inFlightTasks
  timers : r'.timers = r.timers
  now : r'.now = r.now

/-- The commands that write the records. -/
def Cmd.Records : Cmd → Prop
  | .tryStart _ | .fork _ | .stop _ | .settle _ _ _ _ | .taskStarted _ _ _ | .taskFinished _ _ _ _ =>
    True
  | _ => False

theorem drop_books (r : Runner) (id : AgentId) : SameBooks r (r.drop id) := by
  unfold Runner.drop
  split <;> exact ⟨rfl, rfl, rfl, rfl, rfl⟩

theorem act_books (config : Config) (r : Runner) (h : ¬ c.Records) :
    SameBooks r (r.act config c) := by
  cases c with
  | tryStart | fork | stop | settle | taskStarted | taskFinished => exact absurd trivial h
  | signal id suspended =>
    simp only [Runner.act, Runner.signal]
    split <;> exact ⟨rfl, rfl, rfl, rfl, rfl⟩
  | evict id child =>
    simp only [Runner.act, Runner.evict]
    split <;> exact ⟨rfl, rfl, rfl, rfl, rfl⟩
  | _ => exact ⟨rfl, rfl, rfl, rfl, rfl⟩

theorem fork_kept (r : Runner) (agent : DeployedAgent) :
    (r.fork agent).2.crashMemory = r.crashMemory ∧
      (r.fork agent).2.restartTimes = r.restartTimes ∧ (r.fork agent).2.timers = r.timers ∧
      (r.fork agent).2.now = r.now ∧
      (r.fork agent).2.inFlightTasks = setKey agent.id none r.inFlightTasks := by
  unfold Runner.fork
  simp only
  split <;> exact ⟨rfl, rfl, rfl, rfl, rfl⟩

theorem tryStart_cases (config : Config) (r : Runner) (agent : DeployedAgent) :
    (r.tryStart config agent).2 = r ∧ (∀ kept, (r.tryStart config agent).1 ≠ .forked kept) ∨
      (r.tryStart config agent).2 = (r.fork agent).2 ∧
        (r.tryStart config agent).1 = .forked (r.fork agent).1 := by
  unfold Runner.tryStart
  split
  · exact .inl ⟨rfl, by simp⟩
  · split
    · exact .inl ⟨rfl, by simp⟩
    · split
      · exact .inr ⟨rfl, rfl⟩
      · split <;> exact .inl ⟨rfl, by simp⟩

theorem tryStart_kept (config : Config) (r : Runner) (agent : DeployedAgent) :
    (r.tryStart config agent).2.crashMemory = r.crashMemory ∧
      (r.tryStart config agent).2.restartTimes = r.restartTimes ∧
      (r.tryStart config agent).2.timers = r.timers ∧ (r.tryStart config agent).2.now = r.now := by
  obtain ⟨hm, hr, ht, hn, -⟩ := fork_kept r agent
  rcases tryStart_cases config r agent with h | h
  · rw [h.1]
    exact ⟨rfl, rfl, rfl, rfl⟩
  · rw [h.1]
    exact ⟨hm, hr, ht, hn⟩

theorem settle_memory (r : Runner) (id' : AgentId) (child : Nat) (crashed running : Bool) :
    (r.settle id' child crashed running).2.crashMemory =
      if crashed then setKey id' (recordCrash (r.crashMemory.lookup id') (r.inFlight id')
        (r.uptime child)) r.crashMemory else r.crashMemory := by
  cases crashed with
  | false => rfl
  | true =>
    cases running with
    | false => rfl
    | true =>
      simp only [Runner.settle, Runner.canAutoRestart, Bool.and_self, if_true]
      split
      · next heq =>
        split at heq
        · cases heq
        · cases heq
          rfl
      · next heq =>
        split at heq
        · cases heq
          rfl
        · cases heq

theorem taskFinished_memory (r : Runner) (id' : AgentId) (child : Nat) (task : Task) :
    (r.taskFinished id' child task true).crashMemory.lookup id =
      if id' = id ∧ r.processes.lookup id = some child then
        recordTaskCompleted (r.crashMemory.lookup id) task
      else r.crashMemory.lookup id := by
  unfold Runner.taskFinished
  by_cases hn : r.processes.lookup id' = some child
  · rw [if_pos hn]
    have hmid : (if r.inFlightTasks.lookup id' = some (some task) then
        { r with inFlightTasks := setKey id' none r.inFlightTasks } else r).crashMemory =
          r.crashMemory := by
      split <;> rfl
    simp only
    split
    · next next _ heq =>
      rw [hmid] at heq
      simp only [hmid, lookup_setKey]
      by_cases h : id' = id
      · subst h
        simp [hn, heq]
      · simp [h, Ne.symm h]
    · next hnone =>
      rw [hmid] at hnone ⊢
      by_cases h : id' = id
      · subst h
        rw [if_pos ⟨rfl, hn⟩]
        cases hm : r.crashMemory.lookup id' with
        | none => rfl
        | some memory =>
          rw [hm] at hnone
          exact absurd rfl (hnone _ rfl)
      · rw [if_neg fun hboth => h hboth.1]
  · rw [if_neg hn, if_neg]
    rintro ⟨rfl, hlookup⟩
    exact hn hlookup

theorem noteOf_other (h : ¬ c.Records) (t : Call) (ans : Except Failure (Ans c)) :
    noteOf id ⟨.ran t c ans, s, s'⟩ = none := by
  cases c with
  | stop | settle | taskFinished => exact absurd trivial h
  | _ => rfl

/-- A command leaves the memory that its note makes of it. -/
theorem act_memory (config : Config) (s s' : State) (t : Call) (ans : Except Failure (Ans c)) :
    (s.runner.act config c).crashMemory.lookup id =
      (noteOf id ⟨.ran t c ans, s, s'⟩).elim (s.runner.crashMemory.lookup id)
        fun note => note.write (s.runner.crashMemory.lookup id) := by
  by_cases hrec : c.Records
  swap
  · rw [(act_books config _ hrec).crashMemory, noteOf_other hrec]
    rfl
  cases c with
  | tryStart agent =>
    rw [Runner.act, (tryStart_kept _ _ _).1]
    rfl
  | fork agent =>
    rw [Runner.act, (fork_kept _ _).1]
    rfl
  | stop id' =>
    simp only [Runner.act, Runner.stop, (drop_books _ _).crashMemory, lookup_deleteKey, noteOf]
    by_cases h : id' = id
    · simp [h, Note.write]
    · simp [h, Ne.symm h]
  | settle id' child crashed running =>
    rw [Runner.act, settle_memory]
    cases crashed with
    | false => rfl
    | true =>
      simp only [if_true, lookup_setKey, noteOf]
      by_cases h : id' = id
      · simp [h, Note.write]
      · simp [h, Ne.symm h]
  | taskStarted id' child task =>
    simp only [Runner.act, Runner.taskStarted]
    split <;> rfl
  | taskFinished id' child task completed =>
    cases completed with
    | false =>
      simp only [Runner.act, Runner.taskFinished]
      split
      · split <;> rfl
      · rfl
    | true =>
      rw [Runner.act, taskFinished_memory, noteOf]
      simp only
      split <;> rfl
  | _ => exact hrec.elim

/-- What is remembered of an agent's crashes is what its notes make. -/
theorem memory_run (h : PoolRun (service config) ⟨s₀, []⟩ tr pool) (h₀ : Fresh s₀) :
    pool.state.runner.crashMemory.lookup id = remember (notes id tr) := by
  refine Run.invariant
    (I := fun tr c => c.state.runner.crashMemory.lookup id = remember (notes id tr)) h ?_ ?_
  · rw [h₀.crashMemory]
    rfl
  · intro tr b e c _ hb hs
    cases hs with
    | @run s s' l₁ l₂ t cmd k ans hx =>
      obtain ⟨x, hx⟩ := hx
      simp only at hb ⊢
      rw [respond_runner hx, act_memory config s s' t ans, hb, notes, notes,
        List.filterMap_cons]
      cases noteOf id ⟨.ran t cmd ans, s, s'⟩ <;> rfl
    | start l t p hx =>
      obtain ⟨-, -, s₁, harises, rfl⟩ := hx
      obtain ⟨hrunner, -⟩ := harises.runner
      simp only
      rw [hrunner]
      exact hb
    | finish l₁ l₂ t ans => exact hb
    | env l hx =>
      obtain ⟨rows, children, now, slotsFree, writes, -, -, rfl⟩ := hx
      exact hb
    | die l₁ l₂ t p hx =>
      cases hx
      exact hb

/-- A worker that is forked now is told to leave a task alone exactly if two crashes are charged to
the task, or three in a row to none; for as long as no more than twenty tasks crashed. -/
theorem poison_withheld (h : PoolRun (service config) ⟨s₀, []⟩ tr pool) (h₀ : Fresh s₀)
    (hfew : (blamed (notes id tr)).card ≤ maxTrackedCrashTasks) (task : Task) :
    (CrashMemory.skipReason (pool.state.runner.crashMemory.lookup id) task).isSome = true ↔
      taskCrashLimit ≤ crashesSince task (notes id tr) ∨
        crashRestartLimit ≤ streak (notes id tr) ∧
          ∀ other, crashesSince other (notes id tr) < taskCrashLimit := by
  rw [memory_run h h₀]
  exact withheld_iff _ task hfew

theorem poison_withheld_crashes :
    (CrashMemory.skipReason (crashesRun.2.state.runner.crashMemory.lookup 1) "0xa1").isSome = true ↔
      taskCrashLimit ≤ crashesSince "0xa1" (notes 1 crashesRun.1) ∨
        crashRestartLimit ≤ streak (notes 1 crashesRun.1) ∧
          ∀ other, crashesSince other (notes 1 crashesRun.1) < taskCrashLimit :=
  poison_withheld crashes_run demoState_fresh (by decide) "0xa1"

/-! ## Restarts -/

/-- When restarts of an agent were granted since it was last stopped or given up, newest first. -/
def grants (id : AgentId) : List Ev → List Nat
  | [] => []
  | e :: tr =>
    match e.label with
    | .ran _ (.stop id') _ => if id' = id then [] else grants id tr
    | .ran _ (.settle id' _ _ _) (.ok .restarting) =>
      if id' = id then e.pre.runner.now :: grants id tr else grants id tr
    | .ran _ (.settle id' _ _ _) (.ok .looped) => if id' = id then [] else grants id tr
    | _ => grants id tr

/-- The times within the window. -/
def recent (now : Nat) (times : List Nat) : List Nat :=
  times.filter fun t => now - t < restartWindowMs

theorem recent_later {now now' : Nat} (h : now ≤ now') (times : List Nat) :
    recent now' (recent now times) = recent now' times := by
  rw [recent, recent, recent, List.filter_filter]
  refine List.filter_congr fun t _ => ?_
  simp only [Bool.and_eq_left_iff_imp, decide_eq_true_eq]
  omega

theorem length_recent_later {now now' : Nat} (h : now ≤ now') (times : List Nat) :
    (recent now' times).length ≤ (recent now times).length := by
  rw [← recent_later h]
  exact List.length_filter_le _ _

def Runner.restarts (r : Runner) (id : AgentId) : List Nat := (r.restartTimes.lookup id).getD []

theorem canAutoRestart_granted {r r' : Runner} (h : r.canAutoRestart id = (true, r')) :
    (recent r.now (r.restarts id)).length < maxRestartsInWindow ∧ r' = { r with
      restartTimes := setKey id (recent r.now (r.restarts id) ++ [r.now]) r.restartTimes } := by
  unfold Runner.canAutoRestart at h
  simp only at h
  split at h
  · cases h
  · next hfew =>
    cases h
    exact ⟨Nat.lt_of_not_le hfew, rfl⟩

theorem canAutoRestart_denied {r r' : Runner} (h : r.canAutoRestart id = (false, r')) :
    r' = { r with restartTimes := setKey id (recent r.now (r.restarts id)) r.restartTimes } := by
  unfold Runner.canAutoRestart at h
  simp only at h
  split at h
  · cases h
    rfl
  · cases h

/-- How an exit is settled: restarted, given up or left. -/
theorem settle_cases (r : Runner) (id' : AgentId) (child : Nat) (crashed running : Bool) :
    (r.settle id' child crashed running).1 = .restarting ∧
        (recent r.now (r.restarts id')).length < maxRestartsInWindow ∧
        (r.settle id' child crashed running).2.restartTimes =
          setKey id' (recent r.now (r.restarts id') ++ [r.now]) r.restartTimes ∧
        (r.settle id' child crashed running).2.timers = id' :: r.timers ∨
      (r.settle id' child crashed running).1 = .looped ∧
        (∀ id, (r.settle id' child crashed running).2.restartTimes.lookup id =
          if id = id' then none else r.restartTimes.lookup id) ∧
        (r.settle id' child crashed running).2.timers = r.timers ∨
      (r.settle id' child crashed running).1 = .ended ∧
        (r.settle id' child crashed running).2.restartTimes = r.restartTimes ∧
        (r.settle id' child crashed running).2.timers = r.timers := by
  cases crashed with
  | false => exact .inr (.inr ⟨rfl, rfl, rfl⟩)
  | true =>
    cases running with
    | false => exact .inr (.inr ⟨rfl, rfl, rfl⟩)
    | true =>
      simp only [Runner.settle, Bool.and_self, if_true]
      split
      · next r' heq =>
        obtain ⟨hfew, rfl⟩ := canAutoRestart_granted heq
        exact .inl ⟨rfl, hfew, rfl, rfl⟩
      · next r' heq =>
        obtain rfl := canAutoRestart_denied heq
        refine .inr (.inl ⟨rfl, fun id => ?_, rfl⟩)
        rw [lookup_deleteKey, lookup_setKey]
        split <;> rfl

theorem settle_rest (r : Runner) (id' : AgentId) (child : Nat) (crashed running : Bool) :
    (r.settle id' child crashed running).2.now = r.now ∧
      (r.settle id' child crashed running).2.inFlightTasks = deleteKey r.inFlightTasks id' := by
  cases crashed with
  | false => exact ⟨rfl, rfl⟩
  | true =>
    cases running with
    | false => exact ⟨rfl, rfl⟩
    | true =>
      simp only [Runner.settle, Bool.and_self, if_true]
      split
      · next r' heq =>
        obtain ⟨-, rfl⟩ := canAutoRestart_granted heq
        exact ⟨rfl, rfl⟩
      · next r' heq =>
        obtain rfl := canAutoRestart_denied heq
        exact ⟨rfl, rfl⟩

/-- The restarts of an agent that were granted in all. -/
def granted (id : AgentId) (tr : List Ev) : Nat :=
  tr.countP fun e => match e.label with
    | .ran _ (.settle id' _ _ _) (.ok .restarting) => id' = id
    | _ => false

/-- The restarts of an agent whose delay has passed. -/
def fired (id : AgentId) (tr : List Ev) : Nat :=
  tr.countP fun e => match e.label with
    | .started t => t.occasion = .timer id
    | _ => false

/-- Of the restarts of an agent no more than five were granted in the last ten minutes, and each that
is tried was granted. -/
structure Paced (id : AgentId) (tr : List Ev) (r : Runner) : Prop where
  few : (recent r.now (grants id tr)).length ≤ maxRestartsInWindow
  granted : fired id tr + r.timers.count id = AgentRunner.granted id tr

/-- What a command does to the restarts of an agent that are on record. -/
inductive Granting (id : AgentId) (tr : List Ev) (e : Ev) (r' : Runner) : Prop
  | kept (hr : r'.restarts id = e.pre.runner.restarts id)
      (ht : r'.timers.count id = e.pre.runner.timers.count id)
      (hgrants : grants id (e :: tr) = grants id tr) (hgranted : granted id (e :: tr) = granted id tr)
  | cleared (hr : r'.restarts id = []) (ht : r'.timers = e.pre.runner.timers)
      (hgrants : grants id (e :: tr) = []) (hgranted : granted id (e :: tr) = granted id tr)
  | granted (hfew : (recent e.pre.runner.now (e.pre.runner.restarts id)).length < maxRestartsInWindow)
      (hr : r'.restarts id =
        recent e.pre.runner.now (e.pre.runner.restarts id) ++ [e.pre.runner.now])
      (ht : r'.timers = id :: e.pre.runner.timers)
      (hgrants : grants id (e :: tr) = e.pre.runner.now :: grants id tr)
      (hgranted : granted id (e :: tr) = AgentRunner.granted id tr + 1)

theorem act_now (config : Config) (r : Runner) (c : Cmd) : (r.act config c).now = r.now := by
  by_cases hrec : c.Records
  swap
  · exact (act_books config r hrec).now
  cases c with
  | tryStart agent => exact (tryStart_kept config r agent).2.2.2
  | fork agent => exact (fork_kept r agent).2.2.2.1
  | stop id' => exact (drop_books r id').now
  | settle id' child crashed running => exact (settle_rest r id' child crashed running).1
  | taskStarted id' child task =>
    simp only [Runner.act, Runner.taskStarted]
    split <;> rfl
  | taskFinished id' child task completed =>
    simp only [Runner.act, Runner.taskFinished]
    split
    · split <;> split <;> rfl
    · rfl
  | _ => exact hrec.elim

theorem granting_other {r' : Runner} {t : Call} {ans : Except Failure (Ans c)}
    (hr : r'.restartTimes = s.runner.restartTimes) (ht : r'.timers = s.runner.timers)
    (hstop : ∀ id', c ≠ .stop id') (hsettle : ∀ id' n crashed running, c ≠ .settle id' n crashed running) :
    Granting id tr ⟨.ran t c ans, s, s'⟩ r' := by
  refine .kept (by rw [Runner.restarts, hr]; rfl) (by rw [ht]) ?_ ?_
  · cases c with
    | stop id' => exact absurd rfl (hstop id')
    | settle id' n crashed running => exact absurd rfl (hsettle id' n crashed running)
    | _ => rfl
  · rw [granted, List.countP_cons_of_neg]
    · rfl
    · cases c with
      | settle id' n crashed running => exact absurd rfl (hsettle id' n crashed running)
      | _ => simp

theorem respond_granting {t : Call} {x : Reply} {ans : Except Failure (Ans c)}
    (h : respond config x s c = (ans, s')) :
    Granting id tr ⟨.ran t c ans, s, s'⟩ s'.runner := by
  rw [respond_runner h]
  by_cases hrec : c.Records
  swap
  · have hbooks := act_books config s.runner hrec
    refine granting_other hbooks.restartTimes hbooks.timers ?_ ?_
    · rintro id' rfl
      exact hrec trivial
    · rintro id' n crashed running rfl
      exact hrec trivial
  cases c with
  | tryStart agent =>
    obtain ⟨-, hr, ht, -⟩ := tryStart_kept config s.runner agent
    exact granting_other hr ht (by simp) (by simp)
  | fork agent =>
    obtain ⟨-, hr, ht, -⟩ := fork_kept s.runner agent
    exact granting_other hr ht (by simp) (by simp)
  | taskStarted id' child task =>
    simp only [Runner.act, Runner.taskStarted]
    split <;> exact granting_other rfl rfl (by simp) (by simp)
  | taskFinished id' child task completed =>
    simp only [Runner.act, Runner.taskFinished]
    split
    · split <;> split <;> exact granting_other rfl rfl (by simp) (by simp)
    · exact granting_other rfl rfl (by simp) (by simp)
  | stop id' =>
    have hgranted : granted id (⟨.ran t (.stop id') ans, s, s'⟩ :: tr) = granted id tr := rfl
    by_cases hid : id' = id
    · subst hid
      refine .cleared ?_ (drop_books _ _).timers (by simp [grants]) hgranted
      simp [Runner.restarts, Runner.act, Runner.stop, lookup_deleteKey]
    · refine .kept ?_ ?_ (by simp [grants, hid]) hgranted
      · simp [Runner.restarts, Runner.act, Runner.stop, lookup_deleteKey, Ne.symm hid,
          (drop_books _ _).restartTimes]
      · simp [Runner.act, Runner.stop, (drop_books _ _).timers]
  | settle id' child crashed running =>
    have hans : ans = .ok (s.runner.settle id' child crashed running).1 := (Prod.mk.inj h).1.symm
    subst hans
    rw [Runner.act]
    rcases settle_cases s.runner id' child crashed running with
      ⟨ha, hfew, hr, ht⟩ | ⟨ha, hr, ht⟩ | ⟨ha, hr, ht⟩
    · rw [ha]
      by_cases hid : id' = id
      · subst hid
        refine .granted hfew (by simp [Runner.restarts, hr, lookup_setKey]) ht (by simp [grants]) ?_
        rw [granted, List.countP_cons_of_pos (by simp)]
        rfl
      · refine .kept (by simp [Runner.restarts, hr, lookup_setKey, Ne.symm hid]) ?_
          (by simp [grants, hid]) ?_
        · rw [ht, List.count_cons_of_ne hid]
        · rw [granted, List.countP_cons_of_neg (by simpa using hid)]
          rfl
    · rw [ha]
      by_cases hid : id' = id
      · subst hid
        exact .cleared (by simp [Runner.restarts, hr]) ht (by simp [grants]) rfl
      · exact .kept (by simp [Runner.restarts, hr, Ne.symm hid]) (by rw [ht]) (by simp [grants, hid])
          rfl
    · rw [ha]
      exact .kept (by rw [Runner.restarts, hr]; rfl) (by rw [ht]) rfl rfl
  | _ => exact hrec.elim

/-- The grants within the window are the ones on record, and no more than five. -/
structure Recorded (now : Nat) (given times : List Nat) : Prop where
  same : recent now given = (recent now times).reverse
  few : (recent now given).length ≤ maxRestartsInWindow

theorem Recorded.later {now now' : Nat} {given times : List Nat} (h : Recorded now given times)
    (hnow : now ≤ now') : Recorded now' given times where
  same := by
    rw [← recent_later hnow given, h.same, ← recent_later hnow times]
    exact List.filter_reverse
  few := (length_recent_later hnow _).trans h.few

theorem Recorded.grant {now : Nat} {given times : List Nat} (h : Recorded now given times)
    (hfew : (recent now times).length < maxRestartsInWindow) :
    Recorded now (now :: given) (recent now times ++ [now]) := by
  have hnow : recent now (now :: given) = now :: recent now given := by
    simp [recent, restartWindowMs]
  have htimes : recent now (recent now times ++ [now]) = recent now times ++ [now] := by
    rw [recent, List.filter_append]
    congr 1
    · exact recent_later le_rfl times
    · simp [restartWindowMs]
  constructor
  · rw [hnow, htimes, h.same, List.reverse_append]
    rfl
  · rw [hnow, h.same, List.length_cons, List.length_reverse]
    exact hfew

theorem Occasion.Arises.timers {o : Occasion} (h : o.Arises s s') (id : AgentId) :
    (if o = .timer id then 1 else 0) + s'.runner.timers.count id = s.runner.timers.count id := by
  cases o with
  | timer id' =>
    obtain ⟨hmem, rfl⟩ := h
    simp only [Occasion.timer.injEq]
    by_cases hid : id' = id
    · subst hid
      rw [if_pos rfl, List.count_erase_self]
      have hpos := List.count_pos_iff.2 hmem
      omega
    · rw [if_neg hid, List.count_erase_of_ne (Ne.symm hid), Nat.zero_add]
  | exit | error =>
    obtain ⟨rfl, -⟩ := h
    simp
  | reap =>
    obtain ⟨rfl, -⟩ := h
    simp
  | _ =>
    obtain rfl := h
    simp

/-- In any run an agent's restarts are granted five in ten minutes. -/
theorem restarts_paced (h : PoolRun (service config) ⟨s₀, []⟩ tr pool) (h₀ : Fresh s₀) :
    Paced id tr pool.state.runner := by
  have hinv := Run.invariant (I := fun tr c =>
    Recorded c.state.runner.now (grants id tr) (c.state.runner.restarts id) ∧
      fired id tr + c.state.runner.timers.count id = granted id tr) h ⟨?_, ?_⟩ ?_
  · exact ⟨hinv.1.few, hinv.2⟩
  · rw [Runner.restarts, h₀.restartTimes]
    exact ⟨rfl, Nat.zero_le _⟩
  · rw [h₀.timers]
    rfl
  · intro tr b e c _ hb hs
    obtain ⟨hrecorded, hcount⟩ := hb
    cases hs with
    | @run s s' l₁ l₂ t cmd k ans hx =>
      obtain ⟨x, hx⟩ := hx
      have hnow : s'.runner.now = s.runner.now := by rw [respond_runner hx, act_now]
      have hfired : fired id (⟨.ran t cmd ans, s, s'⟩ :: tr) = fired id tr := rfl
      have hgranting : Granting id tr ⟨.ran t cmd ans, s, s'⟩ s'.runner := respond_granting hx
      simp only at hrecorded hcount ⊢
      rw [hnow, hfired]
      cases hgranting with
      | kept hr ht hgrants hgranted =>
        rw [hgrants, hgranted, hr, ht]
        exact ⟨hrecorded, hcount⟩
      | cleared hr ht hgrants hgranted =>
        rw [hgrants, hgranted, hr, ht]
        exact ⟨⟨rfl, Nat.zero_le _⟩, hcount⟩
      | granted hfew hr ht hgrants hgranted =>
        rw [hgrants, hgranted, hr, ht, List.count_cons_self]
        exact ⟨hrecorded.grant hfew, congrArg Nat.succ hcount⟩
    | @start s s' l t p hx =>
      obtain ⟨-, -, s₁, harises, rfl⟩ := hx
      have htimers := harises.timers id
      obtain ⟨hrunner, -⟩ := harises.runner
      simp only at hrecorded hcount ⊢
      have hfired : fired id (⟨.started t, s, { s₁ with calls := s.calls + 1 }⟩ :: tr) =
          (if t.occasion = .timer id then 1 else 0) + fired id tr := by
        rw [fired, List.countP_cons, Nat.add_comm]
        simp [fired]
      rw [hfired]
      refine ⟨?_, ?_⟩
      · rw [hrunner]
        exact hrecorded
      · have hgranted : granted id (⟨.started t, s, { s₁ with calls := s.calls + 1 }⟩ :: tr) =
            granted id tr := rfl
        rw [hgranted]
        omega
    | finish l₁ l₂ t ans => exact ⟨hrecorded, hcount⟩
    | env l hx =>
      obtain ⟨rows, children, now, slotsFree, writes, hnow, -, rfl⟩ := hx
      exact ⟨hrecorded.later hnow, hcount⟩
    | die l₁ l₂ t p hx =>
      cases hx
      exact ⟨hrecorded, hcount⟩

theorem restarts_paced_crashes : Paced 1 crashesRun.1 crashesRun.2.state.runner :=
  restarts_paced crashes_run demoState_fresh

/-! ## Blame -/

/-- The event forks worker `n`, and the agent has it. -/
def Forks (id : AgentId) (n : Nat) (e : Ev) : Prop :=
  e.pre.runner.children.length = n ∧ e.post.runner.processes.lookup id = some n

/-- The event forks no worker of the agent, does not stop it and settles no exit of it. -/
def quiet (id : AgentId) (e : Ev) : Bool :=
  match e.label with
  | .ran _ (.tryStart a) (.ok (.forked _)) => a.id ≠ id
  | .ran _ (.fork a) _ => a.id ≠ id
  | .ran _ (.stop id') _ => id' ≠ id
  | .ran _ (.settle id' _ _ _) _ => id' ≠ id
  | _ => true

/-- The task that worker `n` last said it had begun, unless it said that it was done with it; what it
says after it has left the map is not heard. -/
def inHand (id : AgentId) (n : Nat) : List Ev → Option Task
  | [] => none
  | e :: tr =>
    match e.label with
    | .ran _ (.taskStarted id' n' task) _ =>
      if id' = id ∧ n' = n ∧ e.pre.runner.processes.lookup id = some n then some task
      else inHand id n tr
    | .ran _ (.taskFinished id' n' task _) _ =>
      if (id' = id ∧ n' = n ∧ e.pre.runner.processes.lookup id = some n) ∧
          inHand id n tr = some task then none
      else inHand id n tr
    | _ => inHand id n tr

theorem inFlight_setKey (r : Runner) (id id' : AgentId) (task : Option Task) :
    Runner.inFlight { r with inFlightTasks := setKey id' task r.inFlightTasks } id =
      if id = id' then task else r.inFlight id := by
  rw [Runner.inFlight, lookup_setKey]
  split <;> rfl

/-- A quiet event gives the agent no other worker. -/
theorem quiet_lookup {t : Call} {x : Reply} {ans : Except Failure (Ans c)} {m : Nat}
    (hq : quiet id ⟨.ran t c ans, s, s'⟩ = true) (h : respond config x s c = (ans, s'))
    (hm : s'.runner.processes.lookup id = some m) : s.runner.processes.lookup id = some m := by
  have hmoved := act_moved config s.runner c
  rw [← respond_runner h] at hmoved
  have hdelete : ∀ id', s'.runner.processes = deleteKey s.runner.processes id' →
      s.runner.processes.lookup id = some m := by
    intro id' hp
    rw [hp, lookup_deleteKey] at hm
    split at hm
    · cases hm
    · exact hm
  cases hmoved with
  | kept hp ho hc => exact hp ▸ hm
  | @admitted agent r' hnone hpool howner hf =>
    have hans : ans = .ok (s.runner.tryStart config agent).1 := (Prod.mk.inj h).1.symm
    rcases tryStart_cases config s.runner agent with ⟨hsame, -⟩ | ⟨-, hforked⟩
    · rw [respond_runner h, Runner.act, hsame] at hm
      exact hm
    · rw [hforked] at hans
      subst hans
      rw [hf.processes, lookup_setKey, if_neg (Ne.symm (of_decide_eq_true hq))] at hm
      exact hm
  | @minted agent r' hf =>
    rw [hf.processes, lookup_setKey, if_neg (Ne.symm (of_decide_eq_true hq))] at hm
    exact hm
  | barred hc hp ho hch => exact hp ▸ hm
  | told id' n hc hp ho hch => exact hdelete id' hp
  | signalled id' n suspended hn hp ho hch => exact hp ▸ hm
  | evicted id' n hn hp ho hch => exact hdelete id' hp
  | allTold hp ho hch =>
    rw [hp] at hm
    cases hm

theorem inHand_other {n : Nat} (h : ¬ c.Records) (t : Call) (ans : Except Failure (Ans c)) :
    inHand id n (⟨.ran t c ans, s, s'⟩ :: tr) = inHand id n tr := by
  cases c with
  | taskStarted | taskFinished => exact absurd trivial h
  | _ => rfl

theorem fork_inFlight (r : Runner) {agent : DeployedAgent} (h : agent.id ≠ id) :
    (r.fork agent).2.inFlight id = r.inFlight id := by
  obtain ⟨-, -, -, -, htasks⟩ := fork_kept r agent
  rw [Runner.inFlight, htasks, lookup_setKey, if_neg (Ne.symm h)]
  rfl

theorem taskFinished_inFlight (r : Runner) (id' : AgentId) (child : Nat) (task : Task)
    (completed : Bool) : (r.taskFinished id' child task completed).inFlight id =
      if (id' = id ∧ r.processes.lookup id = some child) ∧ r.inFlight id = some task then none
      else r.inFlight id := by
  have hjoin : r.inFlightTasks.lookup id' = some (some task) ↔ r.inFlight id' = some task := by
    rw [Runner.inFlight]
    cases r.inFlightTasks.lookup id' <;> simp
  have hmid : (if r.inFlightTasks.lookup id' = some (some task) then
      { r with inFlightTasks := setKey id' none r.inFlightTasks } else r).inFlight id =
        if id' = id ∧ r.inFlight id = some task then none else r.inFlight id := by
    split
    · next h =>
      rw [inFlight_setKey]
      by_cases hid : id' = id
      · subst hid
        rw [if_pos rfl, if_pos ⟨rfl, hjoin.1 h⟩]
      · rw [if_neg (Ne.symm hid), if_neg fun hboth => hid hboth.1]
    · next h =>
      rw [if_neg]
      rintro ⟨rfl, htask⟩
      exact h (hjoin.2 htask)
  unfold Runner.taskFinished
  by_cases hn : r.processes.lookup id' = some child
  · rw [if_pos hn]
    have hheard : (id' = id ∧ r.processes.lookup id = some child) ↔ id' = id :=
      ⟨fun hboth => hboth.1, fun hid => ⟨hid, hid ▸ hn⟩⟩
    simp only [hheard]
    rw [← hmid]
    split <;> rfl
  · rw [if_neg hn, if_neg]
    rintro ⟨⟨rfl, hlookup⟩, -⟩
    exact hn hlookup

/-- The task on record is the one that the worker has in hand. -/
theorem quiet_inFlight {t : Call} {x : Reply} {ans : Except Failure (Ans c)} {n : Nat}
    (hq : quiet id ⟨.ran t c ans, s, s'⟩ = true) (h : respond config x s c = (ans, s'))
    (honly : ∀ m, s.runner.processes.lookup id = some m → m = n)
    (hb : s.runner.inFlight id = inHand id n tr) :
    s'.runner.inFlight id = inHand id n (⟨.ran t c ans, s, s'⟩ :: tr) := by
  rw [respond_runner h]
  by_cases hrec : c.Records
  swap
  · rw [inHand_other hrec, ← hb, Runner.inFlight, (act_books config _ hrec).inFlightTasks]
    rfl
  cases c with
  | tryStart agent =>
    have hans : ans = .ok (s.runner.tryStart config agent).1 := (Prod.mk.inj h).1.symm
    rw [Runner.act]
    rcases tryStart_cases config s.runner agent with ⟨hsame, -⟩ | ⟨hsame, hforked⟩
    · rw [hsame]
      exact hb
    · rw [hforked] at hans
      subst hans
      rw [hsame, fork_inFlight _ (of_decide_eq_true hq)]
      exact hb
  | fork agent =>
    rw [Runner.act, fork_inFlight _ (of_decide_eq_true hq)]
    exact hb
  | stop id' =>
    have htasks : (s.runner.act config (.stop id')).inFlightTasks =
        deleteKey s.runner.inFlightTasks id' := by
      simp only [Runner.act, Runner.stop, (drop_books _ _).inFlightTasks]
    rw [Runner.inFlight, htasks, lookup_deleteKey, if_neg (Ne.symm (of_decide_eq_true hq))]
    exact hb
  | settle id' child crashed running =>
    rw [Runner.act, Runner.inFlight, (settle_rest _ _ _ _ _).2, lookup_deleteKey,
      if_neg (Ne.symm (of_decide_eq_true hq))]
    exact hb
  | taskStarted id' child task =>
    rw [inHand, ← hb]
    simp only [Runner.act, Runner.taskStarted]
    by_cases hn : s.runner.processes.lookup id' = some child
    · rw [if_pos hn, inFlight_setKey]
      by_cases hid : id' = id
      · subst hid
        obtain rfl := honly child hn
        rw [if_pos rfl, if_pos ⟨rfl, rfl, hn⟩]
      · rw [if_neg (Ne.symm hid), if_neg fun hboth => hid hboth.1]
    · rw [if_neg hn, if_neg]
      rintro ⟨rfl, rfl, hlookup⟩
      exact hn hlookup
  | taskFinished id' child task completed =>
    have hheard : (id' = id ∧ s.runner.processes.lookup id = some child) ↔
        id' = id ∧ child = n ∧ s.runner.processes.lookup id = some n := by
      refine and_congr_right fun _ => ⟨fun hlookup => ?_, fun hboth => hboth.1 ▸ hboth.2⟩
      obtain rfl := honly child hlookup
      exact ⟨rfl, hlookup⟩
    rw [Runner.act, taskFinished_inFlight, inHand, ← hb]
    simp only [hheard]
  | _ => exact hrec.elim

/-- From the fork of a worker on, what is on record is what it has in hand. -/
theorem inFlight_run {b : Pool Ans Failure Unit Call State} {n : Nat}
    (h : PoolRun (service config) b tr pool) (hq : ∀ e ∈ tr, quiet id e = true)
    (honly : ∀ m, b.state.runner.processes.lookup id = some m → m = n)
    (hnone : b.state.runner.inFlight id = none) :
    pool.state.runner.inFlight id = inHand id n tr := by
  have hinv := Run.invariant (I := fun tr c => (∀ e ∈ tr, quiet id e = true) →
    c.state.runner.inFlight id = inHand id n tr ∧
      ∀ m, c.state.runner.processes.lookup id = some m → m = n) h (fun _ => ⟨hnone, honly⟩) ?_
  · exact (hinv hq).1
  · intro tr b e c _ hb hs hquiet
    obtain ⟨hsame, hone⟩ := hb fun e' he' => hquiet e' (List.mem_cons_of_mem _ he')
    have he := hquiet e List.mem_cons_self
    cases hs with
    | run l₁ l₂ t cmd k ans hx =>
      obtain ⟨x, hx⟩ := hx
      exact ⟨quiet_inFlight he hx hone hsame, fun m hm => hone m (quiet_lookup he hx hm)⟩
    | start l t p hx =>
      obtain ⟨-, -, s₁, harises, rfl⟩ := hx
      obtain ⟨hrunner, -⟩ := harises.runner
      simp only
      rw [hrunner]
      exact ⟨hsame, hone⟩
    | finish l₁ l₂ t ans => exact ⟨hsame, hone⟩
    | env l hx =>
      obtain ⟨rows, children, now, slotsFree, writes, -, -, rfl⟩ := hx
      exact ⟨hsame, hone⟩
    | die l₁ l₂ t p hx =>
      cases hx
      exact ⟨hsame, hone⟩

theorem runner_ran {b c : Pool Ans Failure Unit Call State} {e : Ev} {t : Call} {cmd : Cmd}
    {ans : Except Failure (Ans cmd)} (h : Async.Step (service config) b e c)
    (he : e.label = .ran t cmd ans) : c.state.runner = b.state.runner.act config cmd := by
  cases h with
  | run l₁ l₂ t' cmd' k ans' hx =>
    cases he
    obtain ⟨x, hx⟩ := hx
    exact respond_runner hx
  | _ => cases he

/-- A worker begins with no task in hand. -/
theorem Forks.began {b c : Pool Ans Failure Unit Call State} {e : Ev} {n : Nat}
    (hf : Forks id n e) (htracked : Tracked b.state.runner)
    (h : Async.Step (service config) b e c) : c.state.runner.inFlight id = none := by
  obtain ⟨hlen, hn⟩ := hf
  rw [h.states.1] at hlen
  rw [h.states.2] at hn
  have hnew : b.state.runner.processes.lookup id ≠ some n := by
    intro hold
    obtain ⟨child, hchild, -⟩ := htracked.known id n hold
    have hlt := (List.getElem?_eq_some_iff.1 hchild).1
    omega
  have hdelete : ∀ id', c.state.runner.processes ≠ deleteKey b.state.runner.processes id' := by
    intro id' hp
    rw [hp, lookup_deleteKey] at hn
    split at hn
    · cases hn
    · exact hnew hn
  have hforked : ∀ agent, Forked b.state.runner agent c.state.runner → agent.id = id := by
    intro agent hf
    by_contra hid
    rw [hf.processes, lookup_setKey, if_neg (Ne.symm hid)] at hn
    exact hnew hn
  have hbare : ∀ agent : DeployedAgent, agent.id = id →
      (b.state.runner.fork agent).2.inFlight id = none := by
    rintro agent rfl
    obtain ⟨-, -, -, -, htasks⟩ := fork_kept b.state.runner agent
    rw [Runner.inFlight, htasks, lookup_setKey, if_pos rfl]
    rfl
  rcases step_runner h with ⟨t, cmd, ans, hlabel, hm⟩ | ⟨-, hp, -⟩
  · cases hm with
    | kept hp ho hc => exact absurd (hp ▸ hn) hnew
    | @admitted agent r' hnone hpool howner hf =>
      have hact := runner_ran h hlabel
      rcases tryStart_cases config b.state.runner agent with ⟨hsame, -⟩ | ⟨hsame, -⟩
      · rw [hact, Runner.act, hsame] at hn
        exact absurd hn hnew
      · rw [hact, Runner.act, hsame, hbare agent (hforked agent hf)]
    | @minted agent r' hf =>
      rw [runner_ran h hlabel, Runner.act, hbare agent (hforked agent hf)]
    | barred hc hp ho hch => exact absurd (hp ▸ hn) hnew
    | told id' m hc hp ho hch => exact absurd hp (hdelete id')
    | signalled id' m suspended hm hp ho hch => exact absurd (hp ▸ hn) hnew
    | evicted id' m hm hp ho hch => exact absurd hp (hdelete id')
    | allTold hp ho hch =>
      rw [hp] at hn
      cases hn
  · exact absurd (hp ▸ hn) hnew

/-- A crash is charged to the task that the worker itself had in hand when it left the map, if the
agent was not started, stopped or settled between. -/
theorem crash_charged {later mid earlier : List Ev} {e f : Ev} {t : Call} {n : Nat}
    {running : Bool} {ans : Except Failure (Ans (.settle id n true running))}
    (h : PoolRun (service config) ⟨s₀, []⟩ (later ++ e :: (mid ++ f :: earlier)) pool)
    (h₀ : Fresh s₀) (hf : Forks id n f) (hq : ∀ v ∈ mid, quiet id v = true)
    (he : e.label = .ran t (.settle id n true running) ans) :
    e.post.runner.crashMemory.lookup id =
      some (recordCrash (e.pre.runner.crashMemory.lookup id) (inHand id n mid)
        (e.pre.runner.uptime n)) := by
  obtain ⟨b, b', hbefore, hstep, -⟩ := Run.split h
  obtain ⟨b₁, b₂, hearlier, hfork, hmid⟩ := Run.split hbefore
  have htracked := tracked_run hearlier h₀
  have hbegan := hf.began htracked hfork
  have honly : ∀ m, b₂.state.runner.processes.lookup id = some m → m = n := by
    intro m hm
    have hn := hf.2
    rw [hfork.states.2, hm] at hn
    exact Option.some.inj hn
  have hinHand := inFlight_run hmid hq honly hbegan
  rw [hstep.states.1, hstep.states.2, runner_ran hstep he, Runner.act, settle_memory, if_pos rfl,
    lookup_setKey, if_pos rfl, hinHand]

theorem crash_charged_crashes : ∃ e ∈ crashesRun.1,
    e.post.runner.crashMemory.lookup 1 = some (recordCrash (e.pre.runner.crashMemory.lookup 1)
      (inHand 1 1 ((crashesRun.1.drop 1).take 9)) (e.pre.runner.uptime 1)) := by
  have hrun : PoolRun (service demoConfig) ⟨demoState, []⟩
      ([] ++ crashesRun.1.get ⟨0, by decide⟩ :: ((crashesRun.1.drop 1).take 9 ++
        crashesRun.1.get ⟨10, by decide⟩ :: crashesRun.1.drop 11)) crashesRun.2 := crashes_run
  refine ⟨_, List.get_mem _ _, crash_charged hrun demoState_fresh ⟨rfl, rfl⟩ (by decide) rfl⟩

end AgentRunner
