import BlindMarket.AgentRunner.Crashes
import BlindMarket.Support.Within

/-!
# A stopped agent stays stopped

Nothing but a start of its own brings an agent back once it has no worker and is
not saved as running: not a restart after a crash, a resume, a late exit, the
reaper or the boot.
-/
namespace AgentRunner

open Async Prog Runs

variable {config : Config} {id : AgentId} {c : Cmd} {s s' s₀ : State} {tr : List Ev} {n : Nat}
  {b pool : Pool Ans Failure Unit Call State}

/-- The agent has no worker, is not saved as running, and its workers are all among the first `n`. -/
structure Off (id : AgentId) (n : Nat) (s : State) : Prop where
  untracked : s.runner.processes.lookup id = none
  saved : ∀ a ∈ s.rows, a.id = id → a.status ≠ .running
  workers : ∀ (m : Nat) (child : Child), s.runner.children[m]? = some child → n ≤ m →
    child.agent ≠ id

/-- The commands that fork no worker for the agent and do not save it as running. -/
def Spares (id : AgentId) : Cmd → Prop
  | .tryStart a | .fork a => a.id ≠ id
  | .setAgentStatus id' status _ => id' ≠ id ∨ status ≠ .running
  | _ => True

/-- The database gives the agent that was asked for. -/
def Matched : (c : Cmd) → Except Failure (Ans c) → Prop
  | .loadAgent id', .ok (some a) => a.id = id'
  | _, _ => True

/-- What is answered while the agent is off. -/
def AnsweredOff (id : AgentId) : (c : Cmd) → Except Failure (Ans c) → Prop
  | .loadAgent id', .ok (some a) => a.id = id' ∧ (a.id = id → a.status ≠ .running)
  | .loadAllAgents, .ok agents => ∀ a ∈ agents, a.id = id → a.status ≠ .running
  | .plan agents, .ok (_, toStart) => ∀ a ∈ toStart, a ∈ agents ∧ a.status = .running
  | .signal id' _, .ok has => id' = id → has = false
  | _, _ => True

/-! ## What the handlers ask for -/

section Programs

variable {A : (c : Cmd) → Except Failure (Ans c) → Prop} {id' : AgentId}

theorem within_setStatus {status : AgentStatus} {onlyFrom : Option AgentStatus}
    (h : id' ≠ id ∨ status ≠ .running) :
    (discard (call (Cmd.setAgentStatus id' status onlyFrom)) : Program Unit).Within A (Spares id) :=
  within_call h fun _ _ => trivial

theorem within_startAgent (hA : ∀ i a, A (.loadAgent i) (.ok (some a)) → a.id = i) (hne : id' ≠ id) :
    (startAgent id').Within A (Spares id) := by
  refine within_call trivial fun allowed _ => ?_
  cases allowed with
  | false => trivial
  | true =>
    refine within_call trivial fun loaded hloaded => ?_
    cases loaded with
    | none => trivial
    | some agent =>
      have hagent : agent.id ≠ id := hA id' agent hloaded ▸ hne
      refine within_call hagent fun admission _ => ?_
      cases admission with
      | present => trivial
      | refused reason => trivial
      | noSecret => trivial
      | forked kept =>
        cases kept with
        | false => trivial
        | true => exact within_setStatus (.inl hne)
      | needsToken =>
        refine Within.bind (within_call trivial fun _ _ => trivial) fun _ => ?_
        refine within_call hagent fun kept _ => ?_
        cases kept with
        | false => trivial
        | true => exact within_setStatus (.inl hne)

theorem within_stopAgent (id' : AgentId) : (stopAgent id').Within A (Spares id) :=
  within_call trivial fun _ _ => within_setStatus (.inr (by decide))

theorem within_setStopped (id' : AgentId) :
    (discard (call (Cmd.setAgentStatus id' .stopped (some .running))) : Program Unit).Within A
      (Spares id) :=
  within_setStatus (.inr (by decide))

theorem within_onExit (id' : AgentId) (child : Nat) (code : Option Nat) (signal : Option Signal) :
    (onExit id' child code signal).Within A (Spares id) := by
  refine within_call trivial fun evicted _ => ?_
  cases evicted with
  | none => trivial
  | some wasIntentional =>
    refine within_call trivial fun a _ => within_call trivial fun settled _ => ?_
    cases settled with
    | restarting => trivial
    | looped => exact within_setStopped id'
    | ended =>
      simp only
      split
      · exact within_setStopped id'
      · trivial

theorem within_onError (id' : AgentId) (child : Nat) :
    (onError id' child).Within A (Spares id) := by
  refine within_call trivial fun evicted _ => ?_
  cases evicted with
  | none => trivial
  | some wasIntentional => exact within_setStopped id'

theorem within_reapEntry (id' : AgentId) (child : Nat) :
    (reapEntry id' child).Within A (Spares id) := by
  refine Within.bind (Within.attempt ?_) fun reaped => ?_
  · refine within_call trivial fun alive _ => ?_
    cases (alive : Bool) with
    | true => trivial
    | false => exact within_call trivial fun _ _ => within_setStopped id'
  · cases reaped with
    | ok u => trivial
    | error e => exact within_one trivial

/-- A resume that is asked for while the agent has no worker saves nothing. -/
theorem within_signalAgent {suspended : Bool}
    (h : id' ≠ id ∨ suspended = true ∨ ∀ has, A (.signal id' suspended) (.ok has) → has = false) :
    (signalAgent id' suspended).Within A (Spares id) := by
  refine within_call trivial fun has hhas => ?_
  cases hh : (has : Bool) with
  | false => trivial
  | true =>
    refine within_setStatus ?_
    rcases h with h | rfl | h
    · exact .inl h
    · exact .inr (by decide)
    · rw [h has hhas] at hh
      cases hh

/-- A restart finds that the agent is not to run, or it is another's. -/
theorem within_autoRestart (hA : ∀ i a, A (.loadAgent i) (.ok (some a)) → a.id = i)
    (h : id' ≠ id ∨ ∀ a, A (.loadAgent id') (.ok (some a)) → a.status ≠ .running) :
    (autoRestart id').Within A (Spares id) := by
  refine within_call trivial fun allowed _ => ?_
  cases allowed with
  | false => trivial
  | true =>
    refine within_call trivial fun loaded hloaded => ?_
    cases loaded with
    | none => trivial
    | some a =>
      simp only
      split
      · trivial
      · next hrunning =>
        have hne : id' ≠ id := h.resolve_right fun hall => hrunning (hall a hloaded)
        refine within_call trivial fun has _ => ?_
        cases (has : Bool) with
        | true => trivial
        | false =>
          refine (within_startAgent hA hne).attempt.bind fun started => ?_
          cases started with
          | ok u => trivial
          | error e => exact within_setStopped id'

theorem within_markNotRestarted (a : DeployedAgent) (reason : NotRestarted) :
    (markNotRestarted a reason).Within A (Spares id) := by
  refine Within.bind (Within.attempt ?_) fun _ => trivial
  refine within_call trivial fun has _ => ?_
  cases (has : Bool) with
  | true => exact within_one trivial
  | false => exact (within_setStopped a.id).bind fun _ => within_one trivial

theorem within_startEach (hA : ∀ i a, A (.loadAgent i) (.ok (some a)) → a.id = i)
    {agents : List DeployedAgent} (h : ∀ a ∈ agents, a.id ≠ id) :
    (startEach agents).Within A (Spares id) := by
  induction agents with
  | nil => trivial
  | cons a rest ih =>
    have hrest := ih fun a' ha' => h a' (List.mem_cons_of_mem _ ha')
    refine (within_startAgent hA (h a List.mem_cons_self)).attempt.bind fun started => ?_
    cases started with
    | ok u => exact hrest
    | error cause => exact (within_markNotRestarted a _).bind fun _ => hrest

theorem within_markEach (agents : List DeployedAgent) :
    (markEach config agents).Within A (Spares id) := by
  induction agents with
  | nil => trivial
  | cons a rest ih =>
    refine within_call trivial fun full _ => ?_
    cases (full : Bool) with
    | true => exact (within_markNotRestarted a _).bind fun _ => ih
    | false => exact (within_markNotRestarted a _).bind fun _ => ih

/-- The boot starts agents that are saved as running. -/
theorem within_reconcileAgents :
    (reconcileAgents config).Within (AnsweredOff id) (Spares id) := by
  refine within_call trivial fun allowed _ => ?_
  cases allowed with
  | false => trivial
  | true =>
    refine within_attempt_call trivial fun loaded hloaded => ?_
    cases loaded with
    | error e => trivial
    | ok agents =>
      refine within_call trivial fun planned hplanned => ?_
      obtain ⟨running, toStart⟩ := planned
      refine Within.bind (within_startEach (fun i a ha => ha.1) fun a ha => ?_) fun _ =>
        within_markEach _
      obtain ⟨hmem, hrunning⟩ := hplanned a ha
      exact fun hid => hloaded a hmem hid hrunning

end Programs

/-- The handler is a start of the agent. -/
def Asks (id : AgentId) (o : Occasion) : Prop := o = .start id ∨ o = .restart id

/-- The handler may bring the agent back if it is under way already. -/
def MayRevive (id : AgentId) (o : Occasion) : Prop :=
  Asks id o ∨ o = .signal id false ∨ o = .timer id ∨ o = .reconcile

theorem handler_within {A : (c : Cmd) → Except Failure (Ans c) → Prop} {o : Occasion}
    (hA : ∀ i a, A (.loadAgent i) (.ok (some a)) → a.id = i) (hasks : ¬ Asks id o)
    (hsignal : o = .signal id false → ∀ has, A (.signal id false) (.ok has) → has = false)
    (htimer : o = .timer id → ∀ a, A (.loadAgent id) (.ok (some a)) → a.status ≠ .running)
    (hreconcile : o = .reconcile → (reconcileAgents config).Within A (Spares id)) :
    (handler config o).Within A (Spares id) := by
  cases o with
  | start id' => exact within_startAgent hA fun heq => hasks (.inl (heq ▸ rfl))
  | stop id' => exact within_stopAgent id'
  | restart id' =>
    exact (within_stopAgent id').bind fun _ =>
      within_startAgent hA fun heq => hasks (.inr (heq ▸ rfl))
  | signal id' suspended =>
    refine within_signalAgent ?_
    by_cases hid : id' = id
    · subst hid
      cases suspended with
      | true => exact .inr (.inl rfl)
      | false => exact .inr (.inr (hsignal rfl))
    · exact .inl hid
  | exit id' child code signal => exact within_onExit id' child code signal
  | error id' child => exact within_onError id' child
  | timer id' =>
    refine within_autoRestart hA ?_
    by_cases hid : id' = id
    · subst hid
      exact .inr (htimer rfl)
    · exact .inl hid
  | reconcile => exact hreconcile rfl
  | reap id' child => exact within_reapEntry id' child
  | writesStopped => exact within_one trivial
  | taskStarted id' child task => exact within_one trivial
  | taskFinished id' child task completed => exact within_one trivial

/-! ## What the commands do -/

theorem send_ok {α : Type} {x : Reply} {r : α × State} {v : α}
    (h : x.send s r = (.ok v, s')) : v = r.1 := by
  unfold Reply.send at h
  split at h
  · exact (Except.ok.inj (Prod.mk.inj h).1).symm
  · cases (Prod.mk.inj h).1

theorem respond_matched {x : Reply} {r : Except Failure (Ans c)}
    (h : respond config x s c = (r, s')) : Matched c r := by
  cases c with
  | loadAgent id' =>
    cases r with
    | error e => trivial
    | ok loaded =>
      cases loaded with
      | none => trivial
      | some a =>
        have hfind : a.id = id' := by simpa using List.find?_some (send_ok h).symm
        exact hfind
  | _ => cases r <;> trivial

/-- What all agents that wait or are to start have in common, a pass keeps. -/
theorem pass_all {P : DeployedAgent → Prop} (slots : Slots) {rest : Queues} {d : Dealing}
    (hrest : ∀ q ∈ rest, ∀ a ∈ q.2, P a) (hqueues : ∀ q ∈ d.queues, ∀ a ∈ q.2, P a)
    (hstart : ∀ a ∈ d.toStart, P a) :
    (∀ q ∈ (pass slots rest d).queues, ∀ a ∈ q.2, P a) ∧
      ∀ a ∈ (pass slots rest d).toStart, P a := by
  induction rest generalizing d with
  | nil => exact ⟨hqueues, hstart⟩
  | cons entry rest ih =>
    obtain ⟨owner, queue⟩ := entry
    have hlater : ∀ q ∈ rest, ∀ a ∈ q.2, P a := fun q hq => hrest q (List.mem_cons_of_mem _ hq)
    have hqueue : ∀ a ∈ queue, P a := hrest (owner, queue) List.mem_cons_self
    have hbehind : ∀ queue' : List DeployedAgent, (∀ a ∈ queue', P a) →
        ∀ q ∈ d.queues ++ [(owner, queue')], ∀ a ∈ q.2, P a := by
      intro queue' hq' q hq
      rcases List.mem_append.1 hq with hq | hq
      · exact hqueues q hq
      · rw [List.mem_singleton.1 hq]
        exact hq'
    rw [pass.eq_def]
    simp only
    split
    · refine ⟨?_, hstart⟩
      intro q hq
      rcases List.mem_append.1 hq with hq | hq
      · exact hqueues q hq
      · exact hrest q hq
    · split
      · exact ih hlater (hbehind [] (by simp)) hstart
      · next a queue' =>
        split
        · exact ih hlater (hbehind _ hqueue) hstart
        · refine ih hlater (hbehind _ fun a' ha' => hqueue a' (List.mem_cons_of_mem _ ha')) ?_
          intro a' ha'
          rcases List.mem_append.1 ha' with ha' | ha'
          · exact hstart a' ha'
          · rw [List.mem_singleton.1 ha']
            exact hqueue a List.mem_cons_self

theorem deal_all {P : DeployedAgent → Prop} (slots : Slots) (fuel : Nat) {d : Dealing}
    (hqueues : ∀ q ∈ d.queues, ∀ a ∈ q.2, P a) (hstart : ∀ a ∈ d.toStart, P a) :
    ∀ a ∈ (deal slots fuel d).toStart, P a := by
  induction fuel generalizing d with
  | zero => exact hstart
  | succ fuel ih =>
    rw [deal]
    split
    · obtain ⟨hq, hs⟩ := pass_all slots
        (d := { d with queues := [], progressed := false }) hqueues (by simp) hstart
      exact ih hq hs
    · exact hstart

/-- The agents that the boot starts were saved as running. -/
theorem plan_started {r : Runner} {agents : List DeployedAgent} {a : DeployedAgent}
    (ha : a ∈ (r.plan config agents).2) : a ∈ agents ∧ a.status = .running := by
  refine deal_all (P := fun a => a ∈ agents ∧ a.status = .running) _ _ ?_ (by simp) a ha
  obtain ⟨owners, -, -, hqueues⟩ := queuesOf_eq
    (agents.filter fun a => a.status = .running ∧ r.processes.lookup a.id = none)
  rw [hqueues]
  intro q hq a ha
  obtain ⟨owner, -, rfl⟩ := List.mem_map.1 hq
  have hlot := (List.mem_filter.1 ha).1
  rw [List.mem_mergeSort] at hlot
  obtain ⟨hmem, hkept⟩ := List.mem_filter.1 hlot
  exact ⟨hmem, (of_decide_eq_true hkept).1⟩

theorem Off.answered {x : Reply} {r : Except Failure (Ans c)} (h : Off id n s)
    (hx : respond config x s c = (r, s')) : AnsweredOff id c r := by
  cases r with
  | error e => cases c <;> trivial
  | ok v =>
    cases c with
    | loadAgent id' =>
      cases v with
      | none => trivial
      | some a =>
        refine ⟨respond_matched hx, ?_⟩
        exact h.saved a (List.mem_of_find?_eq_some (send_ok hx).symm)
    | loadAllAgents =>
      rw [send_ok hx]
      exact h.saved
    | plan agents =>
      obtain rfl := Except.ok.inj (Prod.mk.inj hx).1
      exact fun a ha => plan_started ha
    | signal id' suspended =>
      obtain rfl := Except.ok.inj (Prod.mk.inj hx).1
      rintro rfl
      rw [Runner.signal, h.untracked]
    | _ => trivial

theorem send_state {α : Type} (x : Reply) (s : State) (r : α × State) :
    (x.send s r).2 = r.2 ∨ (x.send s r).2 = s := by
  unfold Reply.send
  split
  · exact .inl rfl
  · split
    · exact .inl rfl
    · exact .inr rfl

/-- A row keeps its status unless that is what the command sets. -/
theorem respond_rows {x : Reply} {r : Except Failure (Ans c)} (hx : respond config x s c = (r, s'))
    {a' : DeployedAgent} (ha' : a' ∈ s'.rows) : ∃ a ∈ s.rows, a'.id = a.id ∧
      (a'.status = a.status ∨ ∃ onlyFrom, c = .setAgentStatus a.id a'.status onlyFrom) := by
  have hkept : s'.rows = s.rows → ∃ a ∈ s.rows, a'.id = a.id ∧
      (a'.status = a.status ∨ ∃ onlyFrom, c = .setAgentStatus a.id a'.status onlyFrom) :=
    fun hrows => ⟨a', hrows ▸ ha', rfl, .inl rfl⟩
  have hstate : (respond config x s c).2 = s' := congrArg Prod.snd hx
  cases c with
  | setAgentStatus id' status onlyFrom =>
    rcases send_state x s ((setStatus s.rows id' status onlyFrom).1,
      { s with rows := (setStatus s.rows id' status onlyFrom).2 }) with heq | heq
    · rw [← hstate, respond, heq] at ha'
      obtain ⟨a, ha, rfl⟩ := List.mem_map.1 ha'
      refine ⟨a, ha, ?_⟩
      split
      · next hhit =>
        refine ⟨rfl, .inr ⟨onlyFrom, ?_⟩⟩
        rw [hhit.1]
      · exact ⟨rfl, .inl rfl⟩
    · exact hkept (by rw [← hstate, respond, heq])
  | updateToken id' =>
    rcases send_state x s ((setToken s.rows id').1,
      { s with rows := (setToken s.rows id').2 }) with heq | heq
    · rw [← hstate, respond, heq] at ha'
      obtain ⟨a, ha, rfl⟩ := List.mem_map.1 ha'
      refine ⟨a, ha, ?_⟩
      split <;> exact ⟨rfl, .inl rfl⟩
    · exact hkept (by rw [← hstate, respond, heq])
  | loadAgent | loadAllAgents | isAlive | notify =>
    refine hkept ?_
    rw [← hstate, respond]
    exact (send_state x s _).elim (fun heq => by rw [heq]) fun heq => by rw [heq]
  | _ =>
    refine hkept ?_
    rw [← hstate]
    rfl

/-- A worker of another agent is added at the end. -/
theorem Off.workers_append (h : Off id n s) {new : Child} (hne : new.agent ≠ id)
    (hch : s'.runner.children = s.runner.children ++ [new]) (m : Nat) (child : Child)
    (hchild : s'.runner.children[m]? = some child) (hm : n ≤ m) : child.agent ≠ id := by
  rw [hch, List.getElem?_append] at hchild
  split at hchild
  · exact h.workers m child hchild hm
  · rw [List.getElem?_singleton] at hchild
    split at hchild
    · cases hchild
      exact hne
    · cases hchild

theorem Off.workers_modify (h : Off id n s) {i : Nat} {f : Child → Child}
    (hf : ∀ child : Child, (f child).agent = child.agent)
    (hch : s'.runner.children = s.runner.children.modify i f) (m : Nat) (child : Child)
    (hchild : s'.runner.children[m]? = some child) (hm : n ≤ m) : child.agent ≠ id := by
  rw [hch, List.getElem?_modify] at hchild
  obtain ⟨child₀, hchild₀, rfl⟩ := Option.map_eq_some_iff.1 hchild
  have hne := h.workers m child₀ hchild₀ hm
  split
  · rwa [hf]
  · exact hne

theorem Off.respond {x : Reply} {r : Except Failure (Ans c)} (h : Off id n s) (hc : Spares id c)
    (hx : respond config x s c = (r, s')) : Off id n s' := by
  have hmoved := act_moved config s.runner c
  rw [← respond_runner hx] at hmoved
  have hdelete : ∀ id', s'.runner.processes = deleteKey s.runner.processes id' →
      s'.runner.processes.lookup id = none := by
    intro id' hp
    rw [hp, lookup_deleteKey, h.untracked, ite_self]
  have hsame : s'.runner.children = s.runner.children →
      ∀ m (child : Child), s'.runner.children[m]? = some child → n ≤ m → child.agent ≠ id :=
    fun hch => hch ▸ h.workers
  suffices hrunner : s'.runner.processes.lookup id = none ∧
      ∀ m (child : Child), s'.runner.children[m]? = some child → n ≤ m → child.agent ≠ id by
    refine ⟨hrunner.1, fun a' ha' hid => ?_, hrunner.2⟩
    obtain ⟨a, ha, hsame, hkept | ⟨onlyFrom, rfl⟩⟩ := respond_rows hx ha'
    · rw [hkept]
      exact h.saved a ha (hsame ▸ hid)
    · exact hc.resolve_left fun hne => hne (hsame ▸ hid)
  cases hmoved with
  | kept hp ho hch => exact ⟨hp ▸ h.untracked, hsame hch⟩
  | admitted hnone hpool howner hf =>
    obtain ⟨child, hagent, hch⟩ := hf.children
    refine ⟨?_, h.workers_append (hagent ▸ hc) hch⟩
    rw [hf.processes, lookup_setKey, if_neg (Ne.symm hc), h.untracked]
  | minted hf =>
    obtain ⟨child, hagent, hch⟩ := hf.children
    refine ⟨?_, h.workers_append (hagent ▸ hc) hch⟩
    rw [hf.processes, lookup_setKey, if_neg (Ne.symm hc), h.untracked]
  | @barred c agent r' hcmd hp ho hch =>
    obtain ⟨child, hchild, hch⟩ := hch
    have hne : agent.id ≠ id := by
      rcases hcmd with rfl | rfl
      · exact hc
      · exact hc
    exact ⟨hp ▸ h.untracked, h.workers_append (hchild.1 ▸ hne) hch⟩
  | told id' m hcmd hp ho hch =>
    exact ⟨hdelete id' hp, h.workers_modify (f := Child.terminate) (fun _ => rfl) hch⟩
  | signalled id' m suspended hn hp ho hch =>
    exact ⟨hp ▸ h.untracked, h.workers_modify (f := Child.signal suspended) (fun _ => rfl) hch⟩
  | evicted id' m hn hp ho hch => exact ⟨hdelete id' hp, hsame hch⟩
  | allTold hp ho hch =>
    refine ⟨by rw [hp]; rfl, fun m child hchild hm => ?_⟩
    rw [hch, getElem?_allTold] at hchild
    obtain ⟨child₀, hchild₀, rfl⟩ := Option.map_eq_some_iff.1 hchild
    have hne := h.workers m child₀ hchild₀ hm
    split
    · exact hne
    · exact hne

/-! ## Runs -/

theorem AnsweredOff.matched {r : Except Failure (Ans c)} (h : AnsweredOff id c r) : Matched c r := by
  cases c with
  | loadAgent id' =>
    cases r with
    | error e => trivial
    | ok loaded =>
      cases loaded with
      | none => trivial
      | some a => exact h.1
  | _ => cases r <;> trivial

theorem Occasion.Arises.rows {o : Occasion} (h : o.Arises s s') : s'.rows = s.rows := by
  cases o <;> simp only [Occasion.Arises] at h
  case exit | error => exact h.1 ▸ rfl
  case timer => exact h.2 ▸ rfl
  case reap => exact h.1 ▸ rfl
  all_goals exact h ▸ rfl

/-- Neither a start of the agent begins, nor does somebody else save it as running. -/
def undisturbed (id : AgentId) (e : Ev) : Bool :=
  match e.label with
  | .started t => t.occasion ≠ .start id ∧ t.occasion ≠ .restart id
  | .env => e.post.rows.all fun a => a.id ≠ id ∨ a.status ≠ .running
  | _ => true

theorem Off.outside (h : Off id n s) (hout : Outside s s')
    (hrows : ∀ a ∈ s'.rows, a.id = id → a.status ≠ .running) : Off id n s' := by
  obtain ⟨rows, children, now, slotsFree, writes, -, hch, rfl⟩ := hout
  refine ⟨h.untracked, hrows, fun m child hchild hm => ?_⟩
  obtain ⟨hlt, hget⟩ := List.getElem?_eq_some_iff.1 hchild
  have hlt' : m < s.runner.children.length := hch.length_eq ▸ hlt
  have hone := (List.forall₂_iff_get.1 hch).2 m hlt' hlt
  simp only [List.get_eq_getElem, hget] at hone
  have hbefore := h.workers m _ (List.getElem?_eq_getElem hlt') hm
  rcases hone with heq | heq
  · rwa [heq]
  · rwa [heq]

/-- What is under way at the end of a run spares the agent if it is none of the handlers that could
bring it back. -/
theorem idle_within (h : PoolRun (service config) ⟨s₀, []⟩ tr b)
    (hidle : ∀ th ∈ b.threads, ¬ MayRevive id th.tag.occasion) :
    ∀ th ∈ b.threads, th.prog.Within Matched (Spares id) := by
  have hwithin := (within_run (A := Matched) (J := fun _ => True)
    (P := fun t c => MayRevive id t.occasion ∨ Spares id c) h trivial (by simp) ?_ ?_ ?_).2
  · intro th hth
    exact (hwithin th hth).mono (fun _ _ hr => hr) fun c hc => hc.resolve_left (hidle th hth)
  · rintro t s cmd r s' - - ⟨x, hx⟩
    exact ⟨respond_matched hx, trivial⟩
  · intro b e c _ _ _ _
    trivial
  · intro e _ t _ tags p hstart
    obtain ⟨-, rfl, -⟩ := hstart
    by_cases hrevive : MayRevive id t.occasion
    · exact (within_true _).mono (fun _ _ hr => hr) fun _ _ => .inl hrevive
    · have hspares : (handler config t.occasion).Within Matched (Spares id) :=
        handler_within (fun i a ha => ha) (fun h => hrevive (.inl h))
          (fun h => absurd (.inr (.inl h)) hrevive)
          (fun h => absurd (.inr (.inr (.inl h))) hrevive)
          fun h => absurd (.inr (.inr (.inr h))) hrevive
      exact hspares.mono (fun _ _ hr => hr) fun _ hc => .inr hc

/-- From a state in which an agent is off, with none under way of the handlers that could bring it
back, it stays off as long as no start of it begins and nobody else saves it as running. -/
theorem stays_off {earlier later : List Ev}
    (hearlier : PoolRun (service config) ⟨s₀, []⟩ earlier b) (hoff : Off id n b.state)
    (hidle : ∀ th ∈ b.threads, ¬ MayRevive id th.tag.occasion)
    (hlater : PoolRun (service config) b later pool)
    (hundisturbed : ∀ e ∈ later, undisturbed id e = true) : Off id n pool.state := by
  have hb : ∀ th ∈ b.threads, th.prog.Within (AnsweredOff id) (Spares id) := fun th hth =>
    (idle_within hearlier hidle th hth).mono (fun c r hr => hr.matched) fun c hc => hc
  refine (within_run (A := AnsweredOff id) (J := Off id n) (P := fun _ => Spares id) hlater hoff hb
    ?_ ?_ ?_).1
  · rintro t s cmd r s' hs hcmd ⟨x, hx⟩
    exact ⟨hs.answered hx, hs.respond hcmd hx⟩
  · intro b e c he hs hne hb
    cases hs with
    | run l₁ l₂ t cmd k ans hx => exact absurd rfl (hne t cmd ans)
    | start l t p hx =>
      obtain ⟨-, -, s₁, harises, rfl⟩ := hx
      obtain ⟨hrunner, -⟩ := harises.runner
      have hrows := harises.rows
      constructor
      · simp only
        rw [hrunner]
        exact hb.untracked
      · simp only
        rw [hrows]
        exact hb.saved
      · simp only
        rw [hrunner]
        exact hb.workers
    | finish l₁ l₂ t ans => exact hb
    | env l hx =>
      refine hb.outside hx fun a ha hid => ?_
      have hall := List.all_eq_true.1 (hundisturbed _ he) a ha
      simpa [hid] using hall
    | die l₁ l₂ t p hx =>
      cases hx
      exact hb
  · intro e he t hlabel tags p hstart
    obtain ⟨-, rfl, -⟩ := hstart
    have hnot := hundisturbed e he
    simp only [undisturbed, hlabel, decide_eq_true_eq] at hnot
    exact handler_within (fun i a ha => ha.1) (fun h => h.elim hnot.1 hnot.2)
      (fun _ has hhas => hhas rfl) (fun _ a ha => ha.2 ha.1) fun _ => within_reconcileAgents

/-- After the stop the worker ends at last, and somebody tries to resume the agent. -/
def endsAndResumed : Cues :=
  [.move (.ends 0), .enter ⟨3, .exit 1 0 none (some .sigterm)⟩, .turn 0 {}, .leave 0,
    .enter ⟨4, .signal 1 false⟩, .turn 0 {}, .leave 0]

theorem endsAndResumed_plays :
    ((stage demoConfig).play endsAndResumed pausedRun.2).isSome = true := by decide

def endsRun : List Ev × Pool Ans Failure Unit Call State :=
  ((stage demoConfig).play endsAndResumed pausedRun.2).get endsAndResumed_plays

theorem ends_run : PoolRun (service demoConfig) pausedRun.2 endsRun.1 endsRun.2 :=
  Async.Stage.play_get endsAndResumed_plays

theorem paused_off : Off 1 1 pausedRun.2.state where
  untracked := rfl
  saved := by decide
  workers := by
    intro m child hchild hm
    have hlt : m < 1 := (List.getElem?_eq_some_iff.1 hchild).1
    omega

theorem stays_off_ends : Off 1 1 endsRun.2.state :=
  stays_off paused_run paused_off (List.forall_mem_nil _) ends_run (by decide)

end AgentRunner
