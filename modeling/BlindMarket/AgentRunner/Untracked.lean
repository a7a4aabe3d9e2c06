import BlindMarket.AgentRunner.Workers

/-!
# Workers outside the map

A worker that is not in the map has ended or was told to stop, but for two ways
to lose one: the reaper drops what has taken the place of the worker it looked
at, and a start that minted a token forks beside one that came first. And a
worker that was told to stop while it was paused hears of it from nobody.
-/
namespace AgentRunner

open Async Prog Runs

variable {config : Config} {r r' : Runner} {c : Cmd} {s s' s₀ : State} {tr : List Ev}
  {pool : Pool Ans Failure Unit Call State}

/-! ## Which handlers drop an entry without telling the worker -/

section Issues

variable {P : Cmd → Prop} (hP : ∀ c, (∀ id n, c ≠ .evict id n) → P c)

include hP

theorem issues_startAgent (id : AgentId) : (startAgent id).Issues P := by
  have hcall : ∀ c : Cmd, (∀ id n, c ≠ .evict id n) → (call c : Program (Ans c)).Issues P :=
    fun c hc => issues_call (hP c hc)
  have hset : (discard (call (Cmd.setAgentStatus id .running none)) : Program Unit).Issues P :=
    (hcall _ (by simp)).bind fun _ => trivial
  refine (hcall .backgroundWritesAllowed (by simp)).bind fun allowed => ?_
  cases allowed with
  | false => trivial
  | true =>
    refine (hcall (.loadAgent id) (by simp)).bind fun loaded => ?_
    cases loaded with
    | none => trivial
    | some agent =>
      refine (hcall (.tryStart agent) (by simp)).bind fun admission => ?_
      cases admission with
      | present => trivial
      | refused reason => trivial
      | noSecret => trivial
      | forked kept =>
        cases kept with
        | false => trivial
        | true => exact hset
      | needsToken =>
        refine Issues.bind ((hcall (.updateToken id) (by simp)).bind fun _ => trivial) fun _ => ?_
        refine (hcall (.fork agent) (by simp)).bind fun kept => ?_
        cases kept with
        | false => trivial
        | true => exact hset

theorem issues_setStopped (id : AgentId) :
    (discard (call (Cmd.setAgentStatus id .stopped (some .running))) : Program Unit).Issues P :=
  (issues_call (hP _ (by simp))).bind fun _ => trivial

theorem issues_stopAgent (id : AgentId) : (stopAgent id).Issues P :=
  (issues_call (hP _ (by simp))).bind fun _ => (issues_call (hP _ (by simp))).bind fun _ => trivial

theorem issues_signalAgent (id : AgentId) (suspended : Bool) :
    (signalAgent id suspended).Issues P := by
  refine (issues_call (hP _ (by simp))).bind fun has => ?_
  cases (has : Bool) with
  | false => trivial
  | true => exact (issues_call (hP _ (by simp))).bind fun _ => trivial

theorem issues_autoRestart (id : AgentId) : (autoRestart id).Issues P := by
  refine (issues_call (hP .backgroundWritesAllowed (by simp))).bind fun allowed => ?_
  cases allowed with
  | false => trivial
  | true =>
    refine (issues_call (hP (.loadAgent id) (by simp))).bind fun loaded => ?_
    cases loaded with
    | none => trivial
    | some a =>
      simp only
      split
      · trivial
      · refine (issues_call (hP (.hasProcess id) (by simp))).bind fun has => ?_
        cases (has : Bool) with
        | true => trivial
        | false =>
          refine (issues_startAgent hP id).attempt.bind fun started => ?_
          cases started with
          | ok u => trivial
          | error e => exact issues_setStopped hP id

theorem issues_markNotRestarted (a : DeployedAgent) (reason : NotRestarted) :
    (markNotRestarted a reason).Issues P := by
  refine Issues.bind (Issues.attempt ?_) fun _ => trivial
  refine (issues_call (hP (.hasProcess a.id) (by simp))).bind fun has => ?_
  cases (has : Bool) with
  | true => exact issues_call (hP _ (by simp))
  | false => exact (issues_setStopped hP a.id).bind fun _ => issues_call (hP _ (by simp))

theorem issues_startEach (agents : List DeployedAgent) : (startEach agents).Issues P := by
  induction agents with
  | nil => trivial
  | cons a rest ih =>
    refine (issues_startAgent hP a.id).attempt.bind fun started => ?_
    cases started with
    | ok u => exact ih
    | error cause => exact (issues_markNotRestarted hP a _).bind fun _ => ih

theorem issues_markEach (agents : List DeployedAgent) : (markEach config agents).Issues P := by
  induction agents with
  | nil => trivial
  | cons a rest ih =>
    refine (issues_call (hP (.ownerIsFull a.ownerAddress) (by simp))).bind fun full => ?_
    cases (full : Bool) with
    | true => exact (issues_markNotRestarted hP a _).bind fun _ => ih
    | false => exact (issues_markNotRestarted hP a _).bind fun _ => ih

theorem issues_reconcileAgents : (reconcileAgents config).Issues P := by
  refine (issues_call (hP .backgroundWritesAllowed (by simp))).bind fun allowed => ?_
  cases allowed with
  | false => trivial
  | true =>
    refine (issues_call (hP .loadAllAgents (by simp))).attempt.bind fun loaded => ?_
    cases loaded with
    | error e => trivial
    | ok agents =>
      refine (issues_call (hP (.plan agents) (by simp))).bind fun planned => ?_
      exact (issues_startEach hP _).bind fun _ => issues_markEach hP _

theorem issues_reapEntry (id : AgentId) (child : Nat) : (reapEntry id child).Issues P := by
  refine Issues.bind (Issues.attempt ?_) fun reaped => ?_
  · refine (issues_call (hP (.isAlive id) (by simp))).bind fun alive => ?_
    cases (alive : Bool) with
    | true => trivial
    | false => exact (issues_call (hP _ (by simp))).bind fun _ => issues_setStopped hP id
  · cases reaped with
    | ok u => trivial
    | error e => exact issues_call (hP _ (by simp))

end Issues

/-- The handler is that of a worker's end. -/
def Occasion.Ends (o : Occasion) (id : AgentId) (n : Nat) : Prop :=
  (∃ code signal, o = .exit id n code signal) ∨ o = .error id n

/-- Entries are dropped in silence only by those handlers, for that worker. -/
def Proper (o : Occasion) (c : Cmd) : Prop := ∀ id n, c = .evict id n → o.Ends id n

theorem handler_proper (o : Occasion) : (handler config o).Issues (Proper o) := by
  have hP : ∀ c, (∀ id n, c ≠ .evict id n) → Proper o c := fun c hc id n heq => absurd heq (hc id n)
  cases o with
  | start id => exact issues_startAgent hP id
  | stop id => exact issues_stopAgent hP id
  | restart id => exact (issues_stopAgent hP id).bind fun _ => issues_startAgent hP id
  | signal id suspended => exact issues_signalAgent hP id suspended
  | exit id child code signal =>
    refine (issues_call ?_).bind fun evicted => ?_
    · rintro id' n heq
      cases heq
      exact .inl ⟨code, signal, rfl⟩
    · cases evicted with
      | none => trivial
      | some wasIntentional =>
        refine (issues_call (hP (.loadAgent id) (by simp))).bind fun a => ?_
        refine (issues_call (hP _ (by simp))).bind fun settled => ?_
        cases settled with
        | restarting => trivial
        | looped => exact issues_setStopped hP id
        | ended =>
          simp only
          split
          · exact issues_setStopped hP id
          · trivial
  | error id child =>
    refine (issues_call ?_).bind fun evicted => ?_
    · rintro id' n heq
      cases heq
      exact .inr rfl
    · cases evicted with
      | none => trivial
      | some wasIntentional => exact issues_setStopped hP id
  | timer id => exact issues_autoRestart hP id
  | reconcile => exact issues_reconcileAgents hP
  | reap id child => exact issues_reapEntry hP id child
  | writesStopped => exact issues_call (hP _ (by simp))
  | taskStarted id child task => exact issues_call (hP _ (by simp))
  | taskFinished id child task completed => exact issues_call (hP _ (by simp))

/-! ## Lost workers -/

theorem step_tags {b c : Pool Ans Failure Unit Call State} {e : Ev}
    (h : Async.Step (service config) b e c) :
    ∀ th ∈ c.threads, (∃ th' ∈ b.threads, th'.tag = th.tag) ∨
      ∃ s₁, th.tag.occasion.Arises b.state s₁ := by
  intro th hth
  cases h with
  | run l₁ l₂ t cmd k ans hx =>
    refine .inl ?_
    simp only [List.mem_append, List.mem_cons] at hth ⊢
    rcases hth with hth | rfl | hth
    · exact ⟨th, .inl hth, rfl⟩
    · exact ⟨_, .inr (.inl rfl), rfl⟩
    · exact ⟨th, .inr (.inr hth), rfl⟩
  | start l t p hx =>
    rcases List.mem_cons.1 hth with rfl | hth
    · obtain ⟨-, -, s₁, harises, -⟩ := hx
      exact .inr ⟨s₁, harises⟩
    · exact .inl ⟨th, hth, rfl⟩
  | finish l₁ l₂ t ans =>
    refine .inl ⟨th, ?_, rfl⟩
    simp only [List.mem_append, List.mem_cons] at hth ⊢
    tauto
  | env l hx => exact .inl ⟨th, hth, rfl⟩
  | die l₁ l₂ t p hx =>
    refine .inl ⟨th, ?_, rfl⟩
    simp only [List.mem_append, List.mem_cons] at hth ⊢
    tauto

/-- The handler of a worker's end runs only after it. -/
theorem ended_run (h : PoolRun (service config) ⟨s₀, []⟩ tr pool) :
    ∀ th ∈ pool.threads, ∀ id n, th.tag.occasion.Ends id n →
      ∃ child : Child, pool.state.runner.children[n]? = some child ∧ child.gone = true := by
  refine Run.relates (R := fun _ c => ∀ th ∈ c.threads, ∀ id n, th.tag.occasion.Ends id n →
    ∃ child : Child, c.state.runner.children[n]? = some child ∧ child.gone = true) h (by simp) ?_
  intro b e c hb hs th hth id n hends
  have hgrown : Grown b.state.runner.children c.state.runner.children := by
    rcases step_runner hs with ⟨t, cmd, ans, -, hm⟩ | ⟨-, -, -, hg⟩
    · exact hm.grown
    · exact hg
  have hgone : ∃ child : Child, b.state.runner.children[n]? = some child ∧ child.gone = true := by
    rcases step_tags hs th hth with ⟨th', hth', htag⟩ | ⟨s₁, harises⟩
    · exact hb th' hth' id n (htag ▸ hends)
    · rcases hends with ⟨code, signal, heq⟩ | heq
      · rw [heq] at harises
        obtain ⟨-, child, hchild, -, hgone⟩ := harises
        exact ⟨child, hchild, hgone⟩
      · rw [heq] at harises
        obtain ⟨-, child, hchild, -, hgone⟩ := harises
        exact ⟨child, hchild, hgone⟩
  obtain ⟨child, hchild, hgone⟩ := hgone
  obtain ⟨child', hchild', -, -, hkeeps⟩ := hgrown n child hchild
  exact ⟨child', hchild', hkeeps hgone⟩

/-- The step dropped worker `n` of the agent from the map though it was none of its business: the
reaper had looked at another worker, or a start that minted a token did not look again. -/
def Displaces (n : Nat) (id : AgentId) (e : Ev) : Prop :=
  e.pre.runner.processes.lookup id = some n ∧ ∃ t : Call,
    (∃ m ans, m ≠ n ∧ e.label = .ran t (.reap id m) ans) ∨
      ∃ (agent : DeployedAgent) (ans : Except Failure (Ans (.fork agent))),
        agent.id = id ∧ e.label = .ran t (.fork agent) ans

/-- A worker that runs is in the map, was told to stop or was displaced. -/
def Held (tr : List Ev) (r : Runner) : Prop :=
  ∀ (n : Nat) (child : Child), r.children[n]? = some child → child.gone = false →
    child.intentional = false →
      r.processes.lookup child.agent = some n ∨ ∃ e ∈ tr, Displaces n child.agent e

/-- The worker's past: it was there before the step and ran, or the step forked it. -/
theorem Grown.before {before after : List Child} (h : Grown before after) {n : Nat} {child : Child}
    (hchild : after[n]? = some child) (hgone : child.gone = false)
    (hint : child.intentional = false) (hn : n < before.length) : ∃ child₀ : Child,
    before[n]? = some child₀ ∧ child₀.agent = child.agent ∧ child₀.gone = false ∧
      child₀.intentional = false := by
  obtain ⟨child', hchild', hagent, hintKept, hgoneKept⟩ := h n before[n] (List.getElem?_eq_getElem hn)
  rw [hchild] at hchild'
  cases hchild'
  refine ⟨before[n], List.getElem?_eq_getElem hn, hagent.symm, ?_, ?_⟩
  · cases hb : before[n].gone with
    | false => rfl
    | true => exact absurd (hgoneKept hb) (by simp [hgone])
  · cases hb : before[n].intentional with
    | false => rfl
    | true => exact absurd (hintKept hb) (by simp [hint])

theorem Held.weaken {e : Ev} {n : Nat} {id : AgentId}
    (h : r'.processes.lookup id = some n ∨ ∃ e' ∈ tr, Displaces n id e') :
    r'.processes.lookup id = some n ∨ ∃ e' ∈ e :: tr, Displaces n id e' := by
  rcases h with h | ⟨e', he', hd⟩
  · exact .inl h
  · exact .inr ⟨e', List.mem_cons_of_mem _ he', hd⟩

theorem Held.of_same {e : Ev} (h : Held tr r) (hp : r'.processes = r.processes)
    (hlen : r'.children.length = r.children.length) (hg : Grown r.children r'.children) :
    Held (e :: tr) r' := by
  intro n child hchild hgone hint
  have hn : n < r.children.length := hlen ▸ (List.getElem?_eq_some_iff.1 hchild).1
  obtain ⟨child₀, hchild₀, hagent, hgone₀, hint₀⟩ := hg.before hchild hgone hint hn
  refine Held.weaken ?_
  rw [hp, ← hagent]
  exact h n child₀ hchild₀ hgone₀ hint₀

/-- A worker is forked, and the one it takes the place of is lost, if there is one. -/
theorem Held.forked {e : Ev} {agent : DeployedAgent} (h : Held tr r) (hf : Forked r agent r')
    (hg : Grown r.children r'.children)
    (hlost : ∀ n, r.processes.lookup agent.id = some n → Displaces n agent.id e) :
    Held (e :: tr) r' := by
  intro n child hchild hgone hint
  obtain ⟨new, hnew, hch⟩ := hf.children
  rw [hf.processes, lookup_setKey]
  by_cases hn : n < r.children.length
  · obtain ⟨child₀, hchild₀, hagent, hgone₀, hint₀⟩ := hg.before hchild hgone hint hn
    rw [← hagent]
    by_cases hid : child₀.agent = agent.id
    · rcases h n child₀ hchild₀ hgone₀ hint₀ with hn | ⟨e', he', hd⟩
      · rw [hid] at hn ⊢
        exact .inr ⟨e, List.mem_cons_self, hlost n hn⟩
      · exact .inr ⟨e', List.mem_cons_of_mem _ he', hd⟩
    · rw [if_neg hid]
      exact Held.weaken (h n child₀ hchild₀ hgone₀ hint₀)
  · have hlen := (List.getElem?_eq_some_iff.1 hchild).1
    rw [hch, List.length_append, List.length_singleton] at hlen
    obtain rfl : n = r.children.length := by omega
    rw [hch] at hchild
    simp only [List.getElem?_concat_length, Option.some.injEq] at hchild
    subst hchild
    exact .inl (if_pos hnew)

/-- An entry is dropped: its worker is told or gone, or it was not the one that was meant. -/
theorem Held.dropped {e : Ev} {id : AgentId} (h : Held tr r)
    (hp : r'.processes = deleteKey r.processes id)
    (hlen : r'.children.length = r.children.length) (hg : Grown r.children r'.children)
    (hlost : ∀ n child, r.processes.lookup id = some n → r'.children[n]? = some child →
      child.gone = false → child.intentional = false → Displaces n id e) :
    Held (e :: tr) r' := by
  intro n child hchild hgone hint
  have hn : n < r.children.length := hlen ▸ (List.getElem?_eq_some_iff.1 hchild).1
  obtain ⟨child₀, hchild₀, hagent, hgone₀, hint₀⟩ := hg.before hchild hgone hint hn
  rw [hp, lookup_deleteKey, ← hagent]
  by_cases hid : child₀.agent = id
  · rcases h n child₀ hchild₀ hgone₀ hint₀ with hn | ⟨e', he', hd⟩
    · rw [hid] at hn ⊢
      exact .inr ⟨e, List.mem_cons_self, hlost n child hn hchild hgone hint⟩
    · exact .inr ⟨e', List.mem_cons_of_mem _ he', hd⟩
  · rw [if_neg hid]
    exact Held.weaken (h n child₀ hchild₀ hgone₀ hint₀)

theorem Held.moved {e : Ev} {t : Call} {ans : Except Failure (Ans c)} (h : Held tr r)
    (hm : Moved config r c r') (hpre : e.pre.runner = r) (hlabel : e.label = .ran t c ans)
    (hended : ∀ id n, c = .evict id n →
      ∃ child : Child, r.children[n]? = some child ∧ child.gone = true) :
    Held (e :: tr) r' := by
  have hg := hm.grown
  cases hm with
  | kept hp ho hc => exact h.of_same hp (by rw [hc]) hg
  | admitted hnone hpool howner hf =>
    refine h.forked hf hg fun n hn => ?_
    rw [hnone] at hn
    cases hn
  | @minted agent r' hf =>
    exact h.forked hf hg fun n hn => ⟨hpre ▸ hn, t, .inr ⟨agent, ans, rfl, hlabel⟩⟩
  | barred hc hp ho hch =>
    obtain ⟨new, ⟨-, hnew⟩, hch⟩ := hch
    intro n child hchild hgone hint
    by_cases hn : n < r.children.length
    · obtain ⟨child₀, hchild₀, hagent, hgone₀, hint₀⟩ := hg.before hchild hgone hint hn
      refine Held.weaken ?_
      rw [hp, ← hagent]
      exact h n child₀ hchild₀ hgone₀ hint₀
    · have hlen := (List.getElem?_eq_some_iff.1 hchild).1
      rw [hch, List.length_append, List.length_singleton] at hlen
      obtain rfl : n = r.children.length := by omega
      rw [hch] at hchild
      simp only [List.getElem?_concat_length, Option.some.injEq] at hchild
      rw [← hchild, hnew] at hint
      cases hint
  | told id m hc hp ho hch =>
    refine h.dropped hp (by rw [hch, List.length_modify]) hg fun n child hn hchild hgone hint => ?_
    have hne : m ≠ n := by
      rintro rfl
      rw [hch, List.getElem?_modify_eq] at hchild
      obtain ⟨child₀, -, rfl⟩ := Option.map_eq_some_iff.1 hchild
      cases hint
    rcases hc with ⟨-, hm⟩ | rfl
    · rw [hm] at hn
      exact absurd (Option.some.inj hn) hne
    · exact ⟨hpre ▸ hn, t, .inl ⟨m, ans, hne, hlabel⟩⟩
  | signalled id m suspended hn hp ho hch => exact h.of_same hp (by rw [hch, List.length_modify]) hg
  | evicted id m hm hp ho hch =>
    refine h.dropped hp (by rw [hch]) hg fun n child hn hchild hgone hint => ?_
    obtain ⟨child₀, hchild₀, hgone₀⟩ := hended id m rfl
    rw [hm] at hn
    cases hn
    rw [hch, hchild₀] at hchild
    cases hchild
    rw [hgone₀] at hgone
    cases hgone
  | allTold hp ho hch =>
    intro n child hchild hgone hint
    rw [hch, getElem?_allTold] at hchild
    obtain ⟨child₀, hchild₀, heq⟩ := Option.map_eq_some_iff.1 hchild
    by_cases hmem : n ∈ r.processes.map Prod.snd
    · rw [if_pos hmem] at heq
      rw [← heq] at hint
      cases hint
    · rw [if_neg hmem] at heq
      subst heq
      rcases h n child₀ hchild₀ hgone hint with hn | ⟨e', he', hd⟩
      · exact absurd (List.mem_map.2 ⟨_, mem_of_lookup hn, rfl⟩) hmem
      · exact .inr ⟨e', List.mem_cons_of_mem _ he', hd⟩

/-- Every worker that runs is in the map of its agent or was told to stop, unless the reaper or a
start that minted a token displaced it. -/
theorem workers_held (h : PoolRun (service config) ⟨s₀, []⟩ tr pool) (h₀ : Fresh s₀) :
    Held tr pool.state.runner := by
  refine Run.invariant (I := fun tr c => Held tr c.state.runner) h ?_ ?_
  · intro n child hchild
    rw [h₀.children] at hchild
    cases hchild
  · intro tr b e c hrun hb hs
    have hended := ended_run hrun
    have hissues := issues_run (P := fun t => Proper t.occasion) hrun (by simp) (by
      rintro tags s t p s' ⟨-, rfl, -⟩
      exact handler_proper t.occasion)
    cases hs with
    | @run s s' l₁ l₂ t cmd k ans hx =>
      obtain ⟨x, hx⟩ := hx
      have hm := act_moved config s.runner cmd
      rw [← respond_runner hx] at hm
      have hproper := (hissues ⟨t, .await cmd k⟩ (by simp)).1
      refine hb.moved (e := ⟨.ran t cmd ans, s, s'⟩) hm rfl rfl fun id n heq => ?_
      exact hended ⟨t, .await cmd k⟩ (by simp) id n (hproper id n heq)
    | start l t p hx =>
      obtain ⟨-, -, s₁, harises, rfl⟩ := hx
      obtain ⟨hrunner, -⟩ := harises.runner
      refine hb.of_same ?_ ?_ ?_
      · simp only
        rw [hrunner]
      · simp only
        rw [hrunner]
      · simp only
        rw [hrunner]
        exact Grown.refl _
    | finish l₁ l₂ t ans => exact hb.of_same rfl rfl (Grown.refl _)
    | env l hx =>
      have hg := hx.grown
      obtain ⟨rows, children, now, slotsFree, writes, -, hch, rfl⟩ := hx
      exact hb.of_same rfl hch.length_eq.symm hg
    | die l₁ l₂ t p hx =>
      cases hx
      exact hb.of_same rfl rfl (Grown.refl _)

theorem workers_held_paused : Held pausedRun.1 pausedRun.2.state.runner :=
  workers_held paused_run demoState_fresh

/-! ## Workers told to stop while they were paused -/

/-- A suspended worker that was told to stop and is in nobody's entry. -/
def Abandoned (n : Nat) (r : Runner) : Prop :=
  (∀ id, r.processes.lookup id ≠ some n) ∧ ∃ child : Child,
    r.children[n]? = some child ∧ child.suspended = true ∧ child.intentional = true

theorem Abandoned.of_same {n : Nat} (h : Abandoned n r)
    (hp : ∀ id, r'.processes.lookup id = some n → r.processes.lookup id = some n)
    (hch : r'.children[n]? = r.children[n]?) : Abandoned n r' := by
  obtain ⟨hnone, hchild⟩ := h
  exact ⟨fun id hn => hnone id (hp id hn), hch ▸ hchild⟩

theorem Abandoned.forked {n : Nat} {agent : DeployedAgent} (h : Abandoned n r)
    (hf : Forked r agent r') : Abandoned n r' ∧ r'.children[n]? = r.children[n]? := by
  obtain ⟨new, -, hch⟩ := hf.children
  obtain ⟨child, hchild, -⟩ := h.2
  have hn := (List.getElem?_eq_some_iff.1 hchild).1
  have hsame : r'.children[n]? = r.children[n]? := by
    rw [hch, List.getElem?_append_left hn]
  refine ⟨h.of_same ?_ hsame, hsame⟩
  intro id heq
  rw [hf.processes, lookup_setKey] at heq
  split at heq
  · cases heq
    exact absurd hn (lt_irrefl _)
  · exact heq

/-- No command touches it. -/
theorem Abandoned.moved {n : Nat} (h : Abandoned n r) (htracked : Tracked r)
    (hm : Moved config r c r') : Abandoned n r' ∧ r'.children[n]? = r.children[n]? := by
  obtain ⟨child, hchild, -, hint⟩ := h.2
  have hdelete : ∀ id id', (deleteKey r.processes id).lookup id' = some n →
      r.processes.lookup id' = some n := by
    intro id id' heq
    rw [lookup_deleteKey] at heq
    split at heq
    · cases heq
    · exact heq
  cases hm with
  | kept hp ho hc =>
    have hsame : r'.children[n]? = r.children[n]? := by rw [hc]
    exact ⟨h.of_same (fun id heq => hp ▸ heq) hsame, hsame⟩
  | admitted hnone hpool howner hf => exact h.forked hf
  | minted hf => exact h.forked hf
  | barred hc hp ho hch =>
    obtain ⟨new, -, hch⟩ := hch
    have hsame : r'.children[n]? = r.children[n]? := by
      rw [hch, List.getElem?_append_left (List.getElem?_eq_some_iff.1 hchild).1]
    exact ⟨h.of_same (fun id heq => hp ▸ heq) hsame, hsame⟩
  | told id m hc hp ho hch =>
    have hsame : r'.children[n]? = r.children[n]? := by
      rw [hch, List.getElem?_modify, hchild]
      by_cases hmn : m = n
      · -- It was told before.
        have htold : child.terminate = child := by
          cases child
          simp_all [Child.terminate]
        simp [hmn, htold]
      · simp [hmn]
    refine ⟨h.of_same (fun id' heq => hdelete id id' (hp ▸ heq)) hsame, hsame⟩
  | signalled id m suspended hn hp ho hch =>
    have hmn : m ≠ n := by
      rintro rfl
      exact h.1 id hn
    have hsame : r'.children[n]? = r.children[n]? := by
      rw [hch, List.getElem?_modify]
      simp [hmn]
    exact ⟨h.of_same (fun id heq => hp ▸ heq) hsame, hsame⟩
  | evicted id m hn hp ho hch =>
    have hsame : r'.children[n]? = r.children[n]? := by rw [hch]
    exact ⟨h.of_same (fun id' heq => hdelete id id' (hp ▸ heq)) hsame, hsame⟩
  | allTold hp ho hch =>
    have hmem : n ∉ r.processes.map Prod.snd := by
      intro hmem
      obtain ⟨entry, hentry, heq⟩ := List.mem_map.1 hmem
      exact h.1 entry.1 (heq ▸ lookup_of_mem htracked.keys hentry)
    have hsame : r'.children[n]? = r.children[n]? := by
      rw [hch, getElem?_allTold, hchild]
      simp [hmem]
    refine ⟨h.of_same (fun id heq => ?_) hsame, hsame⟩
    rw [hp] at heq
    cases heq

/-- The worker that is told to stop is in nobody's entry afterwards. -/
theorem stop_abandons {id : AgentId} {n : Nat} {child : Child} (h : Tracked r)
    (hn : r.processes.lookup id = some n) (hchild : r.children[n]? = some child)
    (hpaused : child.suspended = true) : Abandoned n (r.stop id) := by
  have hstop : (r.stop id).processes = deleteKey r.processes id ∧
      (r.stop id).children = r.children.modify n Child.terminate := by
    rw [Runner.stop, Runner.drop, hn]
    exact ⟨rfl, rfl⟩
  constructor
  · intro id' heq
    rw [hstop.1, lookup_deleteKey] at heq
    split at heq
    · cases heq
    · next hne =>
      obtain ⟨child₁, hchild₁, hagent₁⟩ := h.known id n hn
      obtain ⟨child₂, hchild₂, hagent₂⟩ := h.known id' n heq
      rw [hchild₁] at hchild₂
      cases hchild₂
      exact hne (hagent₂.symm.trans hagent₁)
  · refine ⟨child.terminate, ?_, hpaused, rfl⟩
    rw [hstop.2, List.getElem?_modify_eq, hchild]
    rfl

/-- Nothing from outside continues it. -/
theorem Abandoned.outside {n : Nat} (h : Abandoned n s.runner) (hout : Outside s s') :
    Abandoned n s'.runner := by
  obtain ⟨rows, children, now, slotsFree, writes, -, hch, rfl⟩ := hout
  obtain ⟨hnone, child, hchild, hsusp, hint⟩ := h
  obtain ⟨hlt, hget⟩ := List.getElem?_eq_some_iff.1 hchild
  have hlt' : n < children.length := hch.length_eq ▸ hlt
  have hone := (List.forall₂_iff_get.1 hch).2 n hlt hlt'
  simp only [List.get_eq_getElem, hget] at hone
  refine ⟨hnone, children[n], List.getElem?_eq_getElem hlt', ?_⟩
  rcases hone with heq | heq
  · rw [heq]
    exact ⟨hsusp, hint⟩
  · rw [heq]
    exact ⟨hsusp, hint⟩

/-- A worker that is paused when it is told to stop stays paused: it is counted nowhere, nothing
continues it, and no handler ever touches it again. -/
theorem paused_stop_is_final {later earlier : List Ev} {e : Ev} {t : Call} {id : AgentId} {n : Nat}
    {child : Child} {ans : Except Failure (Ans (.stop id))}
    (h : PoolRun (service config) ⟨s₀, []⟩ (later ++ e :: earlier) pool) (h₀ : Fresh s₀)
    (he : e.label = .ran t (.stop id) ans) (hn : e.pre.runner.processes.lookup id = some n)
    (hchild : e.pre.runner.children[n]? = some child) (hpaused : child.suspended = true) :
    Abandoned n pool.state.runner ∧
      ∀ e' ∈ later, e'.label ≠ .env → e'.post.runner.children[n]? = e'.pre.runner.children[n]? := by
  obtain ⟨b, b', hearlier, hstep, hlater⟩ := Run.split h
  have htracked := tracked_run hearlier h₀
  have hstates := hstep.states
  rw [hstates.1] at hn hchild
  have hmoved : Moved config b.state.runner (.stop id) b'.state.runner ∧
      b'.state.runner = b.state.runner.stop id := by
    cases hstep with
    | run l₁ l₂ t' cmd k ans' hx =>
      cases he
      obtain ⟨x, hx⟩ := hx
      have hrunner := respond_runner hx
      exact ⟨hrunner ▸ act_moved config _ _, hrunner⟩
    | _ => cases he
  have hstart : Abandoned n b'.state.runner := by
    rw [hmoved.2]
    exact stop_abandons htracked hn hchild hpaused
  have hinv := Run.invariant (I := fun tr c => Tracked c.state.runner ∧
    Abandoned n c.state.runner ∧ ∀ e' ∈ tr, e'.label ≠ .env →
      e'.post.runner.children[n]? = e'.pre.runner.children[n]?) hlater
    ⟨htracked.moved hmoved.1, hstart, by simp⟩ ?_
  · exact hinv.2
  · intro tr b e c _ hb hs
    obtain ⟨htr, hab, hpast⟩ := hb
    have hpast' : (e.label ≠ .env → c.state.runner.children[n]? = b.state.runner.children[n]?) →
        ∀ e' ∈ e :: tr, e'.label ≠ .env →
          e'.post.runner.children[n]? = e'.pre.runner.children[n]? := by
      intro hnow e' he'
      rcases List.mem_cons.1 he' with rfl | he'
      · rw [hs.states.1, hs.states.2]
        exact hnow
      · exact hpast e' he'
    cases hs with
    | @run s s' l₁ l₂ t cmd k ans hx =>
      obtain ⟨x, hx⟩ := hx
      have hm := act_moved config s.runner cmd
      rw [← respond_runner hx] at hm
      obtain ⟨hab', hsame⟩ := hab.moved htr hm
      exact ⟨htr.moved hm, hab', hpast' fun _ => hsame⟩
    | start l t p hx =>
      obtain ⟨-, -, s₁, harises, rfl⟩ := hx
      obtain ⟨hrunner, -⟩ := harises.runner
      simp only at hpast' ⊢
      rw [hrunner] at hpast' ⊢
      exact ⟨⟨htr.keys, htr.known⟩, hab, hpast' fun _ => rfl⟩
    | finish l₁ l₂ t ans => exact ⟨htr, hab, hpast' fun _ => rfl⟩
    | env l hx =>
      have hg := hx.grown
      have hab' := hab.outside hx
      obtain ⟨rows, children, now, slotsFree, writes, -, -, rfl⟩ := hx
      exact ⟨htr.of_grown rfl hg, hab', hpast' fun hne => absurd rfl hne⟩
    | die l₁ l₂ t p hx =>
      cases hx
      exact ⟨htr, hab, hpast' fun _ => rfl⟩

theorem paused_stop_is_final_paused : Abandoned 0 pausedRun.2.state.runner ∧
    ∀ e ∈ pausedRun.1.take 3, e.label ≠ .env →
      e.post.runner.children[0]? = e.pre.runner.children[0]? := by
  have hrun : PoolRun (service demoConfig) ⟨demoState, []⟩
      (pausedRun.1.take 3 ++ pausedRun.1.get ⟨3, by decide⟩ :: pausedRun.1.drop 4) pausedRun.2 :=
    paused_run
  exact paused_stop_is_final hrun demoState_fresh rfl rfl rfl rfl

end AgentRunner
