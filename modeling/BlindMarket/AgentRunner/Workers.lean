import BlindMarket.AgentRunner.Moves

/-!
# The limits of the pool

The map of workers never holds more than the limits allow, but for starts that
had to mint a token first: those fork without another look.
-/
namespace AgentRunner

open Async Prog Runs

variable {config : Config} {r r' : Runner} {c : Cmd} {s s' s₀ : State} {tr : List Ev}
  {pool : Pool Ans Failure Unit Call State}

/-! ## Workers through time -/

/-- Workers are only added, and what happened to one stays. -/
def Grown (before after : List Child) : Prop :=
  ∀ (n : Nat) (c : Child), before[n]? = some c → ∃ c' : Child, after[n]? = some c' ∧
    c'.agent = c.agent ∧ (c.intentional = true → c'.intentional = true) ∧
      (c.gone = true → c'.gone = true)

theorem Grown.refl (children : List Child) : Grown children children :=
  fun _ c h => ⟨c, h, rfl, id, id⟩

theorem grown_append (children : List Child) (child : Child) :
    Grown children (children ++ [child]) := by
  intro n c h
  have hlt := (List.getElem?_eq_some_iff.1 h).1
  exact ⟨c, by rw [List.getElem?_append_left hlt, h], rfl, id, id⟩

theorem grown_modify {f : Child → Child} (children : List Child) (m : Nat)
    (hf : ∀ c : Child, (f c).agent = c.agent ∧
      (c.intentional = true → (f c).intentional = true) ∧ (f c).gone = c.gone) :
    Grown children (children.modify m f) := by
  intro n c h
  obtain ⟨hagent, hint, hgone⟩ := hf c
  rw [List.getElem?_modify, h]
  by_cases hm : m = n
  · exact ⟨f c, by simp [hm], hagent, hint, fun hg => hgone.trans hg⟩
  · exact ⟨c, by simp [hm], rfl, id, id⟩

theorem getElem?_allTold (processes : List (AgentId × Nat)) (children : List Child) (n : Nat) :
    (processes.foldl (fun children entry => children.modify entry.2 Child.terminate) children)[n]? =
      children[n]?.map fun c => if n ∈ processes.map Prod.snd then c.terminate else c := by
  induction processes generalizing children with
  | nil => simp
  | cons entry rest ih =>
    rw [List.foldl_cons, ih, List.getElem?_modify]
    cases children[n]? with
    | none => simp
    | some c =>
      by_cases h : entry.2 = n
      · subst h
        simp only [List.map_cons, List.mem_cons, true_or, if_true, Option.map_some,
          Option.map_eq_map]
        split <;> rfl
      · have hmem : n ∈ (entry :: rest).map Prod.snd ↔ n ∈ rest.map Prod.snd := by
          simp only [List.map_cons, List.mem_cons, Ne.symm h, false_or]
        simp only [hmem, if_neg h]
        rfl

theorem Moved.grown (h : Moved config r c r') : Grown r.children r'.children := by
  cases h with
  | kept hp ho hc => exact hc ▸ Grown.refl _
  | admitted hnone hpool howner h =>
    obtain ⟨child, -, hch⟩ := h.children
    exact hch ▸ grown_append _ _
  | minted h =>
    obtain ⟨child, -, hch⟩ := h.children
    exact hch ▸ grown_append _ _
  | barred hc hp ho hch =>
    obtain ⟨child, -, hch⟩ := hch
    exact hch ▸ grown_append _ _
  | told id n hc hp ho hch =>
    exact hch ▸ grown_modify _ _ fun c => ⟨rfl, fun _ => rfl, rfl⟩
  | signalled id n suspended hn hp ho hch =>
    exact hch ▸ grown_modify _ _ fun c => ⟨rfl, fun hi => hi, rfl⟩
  | evicted id n hn hp ho hch => exact hch ▸ Grown.refl _
  | allTold hp ho hch =>
    intro n c hc
    rw [hch, getElem?_allTold, hc]
    refine ⟨_, rfl, ?_⟩
    split
    · exact ⟨rfl, fun _ => rfl, id⟩
    · exact ⟨rfl, id, id⟩

theorem Outside.grown (h : Outside s s') : Grown s.runner.children s'.runner.children := by
  obtain ⟨rows, children, now, slotsFree, writes, -, hch, rfl⟩ := h
  intro n c hc
  obtain ⟨hlt, hget⟩ := List.getElem?_eq_some_iff.1 hc
  have hlt' : n < children.length := hch.length_eq ▸ hlt
  have hone := (List.forall₂_iff_get.1 hch).2 n hlt hlt'
  simp only [List.get_eq_getElem, hget] at hone
  refine ⟨children[n], List.getElem?_eq_getElem hlt', ?_⟩
  rcases hone with heq | heq
  · rw [heq]
    exact ⟨rfl, id, id⟩
  · rw [heq]
    exact ⟨rfl, id, fun _ => rfl⟩

/-! ## The map -/

/-- The map has an agent once, with a worker of that agent. -/
structure Tracked (r : Runner) : Prop where
  keys : (r.processes.map Prod.fst).Nodup
  known : ∀ (id : AgentId) (n : Nat), r.processes.lookup id = some n →
    ∃ child : Child, r.children[n]? = some child ∧ child.agent = id

theorem Tracked.of_grown (h : Tracked r) (hp : r'.processes = r.processes)
    (hg : Grown r.children r'.children) : Tracked r' where
  keys := hp ▸ h.keys
  known := by
    intro id n hn
    rw [hp] at hn
    obtain ⟨child, hchild, hagent⟩ := h.known id n hn
    obtain ⟨child', hchild', hagent', -⟩ := hg n child hchild
    exact ⟨child', hchild', hagent'.trans hagent⟩

theorem Tracked.of_delete {id : AgentId} (h : Tracked r)
    (hp : r'.processes = deleteKey r.processes id) (hg : Grown r.children r'.children) :
    Tracked r' where
  keys := hp ▸ keys_deleteKey h.keys id
  known := by
    intro id' n hn
    rw [hp, lookup_deleteKey] at hn
    split at hn
    · cases hn
    · obtain ⟨child, hchild, hagent⟩ := h.known id' n hn
      obtain ⟨child', hchild', hagent', -⟩ := hg n child hchild
      exact ⟨child', hchild', hagent'.trans hagent⟩

theorem Tracked.forked {agent : DeployedAgent} (h : Tracked r) (hf : Forked r agent r')
    (hg : Grown r.children r'.children) : Tracked r' where
  keys := hf.processes ▸ nodup_setKey h.keys _ _
  known := by
    intro id n hn
    rw [hf.processes, lookup_setKey] at hn
    split at hn
    · next hid =>
      cases hn
      obtain ⟨child, hagent, hch⟩ := hf.children
      exact ⟨child, by simp [hch], hagent.trans hid.symm⟩
    · obtain ⟨child, hchild, hagent⟩ := h.known id n hn
      obtain ⟨child', hchild', hagent', -⟩ := hg n child hchild
      exact ⟨child', hchild', hagent'.trans hagent⟩

theorem Tracked.moved (h : Tracked r) (hm : Moved config r c r') : Tracked r' := by
  have hg := hm.grown
  cases hm with
  | kept hp ho hc => exact h.of_grown hp hg
  | admitted hnone hpool howner hf => exact h.forked hf hg
  | minted hf => exact h.forked hf hg
  | barred hc hp ho hch => exact h.of_grown hp hg
  | told id n hc hp ho hch => exact h.of_delete hp hg
  | signalled id n suspended hn hp ho hch => exact h.of_grown hp hg
  | evicted id n hn hp ho hch => exact h.of_delete hp hg
  | allTold hp ho hch =>
    refine ⟨by simp [hp], ?_⟩
    intro id n hn
    rw [hp] at hn
    cases hn

/-- A process that has just started. -/
structure Fresh (s : State) : Prop where
  processes : s.runner.processes = []
  children : s.runner.children = []
  restartTimes : s.runner.restartTimes = []
  crashMemory : s.runner.crashMemory = []
  inFlightTasks : s.runner.inFlightTasks = []
  timers : s.runner.timers = []

theorem demoState_fresh : Fresh demoState := ⟨rfl, rfl, rfl, rfl, rfl, rfl⟩

theorem Fresh.tracked (h : Fresh s) : Tracked s.runner where
  keys := by simp [h.processes]
  known := by
    intro id n hn
    rw [h.processes] at hn
    cases hn

/-- The runner through a step: a command, or nothing but the workers' ends. -/
theorem step_runner {b c : Pool Ans Failure Unit Call State} {e : Ev}
    (h : Async.Step (service config) b e c) :
    (∃ t cmd ans, e.label = .ran t cmd ans ∧
      Moved config b.state.runner cmd c.state.runner) ∨
    (∀ t cmd ans, e.label ≠ .ran t cmd ans) ∧ c.state.runner.processes = b.state.runner.processes ∧
      c.state.runner.processOwners = b.state.runner.processOwners ∧
      Grown b.state.runner.children c.state.runner.children := by
  cases h with
  | run l₁ l₂ t cmd k ans hx =>
    obtain ⟨x, hx⟩ := hx
    have hrunner := respond_runner hx
    exact .inl ⟨t, cmd, ans, rfl, hrunner ▸ act_moved config _ cmd⟩
  | start l t p hx =>
    obtain ⟨-, -, s₁, harises, rfl⟩ := hx
    obtain ⟨hrunner, -⟩ := harises.runner
    refine .inr ⟨by rintro t cmd ans ⟨⟩, ?_⟩
    simp only
    rw [hrunner]
    exact ⟨rfl, rfl, Grown.refl _⟩
  | finish l₁ l₂ t ans => exact .inr ⟨by rintro t cmd ans ⟨⟩, rfl, rfl, Grown.refl _⟩
  | env l hx =>
    have hg := hx.grown
    obtain ⟨rows, children, now, slotsFree, writes, -, -, rfl⟩ := hx
    exact .inr ⟨by rintro t cmd ans ⟨⟩, rfl, rfl, hg⟩
  | die l₁ l₂ t p hx =>
    cases hx
    exact .inr ⟨by rintro t cmd ans ⟨⟩, rfl, rfl, Grown.refl _⟩

theorem tracked_run (h : PoolRun (service config) ⟨s₀, []⟩ tr pool) (h₀ : Fresh s₀) :
    Tracked pool.state.runner := by
  refine Run.relates (R := fun _ c => Tracked c.state.runner) h h₀.tracked ?_
  intro b e c hb hs
  rcases step_runner hs with ⟨t, cmd, ans, -, hm⟩ | ⟨-, hp, -, hg⟩
  · exact hb.moved hm
  · exact hb.of_grown hp hg

/-! ## The limits -/

theorem countP_setKey_le {α : Type} {p q : Nat → Bool} {k : Nat} {v : α} {map : List (Nat × α)}
    (hkeys : (map.map Prod.fst).Nodup) (hp : ∀ j, j ≠ k → q j = p j) :
    (setKey k v map).countP (fun entry => q entry.1) ≤
      map.countP (fun entry => p entry.1) + if q k then 1 else 0 := by
  induction map with
  | nil => simp [setKey, List.countP_cons]
  | cons entry rest ih =>
    obtain ⟨j, w⟩ := entry
    obtain ⟨hj, hrest⟩ := List.nodup_cons.1 hkeys
    rw [setKey]
    by_cases h : j = k
    · subst h
      have hsame : rest.countP (fun entry => q entry.1) = rest.countP (fun entry => p entry.1) := by
        refine List.countP_congr fun entry hentry => ?_
        rw [hp]
        intro heq
        exact hj (List.mem_map.2 ⟨entry, hentry, heq⟩)
      rw [if_pos rfl, List.countP_cons, List.countP_cons, hsame]
      simp only
      omega
    · have hle := ih hrest
      rw [if_neg h, List.countP_cons, List.countP_cons]
      simp only [hp j h]
      omega

theorem Forked.live_le {agent : DeployedAgent} (h : Forked r agent r')
    (hkeys : (r.processes.map Prod.fst).Nodup) (owner : Owner) :
    r'.liveWorkersFor owner ≤
      r.liveWorkersFor owner + if agent.ownerAddress = owner then 1 else 0 := by
  have hle := countP_setKey_le (k := agent.id) (v := r.children.length)
    (p := fun j => decide (r.processOwners.lookup j = some owner))
    (q := fun j => decide (r'.processOwners.lookup j = some owner)) hkeys ?_
  · simp only [h.owners, lookup_setKey, if_true, Option.some.injEq, decide_eq_true_eq] at hle
    rw [Runner.liveWorkersFor, Runner.liveWorkersFor, h.processes]
    simpa only [h.owners, lookup_setKey] using hle
  · intro j hj
    simp only [h.owners, lookup_setKey, if_neg hj]

/-- The agents that were forked after a token was minted for them. -/
def minted (tr : List Ev) : List DeployedAgent :=
  tr.filterMap fun e => match e.label with
    | .ran _ (.fork agent) _ => some agent
    | _ => none

/-- The map is within the limits, but for the starts that minted a token. -/
structure Limited (config : Config) (tr : List Ev) (r : Runner) : Prop where
  pool : r.processes.length ≤ config.maxConcurrentAgents + (minted tr).length
  owner : ∀ owner, r.liveWorkersFor owner ≤ config.maxAgentsPerOwner + countOf (minted tr) owner

theorem Limited.smaller {e : Ev} (h : Limited config tr r)
    (hp : r'.processes.Sublist r.processes) (ho : r'.processOwners = r.processOwners) :
    Limited config (e :: tr) r' := by
  have hminted : (minted tr).Sublist (minted (e :: tr)) := (List.sublist_cons_self e tr).filterMap _
  constructor
  · exact (hp.length_le.trans h.pool).trans (Nat.add_le_add_left hminted.length_le _)
  · intro owner
    have hlive : r'.liveWorkersFor owner ≤ r.liveWorkersFor owner := by
      rw [Runner.liveWorkersFor, Runner.liveWorkersFor, ho]
      exact hp.countP_le
    exact (hlive.trans (h.owner owner)).trans (Nat.add_le_add_left hminted.countP_le _)

theorem Limited.forked {e : Ev} {agent : DeployedAgent} (h : Limited config tr r)
    (hkeys : (r.processes.map Prod.fst).Nodup) (hf : Forked r agent r')
    (hpool : r.processes.length < config.maxConcurrentAgents)
    (howner : r.liveWorkersFor agent.ownerAddress < config.maxAgentsPerOwner) :
    Limited config (e :: tr) r' := by
  have hminted : (minted tr).Sublist (minted (e :: tr)) := (List.sublist_cons_self e tr).filterMap _
  constructor
  · have hlen : r'.processes.length ≤ r.processes.length + 1 :=
      hf.processes ▸ length_setKey_le _ _ _
    omega
  · intro owner
    have hlive := hf.live_le hkeys owner
    have hcount : countOf (minted tr) owner ≤ countOf (minted (e :: tr)) owner := hminted.countP_le
    have hbefore := h.owner owner
    split at hlive
    · next heq =>
      subst heq
      omega
    · omega

theorem Limited.minted {e : Ev} {agent : DeployedAgent} {t : Call}
    {ans : Except Failure (Ans (.fork agent))} (h : Limited config tr r)
    (hkeys : (r.processes.map Prod.fst).Nodup) (hf : Forked r agent r')
    (he : e.label = .ran t (.fork agent) ans) : Limited config (e :: tr) r' := by
  have hminted : AgentRunner.minted (e :: tr) = agent :: AgentRunner.minted tr := by
    simp [AgentRunner.minted, he]
  constructor
  · have hlen : r'.processes.length ≤ r.processes.length + 1 :=
      hf.processes ▸ length_setKey_le _ _ _
    have hbefore := h.pool
    rw [hminted, List.length_cons]
    omega
  · intro owner
    have hlive := hf.live_le hkeys owner
    have hbefore := h.owner owner
    have hcount : countOf (agent :: AgentRunner.minted tr) owner =
        countOf (AgentRunner.minted tr) owner + if agent.ownerAddress = owner then 1 else 0 := by
      simp [countOf, List.countP_cons]
    rw [hminted, hcount]
    omega

/-- The limits hold throughout, but for the starts that had to mint a token first. -/
theorem pool_limited (h : PoolRun (service config) ⟨s₀, []⟩ tr pool) (h₀ : Fresh s₀) :
    Limited config tr pool.state.runner := by
  have hinv := Run.invariant (I := fun tr c => Tracked c.state.runner ∧
    Limited config tr c.state.runner) h ⟨h₀.tracked, by simp [h₀.processes], ?_⟩ ?_
  · exact hinv.2
  · intro owner
    simp [Runner.liveWorkersFor, h₀.processes]
  · intro tr b e c _ hb hs
    obtain ⟨htracked, hlimited⟩ := hb
    rcases step_runner hs with ⟨t, cmd, ans, hlabel, hm⟩ | ⟨-, hp, ho, hg⟩
    · refine ⟨htracked.moved hm, ?_⟩
      cases hm with
      | kept hp ho hc => exact hlimited.smaller (hp ▸ List.Sublist.refl _) ho
      | admitted hnone hpool howner hf => exact hlimited.forked htracked.keys hf hpool howner
      | minted hf => exact hlimited.minted htracked.keys hf hlabel
      | barred hc hp ho hch => exact hlimited.smaller (hp ▸ List.Sublist.refl _) ho
      | told id n hc hp ho hch => exact hlimited.smaller (hp ▸ List.filter_sublist) ho
      | signalled id n suspended hn hp ho hch =>
        exact hlimited.smaller (hp ▸ List.Sublist.refl _) ho
      | evicted id n hn hp ho hch => exact hlimited.smaller (hp ▸ List.filter_sublist) ho
      | allTold hp ho hch => exact hlimited.smaller (hp ▸ List.nil_sublist _) ho
    · exact ⟨htracked.of_grown hp hg, hlimited.smaller (hp ▸ List.Sublist.refl _) ho⟩

theorem pool_limited_paused : Limited demoConfig pausedRun.1 pausedRun.2.state.runner :=
  pool_limited paused_run demoState_fresh

end AgentRunner
