import BlindMarket.AgentRunner.System
import BlindMarket.AgentRunner.Shares

/-!
# What the handlers can do to the workers

Every command forks a worker, tells some to stop, drops entries of the map or
leaves the workers alone. Only the handlers of a worker that ended drop an entry
without telling the worker.
-/
namespace AgentRunner

open Async Prog Runs

/-! ## Maps -/

section Maps

section Keys

variable {κ α : Type} [BEq κ] [LawfulBEq κ] {k : κ} {v : α} {map : List (κ × α)}

theorem lookup_filter_ne [DecidableEq κ] (map : List (κ × α)) (k k' : κ) :
    (map.filter fun entry => entry.1 ≠ k).lookup k' = if k' = k then none else map.lookup k' := by
  induction map with
  | nil => simp
  | cons entry rest ih =>
    obtain ⟨j, w⟩ := entry
    rw [List.filter_cons]
    by_cases hj : j = k
    · subst hj
      rw [if_neg (by simp), ih]
      by_cases h : k' = j
      · simp [h]
      · simp [h, List.lookup_cons, beq_eq_false_iff_ne.2 h]
    · rw [if_pos (by simpa using hj), List.lookup_cons, List.lookup_cons, ih]
      by_cases h : k' = j
      · subst h
        simp [hj]
      · simp [beq_eq_false_iff_ne.2 h]

theorem lookup_of_mem (h : (map.map Prod.fst).Nodup) (hmem : (k, v) ∈ map) :
    map.lookup k = some v := by
  induction map with
  | nil => cases hmem
  | cons entry rest ih =>
    obtain ⟨j, w⟩ := entry
    obtain ⟨hj, hrest⟩ := List.nodup_cons.1 h
    rcases List.mem_cons.1 hmem with heq | hlater
    · cases heq
      simp
    · have hne : k ≠ j := by
        intro heq
        exact hj (List.mem_map.2 ⟨(k, v), hlater, heq⟩)
      rw [List.lookup_cons, beq_eq_false_iff_ne.2 hne]
      exact ih hrest hlater

theorem mem_of_lookup (h : map.lookup k = some v) : (k, v) ∈ map := by
  induction map with
  | nil => cases h
  | cons entry rest ih =>
    obtain ⟨j, w⟩ := entry
    rw [List.lookup_cons] at h
    by_cases hj : k = j
    · subst hj
      simp only [BEq.rfl] at h
      cases h
      exact List.mem_cons_self
    · rw [beq_eq_false_iff_ne.2 hj] at h
      exact List.mem_cons_of_mem _ (ih h)

end Keys

variable {α : Type} {k k' : Nat} {v w : α} {map : List (Nat × α)}

theorem lookup_deleteKey (map : List (Nat × α)) (k k' : Nat) :
    (deleteKey map k).lookup k' = if k' = k then none else map.lookup k' :=
  lookup_filter_ne map k k'

theorem keys_deleteKey (h : (map.map Prod.fst).Nodup) (k : Nat) :
    ((deleteKey map k).map Prod.fst).Nodup :=
  h.sublist (List.filter_sublist.map _)

theorem keys_setKey (k : Nat) (v : α) (map : List (Nat × α)) :
    (setKey k v map).map Prod.fst =
      if k ∈ map.map Prod.fst then map.map Prod.fst else map.map Prod.fst ++ [k] := by
  induction map with
  | nil => rfl
  | cons entry rest ih =>
    obtain ⟨j, w⟩ := entry
    by_cases hj : j = k
    · subst hj
      simp [setKey]
    · rw [setKey, if_neg hj, List.map_cons, ih]
      by_cases h : k ∈ rest.map Prod.fst
      · simp [h]
      · simp only [List.map_cons, List.mem_cons, Ne.symm hj, h, or_self, if_false,
          List.cons_append]

theorem nodup_setKey (h : (map.map Prod.fst).Nodup) (k : Nat) (v : α) :
    ((setKey k v map).map Prod.fst).Nodup := by
  rw [keys_setKey]
  split
  · exact h
  · next hk =>
    rw [List.nodup_append]
    refine ⟨h, List.nodup_singleton _, ?_⟩
    intro j hj i hi
    rw [List.mem_singleton.1 hi]
    exact ne_of_mem_of_not_mem hj hk

theorem length_setKey_le (k : Nat) (v : α) (map : List (Nat × α)) :
    (setKey k v map).length ≤ map.length + 1 := by
  have hkeys := congrArg List.length (keys_setKey k v map)
  rw [List.length_map] at hkeys
  rw [hkeys]
  split <;> simp

end Maps

/-! ## Moves -/

variable {config : Config} {r r' : Runner} {c : Cmd}

/-- A worker is forked and kept. -/
structure Forked (r : Runner) (agent : DeployedAgent) (r' : Runner) : Prop where
  processes : r'.processes = setKey agent.id r.children.length r.processes
  owners : r'.processOwners = setKey agent.id agent.ownerAddress r.processOwners
  children : ∃ child : Child, child.agent = agent.id ∧ r'.children = r.children ++ [child]

/-- What a command does to the workers and the map of them. -/
inductive Moved (config : Config) (r : Runner) : Cmd → Runner → Prop
  | kept {c : Cmd} {r' : Runner} (hp : r'.processes = r.processes)
      (ho : r'.processOwners = r.processOwners) (hc : r'.children = r.children) :
      Moved config r c r'
  | admitted {agent : DeployedAgent} {r' : Runner} (hnone : r.processes.lookup agent.id = none)
      (hpool : r.processes.length < config.maxConcurrentAgents)
      (howner : r.liveWorkersFor agent.ownerAddress < config.maxAgentsPerOwner)
      (h : Forked r agent r') : Moved config r (.tryStart agent) r'
  | minted {agent : DeployedAgent} {r' : Runner} (h : Forked r agent r') :
      Moved config r (.fork agent) r'
  /-- Writes were turned off, and the new worker is told to stop at once. -/
  | barred {c : Cmd} {agent : DeployedAgent} {r' : Runner} (hc : c = .tryStart agent ∨ c = .fork agent)
      (hp : r'.processes = r.processes) (ho : r'.processOwners = r.processOwners)
      (hch : ∃ child : Child, (child.agent = agent.id ∧ child.intentional = true) ∧
        r'.children = r.children ++ [child]) : Moved config r c r'
  | told {c : Cmd} {r' : Runner} (id : AgentId) (n : Nat)
      (hc : c = .stop id ∧ r.processes.lookup id = some n ∨ c = .reap id n)
      (hp : r'.processes = deleteKey r.processes id) (ho : r'.processOwners = r.processOwners)
      (hch : r'.children = r.children.modify n Child.terminate) : Moved config r c r'
  | signalled {r' : Runner} (id : AgentId) (n : Nat) (suspended : Bool)
      (hn : r.processes.lookup id = some n) (hp : r'.processes = r.processes)
      (ho : r'.processOwners = r.processOwners)
      (hch : r'.children = r.children.modify n (Child.signal suspended)) :
      Moved config r (.signal id suspended) r'
  | evicted {r' : Runner} (id : AgentId) (n : Nat) (hn : r.processes.lookup id = some n)
      (hp : r'.processes = deleteKey r.processes id) (ho : r'.processOwners = r.processOwners)
      (hch : r'.children = r.children) : Moved config r (.evict id n) r'
  | allTold {r' : Runner} (hp : r'.processes = []) (ho : r'.processOwners = r.processOwners)
      (hch : r'.children = r.processes.foldl
        (fun children entry => children.modify entry.2 Child.terminate) r.children) :
      Moved config r .stopLocalWorkers r'

theorem modify_last {α : Type} (f : α → α) (l : List α) (a : α) :
    (l ++ [a]).modify l.length f = l ++ [f a] := by
  induction l with
  | nil => rfl
  | cons b l ih => simp [ih]

theorem fork_cases (r : Runner) (agent : DeployedAgent) :
    Forked r agent (r.fork agent).2 ∨ (r.fork agent).2.processes = r.processes ∧
      (r.fork agent).2.processOwners = r.processOwners ∧
      ∃ child : Child, (child.agent = agent.id ∧ child.intentional = true) ∧
        (r.fork agent).2.children = r.children ++ [child] := by
  unfold Runner.fork
  split
  · exact .inl ⟨rfl, rfl, _, rfl, rfl⟩
  · refine .inr ⟨rfl, rfl, { agent := agent.id, startedAt := r.now, intentional := true },
      ⟨rfl, rfl⟩, ?_⟩
    exact modify_last _ _ _

theorem startRefusal_none {owner : Owner} (h : r.startRefusal config owner = none) :
    r.processes.length < config.maxConcurrentAgents ∧
      r.liveWorkersFor owner < config.maxAgentsPerOwner := by
  unfold Runner.startRefusal at h
  simp only at h
  split at h
  · cases h
  · split at h
    · cases h
    · omega

theorem canAutoRestart_kept (r : Runner) (id : AgentId) :
    (r.canAutoRestart id).2.processes = r.processes ∧
      (r.canAutoRestart id).2.processOwners = r.processOwners ∧
      (r.canAutoRestart id).2.children = r.children := by
  unfold Runner.canAutoRestart
  simp only
  split <;> exact ⟨rfl, rfl, rfl⟩

theorem settle_kept (r : Runner) (id : AgentId) (child : Nat) (crashed running : Bool) :
    (r.settle id child crashed running).2.processes = r.processes ∧
      (r.settle id child crashed running).2.processOwners = r.processOwners ∧
      (r.settle id child crashed running).2.children = r.children := by
  unfold Runner.settle
  cases crashed with
  | false => exact ⟨rfl, rfl, rfl⟩
  | true =>
    simp only [if_true, Bool.true_and]
    split
    · split
      · next r' heq =>
        obtain ⟨hp, ho, hc⟩ := canAutoRestart_kept _ id
        rw [heq] at hp ho hc
        exact ⟨hp, ho, hc⟩
      · next r' heq =>
        obtain ⟨hp, ho, hc⟩ := canAutoRestart_kept _ id
        rw [heq] at hp ho hc
        exact ⟨hp, ho, hc⟩
    · exact ⟨rfl, rfl, rfl⟩

theorem act_moved (config : Config) (r : Runner) (c : Cmd) : Moved config r c (r.act config c) := by
  cases c with
  | tryStart agent =>
    simp only [Runner.act, Runner.tryStart]
    split
    · exact .kept rfl rfl rfl
    · next hnone =>
      have hnone := Option.not_isSome_iff_eq_none.1 hnone
      split
      · exact .kept rfl rfl rfl
      · next hrefusal =>
        obtain ⟨hpool, howner⟩ := startRefusal_none hrefusal
        split
        · rcases fork_cases r agent with h | ⟨hp, ho, hc⟩
          · exact .admitted hnone hpool howner h
          · exact .barred (.inl rfl) hp ho hc
        · split <;> exact .kept rfl rfl rfl
  | fork agent =>
    rcases fork_cases r agent with h | ⟨hp, ho, hc⟩
    · exact .minted h
    · exact .barred (.inr rfl) hp ho hc
  | stop id =>
    simp only [Runner.act, Runner.stop, Runner.drop]
    split
    · next n hn => exact .told id n (.inl ⟨rfl, hn⟩) rfl rfl rfl
    · exact .kept rfl rfl rfl
  | signal id suspended =>
    simp only [Runner.act, Runner.signal]
    split
    · next n hn => exact .signalled id n suspended hn rfl rfl rfl
    · exact .kept rfl rfl rfl
  | evict id child =>
    simp only [Runner.act, Runner.evict]
    split
    · next hn => exact .evicted id child hn rfl rfl rfl
    · exact .kept rfl rfl rfl
  | settle id child crashed running =>
    obtain ⟨hp, ho, hc⟩ := settle_kept r id child crashed running
    exact .kept hp ho hc
  | reap id child => exact .told id child (.inr rfl) rfl rfl rfl
  | stopLocalWorkers => exact .allTold rfl rfl rfl
  | taskStarted id child task =>
    simp only [Runner.act, Runner.taskStarted]
    split <;> exact .kept rfl rfl rfl
  | taskFinished id child task completed =>
    simp only [Runner.act, Runner.taskFinished]
    split
    · split <;> split <;> exact .kept rfl rfl rfl
    · exact .kept rfl rfl rfl
  | _ => exact .kept rfl rfl rfl

end AgentRunner
