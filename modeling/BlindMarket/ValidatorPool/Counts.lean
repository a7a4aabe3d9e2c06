import BlindMarket.ValidatorPool.Panels
import BlindMarket.ValidatorPool.Script

/-!
# Counting validators

`validatorList` has an entry for each registration, and `activeValidatorCount`
looks at every entry.
-/
namespace ValidatorPool

open BlindEscrow (Address word)
open Checked Runs TokenLedger

variable {D : Deployment} {p : Pool} {w w' : World} {m : Msg} {c c' c₀ : Config} {e : Event}
  {tr : Trace} {a : Address}

/-- The loop of `activeValidatorCount`. -/
def countLoop (validators : Address → Validator) : List Address → Nat → Nat
  | [], count => count
  | a :: rest, count =>
    countLoop validators rest (if (validators a).active then count + 1 else count)

def activeValidatorCount (p : Pool) : Nat := countLoop p.validators p.validatorList 0

/-- The accounts whose validator record is active. -/
def Pool.active (p : Pool) : Set Address := {a | (p.validators a).active = true}

instance : DecidablePred (· ∈ p.active) := fun a =>
  inferInstanceAs (Decidable ((p.validators a).active = true))

def Event.registers (a : Address) (e : Event) : Bool :=
  match e.kind with
  | .called ⟨sender, .register _⟩ => sender = a
  | _ => false

/-- How often an account has registered. -/
def registrations (tr : Trace) (a : Address) : Nat := tr.countP (·.registers a)

theorem countLoop_eq (validators : Address → Validator) (l : List Address) (count : Nat) :
    countLoop validators l count = count + (l.filter fun a => (validators a).active).length := by
  induction l generalizing count with
  | nil => rfl
  | cons a rest ih =>
    rw [countLoop, ih]
    by_cases ha : (validators a).active = true
    · simp [ha]
      omega
    · simp [ha]

theorem activeValidatorCount_eq (p : Pool) :
    activeValidatorCount p = (p.validatorList.filter fun a => (p.validators a).active).length := by
  rw [activeValidatorCount, countLoop_eq, zero_add]

/-- The list is right when it lists every active account once. -/
theorem Sound.count_iff (h : Sound p) : activeValidatorCount p = p.active.ncard ↔
    ∀ a ∈ p.active, p.validatorList.count a ≤ 1 := by
  have hset : p.active = (p.validatorList.filter fun a => (p.validators a).active).toFinset := by
    ext a
    simpa [Pool.active] using h.listed a
  have hcount : ∀ a, (p.validatorList.filter fun a => (p.validators a).active).count a =
      if a ∈ p.active then p.validatorList.count a else 0 := by
    intro a
    split
    · next ha => exact List.count_filter ha
    · next ha => exact List.count_eq_zero.mpr fun hmem => ha (List.mem_filter.mp hmem).2
  rw [activeValidatorCount_eq, hset, Set.ncard_coe_finset, eq_comm, List.card_toFinset,
    ← hset]
  constructor
  · intro hlength a ha
    have hdedup := (List.dedup_sublist _).eq_of_length hlength
    have hle := List.nodup_iff_count_le_one.mp (List.dedup_eq_self.mp hdedup) a
    rwa [hcount, if_pos ha] at hle
  · intro hle
    rw [List.dedup_eq_self.mpr (List.nodup_iff_count_le_one.mpr fun a => ?_)]
    rw [hcount]
    split
    · next ha => exact hle a ha
    · exact Nat.zero_le _

/-! ## Runs -/

/-- The entries that a call adds to the list. -/
def Msg.entries (m : Msg) : List Address :=
  match m.op with
  | .register _ => [m.sender]
  | _ => []

theorem Effect.list (h : Effect D w m w') :
    w'.pool.validatorList = w.pool.validatorList ++ m.entries := by
  cases h with
  | register => rfl
  | finalize sender id =>
    rw [Msg.entries, List.append_nil]
    exact finalized_list w.pool id
  | _ => exact (List.append_nil _).symm

theorem Msg.count_entries (m : Msg) (pre post : World) :
    m.entries.count a = [(⟨.called m, pre, post⟩ : Event)].countP (·.registers a) := by
  obtain ⟨sender, op⟩ := m
  cases op with
  | register amount => simp [Msg.entries, Event.registers, List.count_singleton, List.countP_singleton]
  | _ => rfl

/-- The list has an entry for each registration. -/
theorem PoolRun.listed (h : PoolRun D c₀ tr c) (h0 : Initial D c₀) (a : Address) :
    c.world.pool.validatorList.count a = registrations tr a := by
  refine Run.invariant (I := fun tr c => c.world.pool.validatorList.count a = registrations tr a) h
    ?_ ?_
  · obtain ⟨admin, hpool⟩ := h0.pool
    rw [hpool]
    rfl
  · intro tr b e b' hrun hcount hs
    cases hs with
    | call m w calls _ hb =>
      have hlist := ((PoolRun.poolOk hrun h0.poolOk).called hb).1.list
      rw [hlist, List.count_append, hcount, m.count_entries b.world w, add_comm]
      exact (@List.countP_append _ _ [_] _).symm
    | _ => exact hcount

/-- After any run the count is right exactly if no validator has registered twice. -/
theorem active_count (h0 : Initial D c₀) (h : PoolRun D c₀ tr c) :
    activeValidatorCount c.world.pool = c.world.pool.active.ncard ↔
      ∀ a ∈ c.world.pool.active, registrations tr a ≤ 1 := by
  rw [(PoolRun.poolOk h h0.poolOk).sound.count_iff]
  simp only [PoolRun.listed h h0]

/-- One account registers, leaves and registers again. -/
def rejoined : List Cue :=
  [.send ⟨1, .register (10 ^ 8)⟩, .send ⟨1, .unstake⟩, .send ⟨1, .register (10 ^ 8)⟩]

/-- It is counted twice. -/
theorem active_count_fails : ∃ c₀ tr c, Initial demo c₀ ∧ PoolRun demo c₀ tr c ∧
    activeValidatorCount c.world.pool ≠ c.world.pool.active.ncard := by
  refine ⟨_, _, _, demoStart_initial (by decide), @demoPlay_run (10 ^ 9) (by decide) rejoined, ?_⟩
  intro hcount
  have hsound := (PoolRun.poolOk (@demoPlay_run (10 ^ 9) (by decide) rejoined)
    (demoStart_initial (by decide)).poolOk).sound
  have hle := hsound.count_iff.mp hcount 1 (show _ = true by decide)
  revert hle
  decide

/-- One account leaves for good, two others stay. -/
def replaced : List Cue :=
  [.send ⟨1, .register (10 ^ 8)⟩, .send ⟨2, .register (10 ^ 8)⟩, .send ⟨1, .unstake⟩,
    .send ⟨3, .register (10 ^ 8)⟩]

theorem active_count_replaced :
    activeValidatorCount (demoPlay (10 ^ 9) (by decide) replaced).1.world.pool =
      (demoPlay (10 ^ 9) (by decide) replaced).1.world.pool.active.ncard := by
  have hrun := @demoPlay_run (10 ^ 9) (by decide) replaced
  refine (active_count (demoStart_initial (by decide)) hrun).mpr fun a ha => ?_
  have hlisted := (PoolRun.poolOk hrun (demoStart_initial (by decide)).poolOk).sound.listed a ha
  have hall : ∀ a ∈ (demoPlay (10 ^ 9) (by decide) replaced).1.world.pool.validatorList,
      registrations (demoPlay (10 ^ 9) (by decide) replaced).2 a ≤ 1 := by decide
  exact hall a hlisted

end ValidatorPool
