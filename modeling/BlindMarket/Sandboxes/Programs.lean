import BlindMarket.Sandboxes.System

/-!
# What a request has been told

A request checks its agent's spend and the count of active sandboxes, reads the
clock and creates its sandbox; its charge is the cost of the record it reads
back.
-/
namespace Sandboxes

open Async Prog Runs

variable {cfg : Config} {req : Request} {t : Call} {a b : Answers Ans Failure} {id : SandboxId}
  {day startMs endMs : Nat} {c c' : Cmd}

/-! ## The answers of a request -/

/-- The checks of the spend and of the count have passed. -/
def Checked (cfg : Config) (req : Request) (day : Nat) (a : Answers Ans Failure) : Prop :=
  ∃ ms spent n, a = [⟨.activeCount, .ok n⟩, ⟨.getSpend req.agentId day, .ok spent⟩,
      ⟨.now, .ok ms⟩] ∧
    utcDay ms = day ∧ spent.any (cfg.sandboxDailyCostCapMicro ≤ ·) = false ∧
    n < cfg.sandboxMaxConcurrent

/-- And the start has been timed. -/
def Timed (cfg : Config) (req : Request) (day startMs : Nat) (a : Answers Ans Failure) : Prop :=
  ∃ b, a = ⟨.now, .ok startMs⟩ :: b ∧ Checked cfg req day b

/-- And the sandbox has been made. -/
def Made (cfg : Config) (req : Request) (day startMs : Nat) (id : SandboxId)
    (a : Answers Ans Failure) : Prop :=
  ∃ b, a = ⟨.create, .ok id⟩ :: b ∧ Timed cfg req day startMs b

/-- Something failed after the sandbox was made. -/
def Broken (a : Answers Ans Failure) : Prop :=
  (∃ c f, c ≠ .create ∧ ⟨c, .error f⟩ ∈ a) ∨ ∃ id command timeoutSec result,
    ⟨.exec .setup id command timeoutSec, .ok result⟩ ∈ a ∧ result.exitCode ≠ some 0

/-- Every answer is to a command of the kind. -/
def Only (P : Cmd → Prop) (a : Answers Ans Failure) : Prop := ∀ c r, ⟨c, r⟩ ∈ a → P c

def IsSetup (id : SandboxId) (c : Cmd) : Prop :=
  ∃ command timeoutSec, c = .exec .setup id command timeoutSec

/-- The sandbox was made at `startMs`, tracked and set up, and its command ended at `endMs`. -/
def Used (cfg : Config) (req : Request) (day startMs : Nat) (id : SandboxId) (endMs : Nat)
    (a : Answers Ans Failure) : Prop :=
  ∃ inst setup timeoutSec result b, Made cfg req day startMs id b ∧ Only (IsSetup id) setup ∧
    a = ⟨.now, .ok endMs⟩ :: ⟨.exec .main id req.command timeoutSec, .ok result⟩ ::
      (setup ++ ⟨.track inst, .ok ()⟩ :: b)

/-- The usage of a run from `startMs` to `endMs`. -/
def usageOf (cfg : Config) (req : Request) (id : SandboxId) (startMs endMs endedAt : Nat) :
    SandboxUsage where
  sandboxId := id
  agentId := req.agentId
  taskId := req.taskId
  startedAt := startMs
  endedAt := endedAt
  durationSeconds := ceilSeconds (endMs - startMs)
  costMicroUnits := ceilSeconds (endMs - startMs) * cfg.sandboxCostPerSecond

/-- The use was recorded. -/
def Recorded (cfg : Config) (req : Request) (day startMs : Nat) (id : SandboxId) (endMs : Nat)
    (usage : SandboxUsage) (a : Answers Ans Failure) : Prop :=
  ∃ endedAt b, usage = usageOf cfg req id startMs endMs endedAt ∧
    a = ⟨.record usage, .ok ()⟩ :: ⟨.now, .ok endedAt⟩ :: b ∧
    Used cfg req day startMs id endMs b

/-- A command of `destroy`. -/
def IsDestroy (id : SandboxId) (c : Cmd) : Prop :=
  c = .tracked id ∨ c = .destroy id ∨ c = .untrack id

/-- The cost of the record that was read back. -/
def costOf (usage : Option SandboxUsage) : Nat := (usage.map (·.costMicroUnits)).getD 0

/-- The use was recorded, a record read back, and its cost charged. -/
def Charged (cfg : Config) (req : Request) (day startMs : Nat) (id : SandboxId) (endMs : Nat)
    (own : SandboxUsage) (last : Option SandboxUsage) (a : Answers Ans Failure) : Prop :=
  ∃ destroyed b, Recorded cfg req day startMs id endMs own b ∧ Only (IsDestroy id) destroyed ∧
    a = ⟨.expire req.agentId day, .ok ()⟩ ::
      ⟨.incrby req.agentId day (costOf last), .ok ()⟩ ::
      ⟨.lastUsage req.agentId, .ok last⟩ :: (destroyed ++ b)

/-- What a request may ask for: what it has made, it tracks next. -/
def Asks (cfg : Config) (t : Call) (a : Answers Ans Failure) (c : Cmd) : Prop :=
  (∀ id b, a = ⟨.create, .ok id⟩ :: b → ∃ inst : SandboxInstance, c = .track inst ∧ inst.id = id) ∧
  match c with
  | .create => ∃ day startMs, Timed cfg t.req day startMs a
  | .track inst => ∃ day startMs, Made cfg t.req day startMs inst.id a
  | .destroy id => ⟨.create, .ok id⟩ ∈ a
  | .untrack id => ∃ r, ⟨.destroy id, r⟩ ∈ a
  | _ => True

/-- How a request may end. -/
def Ends (cfg : Config) (t : Call) (a : Answers Ans Failure) (_ : Except Failure Response) :
    Prop :=
  (∀ id, ⟨.create, .ok id⟩ ∉ a) ∨ Broken a ∨ ∃ day startMs id endMs own last,
    Charged cfg t.req day startMs id endMs own last a

/-! ## Small facts -/

theorem Only.nil {P : Cmd → Prop} : Only P [] := fun _ _ h => nomatch h

theorem Only.cons {P : Cmd → Prop} {r : Except Failure (Ans c)} (h : P c) (ha : Only P a) :
    Only P (⟨c, r⟩ :: a) := by
  intro c' r' hmem
  rcases List.mem_cons.1 hmem with heq | hmem
  · cases heq
    exact h
  · exact ha c' r' hmem

/-- What comes after any answer but a create's. -/
theorem asks_of_head {r : Except Failure (Ans c')} (hc : c' ≠ .create)
    (h : match c with
      | .create => ∃ day startMs, Timed cfg t.req day startMs (⟨c', r⟩ :: a)
      | .track inst => ∃ day startMs, Made cfg t.req day startMs inst.id (⟨c', r⟩ :: a)
      | .destroy id => ⟨.create, .ok id⟩ ∈ (⟨c', r⟩ :: a : Answers Ans Failure)
      | .untrack id => ∃ r', ⟨.destroy id, r'⟩ ∈ (⟨c', r⟩ :: a : Answers Ans Failure)
      | _ => True) : Asks cfg t (⟨c', r⟩ :: a) c := by
  refine ⟨fun id b heq => ?_, h⟩
  cases heq
  exact absurd rfl hc

theorem broken_error {f : Failure} (hc : c ≠ .create) (h : ⟨c, .error f⟩ ∈ a) : Broken a :=
  .inl ⟨c, f, hc, h⟩

theorem Broken.mono {a' : Answers Ans Failure} (h : Broken a) (hsub : a ⊆ a') : Broken a' := by
  rcases h with ⟨c, f, hc, hmem⟩ | ⟨id, command, timeoutSec, result, hmem, hcode⟩
  · exact .inl ⟨c, f, hc, hsub hmem⟩
  · exact .inr ⟨id, command, timeoutSec, result, hsub hmem, hcode⟩

/-- What was made stays made. -/
theorem Made.mem (h : Made cfg req day startMs id a) : ⟨.create, .ok id⟩ ∈ a := by
  obtain ⟨b, rfl, -⟩ := h
  exact List.mem_cons_self

theorem Recorded.mem {own : SandboxUsage}
    (h : Recorded cfg req day startMs id endMs own a) : ⟨.create, .ok id⟩ ∈ a := by
  obtain ⟨endedAt, b, -, rfl, inst, setup, timeoutSec, result, b', hmade, -, rfl⟩ := h
  simp [hmade.mem]

/-! ## The programs -/

/-- How the use of a sandbox ends. -/
def Ran (cfg : Config) (req : Request) (day startMs : Nat) (id : SandboxId)
    (a : Answers Ans Failure) : Except Failure SandboxExecResult → Prop
  | .ok _ => ∃ endMs own, Recorded cfg req day startMs id endMs own a
  | .error _ => Broken a ∧ ∃ c r b, c ≠ .create ∧ a = ⟨c, r⟩ :: b

theorem ran_error {f g : Failure} (hc : c ≠ .create) :
    Ran cfg req day startMs id (⟨c, .error f⟩ :: a) (.error g) :=
  ⟨broken_error hc List.mem_cons_self, c, _, a, hc, rfl⟩

/-- From the command on. -/
theorem told_main (inst : SandboxInstance) (setup : Answers Ans Failure)
    (hmade : Made cfg t.req day startMs id b) (hsetup : Only (IsSetup id) setup) (timeout : Nat) :
    (do
      let result ← call (Cmd.exec .main id t.req.command timeout)
      let endMs ← call Cmd.now
      let endedAt ← call Cmd.now
      let durationSeconds := ceilSeconds (endMs - startMs)
      call (Cmd.record {
        sandboxId := id
        agentId := t.req.agentId
        taskId := t.req.taskId
        startedAt := startMs
        endedAt := endedAt
        durationSeconds := durationSeconds
        costMicroUnits := durationSeconds * cfg.sandboxCostPerSecond })
      return result : Service SandboxExecResult).Told (Asks cfg t) (Ran cfg t.req day startMs id)
      (setup ++ ⟨.track inst, .ok ()⟩ :: b) := by
  have hfirst : Asks cfg t (setup ++ ⟨.track inst, .ok ()⟩ :: b)
      (.exec .main id t.req.command timeout) := by
    cases setup with
    | nil => exact asks_of_head (by simp) trivial
    | cons v setup =>
      obtain ⟨c, r⟩ := v
      obtain ⟨command, timeoutSec, rfl⟩ := hsetup c r List.mem_cons_self
      exact asks_of_head (by simp) trivial
  refine ⟨hfirst, fun r => ?_⟩
  cases r with
  | error f => exact ran_error (by simp)
  | ok result =>
    refine ⟨asks_of_head (by simp) trivial, fun r => ?_⟩
    cases r with
    | error f => exact ran_error (by simp)
    | ok endMs =>
      refine ⟨asks_of_head (by simp) trivial, fun r => ?_⟩
      cases r with
      | error f => exact ran_error (by simp)
      | ok endedAt =>
        refine ⟨asks_of_head (by simp) trivial, fun r => ?_⟩
        cases r with
        | error f => exact ran_error (by simp)
        | ok _ =>
          exact ⟨endMs, _, endedAt, _, rfl, rfl, inst, setup, timeout, result, b, hmade, hsetup,
            rfl⟩

theorem told_runIn (inst : SandboxInstance) (hmade : Made cfg t.req day startMs id b) :
    (runIn cfg t.req startMs id).Told (Asks cfg t) (Ran cfg t.req day startMs id)
      (⟨.track inst, .ok ()⟩ :: b) := by
  unfold runIn
  cases hsetup : t.req.setup.filter (· ≠ "") with
  | none => exact told_main inst [] hmade .nil _
  | some setup =>
    refine ⟨asks_of_head (by simp) trivial, fun r => ?_⟩
    cases r with
    | error f => exact ran_error (by simp)
    | ok result =>
      by_cases hcode : result.exitCode ≠ some 0
      · simp only [done_andThen, if_pos hcode]
        exact ⟨.inr ⟨id, _, _, result, List.mem_cons_self, hcode⟩, _, _, _, by simp, rfl⟩
      · simp only [done_andThen, if_neg hcode]
        exact told_main inst [⟨.exec .setup id setup _, .ok result⟩] hmade
          (.cons ⟨_, _, rfl⟩ .nil) _

/-- How a `destroy` after the answers `a` ends. -/
def Destroyed (id : SandboxId) (a a' : Answers Ans Failure) : Except Failure Unit → Prop
  | .ok _ => ∃ destroyed, Only (IsDestroy id) destroyed ∧ a' = destroyed ++ a
  | .error _ => Broken a'

theorem told_destroy {r : Except Failure (Ans c)} (hc : c ≠ .create)
    (hmade : ⟨.create, .ok id⟩ ∈ (⟨c, r⟩ :: a : Answers Ans Failure)) :
    (destroy id).Told (Asks cfg t) (Destroyed id (⟨c, r⟩ :: a)) (⟨c, r⟩ :: a) := by
  refine ⟨asks_of_head hc trivial, fun rt => ?_⟩
  cases rt with
  | error f => exact broken_error (by simp) List.mem_cons_self
  | ok tracked =>
    cases tracked with
    | false => exact ⟨[⟨.tracked id, .ok false⟩], .cons (.inl rfl) .nil, rfl⟩
    | true =>
      refine ⟨asks_of_head (by simp) (List.mem_cons_of_mem _ hmade), fun rd => ?_⟩
      refine ⟨asks_of_head (by simp) ⟨rd, List.mem_cons_self⟩, fun ru => ?_⟩
      cases ru with
      | error f => exact broken_error (by simp) List.mem_cons_self
      | ok _ =>
        exact ⟨[⟨.untrack id, .ok ()⟩, ⟨.destroy id, rd⟩, ⟨.tracked id, .ok true⟩],
          .cons (.inr (.inr rfl)) (.cons (.inr (.inl rfl)) (.cons (.inl rfl) .nil)), rfl⟩

/-- How `createAndRun` ends. -/
def CreatedAndRan (cfg : Config) (req : Request) (day : Nat) (a : Answers Ans Failure) :
    Except Failure (SandboxId × SandboxExecResult) → Prop
  | .ok _ => ∃ startMs id endMs own destroyed b, Recorded cfg req day startMs id endMs own b ∧
      Only (IsDestroy id) destroyed ∧ a = destroyed ++ b
  | .error _ => (∀ id, ⟨.create, .ok id⟩ ∉ a) ∨ Broken a

/-- The run of what was made, and its end. -/
theorem told_made (inst : SandboxInstance) (hmade : Made cfg t.req day startMs id b) :
    (do
      let r ← (runIn cfg t.req startMs id).attempt
      destroy id
      match r with
      | .ok result => return (id, result)
      | .error e => Prog.throw e : Service (SandboxId × SandboxExecResult)).Told (Asks cfg t)
      (CreatedAndRan cfg t.req day) (⟨.track inst, .ok ()⟩ :: b) := by
  refine Told.bind (Told.attempt (R := fun a r => ∃ r', r = .ok r' ∧
    (⟨.track inst, .ok ()⟩ :: b) <:+ a ∧ Ran cfg t.req day startMs id a r')
    (told_runIn inst hmade) fun a r hsuffix hr => ⟨r, rfl, hsuffix, hr⟩) ?_ ?_
  · rintro a r - ⟨r', heq, hsuffix, hran⟩
    cases heq
    have hmem : ⟨.create, .ok id⟩ ∈ a := hsuffix.subset (List.mem_cons_of_mem _ hmade.mem)
    cases r with
    | error e =>
      obtain ⟨hbroken, c, rc, b', hc, rfl⟩ := hran
      refine Told.bind (told_destroy hc hmem) ?_ ?_
      · exact fun a' _ hsuffix' _ => .inr (hbroken.mono hsuffix'.subset)
      · exact fun a' _ _ hbroken' => .inr hbroken'
    | ok result =>
      obtain ⟨endMs, own, hrecorded⟩ := hran
      have hrecorded' := hrecorded
      obtain ⟨endedAt, b', -, rfl, -⟩ := hrecorded'
      refine Told.bind (told_destroy (by simp) hmem) ?_ ?_
      · rintro a' _ - ⟨destroyed, honly, rfl⟩
        exact ⟨startMs, id, endMs, own, destroyed, _, hrecorded, honly, rfl⟩
      · exact fun a' _ _ hbroken => .inr hbroken
  · rintro a e - ⟨r', heq, -⟩
    cases heq

theorem told_createAndRun {ms : Nat} {spent : Option Nat} (hday : utcDay ms = day)
    (hspent : spent.any (cfg.sandboxDailyCostCapMicro ≤ ·) = false) :
    (createAndRun cfg t.req).Told (Asks cfg t) (CreatedAndRan cfg t.req day)
      [⟨.getSpend t.req.agentId day, .ok spent⟩, ⟨.now, .ok ms⟩] := by
  refine ⟨asks_of_head (by simp) trivial, fun r => ?_⟩
  cases r with
  | error f => exact .inr (broken_error (by simp) List.mem_cons_self)
  | ok n =>
    by_cases hn : cfg.sandboxMaxConcurrent ≤ n
    · simp only [done_andThen, if_pos hn]
      exact .inl (by simp)
    simp only [done_andThen, if_neg hn]
    have hchecked : Checked cfg t.req day [⟨.activeCount, .ok n⟩,
        ⟨.getSpend t.req.agentId day, .ok spent⟩, ⟨.now, .ok ms⟩] :=
      ⟨ms, spent, n, rfl, hday, hspent, Nat.lt_of_not_le hn⟩
    refine ⟨asks_of_head (by simp) trivial, fun r => ?_⟩
    cases r with
    | error f => exact .inr (broken_error (by simp) List.mem_cons_self)
    | ok startMs =>
      refine ⟨asks_of_head (by simp) ⟨day, startMs, _, rfl, hchecked⟩, fun r => ?_⟩
      cases r with
      | error f => exact .inl (by simp)
      | ok id =>
        have hmade : Made cfg t.req day startMs id _ := ⟨_, rfl, _, rfl, hchecked⟩
        refine ⟨⟨fun id' b heq => ?_, day, startMs, hmade⟩, fun r => ?_⟩
        · cases heq
          exact ⟨_, rfl, rfl⟩
        cases r with
        | error f => exact .inr (broken_error (by simp) List.mem_cons_self)
        | ok _ => exact told_made _ hmade

/-- The charge for a run that came to its result. -/
theorem told_charge {startMs endMs : Nat} {own : SandboxUsage} {destroyed : Answers Ans Failure}
    (hrecorded : Recorded cfg t.req day startMs id endMs own b)
    (honly : Only (IsDestroy id) destroyed) (sandbox : SandboxId) (result : SandboxExecResult) :
    (do
      let usage ← call (Cmd.lastUsage t.req.agentId)
      let costMicroUnits := (usage.map (·.costMicroUnits)).getD 0
      call (Cmd.incrby t.req.agentId day costMicroUnits)
      call (Cmd.expire t.req.agentId day)
      return .done sandbox result ((usage.map (·.durationSeconds)).getD 0) costMicroUnits
      : Service Response).Told (Asks cfg t) (Ends cfg t) (destroyed ++ b) := by
  have hfirst : Asks cfg t (destroyed ++ b) (.lastUsage t.req.agentId) := by
    cases destroyed with
    | nil =>
      obtain ⟨endedAt, b', -, rfl, -⟩ := hrecorded
      exact asks_of_head (by simp) trivial
    | cons v destroyed =>
      obtain ⟨c, r⟩ := v
      have hc : c ≠ .create := by
        rintro rfl
        rcases honly _ r List.mem_cons_self with h | h | h <;> cases h
      exact asks_of_head hc trivial
  refine ⟨hfirst, fun r => ?_⟩
  cases r with
  | error f => exact .inr (.inl (broken_error (by simp) List.mem_cons_self))
  | ok last =>
    refine ⟨asks_of_head (by simp) trivial, fun r => ?_⟩
    cases r with
    | error f => exact .inr (.inl (broken_error (by simp) List.mem_cons_self))
    | ok _ =>
      refine ⟨asks_of_head (by simp) trivial, fun r => ?_⟩
      cases r with
      | error f => exact .inr (.inl (broken_error (by simp) List.mem_cons_self))
      | ok _ =>
        exact .inr (.inr ⟨day, startMs, id, endMs, own, last, destroyed, b, hrecorded, honly, rfl⟩)

theorem told_exec (t : Call) : (exec cfg t.req).Told (Asks cfg t) (Ends cfg t) [] := by
  unfold exec
  by_cases henabled : cfg.enabled
  swap
  · rw [if_pos henabled]
    exact .inl (by simp)
  rw [if_neg (not_not_intro henabled)]
  by_cases htyp : t.req.typ ≠ .agentRegistration ∧ t.req.typ ≠ .agentPlatform
  · rw [if_pos htyp]
    exact .inl (by simp)
  rw [if_neg htyp]
  refine ⟨⟨fun _ _ heq => (by cases heq), trivial⟩, fun r => ?_⟩
  cases r with
  | error f => exact .inl (by simp)
  | ok ms =>
    refine ⟨asks_of_head (by simp) trivial, fun r => ?_⟩
    cases r with
    | error f => exact .inl (by simp)
    | ok spent =>
      cases hspent : spent.any (cfg.sandboxDailyCostCapMicro ≤ ·) with
      | true =>
        simp only [done_andThen, hspent, if_pos]
        exact .inl (by simp)
      | false =>
        simp only [done_andThen, hspent]
        refine Told.bind (told_createAndRun rfl hspent) ?_ ?_
        · rintro a ⟨id, result⟩ - ⟨startMs, id', endMs, own, destroyed, b, hrecorded, honly, rfl⟩
          exact told_charge hrecorded honly id result
        · rintro a e - (hnone | hbroken)
          · exact .inl hnone
          · exact .inr (.inl hbroken)

end Sandboxes
