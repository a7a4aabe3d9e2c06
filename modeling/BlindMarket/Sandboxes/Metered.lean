import BlindMarket.Sandboxes.Counted
import BlindMarket.Support.History

/-!
# Sandbox use is metered

In a run whose every step is careful there are never more sandboxes than the
limit, each request that makes one is charged once for its own run, and no
sandbox is made for an agent at its cap.
-/
namespace Sandboxes

open Async Prog Runs

variable {cfg : Config} {req : Request} {s s' s₀ : State} {t : Call} {a b : Answers Ans Failure}
  {id : SandboxId} {tr later earlier : List Ev} {e e' : Ev} {c : Cmd}
  {pool : Pool Ans Failure Response Call State} {day startMs endMs : Nat}

/-- What a request has added to the spend, with the agent and the day. -/
def charges (t : Call) : List Ev → List (Address × Nat × Nat)
  | [] => []
  | e :: earlier =>
    match e.label with
    | .ran t' (.incrby agentId day cost) (.ok _) =>
      if t' = t then (agentId, day, cost) :: charges t earlier else charges t earlier
    | _ => charges t earlier

/-- The sandbox was made just after the clock was read as `startMs`, and its command ended just
before it was read as `endMs`. -/
def RanFrom (id : SandboxId) (startMs endMs : Nat) (a : Answers Ans Failure) : Prop :=
  ∃ last between first command timeoutSec result, a = last ++ ⟨.now, .ok endMs⟩ ::
    ⟨.exec .main id command timeoutSec, .ok result⟩ ::
      (between ++ ⟨.create, .ok id⟩ :: ⟨.now, .ok startMs⟩ :: first)

structure Metered (cfg : Config) (tr : List Ev) : Prop where
  few : ∀ e ∈ tr, e.post.sandboxes.length ≤ cfg.sandboxMaxConcurrent
  charged : ∀ e ∈ tr, ∀ t r, e.label = .finished t r →
    ∀ e' ∈ tr, ∀ id, e'.label = .ran t .create (.ok id) →
      ∃ a startMs endMs, Heard t tr a ∧ RanFrom id startMs endMs a ∧ charges t tr =
        [(t.req.agentId, utcDay e'.pre.now,
          ceilSeconds (endMs - startMs) * cfg.sandboxCostPerSecond)]
  capped : ∀ e ∈ tr, ∀ t id, e.label = .ran t .create (.ok id) →
    ∀ spent, e.pre.spend t.req.agentId (utcDay e.pre.now) = some spent →
      spent < cfg.sandboxDailyCostCapMicro

/-! ## The charges in the answers -/

def charge? : (v : (c : Cmd) × Except Failure (Ans c)) → Option (Address × Nat × Nat)
  | ⟨.incrby agentId day cost, .ok _⟩ => some (agentId, day, cost)
  | _ => none

theorem charges_heard (h : Heard t tr a) : charges t tr = a.filterMap charge? := by
  induction h with
  | nil => rfl
  | @ran tr a s s' c r h ih =>
    rw [List.filterMap_cons, ← ih]
    cases c with
    | incrby agentId day cost =>
      cases r with
      | ok _ => simp [charges, charge?]
      | error f => rfl
    | _ => rfl
  | @other tr a e hne h ih =>
    rw [← ih]
    obtain ⟨label, pre, post⟩ := e
    cases label with
    | ran t' c r =>
      cases c with
      | incrby agentId day cost =>
        cases r with
        | ok _ =>
          have hne' : t' ≠ t := by
            rintro rfl
            exact hne _ _ rfl
          simp [charges, hne']
        | error f => rfl
      | _ => rfl
    | _ => rfl

theorem Only.no_charge {P : Cmd → Prop} (h : Only P a)
    (hP : ∀ agentId day cost, ¬ P (.incrby agentId day cost)) : a.filterMap charge? = [] := by
  rw [List.filterMap_eq_nil_iff]
  rintro ⟨c, r⟩ hmem
  cases c with
  | incrby agentId day cost => exact absurd (h _ _ hmem) (hP agentId day cost)
  | _ => rfl

theorem setup_no_charge {setup : Answers Ans Failure} (h : Only (IsSetup id) setup) :
    setup.filterMap charge? = [] := by
  refine h.no_charge ?_
  rintro agentId day cost ⟨command, timeoutSec, heq⟩
  cases heq

theorem destroy_no_charge {destroyed : Answers Ans Failure} (h : Only (IsDestroy id) destroyed) :
    destroyed.filterMap charge? = [] := by
  refine h.no_charge ?_
  rintro agentId day cost (heq | heq | heq) <;> cases heq

/-- A charge is the one charge of its request. -/
theorem Charged.charges {own : SandboxUsage} {last : Option SandboxUsage}
    (h : Charged cfg req day startMs id endMs own last a) :
    a.filterMap charge? = [(req.agentId, day, costOf last)] := by
  obtain ⟨destroyed, b, hrecorded, hdestroyed, rfl⟩ := h
  obtain ⟨endedAt, b', -, rfl, inst, setup, timeoutSec, result, b₀, hmade, hsetup, rfl⟩ := hrecorded
  obtain ⟨b₁, rfl, b₂, rfl, ms, spent, n, rfl, -⟩ := hmade
  rw [List.filterMap_cons, List.filterMap_cons, List.filterMap_cons, List.filterMap_append,
    destroy_no_charge hdestroyed]
  simp only [List.filterMap_cons, List.filterMap_append, setup_no_charge hsetup, charge?]
  rfl

theorem Charged.ranFrom {own : SandboxUsage} {last : Option SandboxUsage}
    (h : Charged cfg req day startMs id endMs own last a) : RanFrom id startMs endMs a := by
  obtain ⟨destroyed, b, hrecorded, hdestroyed, rfl⟩ := h
  obtain ⟨endedAt, b', -, rfl, inst, setup, timeoutSec, result, b₀, hmade, hsetup, rfl⟩ := hrecorded
  obtain ⟨b₁, rfl, b₂, rfl, hchecked⟩ := hmade
  exact ⟨⟨.expire req.agentId day, .ok ()⟩ :: ⟨.incrby req.agentId day (costOf last), .ok ()⟩ ::
      ⟨.lastUsage req.agentId, .ok last⟩ :: (destroyed ++ [⟨.record own, .ok ()⟩,
        ⟨.now, .ok endedAt⟩]), setup ++ [⟨.track inst, .ok ()⟩], b₂, req.command, timeoutSec,
    result, by simp⟩

/-- A record, a spend or a sandbox among the answers is the request's. -/
def Fits (day : Nat) (id : SandboxId) (own : SandboxUsage) :
    ((c : Cmd) × Except Failure (Ans c)) → Prop
  | ⟨.record usage, _⟩ => usage = own
  | ⟨.getSpend _ day', _⟩ => day' = day
  | ⟨.create, .ok id'⟩ => id' = id
  | _ => True

theorem Charged.fits {own : SandboxUsage} {last : Option SandboxUsage}
    (h : Charged cfg req day startMs id endMs own last a) : ∀ v ∈ a, Fits day id own v := by
  obtain ⟨destroyed, b, hrecorded, hdestroyed, rfl⟩ := h
  obtain ⟨endedAt, b', -, rfl, inst, setup, timeoutSec, result, b₀, hmade, hsetup, rfl⟩ := hrecorded
  obtain ⟨b₁, rfl, b₂, rfl, ms, spent, n, rfl, -⟩ := hmade
  have hdestroy : ∀ v ∈ destroyed, Fits day id own v := by
    rintro ⟨c, r⟩ hmem
    obtain rfl | rfl | rfl := hdestroyed c r hmem <;> trivial
  have hset : ∀ v ∈ setup, Fits day id own v := by
    rintro ⟨c, r⟩ hmem
    obtain ⟨command, timeoutSec, rfl⟩ := hsetup c r hmem
    trivial
  simp only [List.forall_mem_cons, List.forall_mem_append]
  exact ⟨trivial, trivial, trivial, hdestroy, rfl, trivial, trivial, trivial, hset, trivial, rfl,
    trivial, trivial, rfl, trivial, List.forall_mem_nil _⟩

/-! ## The run -/

/-- What the runs of the theorem are like, in each of their states. -/
structure Orderly (cfg : Config) (s₀ : State) (tr : List Ev)
    (pool : Pool Ans Failure Response Call State) : Prop where
  run : PoolRun (backend cfg) ⟨s₀, []⟩ tr pool
  initial : Initial s₀
  completes : ∀ e ∈ tr, Completes e
  careful : Throughout (Careful cfg) tr

theorem Orderly.inv (h : Orderly cfg s₀ tr pool) : Inv cfg tr pool.state :=
  inv_run h.run h.initial h.completes h.careful

theorem Orderly.split (h : Orderly cfg s₀ (later ++ e :: earlier) pool) :
    ∃ b b', Orderly cfg s₀ earlier b ∧ Orderly cfg s₀ (e :: earlier) b' ∧
      Step (backend cfg) b e b' := by
  obtain ⟨b, b', hrun, hs, -⟩ := h.run.split
  refine ⟨b, b', ⟨hrun, h.initial, fun e' he' => h.completes e' (by simp [he']), ?_⟩,
    ⟨hrun.snoc hs, h.initial, fun e' he' => h.completes e' ?_, ?_⟩, hs⟩
  · intro later' e' earlier' heq
    exact h.careful (later ++ e :: later') e' earlier' (by rw [heq]; simp)
  · exact List.mem_append_right _ he'
  · intro later' e' earlier' heq
    exact h.careful (later ++ later') e' earlier' (by rw [heq]; simp)

/-- An answer, with what its request knew. -/
theorem Orderly.ran (h : Orderly cfg s₀ tr pool) {r : Except Failure (Ans c)} (he : e ∈ tr)
    (hlabel : e.label = .ran t c r) : ∃ earlier a, earlier ⊆ tr ∧ known earlier t = some a ∧
      Asks cfg t a c ∧ (∃ x, respond x e.pre c = (r, e.post)) ∧ Careful cfg earlier e := by
  obtain ⟨later, earlier, rfl⟩ := List.append_of_mem he
  have hcareful := h.careful later e earlier rfl
  obtain ⟨b, b', hbefore, -, hs⟩ := h.split
  have hm := backend_numbered.move hbefore.run hs backend_told
  generalize b.state = s at hm
  generalize b'.state = s' at hm
  have hsub : earlier ⊆ later ++ e :: earlier := fun v hv => by simp [hv]
  cases hm with
  | ran t' a c' r' hknown hasks hx =>
    cases hlabel
    exact ⟨earlier, a, hsub, hknown, hasks, hx, hcareful⟩
  | _ => cases hlabel

/-- At a create the agent is under its cap. -/
theorem Orderly.under_cap (h : Orderly cfg s₀ tr pool) (he : e ∈ tr)
    (hlabel : e.label = .ran t .create (.ok id)) :
    (e.pre.spend t.req.agentId (utcDay e.pre.now)).any (cfg.sandboxDailyCostCapMicro ≤ ·) =
      false := by
  obtain ⟨earlier', a, -, hknown, hasks, -, hcareful⟩ := h.ran he hlabel
  simp only [Careful, hlabel] at hcareful
  obtain ⟨day, startMs, b, rfl, ms, spent, n, rfl, hday, hspent, -⟩ := hasks.2
  obtain ⟨hcurrent, hsame⟩ := hcareful _ hknown day spent (by simp)
  rw [← hcurrent, hsame]
  exact hspent

/-- The day of the create is the day of the charge. -/
theorem Orderly.create_day (h : Orderly cfg s₀ tr pool) (he : e ∈ tr)
    (hlabel : e.label = .ran t .create (.ok id)) :
    ∃ spent, ∃ e' ∈ tr, e'.label =
      .ran t (.getSpend t.req.agentId (utcDay e.pre.now)) (.ok spent) := by
  obtain ⟨earlier', a, hsub, hknown, hasks, -, hcareful⟩ := h.ran he hlabel
  simp only [Careful, hlabel] at hcareful
  obtain ⟨day, startMs, b, rfl, ms, spent, n, rfl, hday, hspent, -⟩ := hasks.2
  obtain ⟨rfl, -⟩ := hcareful _ hknown day spent (by simp)
  obtain ⟨e', he', hlabel'⟩ := known_mem hknown (c := .getSpend t.req.agentId (utcDay e.pre.now))
    (r := .ok spent) (by simp)
  exact ⟨spent, e', hsub he', hlabel'⟩

/-- The record a request reads back is one of its own. -/
theorem Orderly.own_last (h : Orderly cfg s₀ tr pool) {last : Option SandboxUsage} {agentId : Address}
    (he : e ∈ tr) (hlabel : e.label = .ran t (.lastUsage agentId) (.ok last)) :
    ∃ usage, last = some usage ∧ ∃ e' ∈ tr, e'.label = .ran t (.record usage) (.ok ()) := by
  obtain ⟨earlier', a, hsub, hknown, -, ⟨x, hx⟩, hcareful⟩ := h.ran he hlabel
  simp only [Careful, hlabel] at hcareful
  obtain ⟨a', usage, ha', hlast, hmem⟩ := hcareful
  obtain ⟨e', he', hlabel'⟩ := known_mem ha' hmem
  refine ⟨usage, ?_, e', hsub he', hlabel'⟩
  simp only [respond, Prod.mk.injEq, Except.ok.injEq] at hx
  rw [← hx.1, hlast]

/-- The answers of a request that has ended. -/
theorem Orderly.ended (h : Orderly cfg s₀ tr pool) (he : e ∈ tr) {r : Except Failure Response}
    (hlabel : e.label = .finished t r) : ∃ a, Heard t tr a ∧ Ends cfg t a r ∧ ¬ Broken a := by
  obtain ⟨later, earlier, rfl⟩ := List.append_of_mem he
  obtain ⟨b, b', hbefore, -, hs⟩ := h.split
  have hm := backend_numbered.move hbefore.run hs backend_told
  have hI := hbefore.inv
  generalize b.state = s at hm hI
  generalize b'.state = s' at hm
  cases hm with
  | finished t' a r hknown hends =>
    cases hlabel
    have hheard := backend_numbered.heard_known hbefore.run hknown
    exact ⟨a, backend_numbered.heard_finished h.run rfl hheard, hends, hI.sound t a hknown⟩
  | _ => cases hlabel

/-- In a run that meets the condition the sandboxes are few, each is charged for once, and none is
made past the cap. -/
theorem sandboxes_metered (h : PoolRun (backend cfg) ⟨s₀, []⟩ tr pool) (h0 : Initial s₀)
    (hcompletes : ∀ e ∈ tr, Completes e) (hcareful : Throughout (Careful cfg) tr) :
    Metered cfg tr := by
  have horderly : Orderly cfg s₀ tr pool := ⟨h, h0, hcompletes, hcareful⟩
  refine ⟨?_, ?_, ?_⟩
  · intro e he
    obtain ⟨later, earlier, rfl⟩ := List.append_of_mem he
    obtain ⟨b, b', -, hafter, hs⟩ := horderly.split
    rw [hs.states.2]
    exact hafter.inv.few
  · intro e he t r hlabel e' he' id hcreate
    obtain ⟨a, hheard, hends, hsound⟩ := horderly.ended he hlabel
    have hmade : ⟨.create, .ok id⟩ ∈ a := hheard.mem.2 ⟨e', he', hcreate⟩
    rcases hends with hnone | hbroken | ⟨day, startMs, id', endMs, own, last, hcharged⟩
    · exact absurd hmade (hnone id)
    · exact absurd hbroken hsound
    have hfits := hcharged.fits
    obtain rfl : id = id' := hfits _ hmade
    obtain ⟨spent, e₁, he₁, hread⟩ := horderly.create_day he' hcreate
    obtain rfl : utcDay e'.pre.now = day := hfits _ (hheard.mem.2 ⟨e₁, he₁, hread⟩)
    refine ⟨a, startMs, endMs, hheard, hcharged.ranFrom, ?_⟩
    rw [charges_heard hheard, hcharged.charges]
    obtain ⟨destroyed, b, ⟨endedAt, b', rfl, -⟩, -, heq⟩ := hcharged
    obtain ⟨e₂, he₂, hlast⟩ := hheard.mem.1
      (show ⟨.lastUsage t.req.agentId, .ok last⟩ ∈ a by simp [heq])
    obtain ⟨usage, rfl, e₃, he₃, hrecord⟩ := horderly.own_last he₂ hlast
    obtain rfl : usage = _ := hfits _ (hheard.mem.2 ⟨e₃, he₃, hrecord⟩)
    rfl
  · intro e he t id hlabel spent hspent
    have hunder := horderly.under_cap he hlabel
    simpa [hspent] using hunder

/-! ## Runs of one request -/

def demoConfig : Config := {}

def demoRequest : Request where
  agentId := 1
  command := "make test"
  setup := some "make"

def exited (code : Int) : Reply := .result ⟨"", "", some code⟩

/-- Up to the setup, which ends with the code. -/
def setUp (code : Int) : List (Cue Call Reply Nat) :=
  .enter ⟨0, demoRequest⟩ :: List.replicate 6 (.turn 0 .answered) ++ [.turn 0 (exited code)]

/-- The setup fails. -/
def setupFails : List (Cue Call Reply Nat) :=
  setUp 1 ++ List.replicate 3 (.turn 0 .answered) ++ [.leave 0]

/-- The command takes a second and a half. -/
def runsThrough : List (Cue Call Reply Nat) :=
  setUp 0 ++ [.move 1500, .turn 0 (exited 2)] ++ List.replicate 9 (.turn 0 .answered) ++ [.leave 0]

theorem setupFails_plays : ((stage demoConfig).play setupFails ⟨{}, []⟩).isSome = true := by
  decide

theorem runsThrough_plays : ((stage demoConfig).play runsThrough ⟨{}, []⟩).isSome = true := by
  decide

/-- A test of the assumption. -/
def completes (e : Ev) : Bool :=
  match e.label with
  | .died _ => false
  | _ => true

theorem completes_completes (h : completes e = true) : Completes e := by
  intro t hlabel
  simp [completes, hlabel] at h

/-- What the request read of its agent's spend still stands. -/
def stands (s : State) (agentId : Address) : ((c : Cmd) × Except Failure (Ans c)) → Bool
  | ⟨.getSpend agentId' day, .ok spent⟩ =>
    agentId' ≠ agentId || (day = utcDay s.now && s.spend agentId day = spent)
  | _ => true

def recorded (usage : SandboxUsage) : ((c : Cmd) × Except Failure (Ans c)) → Bool
  | ⟨.record usage', .ok _⟩ => usage' = usage
  | _ => false

/-- A test of the condition. -/
def careful (cfg : Config) (earlier : List Ev) (e : Ev) : Bool :=
  match e.label with
  | .ran _ .activeCount _ =>
    cfg.sandboxMaxConcurrent ≤ e.pre.activeSandboxes.length ||
      e.pre.activeSandboxes.length + (creating cfg.sandboxMaxConcurrent earlier).length <
        cfg.sandboxMaxConcurrent
  | .ran t .create (.ok _) => ((known earlier t).getD []).all (stands e.pre t.req.agentId)
  | .ran _ .create (.error _) => e.post.sandboxes = e.pre.sandboxes
  | .ran _ (.exec stage _ _ _) r =>
    match r with
    | .ok result => stage ≠ .setup || result.exitCode = some 0
    | .error _ => false
  | .ran t (.lastUsage agentId) _ =>
    match known earlier t, e.pre.lastUsage agentId with
    | some a, some usage => a.any (recorded usage)
    | _, _ => false
  | _ => true

theorem careful_careful (h : careful cfg earlier e = true) : Careful cfg earlier e := by
  obtain ⟨label, pre, post⟩ := e
  cases label with
  | ran t c r =>
    cases c with
    | activeCount =>
      simp only [careful, Bool.or_eq_true, decide_eq_true_eq] at h
      intro hlt
      exact h.resolve_left (Nat.not_le.2 hlt)
    | create =>
      cases r with
      | error f => simpa [careful, Careful] using h
      | ok id =>
        intro a ha day spent hmem
        simp only [careful, ha, Option.getD_some, List.all_eq_true] at h
        simpa [stands] using h _ hmem
    | exec stage id command timeoutSec =>
      cases r with
      | error f => cases h
      | ok result =>
        refine ⟨result, rfl, fun hstage => ?_⟩
        simpa [careful, hstage] using h
    | lastUsage agentId =>
      simp only [careful] at h
      split at h
      · next a usage ha husage =>
        obtain ⟨⟨c, r'⟩, hmem, hrecorded⟩ := List.any_eq_true.1 h
        refine ⟨a, usage, ha, husage, ?_⟩
        simp only [recorded] at hrecorded
        split at hrecorded
        · next usage' u heq =>
          cases heq
          obtain rfl : usage' = usage := of_decide_eq_true hrecorded
          exact hmem
        · cases hrecorded
      · cases h
    | _ => trivial
  | _ => trivial

/-- A request made a sandbox, ended, and was not charged. -/
def free (tr : List Ev) : Bool :=
  tr.any fun e =>
    match e.label with
    | .finished t _ => charges t tr = [] && tr.any fun e' =>
        match e'.label with
        | .ran t' .create (.ok _) => t' = t
        | _ => false
    | _ => false

theorem free_not_metered (h : free tr = true) : ¬ Metered cfg tr := by
  intro hmetered
  obtain ⟨e, he, h⟩ := List.any_eq_true.1 h
  split at h
  · next t r hlabel =>
    simp only [Bool.and_eq_true, decide_eq_true_eq, List.any_eq_true] at h
    obtain ⟨hnone, e', he', h⟩ := h
    split at h
    · next t' id hlabel' =>
      obtain rfl : t' = t := of_decide_eq_true h
      obtain ⟨a, startMs, endMs, -, -, hcharges⟩ := hmetered.charged e he _ r hlabel e' he' id hlabel'
      rw [hnone] at hcharges
      cases hcharges
    · cases h
  · cases h

theorem setupFails_completes :
    (((stage demoConfig).play setupFails ⟨{}, []⟩).get setupFails_plays).1.all completes = true := by
  decide

theorem setupFails_free :
    free (((stage demoConfig).play setupFails ⟨{}, []⟩).get setupFails_plays).1 = true := by
  decide

/-- A sandbox whose setup failed has run for nothing. -/
theorem sandboxes_metered_fails : ∃ tr pool, PoolRun (backend demoConfig) ⟨{}, []⟩ tr pool ∧
    Initial {} ∧ (∀ e ∈ tr, Completes e) ∧ ¬ Metered demoConfig tr :=
  ⟨_, _, Async.Stage.play_get setupFails_plays, ⟨rfl, rfl⟩,
    fun e he => completes_completes (List.all_eq_true.1 setupFails_completes e he),
    free_not_metered setupFails_free⟩

theorem runsThrough_completes :
    (((stage demoConfig).play runsThrough ⟨{}, []⟩).get runsThrough_plays).1.all completes =
      true := by decide

theorem runsThrough_careful : everywhere (careful demoConfig)
    (((stage demoConfig).play runsThrough ⟨{}, []⟩).get runsThrough_plays).1 = true := by decide

theorem sandboxes_metered_runsThrough : Metered demoConfig
    (((stage demoConfig).play runsThrough ⟨{}, []⟩).get runsThrough_plays).1 :=
  sandboxes_metered (Async.Stage.play_get runsThrough_plays) ⟨rfl, rfl⟩
    (fun e he => completes_completes (List.all_eq_true.1 runsThrough_completes e he))
    (throughout_of_everywhere (fun _ _ => careful_careful) runsThrough_careful)

end Sandboxes
