import BlindMarket.Sandboxes.Programs

/-!
# Every sandbox is counted

A sandbox that exists is among the active ones, or its request, which has
passed the check of the count, tracks it next. No more requests pass the check
than there is room for, no create leaves a sandbox without an answer, and no
run fails.
-/
namespace Sandboxes

open Async Prog Runs

variable {cfg : Config} {req : Request} {s s' : State} {t t' : Call} {a b : Answers Ans Failure}
  {id : SandboxId} {tr earlier : List Ev} {e : Ev} {c : Cmd} {r : Except Failure (Ans c)}
  {x : Reply} {day startMs : Nat}

/-- The requests that have passed the check of the count and track no sandbox yet. -/
def creating (limit : Nat) : List Ev → List Call
  | [] => []
  | e :: earlier =>
    match e.label with
    | .ran t .activeCount (.ok n) =>
      if n < limit then t :: creating limit earlier else creating limit earlier
    | .ran t .create (.error _) => (creating limit earlier).erase t
    | .ran t (.track _) _ => (creating limit earlier).erase t
    | _ => creating limit earlier

/-- What each step must be like. A check of the count passes only with room for the requests
already past it; at a create the agent's spend of the day is what the request read of it; a create
that throws leaves no sandbox behind; no command fails, and a setup ends with zero; and the agent's
latest record is the request's own as it reads it back. -/
def Careful (cfg : Config) (earlier : List Ev) (e : Ev) : Prop :=
  match e.label with
  | .ran _ .activeCount _ =>
    e.pre.activeSandboxes.length < cfg.sandboxMaxConcurrent →
      e.pre.activeSandboxes.length + (creating cfg.sandboxMaxConcurrent earlier).length <
        cfg.sandboxMaxConcurrent
  | .ran t .create (.ok _) => ∀ a, known earlier t = some a → ∀ day spent,
      ⟨.getSpend t.req.agentId day, .ok spent⟩ ∈ a →
        day = utcDay e.pre.now ∧ e.pre.spend t.req.agentId day = spent
  | .ran _ .create (.error _) => e.post.sandboxes = e.pre.sandboxes
  | .ran _ (.exec stage _ _ _) r =>
    ∃ result, r = .ok result ∧ (stage = .setup → result.exitCode = some 0)
  | .ran t (.lastUsage agentId) _ => ∃ a usage, known earlier t = some a ∧
      e.pre.lastUsage agentId = some usage ∧ ⟨.record usage, .ok ()⟩ ∈ a
  | _ => True

/-- The process does not stop. -/
def Completes (e : Ev) : Prop := ∀ t, e.label ≠ .died t

/-! ## Requests past the check -/

/-- Past the check of the count, with nothing tracked. -/
def Pending (cfg : Config) (req : Request) (a : Answers Ans Failure) : Prop :=
  ∃ day, Checked cfg req day a ∨ ∃ startMs, Timed cfg req day startMs a ∨
    ∃ id, Made cfg req day startMs id a

/-- One comes to be so by the check, and stays so by reading the clock and by the create. -/
theorem Pending.before (h : Pending cfg req (⟨c, r⟩ :: a)) :
    (∃ n, (⟨c, r⟩ : (c : Cmd) × Except Failure (Ans c)) = ⟨.activeCount, .ok n⟩ ∧
      n < cfg.sandboxMaxConcurrent) ∨
    (c = .now ∨ ∃ id, (⟨c, r⟩ : (c : Cmd) × Except Failure (Ans c)) = ⟨.create, .ok id⟩) ∧
      Pending cfg req a := by
  obtain ⟨day, ⟨ms, spent, n, heq, -, -, hn⟩ | ⟨startMs, h⟩⟩ := h
  · cases heq
    exact .inl ⟨n, rfl, hn⟩
  obtain ⟨b, heq, hchecked⟩ | ⟨id, b, heq, htimed⟩ := h
  · cases heq
    exact .inr ⟨.inl rfl, day, .inl hchecked⟩
  · cases heq
    exact .inr ⟨.inr ⟨id, rfl⟩, day, .inr ⟨startMs, .inl htimed⟩⟩

theorem not_pending_nil : ¬ Pending cfg req [] := by
  rintro ⟨day, ⟨ms, spent, n, heq, -⟩ | ⟨startMs, ⟨b, heq, -⟩ | ⟨id, b, heq, -⟩⟩⟩ <;> cases heq

/-- A command that neither counts a sandbox nor makes nor destroys one. -/
def Cmd.quiet : Cmd → Bool
  | .activeCount | .track _ | .untrack _ | .create | .destroy _ => false
  | _ => true

theorem respond_quiet (hc : c.quiet = true) (hx : respond x s c = (r, s')) :
    s'.sandboxes = s.sandboxes ∧ s'.nextId = s.nextId ∧
      s'.activeSandboxes = s.activeSandboxes := by
  cases c with
  | exec stage id command timeoutSec => cases x <;> cases hx <;> exact ⟨rfl, rfl, rfl⟩
  | activeCount => cases hc
  | track inst => cases hc
  | untrack id => cases hc
  | create => cases hc
  | destroy id => cases hc
  | _ =>
    cases hx
    exact ⟨rfl, rfl, rfl⟩

theorem creating_quiet {limit : Nat} (hc : c.quiet = true) :
    creating limit (⟨.ran t c r, s, s'⟩ :: tr) = creating limit tr := by
  cases c <;> first | rfl | cases hc

/-! ## The invariant -/

structure Inv (cfg : Config) (tr : List Ev) (s : State) : Prop where
  nodup : s.sandboxes.Nodup
  fresh : ∀ id ∈ s.sandboxes, id < s.nextId
  made : ∀ t a id, known tr t = some a → ⟨.create, .ok id⟩ ∈ a → id < s.nextId
  gone : ∀ t a id r, known tr t = some a → ⟨.destroy id, r⟩ ∈ a →
    id ∉ s.sandboxes ∧ id < s.nextId
  counted : ∀ id ∈ s.sandboxes, (∃ inst ∈ s.activeSandboxes, inst.id = id) ∨
    ∃ t ∈ creating cfg.sandboxMaxConcurrent tr, ∃ b, known tr t = some (⟨.create, .ok id⟩ :: b)
  waiting : ∀ t a, known tr t = some a → Pending cfg t.req a →
    t ∈ creating cfg.sandboxMaxConcurrent tr
  bounded : s.activeSandboxes.length + (creating cfg.sandboxMaxConcurrent tr).length ≤
    cfg.sandboxMaxConcurrent
  sound : ∀ t a, known tr t = some a → ¬ Broken a

/-- The sandbox of a request that tracks it next. -/
def madeBy (tr : List Ev) (t : Call) : Option SandboxId :=
  match known tr t with
  | some (⟨.create, .ok id⟩ :: _) => some id
  | _ => none

theorem madeBy_eq (h : known tr t = some (⟨.create, .ok id⟩ :: b)) : madeBy tr t = some id := by
  simp [madeBy, h]

/-- So there are never too many sandboxes. -/
theorem Inv.few (h : Inv cfg tr s) : s.sandboxes.length ≤ cfg.sandboxMaxConcurrent := by
  have hsub : s.sandboxes ⊆ s.activeSandboxes.map (·.id) ++
      (creating cfg.sandboxMaxConcurrent tr).filterMap (madeBy tr) := by
    intro id hid
    rcases h.counted id hid with ⟨inst, hinst, rfl⟩ | ⟨t, ht, b, hb⟩
    · exact List.mem_append_left _ (List.mem_map_of_mem hinst)
    · exact List.mem_append_right _ (List.mem_filterMap.2 ⟨t, ht, madeBy_eq hb⟩)
  calc s.sandboxes.length
      ≤ _ := (List.subperm_of_subset h.nodup hsub).length_le
    _ = s.activeSandboxes.length +
        ((creating cfg.sandboxMaxConcurrent tr).filterMap (madeBy tr)).length := by simp
    _ ≤ s.activeSandboxes.length + (creating cfg.sandboxMaxConcurrent tr).length :=
      Nat.add_le_add_left (List.length_filterMap_le _ _) _
    _ ≤ cfg.sandboxMaxConcurrent := h.bounded

/-! ## Each step -/

/-- What the others know they knew. -/
theorem known_others (hne : t' ≠ t) : known (⟨.ran t c r, s, s'⟩ :: tr : List Ev) t' = known tr t' := by
  rw [known_ran, if_neg (Ne.symm hne)]

theorem known_own (hknown : known tr t = some a) :
    known (⟨.ran t c r, s, s'⟩ :: tr : List Ev) t = some (⟨c, r⟩ :: a) := by
  rw [known_ran, if_pos rfl, hknown]
  rfl

/-- In a careful run nothing breaks. -/
theorem Inv.unbroken (hI : Inv cfg tr s) (hknown : known tr t = some a)
    (hx : respond x s c = (r, s')) (hcareful : Careful cfg tr ⟨.ran t c r, s, s'⟩)
    (t' : Call) (a' : Answers Ans Failure)
    (ha : known (⟨.ran t c r, s, s'⟩ :: tr : List Ev) t' = some a') : ¬ Broken a' := by
  rcases known_answered hknown ha with ⟨rfl, rfl⟩ | ⟨hne, ha⟩
  swap
  · exact hI.sound t' a' ha
  rintro (⟨c', f, hc', hmem⟩ | ⟨id, command, timeoutSec, result, hmem, hcode⟩)
  · rcases List.mem_cons.1 hmem with heq | hmem
    · cases heq
      obtain rfl | ⟨stage, id, command, timeoutSec, rfl⟩ := respond_error hx
      · exact hc' rfl
      · obtain ⟨result, hr, -⟩ := hcareful
        cases hr
    · exact hI.sound _ a hknown (.inl ⟨c', f, hc', hmem⟩)
  · rcases List.mem_cons.1 hmem with heq | hmem
    · cases heq
      obtain ⟨result', hr, hzero⟩ := hcareful
      cases hr
      exact hcode (hzero rfl)
    · exact hI.sound _ a hknown (.inr ⟨id, command, timeoutSec, result, hmem, hcode⟩)

/-- A sandbox that another request tracks next, or the one that now asks for something else. -/
theorem Inv.counted_other (hI : Inv cfg tr s) (hknown : known tr t = some a)
    (hasks : Asks cfg t a c) (hc : ∀ inst, c ≠ .track inst) (hid : id ∈ s.sandboxes) :
    (∃ inst ∈ s.activeSandboxes, inst.id = id) ∨
      ∃ t' ∈ creating cfg.sandboxMaxConcurrent tr, t' ≠ t ∧ ∃ b,
        known tr t' = some (⟨.create, .ok id⟩ :: b) := by
  rcases hI.counted id hid with hactive | ⟨t', ht', b, hb⟩
  · exact .inl hactive
  refine .inr ⟨t', ht', ?_, b, hb⟩
  rintro rfl
  rw [hknown] at hb
  cases hb
  obtain ⟨inst, rfl, -⟩ := hasks.1 id b rfl
  exact hc inst rfl

/-- What has been made, but by this step. -/
theorem Inv.made_other (hI : Inv cfg tr s) (hknown : known tr t = some a) (hc : c ≠ .create)
    (t' : Call) (a' : Answers Ans Failure) (id : SandboxId)
    (ha : known (⟨.ran t c r, s, s'⟩ :: tr : List Ev) t' = some a') (hmem : ⟨.create, .ok id⟩ ∈ a') :
    id < s.nextId := by
  rcases known_answered hknown ha with ⟨rfl, rfl⟩ | ⟨-, ha⟩
  · rcases List.mem_cons.1 hmem with heq | hmem
    · cases heq
      exact absurd rfl hc
    · exact hI.made _ a id hknown hmem
  · exact hI.made t' a' id ha hmem

/-- What has been destroyed, but by this step. -/
theorem Inv.gone_other (hI : Inv cfg tr s) (hknown : known tr t = some a)
    (hc : ∀ id, c ≠ .destroy id) (t' : Call) (a' : Answers Ans Failure) (id : SandboxId)
    (r' : Except Failure Unit) (ha : known (⟨.ran t c r, s, s'⟩ :: tr : List Ev) t' = some a')
    (hmem : ⟨.destroy id, r'⟩ ∈ a') : id ∉ s.sandboxes ∧ id < s.nextId := by
  rcases known_answered hknown ha with ⟨rfl, rfl⟩ | ⟨-, ha⟩
  · rcases List.mem_cons.1 hmem with heq | hmem
    · cases heq
      exact absurd rfl (hc id)
    · exact hI.gone _ a id r' hknown hmem
  · exact hI.gone t' a' id r' ha hmem

/-- The request of any other command is not pending. -/
theorem Inv.waiting_other (hI : Inv cfg tr s) (hknown : known tr t = some a)
    (hc : c ≠ .activeCount ∧ c ≠ .now ∧ c ≠ .create) (t' : Call) (a' : Answers Ans Failure)
    (ha : known (⟨.ran t c r, s, s'⟩ :: tr : List Ev) t' = some a')
    (hp : Pending cfg t'.req a') : t' ≠ t ∧ t' ∈ creating cfg.sandboxMaxConcurrent tr := by
  rcases known_answered hknown ha with ⟨rfl, rfl⟩ | ⟨hne, ha⟩
  · obtain ⟨n, heq, -⟩ | ⟨rfl | ⟨id, heq⟩, -⟩ := hp.before
    · cases heq
      exact absurd rfl hc.1
    · exact absurd rfl hc.2.1
    · cases heq
      exact absurd rfl hc.2.2
  · exact ⟨hne, hI.waiting t' a' ha hp⟩

/-- A step that leaves the sandboxes as they are, and none pending that was not. -/
theorem Inv.calm (hI : Inv cfg tr s) (hknown : known tr t = some a) (hasks : Asks cfg t a c)
    (hx : respond x s c = (r, s')) (hcareful : Careful cfg tr ⟨.ran t c r, s, s'⟩)
    (hsame : s'.sandboxes = s.sandboxes ∧ s'.nextId = s.nextId ∧
      s'.activeSandboxes = s.activeSandboxes)
    (hc : c ≠ .create ∧ (∀ inst, c ≠ .track inst) ∧ ∀ id, c ≠ .destroy id)
    (hmono : ∀ t' ∈ creating cfg.sandboxMaxConcurrent tr,
      t' ∈ creating cfg.sandboxMaxConcurrent (⟨.ran t c r, s, s'⟩ :: tr : List Ev))
    (hpending : Pending cfg t.req (⟨c, r⟩ :: a) →
      t ∈ creating cfg.sandboxMaxConcurrent (⟨.ran t c r, s, s'⟩ :: tr : List Ev))
    (hbounded : s.activeSandboxes.length +
      (creating cfg.sandboxMaxConcurrent (⟨.ran t c r, s, s'⟩ :: tr : List Ev)).length ≤
        cfg.sandboxMaxConcurrent) : Inv cfg (⟨.ran t c r, s, s'⟩ :: tr) s' := by
  obtain ⟨hsandboxes, hnext, hactive⟩ := hsame
  refine ⟨hsandboxes ▸ hI.nodup, ?_, ?_, ?_, ?_, ?_, hactive ▸ hbounded, ?_⟩
  · rw [hsandboxes, hnext]
    exact hI.fresh
  · rw [hnext]
    exact hI.made_other hknown hc.1
  · rw [hsandboxes, hnext]
    exact hI.gone_other hknown hc.2.2
  · intro id hid
    rw [hsandboxes] at hid
    rw [hactive]
    rcases hI.counted_other hknown hasks hc.2.1 hid with h | ⟨t', ht', hne, b, hb⟩
    · exact .inl h
    · exact .inr ⟨t', hmono t' ht', b, by rw [known_others hne, hb]⟩
  · intro t' a' ha hp
    rcases known_answered hknown ha with ⟨rfl, rfl⟩ | ⟨-, ha⟩
    · exact hpending hp
    · exact hmono t' (hI.waiting t' a' ha hp)
  · exact hI.unbroken hknown hx hcareful

theorem Inv.ran_quiet (hI : Inv cfg tr s) (hknown : known tr t = some a) (hasks : Asks cfg t a c)
    (hx : respond x s c = (r, s')) (hcareful : Careful cfg tr ⟨.ran t c r, s, s'⟩)
    (hc : c.quiet = true) : Inv cfg (⟨.ran t c r, s, s'⟩ :: tr) s' := by
  have hcreating : creating cfg.sandboxMaxConcurrent (⟨.ran t c r, s, s'⟩ :: tr : List Ev) =
      creating cfg.sandboxMaxConcurrent tr := creating_quiet hc
  refine hI.calm hknown hasks hx hcareful (respond_quiet hc hx) ?_ ?_ ?_ ?_
  · refine ⟨?_, fun inst => ?_, fun id => ?_⟩ <;> rintro rfl <;> cases hc
  · intro t' ht'
    rwa [hcreating]
  · intro hp
    rw [hcreating]
    obtain ⟨n, heq, -⟩ | ⟨-, hp⟩ := hp.before
    · cases heq
      cases hc
    · exact hI.waiting t a hknown hp
  · rw [hcreating]
    exact hI.bounded

theorem Inv.ran_activeCount (hI : Inv cfg tr s) (hknown : known tr t = some a)
    (hasks : Asks cfg t a .activeCount) {r : Except Failure Nat}
    (hx : respond x s .activeCount = (r, s'))
    (hcareful : Careful cfg tr ⟨.ran t .activeCount r, s, s'⟩) :
    Inv cfg (⟨.ran t .activeCount r, s, s'⟩ :: tr) s' := by
  refine hI.calm hknown hasks hx hcareful ?_ ⟨by simp, by simp, by simp⟩ ?_ ?_ ?_
  · cases hx
    exact ⟨rfl, rfl, rfl⟩
  · intro t' ht'
    cases hx
    simp only [creating]
    split
    · exact List.mem_cons_of_mem _ ht'
    · exact ht'
  · intro hp
    obtain ⟨n, heq, hn⟩ | ⟨hc | ⟨id, heq⟩, -⟩ := hp.before
    · cases heq
      simp [creating, hn]
    · cases hc
    · cases heq
  · cases hx
    simp only [creating]
    split
    · next hn =>
      exact hcareful hn
    · exact hI.bounded

theorem Inv.ran_destroy (hI : Inv cfg tr s) (hknown : known tr t = some a)
    (hasks : Asks cfg t a (.destroy id)) {r : Except Failure Unit}
    (hx : respond x s (.destroy id) = (r, s'))
    (hcareful : Careful cfg tr ⟨.ran t (.destroy id) r, s, s'⟩) :
    Inv cfg (⟨.ran t (.destroy id) r, s, s'⟩ :: tr) s' := by
  have hunbroken := hI.unbroken hknown hx hcareful
  cases hx
  refine ⟨hI.nodup.filter _, ?_, ?_, ?_, ?_, ?_, hI.bounded, hunbroken⟩
  · exact fun id' hid' => hI.fresh id' (List.mem_of_mem_filter hid')
  · exact hI.made_other hknown (by simp)
  · intro t' a' id' r' ha hmem
    by_cases heq : id' = id
    · subst heq
      exact ⟨by simp, hI.made t a _ hknown hasks.2⟩
    have hold : id' ∉ s.sandboxes ∧ id' < s.nextId := by
      rcases known_answered hknown ha with ⟨rfl, rfl⟩ | ⟨-, ha⟩
      · rcases List.mem_cons.1 hmem with h | hmem
        · cases h
          exact absurd rfl heq
        · exact hI.gone _ a id' r' hknown hmem
      · exact hI.gone t' a' id' r' ha hmem
    exact ⟨fun h => hold.1 (List.mem_of_mem_filter h), hold.2⟩
  · intro id' hid'
    rcases hI.counted_other hknown hasks (by simp) (List.mem_of_mem_filter hid') with
      h | ⟨t', ht', hne, b, hb⟩
    · exact .inl h
    · exact .inr ⟨t', ht', b, by rw [known_others hne, hb]⟩
  · exact fun t' a' ha hp => (hI.waiting_other hknown (by simp) t' a' ha hp).2

theorem Inv.ran_untrack (hI : Inv cfg tr s) (hknown : known tr t = some a)
    (hasks : Asks cfg t a (.untrack id)) {r : Except Failure Unit}
    (hx : respond x s (.untrack id) = (r, s'))
    (hcareful : Careful cfg tr ⟨.ran t (.untrack id) r, s, s'⟩) :
    Inv cfg (⟨.ran t (.untrack id) r, s, s'⟩ :: tr) s' := by
  obtain ⟨rd, hdestroyed⟩ := hasks.2
  have hgone := (hI.gone t a id rd hknown hdestroyed).1
  have hunbroken := hI.unbroken hknown hx hcareful
  cases hx
  refine ⟨hI.nodup, hI.fresh, hI.made_other hknown (by simp), hI.gone_other hknown (by simp), ?_,
    ?_, ?_, hunbroken⟩
  · intro id' hid'
    rcases hI.counted_other hknown hasks (by simp) hid' with
      ⟨inst, hinst, rfl⟩ | ⟨t', ht', hne, b, hb⟩
    · refine .inl ⟨inst, List.mem_filter.2 ⟨hinst, ?_⟩, rfl⟩
      simp only [decide_eq_true_eq]
      rintro rfl
      exact hgone hid'
    · exact .inr ⟨t', ht', b, by rw [known_others hne, hb]⟩
  · exact fun t' a' ha hp => (hI.waiting_other hknown (by simp) t' a' ha hp).2
  · exact (Nat.add_le_add_right (List.length_filter_le _ _) _).trans hI.bounded

theorem Inv.ran_track (hI : Inv cfg tr s) (hknown : known tr t = some a) {inst : SandboxInstance}
    (hasks : Asks cfg t a (.track inst)) {r : Except Failure Unit}
    (hx : respond x s (.track inst) = (r, s'))
    (hcareful : Careful cfg tr ⟨.ran t (.track inst) r, s, s'⟩) :
    Inv cfg (⟨.ran t (.track inst) r, s, s'⟩ :: tr) s' := by
  obtain ⟨day, startMs, hmade⟩ := hasks.2
  have hpending := hI.waiting t a hknown ⟨day, .inr ⟨startMs, .inr ⟨_, hmade⟩⟩⟩
  have hunbroken := hI.unbroken hknown hx hcareful
  cases hx
  refine ⟨hI.nodup, hI.fresh, hI.made_other hknown (by simp), hI.gone_other hknown (by simp), ?_,
    ?_, ?_, hunbroken⟩
  · intro id hid
    rcases hI.counted id hid with ⟨inst', hinst', rfl⟩ | ⟨t', ht', b, hb⟩
    · by_cases heq : inst'.id = inst.id
      · exact .inl ⟨inst, List.mem_cons_self, heq.symm⟩
      · have hkept : inst' ∈ s.activeSandboxes.filter (·.id ≠ inst.id) :=
          List.mem_filter.2 ⟨hinst', by simpa using heq⟩
        exact .inl ⟨inst', List.mem_cons_of_mem _ hkept, rfl⟩
    · by_cases heq : t' = t
      · subst heq
        rw [hknown] at hb
        cases hb
        obtain ⟨inst', heq, rfl⟩ := hasks.1 id b rfl
        cases heq
        exact .inl ⟨inst, List.mem_cons_self, rfl⟩
      · exact .inr ⟨t', (List.mem_erase_of_ne heq).2 ht', b, by rw [known_others heq, hb]⟩
  · intro t' a' ha hp
    obtain ⟨hne, hmem⟩ := hI.waiting_other hknown (by simp) t' a' ha hp
    exact (List.mem_erase_of_ne hne).2 hmem
  · have hlength := List.length_erase_of_mem hpending
    have hpos := List.length_pos_of_mem hpending
    have hfilter := List.length_filter_le (·.id ≠ inst.id) s.activeSandboxes
    have hbounded := hI.bounded
    simp only [creating, List.length_cons]
    omega

theorem respond_create {r : Except Failure SandboxId} (hx : respond x s .create = (r, s')) :
    r = .ok s.nextId ∧ s' = s.made ∨ r = .error .thrown ∧ (s' = s ∨ s' = s.made) := by
  cases x <;> cases hx
  · exact .inl ⟨rfl, rfl⟩
  · exact .inl ⟨rfl, rfl⟩
  · exact .inr ⟨rfl, .inl rfl⟩
  · exact .inr ⟨rfl, .inr rfl⟩

theorem Inv.ran_created (hI : Inv cfg tr s) (hknown : known tr t = some a)
    (hasks : Asks cfg t a .create) (hunbroken : ∀ t' a',
      known (⟨.ran t .create (.ok s.nextId), s, s.made⟩ :: tr : List Ev) t' = some a' → ¬ Broken a') :
    Inv cfg (⟨.ran t .create (.ok s.nextId), s, s.made⟩ :: tr) s.made := by
  obtain ⟨day, startMs, htimed⟩ := hasks.2
  have hpending := hI.waiting t a hknown ⟨day, .inr ⟨startMs, .inl htimed⟩⟩
  have hnew : s.nextId ∉ s.sandboxes := fun h => (hI.fresh _ h).false
  refine ⟨List.nodup_cons.2 ⟨hnew, hI.nodup⟩, ?_, ?_, ?_, ?_, ?_, hI.bounded, hunbroken⟩
  · intro id hid
    rcases List.mem_cons.1 hid with rfl | hid
    · exact Nat.lt_succ_self _
    · exact (hI.fresh id hid).trans (Nat.lt_succ_self _)
  · intro t' a' id ha hmem
    rcases known_answered hknown ha with ⟨rfl, rfl⟩ | ⟨-, ha⟩
    · rcases List.mem_cons.1 hmem with heq | hmem
      · cases heq
        exact Nat.lt_succ_self _
      · exact (hI.made _ a id hknown hmem).trans (Nat.lt_succ_self _)
    · exact (hI.made t' a' id ha hmem).trans (Nat.lt_succ_self _)
  · intro t' a' id r' ha hmem
    obtain ⟨hgone, hlt⟩ := hI.gone_other hknown (by simp) t' a' id r' ha hmem
    refine ⟨fun hid => ?_, hlt.trans (Nat.lt_succ_self _)⟩
    rcases List.mem_cons.1 hid with rfl | hid
    · exact hlt.false
    · exact hgone hid
  · intro id hid
    rcases List.mem_cons.1 hid with rfl | hid
    · exact .inr ⟨t, hpending, a, known_own hknown⟩
    rcases hI.counted_other hknown hasks (by simp) hid with h | ⟨t', ht', hne, b, hb⟩
    · exact .inl h
    · exact .inr ⟨t', ht', b, by rw [known_others hne, hb]⟩
  · intro t' a' ha hp
    rcases known_answered hknown ha with ⟨rfl, -⟩ | ⟨-, ha⟩
    · exact hpending
    · exact hI.waiting t' a' ha hp

theorem Inv.ran_create (hI : Inv cfg tr s) (hknown : known tr t = some a)
    (hasks : Asks cfg t a .create) {r : Except Failure SandboxId}
    (hx : respond x s .create = (r, s'))
    (hcareful : Careful cfg tr ⟨.ran t .create r, s, s'⟩) :
    Inv cfg (⟨.ran t .create r, s, s'⟩ :: tr) s' := by
  have hunbroken := hI.unbroken hknown hx hcareful
  rcases respond_create hx with ⟨rfl, rfl⟩ | ⟨rfl, hs'⟩
  · exact hI.ran_created hknown hasks hunbroken
  -- The create threw: it left nothing behind, and its request is past the check no more.
  have hsame : s' = s := by
    rcases hs' with rfl | rfl
    · rfl
    · exact absurd hcareful (List.cons_ne_self _ _)
  subst hsame
  refine ⟨hI.nodup, hI.fresh, ?_, hI.gone_other hknown (by simp), ?_, ?_, ?_, hunbroken⟩
  · intro t' a' id ha hmem
    rcases known_answered hknown ha with ⟨rfl, rfl⟩ | ⟨-, ha⟩
    · exact hI.made _ a id hknown (by simpa using hmem)
    · exact hI.made t' a' id ha hmem
  · intro id hid
    rcases hI.counted_other hknown hasks (by simp) hid with h | ⟨t', ht', hne, b, hb⟩
    · exact .inl h
    · exact .inr ⟨t', (List.mem_erase_of_ne hne).2 ht', b, by rw [known_others hne, hb]⟩
  · intro t' a' ha hp
    rcases known_answered hknown ha with ⟨rfl, rfl⟩ | ⟨hne, ha⟩
    · obtain ⟨n, heq, -⟩ | ⟨hc | ⟨id', heq⟩, -⟩ := hp.before
      · cases heq
      · cases hc
      · cases heq
    · exact (List.mem_erase_of_ne hne).2 (hI.waiting t' a' ha hp)
  · exact (Nat.add_le_add_left (List.erase_sublist.length_le) _).trans hI.bounded

theorem Inv.ran (hI : Inv cfg tr s) (hknown : known tr t = some a) (hasks : Asks cfg t a c)
    (hx : respond x s c = (r, s')) (hcareful : Careful cfg tr ⟨.ran t c r, s, s'⟩) :
    Inv cfg (⟨.ran t c r, s, s'⟩ :: tr) s' := by
  cases c with
  | activeCount => exact hI.ran_activeCount hknown hasks hx hcareful
  | track inst => exact hI.ran_track hknown hasks hx hcareful
  | untrack id => exact hI.ran_untrack hknown hasks hx hcareful
  | create => exact hI.ran_create hknown hasks hx hcareful
  | destroy id => exact hI.ran_destroy hknown hasks hx hcareful
  | _ => exact hI.ran_quiet hknown hasks hx hcareful rfl

/-! ## Runs -/

/-- A process that has just come up. -/
def Initial (s : State) : Prop := s.sandboxes = [] ∧ s.activeSandboxes = []

theorem backend_told (tags : List Call) (s : State) (t : Call) (p : Prog Ans Failure Response)
    (s' : State) (h : (backend cfg).start tags s t p s') : p.Told (Asks cfg t) (Ends cfg t) [] := by
  obtain ⟨-, rfl, -⟩ := h
  exact told_exec t

theorem Inv.started (hI : Inv cfg tr s) (hfresh : known tr t = none)
    (hsame : s'.sandboxes = s.sandboxes ∧ s'.nextId = s.nextId ∧
      s'.activeSandboxes = s.activeSandboxes) : Inv cfg (⟨.started t, s, s'⟩ :: tr) s' := by
  obtain ⟨hsandboxes, hnext, hactive⟩ := hsame
  have hknown {t' : Call} {a' : Answers Ans Failure}
      (ha : known (⟨.started t, s, s'⟩ :: tr : List Ev) t' = some a') :
      a' = [] ∨ known tr t' = some a' := known_silent (by simp) ha
  refine ⟨hsandboxes ▸ hI.nodup, ?_, ?_, ?_, ?_, ?_, hactive ▸ hI.bounded, ?_⟩
  · rw [hsandboxes, hnext]
    exact hI.fresh
  · intro t' a' id ha hmem
    rw [hnext]
    rcases hknown ha with rfl | ha
    · cases hmem
    · exact hI.made t' a' id ha hmem
  · intro t' a' id r' ha hmem
    rw [hsandboxes, hnext]
    rcases hknown ha with rfl | ha
    · cases hmem
    · exact hI.gone t' a' id r' ha hmem
  · intro id hid
    rw [hsandboxes] at hid
    rw [hactive]
    rcases hI.counted id hid with h | ⟨t', ht', b, hb⟩
    · exact .inl h
    · refine .inr ⟨t', ht', b, ?_⟩
      rw [known_started, if_neg, hb]
      rintro rfl
      rw [hfresh] at hb
      cases hb
  · intro t' a' ha hp
    rcases hknown ha with rfl | ha
    · exact absurd hp not_pending_nil
    · exact hI.waiting t' a' ha hp
  · intro t' a' ha
    rcases hknown ha with rfl | ha
    · rintro (⟨c, f, -, hmem⟩ | ⟨id, command, timeoutSec, result, hmem, -⟩) <;> cases hmem
    · exact hI.sound t' a' ha

/-- A request that ends has tracked what it made. -/
theorem Inv.finished (hI : Inv cfg tr s) (hknown : known tr t = some a)
    {r : Except Failure Response} (hends : Ends cfg t a r) :
    Inv cfg (⟨.finished t r, s, s⟩ :: tr) s := by
  have hback {t' : Call} {a' : Answers Ans Failure}
      (ha : known (⟨.finished t r, s, s⟩ :: tr : List Ev) t' = some a') :
      known tr t' = some a' := by
    rw [known_finished] at ha
    split at ha
    · cases ha
    · exact ha
  refine ⟨hI.nodup, hI.fresh, fun t' a' id ha => hI.made t' a' id (hback ha),
    fun t' a' id r' ha => hI.gone t' a' id r' (hback ha), ?_,
    fun t' a' ha => hI.waiting t' a' (hback ha), hI.bounded,
    fun t' a' ha => hI.sound t' a' (hback ha)⟩
  intro id hid
  rcases hI.counted id hid with h | ⟨t', ht', b, hb⟩
  · exact .inl h
  · refine .inr ⟨t', ht', b, ?_⟩
    rw [known_finished, if_neg, hb]
    rintro rfl
    rw [hknown] at hb
    cases hb
    rcases hends with hnone | hbroken | ⟨day, startMs, id', endMs, own, last, d, b', -, -, heq⟩
    · exact hnone id List.mem_cons_self
    · exact hI.sound _ _ hknown hbroken
    · cases heq

theorem inv_run {s₀ : State} {pool : Pool Ans Failure Response Call State}
    (h : PoolRun (backend cfg) ⟨s₀, []⟩ tr pool) (h0 : Initial s₀)
    (hcompletes : ∀ e ∈ tr, Completes e) (hcareful : Throughout (Careful cfg) tr) :
    Inv cfg tr pool.state := by
  revert hcompletes hcareful
  refine Run.invariant (I := fun tr pool => (∀ e ∈ tr, Completes e) →
    Throughout (Careful cfg) tr → Inv cfg tr pool.state) h (fun _ _ => ?_) ?_
  · exact ⟨by simp [h0.1], by simp [h0.1], by simp, by simp, by simp [h0.1], by simp,
      by simp [h0.2, creating], by simp⟩
  · intro tr b e b' hrun hat hs hcompletes hcareful
    have hI := hat (fun e' he' => hcompletes e' (by simp [he'])) hcareful.tail
    have hstep := hcareful.head
    have hlives := hcompletes e List.mem_cons_self
    have hm := backend_numbered.move hrun hs backend_told
    generalize b.state = s at hm hI
    generalize b'.state = s' at hm
    cases hm with
    | ran t a c r hknown hasks hx =>
      obtain ⟨x, hx⟩ := hx
      exact hI.ran hknown hasks hx hstep
    | started t p tags hfresh hx =>
      obtain ⟨-, -, rfl⟩ := hx
      exact hI.started hfresh ⟨rfl, rfl, rfl⟩
    | finished t a r hknown hends => exact hI.finished hknown hends
    | env hx =>
      obtain ⟨ms, rfl⟩ := hx
      exact ⟨hI.nodup, hI.fresh, hI.made, hI.gone, hI.counted, hI.waiting, hI.bounded, hI.sound⟩
    | died t a hknown hx => exact absurd rfl (hlives t)

end Sandboxes
