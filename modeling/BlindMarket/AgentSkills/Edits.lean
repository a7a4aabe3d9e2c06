import BlindMarket.AgentSkills.Programs
import BlindMarket.Support.History

/-!
# Skill edits are kept

A request rewrites the skills from what it read an await before. If they are
still what it read, and edits and removals pass the check that installs pass,
an agent has the skills last installed and can start.
-/
namespace AgentSkills

open Async Prog Runs JsText

variable {s s' s₀ : State} {t t' : Call} {a : Answers Ans Oversize} {tr later earlier : List Ev}
  {e : Ev} {c : Cmd} {r : Except Oversize (Ans c)} {x : Bool} {id : AgentId} {slug : Str}
  {agent now : DeployedAgent} {fields : AgentFieldPatch}
  {pool : Pool Ans Oversize Response Call State}

/-- The slugs of the agent's skills. -/
def DeployedAgent.slugs (agent : DeployedAgent) : List Str := agent.skills.map (·.slug)

/-- Whether a write put the skill on the agent or took it off. -/
def edit (id : AgentId) (slug : Str) (e : Ev) : Option Bool :=
  match e.label with
  | .ran t (.saveAgent _) (.ok id') =>
    match t.req.op with
    | .deploy form => if id' = id then some (slug ∈ form.skillSlugs) else none
    | _ => none
  | .ran t (.updateAgentFields id' _) (.ok _) =>
    match t.req.op with
    | .install _ slug' => if id' = id ∧ slug' = slug then some true else none
    | .remove _ slug' => if id' = id ∧ slug' = slug then some false else none
    | _ => none
  | _ => none

/-- The last write to do so. -/
def lastEdit (id : AgentId) (slug : Str) (tr : List Ev) : Option Bool :=
  tr.findSome? (edit id slug)

/-- The agent passes the check that an install makes. -/
def DeployedAgent.SizeOk (agent : DeployedAgent) : Prop :=
  assertComposedSizeOk agent.instructions agent.skills agent.tools = .ok ()

/-- What each write must be like. An install finds the skills, the instructions and the tools as
the request read them, a removal the skills; and with skills left after an edit or a removal, the
agent passes the check of the size. -/
def Careful (earlier : List Ev) (e : Ev) : Prop :=
  match e.label with
  | .ran t (.updateAgentFields id fields) _ => ∀ now, e.pre.agents id = some now →
    match t.req.op with
    | .install _ _ => ∀ a agent, known earlier t = some a → Read a id agent →
        now.skills = agent.skills ∧ now.instructions = agent.instructions ∧ now.tools = agent.tools
    | .remove _ _ => (∀ a agent, known earlier t = some a → Read a id agent →
        now.skills = agent.skills) ∧
      ((now.patched fields).skills ≠ [] → (now.patched fields).SizeOk)
    | _ => (now.patched fields).skills ≠ [] → (now.patched fields).SizeOk
  | _ => True

/-- The process does not stop. -/
def Completes (e : Ev) : Prop := ∀ t, e.label ≠ .died t

/-- The composition is within its bounds. -/
structure Fits (agent : DeployedAgent) : Prop where
  skills : agent.skills.length ≤ MAX_SKILLS_PER_AGENT
  instructions : (composeAgentRuntime agent.instructions agent.tools agent.skills).instructionsBytes ≤
    MAX_COMPOSED_INSTRUCTIONS_BYTES
  tools : (composeAgentRuntime agent.instructions agent.tools agent.skills).toolsBytes ≤
    MAX_COMPOSED_TOOLS_BYTES

theorem DeployedAgent.SizeOk.fits (h : agent.SizeOk) : Fits agent := by
  unfold DeployedAgent.SizeOk assertComposedSizeOk at h
  split at h
  · cases h
  next hskills =>
  split at h
  · cases h
  dsimp only at h
  split at h
  · cases h
  next hinstructions =>
  split at h
  · cases h
  next htools => exact ⟨Nat.le_of_not_lt hskills, Nat.le_of_not_lt hinstructions,
    Nat.le_of_not_lt htools⟩

/-! ## The invariant -/

/-- An agent has the skills last put on it, each once, and passes the check. -/
structure Kept (tr : List Ev) (id : AgentId) (agent : DeployedAgent) : Prop where
  nodup : agent.slugs.Nodup
  current : ∀ slug, slug ∈ agent.slugs ↔ lastEdit id slug tr = some true
  sizeOk : agent.skills ≠ [] → agent.SizeOk

structure Inv (tr : List Ev) (s : State) : Prop where
  kept : ∀ id agent, s.agents id = some agent → Kept tr id agent
  fresh : ∀ id, s.nextId ≤ id → s.agents id = none
  rows : ∀ t a slug row, known tr t = some a → ⟨.getSkillBySlug slug, .ok (some row)⟩ ∈ a →
    row.slug = slug
  loads : ∀ t a id agent, known tr t = some a → ⟨.loadAgent id, .ok (some agent)⟩ ∈ a →
    s.agents id ≠ none
  present : ∀ t a, known tr t = some a → ¬ Vanished a
  sound : ∀ t a, known tr t = some a → ¬ Failed a

theorem lastEdit_none (h : edit id slug e = none) :
    lastEdit id slug (e :: tr) = lastEdit id slug tr := by
  simp [lastEdit, h]

theorem lastEdit_some {b : Bool} (h : edit id slug e = some b) :
    lastEdit id slug (e :: tr) = some b := by
  simp [lastEdit, h]

theorem Kept.none (h : Kept tr id agent) (he : ∀ slug, edit id slug e = none) :
    Kept (e :: tr) id agent where
  nodup := h.nodup
  current slug := by rw [h.current, lastEdit_none (he slug)]
  sizeOk := h.sizeOk

/-- An edit that is no install or removal leaves the skills. -/
theorem Kept.patched (h : Kept tr id now) (he : ∀ slug, edit id slug e = .none)
    (hskills : fields.skills = .none)
    (hsize : (now.patched fields).skills ≠ [] → (now.patched fields).SizeOk) :
    Kept (e :: tr) id (now.patched fields) := by
  have hsame : (now.patched fields).skills = now.skills := by
    simp [DeployedAgent.patched, hskills]
  refine ⟨?_, fun slug => ?_, hsize⟩
  · rw [DeployedAgent.slugs, hsame]
    exact h.nodup
  · rw [DeployedAgent.slugs, hsame, lastEdit_none (he slug)]
    exact h.current slug

theorem Kept.installed (h : Kept tr id now) (skill : InstalledSkill)
    (he : ∀ slug, edit id slug e = if skill.slug = slug then some true else .none)
    (hnew : skill.slug ∉ now.slugs) (hskills : agent.skills = now.skills ++ [skill])
    (hsize : agent.SizeOk) : Kept (e :: tr) id agent := by
  have hslugs : agent.slugs = now.slugs ++ [skill.slug] := by
    simp [DeployedAgent.slugs, hskills]
  refine ⟨?_, fun slug => ?_, fun _ => hsize⟩
  · rw [hslugs, ← List.concat_eq_append]
    exact h.nodup.concat hnew
  · rw [hslugs, List.mem_append, List.mem_singleton]
    by_cases heq : skill.slug = slug
    · rw [lastEdit_some (b := true) (by rw [he, if_pos heq])]
      simp [heq]
    · rw [lastEdit_none (by rw [he, if_neg heq]), ← h.current]
      simp [Ne.symm heq]

theorem Kept.removed (h : Kept tr id now) (slug : Str)
    (he : ∀ slug', edit id slug' e = if slug = slug' then some false else .none)
    (hskills : agent.skills = now.skills.filter (·.slug ≠ slug))
    (hsize : agent.skills ≠ [] → agent.SizeOk) : Kept (e :: tr) id agent := by
  have hslugs : agent.slugs = now.slugs.filter (· ≠ slug) := by
    rw [DeployedAgent.slugs, DeployedAgent.slugs, hskills, List.filter_map]
    rfl
  refine ⟨?_, fun slug' => ?_, hsize⟩
  · rw [hslugs]
    exact h.nodup.filter _
  · rw [hslugs, List.mem_filter]
    by_cases heq : slug = slug'
    · rw [lastEdit_some (b := false) (by rw [he, if_pos heq])]
      simp [heq]
    · rw [lastEdit_none (by rw [he, if_neg heq]), ← h.current]
      simp [Ne.symm heq]

/-! ## Each step -/

theorem Inv.ran_rows (hI : Inv tr s) (hknown : known tr t = some a) (hx : respond x s c = (r, s'))
    (t' : Call) (a' : Answers Ans Oversize) (slug : Str) (row : AgentSkillRow)
    (ha : known (⟨.ran t c r, s, s'⟩ :: tr : List Ev) t' = some a')
    (hmem : ⟨.getSkillBySlug slug, .ok (some row)⟩ ∈ a') : row.slug = slug := by
  rcases known_answered hknown ha with ⟨rfl, rfl⟩ | ⟨-, ha⟩
  · rcases List.mem_cons.1 hmem with heq | hmem
    · cases heq
      have hfind := (Except.ok.inj (Prod.mk.inj hx).1)
      simpa using List.find?_some hfind
    · exact hI.rows _ a slug row hknown hmem
  · exact hI.rows t' a' slug row ha hmem

/-- An agent that was there is there. -/
theorem respond_stays (hx : respond x s c = (r, s')) (h : s.agents id ≠ none) :
    s'.agents id ≠ none := by
  cases c with
  | updateAgentFields id' fields =>
    cases hx
    by_cases heq : id = id'
    · subst heq
      simpa [State.patched] using h
    · simpa [State.patched, Function.update_of_ne heq] using h
  | saveAgent agent =>
    cases hx
    by_cases heq : id = s.nextId
    · subst heq
      simp [State.saved]
    · simpa [State.saved, Function.update_of_ne heq] using h
  | _ =>
    cases hx
    exact h

theorem Inv.ran_loads (hI : Inv tr s) (hknown : known tr t = some a)
    (hx : respond x s c = (r, s')) (t' : Call) (a' : Answers Ans Oversize) (id : AgentId)
    (agent : DeployedAgent) (ha : known (⟨.ran t c r, s, s'⟩ :: tr : List Ev) t' = some a')
    (hmem : ⟨.loadAgent id, .ok (some agent)⟩ ∈ a') : s'.agents id ≠ none := by
  rcases known_answered hknown ha with ⟨rfl, rfl⟩ | ⟨-, ha⟩
  · rcases List.mem_cons.1 hmem with heq | hmem
    · cases heq
      simp only [respond, Prod.mk.injEq, Except.ok.injEq] at hx
      rw [← hx.2, hx.1]
      simp
    · exact respond_stays hx (hI.loads _ a id agent hknown hmem)
  · exact respond_stays hx (hI.loads t' a' id agent ha hmem)

theorem Inv.ran_present (hI : Inv tr s) (hknown : known tr t = some a)
    (hx : respond x s c = (r, s')) (t' : Call) (a' : Answers Ans Oversize)
    (ha : known (⟨.ran t c r, s, s'⟩ :: tr : List Ev) t' = some a') : ¬ Vanished a' := by
  rcases known_answered hknown ha with ⟨rfl, rfl⟩ | ⟨-, ha⟩
  swap
  · exact hI.present t' a' ha
  rintro ⟨id, agent, b, hsuffix, hmem⟩
  rcases List.suffix_cons_iff.1 hsuffix with heq | hsuffix
  · cases heq
    simp only [respond, Prod.mk.injEq, Except.ok.injEq] at hx
    exact hI.loads _ a id agent hknown hmem hx.1
  · exact hI.present _ a hknown ⟨id, agent, b, hsuffix, hmem⟩

theorem Inv.ran_sound (hI : Inv tr s) (hknown : known tr t = some a)
    (hx : respond x s c = (r, s')) (t' : Call) (a' : Answers Ans Oversize)
    (ha : known (⟨.ran t c r, s, s'⟩ :: tr : List Ev) t' = some a') : ¬ Failed a' := by
  rcases known_answered hknown ha with ⟨rfl, rfl⟩ | ⟨-, ha⟩
  swap
  · exact hI.sound t' a' ha
  rintro ⟨c', f, hmem⟩
  rcases List.mem_cons.1 hmem with heq | hmem
  · cases heq
    obtain ⟨v, hv⟩ := respond_ok hx
    cases hv
  · exact hI.sound _ a hknown ⟨c', f, hmem⟩

/-- What a found skill is called. -/
theorem Inv.found (hI : Inv tr s) (hknown : known tr t = some a) {skill : InstalledSkill}
    (h : Found a skill slug) : skill.slug = slug := by
  obtain ⟨row, hmem, rfl⟩ := h
  exact hI.rows t a slug row hknown hmem

theorem Inv.found_all (hI : Inv tr s) (hknown : known tr t = some a) {skills : List InstalledSkill}
    {slugs : List Str} (h : List.Forall₂ (Found a) skills slugs) :
    skills.map (·.slug) = slugs := by
  induction h with
  | nil => rfl
  | cons hfound _ ih => rw [List.map_cons, ih, hI.found hknown hfound]

/-- A write to one agent. -/
theorem edit_patched {id' : AgentId} {r : Except Oversize Unit} (h : id ≠ id') :
    edit id' slug (⟨.ran t (.updateAgentFields id fields) r, s, s'⟩ : Ev) = none := by
  cases r with
  | error f => rfl
  | ok _ => cases hop : t.req.op <;> simp [edit, hop, h]

theorem Inv.kept_patched (hI : Inv tr s) (hknown : known tr t = some a)
    (hasks : Asks t a (.updateAgentFields id fields)) (hnow : s.agents id = some now)
    (hcareful : Careful tr ⟨.ran t (.updateAgentFields id fields) (.ok ()), s, s.patched id fields⟩) :
    Kept (⟨.ran t (.updateAgentFields id fields) (.ok ()), s, s.patched id fields⟩ :: tr) id
      (now.patched fields) := by
  have hkept := hI.kept id now hnow
  have hcare := hcareful now hnow
  cases hop : t.req.op with
  | deploy form =>
    simp only [Asks, hop] at hasks
  | patch id' body =>
    simp only [Asks, hop] at hasks hcare
    obtain ⟨rfl, rfl⟩ := hasks
    exact hkept.patched (fun slug => by simp [edit, hop]) rfl hcare
  | install id' slug =>
    simp only [Asks, hop] at hasks hcare
    obtain ⟨rfl, agent, skill, capabilities, hread, hfound, hnew, hsize, rfl⟩ := hasks
    obtain ⟨hskills, hinstructions, htools⟩ := hcare a agent hknown hread
    have hslug := hI.found hknown hfound
    refine hkept.installed skill (fun slug' => ?_) ?_ ?_ ?_
    · simp [edit, hop, hslug]
    · rwa [DeployedAgent.slugs, hskills]
    · simp [DeployedAgent.patched, hskills]
    · simpa [DeployedAgent.SizeOk, DeployedAgent.patched, hinstructions, htools] using hsize
  | remove id' slug =>
    simp only [Asks, hop] at hasks hcare
    obtain ⟨rfl, agent, hread, rfl⟩ := hasks
    refine hkept.removed slug (fun slug' => ?_) ?_ hcare.2
    · simp [edit, hop]
    · simp [DeployedAgent.patched, hcare.1 a agent hknown hread]

theorem nodup_eraseDups (slugs : List Str) : slugs.eraseDups.Nodup := by
  induction hlen : slugs.length using Nat.strong_induction_on generalizing slugs with
  | _ n ih =>
    cases slugs with
    | nil => simp
    | cons slug slugs =>
      rw [List.eraseDups_cons]
      refine List.nodup_cons.2 ⟨by simp [List.mem_eraseDups], ih _ ?_ _ rfl⟩
      rw [← hlen]
      exact Nat.lt_succ_of_le (List.length_filter_le _ _)

/-- What a deploy saves. -/
theorem Inv.kept_saved (hI : Inv tr s) (hknown : known tr t = some a)
    (hasks : Asks t a (.saveAgent agent)) :
    Kept (⟨.ran t (.saveAgent agent) (.ok s.nextId), s, s.saved agent⟩ :: tr) s.nextId agent := by
  obtain ⟨form, hop, hfound, hsize⟩ := hasks
  have hslugs : agent.slugs = form.skillSlugs.eraseDups := hI.found_all hknown hfound
  refine ⟨?_, fun slug => ?_, hsize⟩
  · rw [hslugs]
    exact nodup_eraseDups _
  · rw [hslugs, lastEdit_some (b := decide (slug ∈ form.skillSlugs)) (by simp [edit, hop])]
    simp

theorem edit_saved {id' : AgentId} (h : id ≠ id') :
    edit id' slug (⟨.ran t (.saveAgent agent) (.ok id), s, s'⟩ : Ev) = none := by
  cases hop : t.req.op <;> simp [edit, hop, h]

theorem Inv.ran (hI : Inv tr s) (hknown : known tr t = some a) (hasks : Asks t a c)
    (hx : respond x s c = (r, s')) (hcareful : Careful tr ⟨.ran t c r, s, s'⟩) :
    Inv (⟨.ran t c r, s, s'⟩ :: tr) s' := by
  have hrows := hI.ran_rows hknown hx
  have hloads := hI.ran_loads hknown hx
  have hpresent := hI.ran_present hknown hx
  have hsound := hI.ran_sound hknown hx
  suffices hall : (∀ id agent, s'.agents id = some agent → Kept (⟨.ran t c r, s, s'⟩ :: tr) id agent) ∧
      ∀ id, s'.nextId ≤ id → s'.agents id = none from
    ⟨hall.1, hall.2, hrows, hloads, hpresent, hsound⟩
  cases c with
  | updateAgentFields id fields =>
    cases hx
    refine ⟨fun id' agent hagent => ?_, fun id' hid' => ?_⟩
    · by_cases heq : id' = id
      · subst heq
        simp only [State.patched, Function.update_self, Option.map_eq_some_iff] at hagent
        obtain ⟨now, hnow, rfl⟩ := hagent
        exact hI.kept_patched hknown hasks hnow hcareful
      · simp only [State.patched, Function.update_of_ne heq] at hagent
        exact (hI.kept id' agent hagent).none fun slug => edit_patched (Ne.symm heq)
    · by_cases heq : id' = id
      · subst heq
        simp [State.patched, hI.fresh _ hid']
      · simpa [State.patched, Function.update_of_ne heq] using hI.fresh id' hid'
  | saveAgent agent =>
    cases hx
    refine ⟨fun id' agent' hagent => ?_, fun id' hid' => ?_⟩
    · by_cases heq : id' = s.nextId
      · subst heq
        simp only [State.saved, Function.update_self, Option.some.injEq] at hagent
        obtain rfl := hagent
        exact hI.kept_saved hknown hasks
      · simp only [State.saved, Function.update_of_ne heq] at hagent
        exact (hI.kept id' agent' hagent).none fun slug => edit_saved (Ne.symm heq)
    · have hlt : s.nextId < id' := hid'
      simpa [State.saved, Function.update_of_ne hlt.ne'] using hI.fresh id' hlt.le
  | _ =>
    cases hx
    exact ⟨fun id agent hagent => (hI.kept id agent hagent).none fun slug => rfl, hI.fresh⟩

/-! ## Runs -/

/-- No agent has been deployed yet. -/
def Initial (s : State) : Prop := ∀ id, s.agents id = none

theorem backend_told (tags : List Call) (s : State) (t : Call) (p : Prog Ans Oversize Response)
    (s' : State) (h : backend.start tags s t p s') : p.Told (Asks t) (Ends t) [] := by
  obtain ⟨-, rfl, -⟩ := h
  exact told_handle t

/-- A step that answers nothing and leaves the agents. -/
theorem Inv.silent (hI : Inv tr s)
    (hne : ∀ (t : Call) (c : Cmd) (r : Except Oversize (Ans c)), e.label ≠ .ran t c r)
    (hagents : s'.agents = s.agents) (hnext : s'.nextId = s.nextId) : Inv (e :: tr) s' := by
  have hedit (id : AgentId) (slug : Str) : edit id slug e = none := by
    obtain ⟨label, pre, post⟩ := e
    cases label with
    | ran t c r => exact absurd rfl (hne t c r)
    | _ => rfl
  refine ⟨?_, ?_, ?_, ?_, ?_, ?_⟩
  · intro id agent hagent
    rw [hagents] at hagent
    exact (hI.kept id agent hagent).none (hedit id)
  · rw [hnext, hagents]
    exact hI.fresh
  · intro t a slug row ha hmem
    rcases known_silent hne ha with rfl | ha
    · cases hmem
    · exact hI.rows t a slug row ha hmem
  · intro t a id agent ha hmem
    rw [hagents]
    rcases known_silent hne ha with rfl | ha
    · cases hmem
    · exact hI.loads t a id agent ha hmem
  · intro t a ha
    rcases known_silent hne ha with rfl | ha
    · rintro ⟨id, agent, b, hsuffix, -⟩
      cases List.suffix_nil.1 hsuffix
    · exact hI.present t a ha
  · intro t a ha
    rcases known_silent hne ha with rfl | ha
    · rintro ⟨c, f, hmem⟩
      cases hmem
    · exact hI.sound t a ha

theorem inv_run (h : PoolRun backend ⟨s₀, []⟩ tr pool) (h0 : Initial s₀)
    (hcompletes : ∀ e ∈ tr, Completes e) (hcareful : Throughout Careful tr) :
    Inv tr pool.state := by
  revert hcompletes hcareful
  refine Run.invariant (I := fun tr pool => (∀ e ∈ tr, Completes e) →
    Throughout Careful tr → Inv tr pool.state) h (fun _ _ => ?_) ?_
  · refine ⟨?_, fun id _ => h0 id, by simp, by simp, by simp, by simp⟩
    intro id agent hagent
    rw [h0 id] at hagent
    cases hagent
  · intro tr b e b' hrun hat hs hcompletes hcareful
    have hI := hat (fun e' he' => hcompletes e' (by simp [he'])) hcareful.tail
    have hstep := hcareful.head
    have hlives := hcompletes e List.mem_cons_self
    have hm := backend_numbered.move hrun hs backend_told
    generalize b.state = s at hm hI
    generalize b'.state = s' at hm
    cases hm with
    | ran t a c r hknown hasks hx =>
      obtain ⟨x, hx⟩ := hx
      exact hI.ran hknown hasks hx hstep
    | started t p tags hfresh hx =>
      obtain ⟨-, -, rfl⟩ := hx
      exact hI.silent (by simp) rfl rfl
    | finished t a r hknown hends => exact hI.silent (by simp) rfl rfl
    | env hx =>
      obtain ⟨registry, rfl⟩ := hx
      exact hI.silent (by simp) rfl rfl
    | died t a hknown hx => exact absurd rfl (hlives t)

/-- An event in which the request writes. -/
def Writes (t : Call) (e : Ev) : Prop := ∃ c r, e.label = .ran t c r ∧ IsWrite ⟨c, r⟩

/-- In a quiet state every edit that succeeded is kept, and agents with skills can start. -/
structure EditsKept (tr : List Ev) (s : State) : Prop where
  /-- The skills are those whose last successful request put them there. -/
  current : ∀ id agent, s.agents id = some agent →
    ∀ slug, slug ∈ agent.slugs ↔ lastEdit id slug tr = some true
  once : ∀ id agent, s.agents id = some agent → agent.slugs.Nodup
  fits : ∀ id agent, s.agents id = some agent → agent.skills ≠ [] → Fits agent
  names : ∀ id agent, s.agents id = some agent → ∃ provided,
    (composeAgentRuntime agent.instructions agent.tools agent.skills).tools =
      agent.tools ++ provided ∧ (provided.map (·.name)).Nodup ∧
      ∀ tool ∈ provided, tool.name ∉ agent.tools.map (·.name)
  /-- The requests that write are those that succeed. -/
  took : ∀ t, (∃ e ∈ tr, Writes t e) ↔ ∃ e ∈ tr, ∃ r, e.label = .finished t r ∧ Succeeds r

/-- The answers of a request that has ended. -/
theorem ended_answers (h : PoolRun backend ⟨s₀, []⟩ tr pool) (h0 : Initial s₀)
    (hcompletes : ∀ e ∈ tr, Completes e) (hcareful : Throughout Careful tr) (he : e ∈ tr)
    {r : Except Oversize Response} (hlabel : e.label = .finished t r) :
    ∃ a, Heard t tr a ∧ (Wrote a ↔ Succeeds r) := by
  obtain ⟨later, earlier, rfl⟩ := List.append_of_mem he
  obtain ⟨b, b', hrun, hs, -⟩ := h.split
  have hI : Inv earlier b.state := inv_run hrun h0 (fun e' he' => hcompletes e' (by simp [he']))
    fun later' e' earlier' heq => hcareful (later ++ e :: later') e' earlier' (by rw [heq]; simp)
  have hm := backend_numbered.move hrun hs backend_told
  generalize b.state = s at hm hI
  generalize b'.state = s' at hm
  cases hm with
  | finished t' a r hknown hends =>
    cases hlabel
    have hheard := backend_numbered.heard_known hrun hknown
    refine ⟨a, backend_numbered.heard_finished h rfl hheard, ?_⟩
    rcases hends with hfailed | hvanished | hiff
    · exact absurd hfailed (hI.sound t a hknown)
    · exact absurd hvanished (hI.present t a hknown)
    · exact hiff
  | _ => cases hlabel

theorem skill_edits_kept (h : PoolRun backend ⟨s₀, []⟩ tr pool) (h0 : Initial s₀)
    (hcompletes : ∀ e ∈ tr, Completes e) (hquiet : pool.threads = [])
    (hcareful : Throughout Careful tr) : EditsKept tr pool.state := by
  have hI := inv_run h h0 hcompletes hcareful
  refine ⟨fun id agent hagent => (hI.kept id agent hagent).current,
    fun id agent hagent => (hI.kept id agent hagent).nodup,
    fun id agent hagent hskills => ((hI.kept id agent hagent).sizeOk hskills).fits,
    fun id agent _ => composed_names _ _ _, fun t => ⟨?_, ?_⟩⟩
  · rintro ⟨e, he, c, r, hlabel, hwrite⟩
    obtain ⟨e', he', ⟨r', hend⟩ | hdied⟩ := ended_of_quiet h hquiet he
      (show e.label.tag? = some t by rw [hlabel]; rfl)
    · obtain ⟨a, hheard, hiff⟩ := ended_answers h h0 hcompletes hcareful he' hend
      exact ⟨e', he', r', hend, hiff.1 ⟨⟨c, r⟩, hheard.mem.2 ⟨e, he, hlabel⟩, hwrite⟩⟩
    · exact absurd hdied (hcompletes e' he' t)
  · rintro ⟨e, he, r, hend, hsucceeds⟩
    obtain ⟨a, hheard, hiff⟩ := ended_answers h h0 hcompletes hcareful he hend
    obtain ⟨⟨c, r'⟩, hmem, hwrite⟩ := hiff.2 hsucceeds
    obtain ⟨e', he', hlabel⟩ := hheard.mem.1 hmem
    exact ⟨e', he', c, r', hlabel, hwrite⟩

/-! ## Runs on one agent -/

/-- A slug of one letter, twice. -/
def slugOf (letter : UInt16) : Str := [letter, letter]

def skillRow (letter : UInt16) : AgentSkillRow where
  slug := slugOf letter
  version := [49]
  name := slugOf letter
  authorAddress := 2
  instructions := [letter]
  tools := [⟨[letter], .nil⟩]

abbrev Cues := List (Cue Call Bool (List AgentSkillRow))

/-- A request of the owner alone, to its end. -/
def whole (id : Nat) (op : Op) (commands : Nat) : List (Cue Call Bool (List AgentSkillRow)) :=
  ([.enter ⟨id, [1], op⟩] : Cues) ++ (List.replicate commands (.turn 0 false) : Cues) ++
    ([.leave 0] : Cues)

/-- Two skills are registered, and an agent is deployed without any. -/
def deployed : List (Cue Call Bool (List AgentSkillRow)) :=
  .move [skillRow 97, skillRow 98] :: whole 0 (.deploy ⟨0, [119], [⟨[97], .nil⟩], [], []⟩) 3

/-- Both installs read before either writes. -/
def twoInstalls : List (Cue Call Bool (List AgentSkillRow)) :=
  deployed ++ ([.enter ⟨1, [1], .install 0 (slugOf 97)⟩, .turn 0 false,
    .enter ⟨2, [1], .install 0 (slugOf 98)⟩, .turn 0 false] : Cues) ++
    (List.replicate 3 (.turn 1 false) : Cues) ++ (List.replicate 3 (.turn 0 false) : Cues) ++
    ([.leave 0, .leave 0] : Cues)

/-- An install, an edit, another install and the removal of the first. -/
def inTurn : List (Cue Call Bool (List AgentSkillRow)) :=
  deployed ++ whole 1 (.install 0 (slugOf 97)) 4 ++
    whole 2 (.patch 0 { instructions := some [120] }) 3 ++
    whole 3 (.install 0 (slugOf 98)) 4 ++ whole 4 (.remove 0 (slugOf 97)) 3

/-- A test of the assumption. -/
def completes (e : Ev) : Bool :=
  match e.label with
  | .died _ => false
  | _ => true

theorem completes_completes (h : completes e = true) : Completes e := by
  intro t hlabel
  simp [completes, hlabel] at h

def DeployedAgent.sizeOk (agent : DeployedAgent) : Bool :=
  match assertComposedSizeOk agent.instructions agent.skills agent.tools with
  | .ok _ => true
  | .error _ => false

theorem DeployedAgent.sizeOk_sizeOk (h : agent.sizeOk = true) : agent.SizeOk := by
  unfold DeployedAgent.sizeOk at h
  split at h
  · next heq => exact heq
  · cases h

/-- The agent a request read first. -/
def firstRead (a : Answers Ans Oversize) : Option DeployedAgent :=
  match a.getLast? with
  | some ⟨.loadAgent _, .ok agent⟩ => agent
  | _ => none

theorem Read.firstRead (h : Read a id agent) : AgentSkills.firstRead a = some agent := by
  rw [AgentSkills.firstRead, h]

/-- A test of the condition. -/
def careful (earlier : List Ev) (e : Ev) : Bool :=
  match e.label with
  | .ran t (.updateAgentFields id fields) _ =>
    match e.pre.agents id with
    | none => true
    | some now =>
      let read := (known earlier t).bind firstRead
      let patched := now.patched fields
      match t.req.op with
      | .install _ _ => read.all fun agent => now.skills = agent.skills &&
          (now.instructions = agent.instructions && now.tools = agent.tools)
      | .remove _ _ => (read.all fun agent => now.skills = agent.skills) &&
          (patched.skills = [] || patched.sizeOk)
      | _ => patched.skills = [] || patched.sizeOk
  | _ => true

theorem sizeOk_or (h : (agent.skills = [] || agent.sizeOk) = true) (hne : agent.skills ≠ []) :
    agent.SizeOk := by
  rw [Bool.or_eq_true, decide_eq_true_eq] at h
  exact DeployedAgent.sizeOk_sizeOk (h.resolve_left hne)

theorem careful_careful (h : careful earlier e = true) : Careful earlier e := by
  obtain ⟨label, pre, post⟩ := e
  cases label with
  | ran t c r =>
    cases c with
    | updateAgentFields id fields =>
      intro now hnow
      replace hnow : pre.agents id = some now := hnow
      simp only [careful, hnow] at h
      cases hop : t.req.op with
      | install id' slug =>
        simp only [hop] at h
        intro a agent ha hread
        rw [ha, Option.bind_some, hread.firstRead] at h
        simpa using h
      | remove id' slug =>
        simp only [hop, Bool.and_eq_true] at h
        refine ⟨fun a agent ha hread => ?_, sizeOk_or h.2⟩
        have hsame := h.1
        rw [ha, Option.bind_some, hread.firstRead] at hsame
        simpa using hsame
      | _ =>
        simp only [hop] at h
        exact sizeOk_or h
    | _ => trivial
  | _ => trivial

/-- A skill last installed is not there. -/
def loses (id : AgentId) (slug : Str) (tr : List Ev) (s : State) : Bool :=
  lastEdit id slug tr = some true && (s.agents id).any fun agent => slug ∉ agent.slugs

theorem loses_not_kept (h : loses id slug tr s = true) : ¬ EditsKept tr s := by
  intro hkept
  simp only [loses, Bool.and_eq_true, decide_eq_true_eq, Option.any_eq_true] at h
  obtain ⟨hlast, agent, hagent, hmissing⟩ := h
  exact hmissing ((hkept.current id agent hagent slug).2 hlast)

theorem twoInstalls_loses : (stage.play twoInstalls ⟨{}, []⟩).any (fun p => p.1.all completes &&
    (p.2.threads.isEmpty && loses 0 (slugOf 97) p.1 p.2.state)) = true := by decide +kernel

/-- The first of the two skills is gone. -/
theorem skill_edits_kept_fails : ∃ tr pool, PoolRun backend ⟨{}, []⟩ tr pool ∧ Initial {} ∧
    (∀ e ∈ tr, Completes e) ∧ pool.threads = [] ∧ ¬ EditsKept tr pool.state := by
  obtain ⟨⟨tr, pool⟩, hplay, h⟩ := (Option.any_eq_true _ _).1 twoInstalls_loses
  simp only [Bool.and_eq_true, List.all_eq_true, List.isEmpty_iff] at h
  exact ⟨tr, pool, Async.Stage.play_run hplay, fun _ => rfl,
    fun e he => completes_completes (h.1 e he), h.2.1, loses_not_kept h.2.2⟩

theorem inTurn_careful : (stage.play inTurn ⟨{}, []⟩).any (fun p => p.1.all completes &&
    (p.2.threads.isEmpty && everywhere careful p.1)) = true := by decide +kernel

theorem skill_edits_kept_inTurn : ∃ tr pool, stage.play inTurn ⟨{}, []⟩ = some (tr, pool) ∧
    EditsKept tr pool.state := by
  obtain ⟨⟨tr, pool⟩, hplay, h⟩ := (Option.any_eq_true _ _).1 inTurn_careful
  simp only [Bool.and_eq_true, List.all_eq_true, List.isEmpty_iff] at h
  exact ⟨tr, pool, hplay, skill_edits_kept (Async.Stage.play_run hplay) (fun _ => rfl)
    (fun e he => completes_completes (h.1 e he)) h.2.1
    (throughout_of_everywhere (fun _ _ => careful_careful) h.2.2)⟩

end AgentSkills
