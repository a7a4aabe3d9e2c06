import BlindMarket.AgentSkills.System

/-!
# What a request has been told

A request that writes has read the agent first, and an install has passed the
check of the size with what it read.
-/
namespace AgentSkills

open Async Prog JsText

variable {t : Call} {a b : Answers Ans Oversize} {id : AgentId} {slug : Str}
  {agent : DeployedAgent} {fields : AgentFieldPatch} {callers : List Address} {c c' : Cmd}

/-! ## The answers of a request -/

/-- The agent a request read first. -/
def Read (a : Answers Ans Oversize) (id : AgentId) (agent : DeployedAgent) : Prop :=
  a.getLast? = some ⟨.loadAgent id, .ok (some agent)⟩

/-- The skill is a snapshot of a row that was found for the slug. -/
def Found (a : Answers Ans Oversize) (skill : InstalledSkill) (slug : Str) : Prop :=
  ∃ row, ⟨.getSkillBySlug slug, .ok (some row)⟩ ∈ a ∧ skill = buildInstalledSkill row

/-- The install of a skill adds it to those that were read. -/
def Installs (a : Answers Ans Oversize) (id : AgentId) (slug : Str) (fields : AgentFieldPatch) :
    Prop :=
  ∃ agent skill capabilities, Read a id agent ∧ Found a skill slug ∧
    skill.slug ∉ agent.skills.map (·.slug) ∧
    assertComposedSizeOk agent.instructions (agent.skills ++ [skill]) agent.tools = .ok () ∧
    fields = { skills := some (agent.skills ++ [skill]), capabilities := some capabilities }

/-- A removal leaves the others of those that were read. -/
def Removes (a : Answers Ans Oversize) (id : AgentId) (slug : Str) (fields : AgentFieldPatch) :
    Prop :=
  ∃ agent, Read a id agent ∧ fields = { skills := some (agent.skills.filter (·.slug ≠ slug)) }

/-- A deploy brings the skills of its slugs, which it found, and they fit. -/
def Deploys (a : Answers Ans Oversize) (form : DeployForm) (agent : DeployedAgent) : Prop :=
  List.Forall₂ (Found a) agent.skills form.skillSlugs.eraseDups ∧
    (agent.skills ≠ [] →
      assertComposedSizeOk agent.instructions agent.skills agent.tools = .ok ())

/-- What a request may ask for. -/
def Asks (t : Call) (a : Answers Ans Oversize) : Cmd → Prop
  | .updateAgentFields id fields =>
    match t.req.op with
    | .deploy _ => False
    | .patch id' body => id' = id ∧ fields = body.fields
    | .install id' slug => id' = id ∧ Installs a id slug fields
    | .remove id' slug => id' = id ∧ Removes a id slug fields
  | .saveAgent agent => ∃ form, t.req.op = .deploy form ∧ Deploys a form agent
  | _ => True

def IsWrite : ((c : Cmd) × Except Oversize (Ans c)) → Prop
  | ⟨.updateAgentFields _ _, .ok _⟩ | ⟨.saveAgent _, .ok _⟩ => True
  | _ => False

/-- The request has written. -/
def Wrote (a : Answers Ans Oversize) : Prop := ∃ v ∈ a, IsWrite v

/-- An agent that was there was gone later. -/
def Vanished (a : Answers Ans Oversize) : Prop :=
  ∃ id agent b, (⟨.loadAgent id, .ok none⟩ :: b) <:+ a ∧ ⟨.loadAgent id, .ok (some agent)⟩ ∈ b

def Succeeds : Except Oversize Response → Prop
  | .ok (.deployed _) | .ok (.updated _) | .ok (.installed _) | .ok (.removed _) => True
  | _ => False

/-- A command failed. -/
def Failed (a : Answers Ans Oversize) : Prop := ∃ c f, ⟨c, .error f⟩ ∈ a

/-- A request that succeeds has written, and one that has written succeeds. -/
def Ends (_ : Call) (a : Answers Ans Oversize) (r : Except Oversize Response) : Prop :=
  Failed a ∨ Vanished a ∨ (Wrote a ↔ Succeeds r)

/-! ## The programs -/

theorem read_first : Read [⟨.loadAgent id, .ok (some agent)⟩] id agent := rfl

theorem Read.cons {v : (c : Cmd) × Except Oversize (Ans c)} (h : Read a id agent) :
    Read (v :: a) id agent := by
  cases a with
  | nil => cases h
  | cons v' a => exact h

theorem Failed.head {f : Oversize} : Failed (⟨c, .error f⟩ :: a) := ⟨c, f, List.mem_cons_self⟩

theorem not_wrote_cons {r : Except Oversize (Ans c)} (h : ¬ IsWrite ⟨c, r⟩) (ha : ¬ Wrote a) :
    ¬ Wrote (⟨c, r⟩ :: a) := by
  rintro ⟨v, hv, hw⟩
  rcases List.mem_cons.1 hv with rfl | hv
  · exact h hw
  · exact ha ⟨v, hv, hw⟩

theorem not_wrote_nil : ¬ Wrote [] := by
  rintro ⟨v, hv, -⟩
  cases hv

/-- Ends of a request that has written nothing. -/
theorem ends_unwritten {r : Except Oversize Response} (h : ¬ Wrote a) (hr : ¬ Succeeds r) :
    Ends t a r := .inr (.inr ⟨fun hw => absurd hw h, fun hs => absurd hs hr⟩)

/-- How `authorizeOwner` ends. -/
def Authorized (id : AgentId) (a : Answers Ans Oversize) :
    Except Oversize (Except Response DeployedAgent) → Prop
  | .ok (.ok agent) => a = [⟨.loadAgent id, .ok (some agent)⟩]
  | .ok (.error r) => ¬ Wrote a ∧ ¬ Succeeds (.ok r)
  | .error _ => Failed a

theorem told_authorizeOwner :
    (authorizeOwner callers id).Told (Asks t) (Authorized id) [] := by
  refine ⟨trivial, fun r => ?_⟩
  cases r with
  | error f => exact Failed.head
  | ok found =>
    have hread : ¬ Wrote [⟨.loadAgent id, .ok found⟩] := not_wrote_cons (by simp [IsWrite]) not_wrote_nil
    cases found with
    | none => exact ⟨hread, by simp [Succeeds]⟩
    | some agent =>
      simp only [done_andThen]
      split
      · rfl
      · exact ⟨hread, by simp [Succeeds]⟩

/-- How a write ends. -/
def Updated (a : Answers Ans Oversize) : Except Oversize (Option DeployedAgent) → Prop
  | .ok _ => Vanished a ∨ Wrote a
  | .error _ => Failed a

theorem told_updateAgent (hread : Read a id agent)
    (hasks : ∀ v, Asks t (⟨.loadAgent id, .ok (some v)⟩ :: a) (.updateAgentFields id fields)) :
    (updateAgent id fields).Told (Asks t) (fun a r => Updated a r) a := by
  refine ⟨trivial, fun r => ?_⟩
  cases r with
  | error f => exact Failed.head
  | ok found =>
    cases found with
    | none => exact .inl ⟨id, agent, a, List.suffix_rfl, List.mem_of_getLast? hread⟩
    | some v =>
      refine ⟨hasks v, fun r => ?_⟩
      cases r with
      | error f => exact Failed.head
      | ok _ => exact .inr ⟨_, List.mem_cons_self, trivial⟩

/-- A write and the answer after it. -/
theorem told_write (hread : Read a id agent)
    (hasks : ∀ v, Asks t (⟨.loadAgent id, .ok (some v)⟩ :: a) (.updateAgentFields id fields))
    (f : Option DeployedAgent → Response) (hf : ∀ v, Succeeds (.ok (f v))) :
    (updateAgent id fields >>= fun updated => pure (f updated)).Told (Asks t) (Ends t) a := by
  refine Told.bind (told_updateAgent hread hasks) ?_ ?_
  · rintro a' v - (hvanished | hwrote)
    · exact .inr (.inl hvanished)
    · exact .inr (.inr ⟨fun _ => hf v, fun _ => hwrote⟩)
  · exact fun a' f _ hfailed => .inl hfailed

theorem told_patch {body : AgentUpdate} (hop : t.req.op = .patch id body) :
    (patch callers id body).Told (Asks t) (Ends t) [] := by
  refine Told.bind told_authorizeOwner ?_ fun a f _ hfailed => .inl hfailed
  rintro a (r | agent) - hauthorized
  · exact ends_unwritten hauthorized.1 hauthorized.2
  obtain rfl := hauthorized
  have hwrite (b : Answers Ans Oversize) :
      Asks t b (.updateAgentFields id body.fields) := by
    simp only [Asks, hop]
    exact ⟨trivial, trivial⟩
  dsimp only
  split
  · refine ⟨trivial, fun r => ?_⟩
    cases r with
    | error f => exact .inl Failed.head
    | ok refuses =>
      cases refuses with
      | true =>
        refine ends_unwritten ?_ (by simp [Succeeds])
        exact not_wrote_cons (by simp [IsWrite]) (not_wrote_cons (by simp [IsWrite]) not_wrote_nil)
      | false => exact told_write read_first.cons (fun v => hwrite _) _ fun _ => trivial
  · exact told_write read_first (fun v => hwrite _) _ fun _ => trivial

theorem told_install (hop : t.req.op = .install id slug) :
    (install callers id slug).Told (Asks t) (Ends t) [] := by
  refine Told.bind told_authorizeOwner ?_ fun a f _ hfailed => .inl hfailed
  rintro a (r | agent) - hauthorized
  · exact ends_unwritten hauthorized.1 hauthorized.2
  obtain rfl := hauthorized
  refine ⟨trivial, fun r => ?_⟩
  cases r with
  | error f => exact .inl Failed.head
  | ok found =>
    have hread : ¬ Wrote [⟨.getSkillBySlug slug, .ok found⟩, ⟨.loadAgent id, .ok (some agent)⟩] :=
      not_wrote_cons (by simp [IsWrite]) (not_wrote_cons (by simp [IsWrite]) not_wrote_nil)
    simp only [done_andThen]
    cases hrow : found.filter fun row => row.isPublic || row.authorAddress ∈ callers with
    | none => exact ends_unwritten hread (by simp [Succeeds])
    | some row =>
      obtain rfl : found = some row := (Option.filter_eq_some_iff.1 hrow).1
      dsimp only
      split
      · exact ends_unwritten hread (by simp [Succeeds])
      next hnew =>
      split
      · exact ends_unwritten hread (by simp [Succeeds])
      cases hsize : assertComposedSizeOk agent.instructions (agent.skills ++ [buildInstalledSkill row])
          agent.tools with
      | error f => exact ends_unwritten hread (by simp [Succeeds])
      | ok _ =>
        refine told_write read_first.cons (fun v => ?_) _ fun _ => trivial
        simp only [Asks, hop]
        refine ⟨trivial, agent, buildInstalledSkill row, _, read_first.cons.cons,
          ⟨row, by simp, rfl⟩, ?_, hsize, rfl⟩
        simpa [buildInstalledSkill] using hnew

theorem told_remove (hop : t.req.op = .remove id slug) :
    (remove callers id slug).Told (Asks t) (Ends t) [] := by
  refine Told.bind told_authorizeOwner ?_ fun a f _ hfailed => .inl hfailed
  rintro a (r | agent) - hauthorized
  · exact ends_unwritten hauthorized.1 hauthorized.2
  obtain rfl := hauthorized
  dsimp only
  split
  · refine ends_unwritten ?_ (by simp [Succeeds])
    exact not_wrote_cons (by simp [IsWrite]) not_wrote_nil
  · refine told_write read_first (fun v => ?_) _ fun _ => trivial
    simp only [Asks, hop]
    exact ⟨trivial, agent, rfl, rfl⟩

theorem Found.mono {skill : InstalledSkill} {a' : Answers Ans Oversize} (h : Found a skill slug)
    (hsub : a ⊆ a') : Found a' skill slug := by
  obtain ⟨row, hrow, heq⟩ := h
  exact ⟨row, hsub hrow, heq⟩

/-- How the slugs are resolved. -/
def Resolved (slugs : List Str) (a : Answers Ans Oversize) :
    Except Oversize (Except Response (List InstalledSkill)) → Prop
  | .ok (.ok skills) => ¬ Wrote a ∧ List.Forall₂ (Found a) skills slugs
  | .ok (.error r) => ¬ Wrote a ∧ ¬ Succeeds (.ok r)
  | .error _ => Failed a

theorem told_resolveSkills (before : List Str) {skills : List InstalledSkill} {slugs : List Str}
    (hread : ¬ Wrote a) (hfound : List.Forall₂ (Found a) skills before) :
    (resolveSkills skills slugs).Told (Asks t) (Resolved (before ++ slugs)) a := by
  induction slugs generalizing a skills before with
  | nil =>
    rw [List.append_nil]
    exact ⟨hread, hfound⟩
  | cons slug slugs ih =>
    refine ⟨trivial, fun r => ?_⟩
    cases r with
    | error f => exact Failed.head
    | ok found =>
      have hread' : ¬ Wrote (⟨.getSkillBySlug slug, .ok found⟩ :: a) :=
        not_wrote_cons (by simp [IsWrite]) hread
      cases found with
      | none => exact ⟨hread', by simp [Succeeds]⟩
      | some row =>
        simp only [done_andThen]
        split
        · have hnew : Found (⟨.getSkillBySlug slug, .ok (some row)⟩ :: a)
              (buildInstalledSkill row) slug := ⟨row, List.mem_cons_self, rfl⟩
          have hold : List.Forall₂ (Found (⟨.getSkillBySlug slug, .ok (some row)⟩ :: a)) skills
              before := hfound.imp fun _ _ h => h.mono (List.subset_cons_self _ _)
          rw [List.append_cons]
          exact ih _ hread' (List.rel_append hold (.cons hnew .nil))
        · exact ⟨hread', by simp [Succeeds]⟩

/-- How `prepareDeploy` ends. -/
def Prepared (form : DeployForm) (a : Answers Ans Oversize) :
    Except Oversize (Except Response (List InstalledSkill)) → Prop
  | .ok (.ok skills) => ¬ Wrote a ∧ List.Forall₂ (Found a) skills form.skillSlugs.eraseDups ∧
    (skills ≠ [] → assertComposedSizeOk form.instructions skills form.tools = .ok ())
  | .ok (.error r) => ¬ Wrote a ∧ ¬ Succeeds (.ok r)
  | .error _ => Failed a ∨ ¬ Wrote a

theorem told_prepareDeploy {form : DeployForm} :
    (prepareDeploy form).Told (Asks t) (Prepared form) [] := by
  refine ⟨trivial, fun r => ?_⟩
  cases r with
  | error f => exact .inl Failed.head
  | ok refuses =>
    have hread : ¬ Wrote [⟨.refusesModel form.model, .ok refuses⟩] :=
      not_wrote_cons (by simp [IsWrite]) not_wrote_nil
    cases refuses with
    | true => exact ⟨hread, by simp [Succeeds]⟩
    | false =>
      refine Told.bind (told_resolveSkills [] hread .nil) ?_
        fun a f _ hfailed => .inl hfailed
      rintro a (r | skills) - hresolved
      · exact hresolved
      obtain ⟨hread', hfound⟩ := hresolved
      dsimp only
      split
      · next hsome =>
        cases hsize : assertComposedSizeOk form.instructions skills form.tools with
        | error f => exact .inr hread'
        | ok _ => exact ⟨hread', hfound, fun _ => hsize⟩
      · next hnone => exact ⟨hread', hfound, fun h => absurd h hnone⟩

theorem told_deploy {form : DeployForm} (hop : t.req.op = .deploy form) :
    (deploy callers form).Told (Asks t) (Ends t) [] := by
  refine Told.bind told_prepareDeploy ?_ ?_
  · rintro a (r | skills) - hprepared
    · exact ends_unwritten hprepared.1 hprepared.2
    obtain ⟨hread, hfound, hsize⟩ := hprepared
    refine ⟨trivial, fun r => ?_⟩
    cases r with
    | error f => exact .inl Failed.head
    | ok refuses =>
      have hread' : ¬ Wrote (⟨.refusesDeploy, .ok refuses⟩ :: a) :=
        not_wrote_cons (by simp [IsWrite]) hread
      cases refuses with
      | true => exact ends_unwritten hread' (by simp [Succeeds])
      | false =>
        refine ⟨⟨form, hop, hfound.imp fun _ _ h => h.mono (List.subset_cons_self _ _), hsize⟩,
          fun r => ?_⟩
        cases r with
        | error f => exact .inl Failed.head
        | ok id =>
          exact .inr (.inr ⟨fun _ => trivial, fun _ => ⟨_, List.mem_cons_self, trivial⟩⟩)
  · rintro a f - (hfailed | hread)
    · exact .inl hfailed
    · exact ends_unwritten hread (by simp [Succeeds])

theorem told_handle (t : Call) : (handle t.req).Told (Asks t) (Ends t) [] := by
  unfold handle
  cases hop : t.req.op with
  | deploy form => exact told_deploy hop
  | patch id body => exact told_patch hop
  | install id slug => exact told_install hop
  | remove id slug => exact told_remove hop

end AgentSkills
