import BlindMarket.AgentSkills.Compose
import BlindMarket.Support.Async

/-!
# Deploys, edits, installs and removals

The routes that write an agent's instructions, tools and skills. Addresses and
slugs are in lower case.
-/
namespace AgentSkills

open Async Prog JsText

abbrev Address := Nat

abbrev AgentId := Nat

/-- A provider and one of its models. -/
abbrev Model := Nat

structure DeployedAgent where
  /-- The owner's address and the linked ones. -/
  owners : List Address
  model : Model
  instructions : Str
  tools : List AgentTool
  skills : List InstalledSkill
  capabilities : List Capability
  deriving DecidableEq

structure AgentSkillRow where
  slug : Str
  version : Str
  name : Str
  authorAddress : Address
  instructions : Str
  tools : List AgentTool := []
  secretRefs : List Str := []
  capabilities : List Capability := []
  isPublic : Bool := true

structure DeployForm where
  model : Model
  instructions : Str
  tools : List AgentTool := []
  capabilities : List Capability := []
  skillSlugs : List Str := []
  deriving DecidableEq

/-- The columns that a write sets. -/
structure AgentFieldPatch where
  model : Option Model := none
  instructions : Option Str := none
  tools : Option (List AgentTool) := none
  skills : Option (List InstalledSkill) := none
  capabilities : Option (List Capability) := none

structure AgentUpdate where
  model : Option Model := none
  instructions : Option Str := none
  tools : Option (List AgentTool) := none
  capabilities : Option (List Capability) := none
  deriving DecidableEq

inductive Op
  | deploy (form : DeployForm)
  | patch (id : AgentId) (body : AgentUpdate)
  | install (id : AgentId) (slug : Str)
  | remove (id : AgentId) (slug : Str)
  deriving DecidableEq

structure Request where
  /-- The caller's wallets. -/
  callers : List Address
  op : Op
  deriving DecidableEq

def DeployedAgent.patched (agent : DeployedAgent) (fields : AgentFieldPatch) : DeployedAgent where
  owners := agent.owners
  model := fields.model.getD agent.model
  instructions := fields.instructions.getD agent.instructions
  tools := fields.tools.getD agent.tools
  skills := fields.skills.getD agent.skills
  capabilities := fields.capabilities.getD agent.capabilities

def AgentUpdate.fields (body : AgentUpdate) : AgentFieldPatch where
  model := body.model
  instructions := body.instructions
  tools := body.tools
  capabilities := body.capabilities

def buildInstalledSkill (row : AgentSkillRow) : InstalledSkill where
  slug := row.slug
  version := row.version
  name := row.name
  instructions := row.instructions
  tools := row.tools
  secretRefs := row.secretRefs
  capabilities := row.capabilities

inductive Cmd
  | loadAgent (id : AgentId)
  | getSkillBySlug (slug : Str)
  /-- Whether the model is refused, by the catalog or its provider. -/
  | refusesModel (model : Model)
  /-- Whether a deploy is refused, for want of a slot, a fee or a wallet. -/
  | refusesDeploy
  | saveAgent (agent : DeployedAgent)
  | updateAgentFields (id : AgentId) (fields : AgentFieldPatch)

abbrev Ans : Cmd → Type
  | .loadAgent _ => Option DeployedAgent
  | .getSkillBySlug _ => Option AgentSkillRow
  | .refusesModel _ | .refusesDeploy => Bool
  | .saveAgent _ => AgentId
  | .updateAgentFields _ _ => Unit

abbrev Route := Prog Ans Oversize

inductive Response
  | notFound
  | forbidden
  | modelRefused
  | deployRefused
  | skillNotFound (slug : Str)
  | alreadyInstalled
  | skillNeedsSecrets (refs : List Str)
  | notInstalled
  | deployed (id : AgentId)
  | updated (agent : Option DeployedAgent)
  | installed (agent : Option DeployedAgent)
  | removed (agent : Option DeployedAgent)

/-! ## The routes -/

def authorizeOwner (callers : List Address) (id : AgentId) :
    Route (Except Response DeployedAgent) := do
  match ← call (Cmd.loadAgent id) with
  | none => return .error .notFound
  | some agent =>
    if callers.any (· ∈ agent.owners) then return .ok agent
    return .error .forbidden

def updateAgent (id : AgentId) (fields : AgentFieldPatch) : Route (Option DeployedAgent) := do
  match ← call (Cmd.loadAgent id) with
  | none => return none
  | some agent =>
    call (Cmd.updateAgentFields id fields)
    return some (agent.patched fields)

/-- The skills of the slugs, after those resolved so far. -/
def resolveSkills (skills : List InstalledSkill) : List Str →
    Route (Except Response (List InstalledSkill))
  | [] => return .ok skills
  | slug :: slugs => do
    match ← call (Cmd.getSkillBySlug slug) with
    | none => return .error (.skillNotFound slug)
    | some row =>
      if row.isPublic then resolveSkills (skills ++ [buildInstalledSkill row]) slugs
      else return .error (.skillNotFound slug)

def prepareDeploy (form : DeployForm) : Route (Except Response (List InstalledSkill)) := do
  if ← call (Cmd.refusesModel form.model) then return .error .modelRefused
  match ← resolveSkills [] form.skillSlugs.eraseDups with
  | .error r => return .error r
  | .ok skills =>
    if skills ≠ [] then Prog.done (assertComposedSizeOk form.instructions skills form.tools)
    return .ok skills

/-- `POST /agents/deploy` -/
def deploy (callers : List Address) (form : DeployForm) : Route Response := do
  match ← prepareDeploy form with
  | .error r => return r
  | .ok skills =>
    if ← call Cmd.refusesDeploy then return .deployRefused
    let id ← call (Cmd.saveAgent {
      owners := callers.take 1
      model := form.model
      instructions := form.instructions
      tools := form.tools
      skills := skills
      capabilities := (form.capabilities ++ skills.flatMap (·.capabilities)).eraseDups })
    return .deployed id

/-- `PATCH /agents/:id` -/
def patch (callers : List Address) (id : AgentId) (body : AgentUpdate) : Route Response := do
  match ← authorizeOwner callers id with
  | .error r => return r
  | .ok agent =>
    let nextModel := body.model.getD agent.model
    if nextModel ≠ agent.model then
      if ← call (Cmd.refusesModel nextModel) then return .modelRefused
    let updated ← updateAgent id body.fields
    return .updated updated

/-- `POST /agents/:id/skills` -/
def install (callers : List Address) (id : AgentId) (slug : Str) : Route Response := do
  match ← authorizeOwner callers id with
  | .error r => return r
  | .ok agent =>
    match (← call (Cmd.getSkillBySlug slug)).filter
        fun row => row.isPublic || row.authorAddress ∈ callers with
    | none => return .skillNotFound slug
    | some row =>
      if agent.skills.any (·.slug = row.slug) then return .alreadyInstalled
      let snapshot := buildInstalledSkill row
      if snapshot.secretRefs ≠ [] then return .skillNeedsSecrets snapshot.secretRefs
      let skills := agent.skills ++ [snapshot]
      Prog.done (assertComposedSizeOk agent.instructions skills agent.tools)
      let capabilities := (agent.capabilities ++ snapshot.capabilities).eraseDups
      let updated ← updateAgent id { skills := some skills, capabilities := some capabilities }
      return .installed updated

/-- `DELETE /agents/:id/skills/:slug` -/
def remove (callers : List Address) (id : AgentId) (slug : Str) : Route Response := do
  match ← authorizeOwner callers id with
  | .error r => return r
  | .ok agent =>
    let skills := agent.skills.filter (·.slug ≠ slug)
    if skills.length = agent.skills.length then return .notInstalled
    let updated ← updateAgent id { skills := some skills }
    return .removed updated

def handle (req : Request) : Route Response :=
  match req.op with
  | .deploy form => deploy req.callers form
  | .patch id body => patch req.callers id body
  | .install id slug => install req.callers id slug
  | .remove id slug => remove req.callers id slug

end AgentSkills
