import BlindMarket.Support.Json

/-!
# What an agent starts with

Its instructions and tools with those of its installed skills, and the check of
their size. The tools of skills get names of their own.
-/
namespace AgentSkills

open JsText

abbrev Capability := Nat

/-- A tool's name, and its other fields in their order. -/
structure AgentTool where
  name : Str
  fields : Json.Fields := .nil
  deriving DecidableEq

structure InstalledSkill where
  slug : Str
  version : Str
  name : Str
  instructions : Str
  tools : List AgentTool := []
  secretRefs : List Str := []
  capabilities : List Capability := []
  deriving DecidableEq

structure ComposedRuntime where
  instructions : Str
  tools : List AgentTool

def MAX_SKILL_INSTRUCTIONS_BYTES : Nat := 16 * 1024

def MAX_SKILLS_PER_AGENT : Nat := 10

def MAX_COMPOSED_INSTRUCTIONS_BYTES : Nat := 96 * 1024

def MAX_COMPOSED_TOOLS_BYTES : Nat := 96 * 1024

/-- `{ ...def, name, type: 'tool' }` -/
def AgentTool.renamed (tool : AgentTool) (name : Str) : AgentTool where
  name := name
  fields := tool.fields.set (ascii "type") (.str (ascii "tool"))

def AgentTool.json (tool : AgentTool) : Json.Value :=
  .obj (.cons (ascii "name") (.str tool.name) tool.fields)

/-- One tool of a skill: under its own name, under one with the slug, or not at all. -/
def addTool (slug : Str) (st : List AgentTool × List Str) (tool : AgentTool) :
    List AgentTool × List Str :=
  let (tools, taken) := st
  let name := if tool.name ∈ taken then slug ++ ascii "__" ++ tool.name else tool.name
  if name ∈ taken then st else (tools ++ [tool.renamed name], name :: taken)

def addSkill (st : List AgentTool × List Str) (skill : InstalledSkill) :
    List AgentTool × List Str := skill.tools.foldl (addTool skill.slug) st

def section_ (skill : InstalledSkill) : Str :=
  ascii "[SKILL: " ++ skill.name ++ ascii " v" ++ skill.version ++ ascii "]\n" ++
    skill.instructions

def header (count : Nat) : Str :=
  ascii "\n\n[SKILLS]\nYou have " ++ ascii (toString count) ++
    ascii " installed skill(s). Follow each skill's instructions whenever its domain applies to " ++
    ascii "the current task.\n\n"

def composeAgentRuntime (instructions : Str) (tools : List AgentTool)
    (skills : List InstalledSkill) : ComposedRuntime :=
  if skills = [] then ⟨instructions, tools⟩
  else
    ⟨instructions ++ header skills.length ++ (ascii "\n\n").intercalate (skills.map section_),
      (skills.foldl addSkill (tools, tools.map (·.name))).1⟩

/-- Why `assertComposedSizeOk` throws. -/
inductive Oversize
  | skills
  | skillInstructions (slug : Str)
  | instructions
  | tools
  deriving DecidableEq, Repr

def ComposedRuntime.instructionsBytes (r : ComposedRuntime) : Nat := Json.byteLength r.instructions

/-- `Buffer.byteLength(JSON.stringify(tools), 'utf8')` -/
def ComposedRuntime.toolsBytes (r : ComposedRuntime) : Nat :=
  Json.byteLength (Json.stringify (.arr (.ofList (r.tools.map AgentTool.json))))

def assertComposedSizeOk (baseInstructions : Str) (skills : List InstalledSkill)
    (baseTools : List AgentTool) : Except Oversize Unit :=
  if MAX_SKILLS_PER_AGENT < skills.length then .error .skills
  else
    match skills.find? fun s => MAX_SKILL_INSTRUCTIONS_BYTES < Json.byteLength s.instructions with
    | some s => .error (.skillInstructions s.slug)
    | none =>
      let composed := composeAgentRuntime baseInstructions baseTools skills
      if MAX_COMPOSED_INSTRUCTIONS_BYTES < composed.instructionsBytes then .error .instructions
      else if MAX_COMPOSED_TOOLS_BYTES < composed.toolsBytes then .error .tools
      else .ok ()

/-! ## The names of skill tools -/

/-- What follows an agent's own tools has names that are taken once. -/
def OwnNames (own : List AgentTool) (st : List AgentTool × List Str) : Prop :=
  ∃ provided, st.1 = own ++ provided ∧ (provided.map (·.name)).Nodup ∧
    (∀ tool ∈ provided, tool.name ∉ own.map (·.name)) ∧ ∀ tool ∈ st.1, tool.name ∈ st.2

variable {own : List AgentTool} {st : List AgentTool × List Str}

theorem OwnNames.addTool (h : OwnNames own st) (slug : Str) (tool : AgentTool) :
    OwnNames own (addTool slug st tool) := by
  obtain ⟨tools, taken⟩ := st
  obtain ⟨provided, rfl, hnodup, hown, htaken⟩ := h
  simp only [AgentSkills.addTool]
  generalize (if tool.name ∈ taken then slug ++ ascii "__" ++ tool.name else tool.name) = name
  split
  · exact ⟨provided, rfl, hnodup, hown, htaken⟩
  · next hfree =>
    have hnew : ∀ tool' ∈ own ++ provided, tool'.name ≠ name := by
      rintro tool' hmem rfl
      exact hfree (htaken tool' hmem)
    refine ⟨provided ++ [tool.renamed name], List.append_assoc _ _ _, ?_, ?_, ?_⟩
    · rw [List.map_append, List.map_singleton, ← List.concat_eq_append]
      refine hnodup.concat fun hmem => ?_
      obtain ⟨tool', hmem, heq⟩ := List.mem_map.1 hmem
      exact hnew tool' (List.mem_append_right _ hmem) heq
    · intro tool' hmem
      rcases List.mem_append.1 hmem with hmem | hmem
      · exact hown tool' hmem
      · obtain rfl := List.mem_singleton.1 hmem
        intro hin
        obtain ⟨tool', hmem', heq⟩ := List.mem_map.1 hin
        exact hnew tool' (List.mem_append_left _ hmem') heq
    · intro tool' hmem
      rcases List.mem_append.1 hmem with hmem | hmem
      · exact List.mem_cons_of_mem _ (htaken tool' hmem)
      · obtain rfl := List.mem_singleton.1 hmem
        exact List.mem_cons_self

theorem OwnNames.addSkill (h : OwnNames own st) (skill : InstalledSkill) :
    OwnNames own (addSkill st skill) :=
  List.foldlRecOn skill.tools (AgentSkills.addTool skill.slug) h fun _ h tool _ =>
    h.addTool skill.slug tool

/-- Skill tools share no name, with each other or with the agent's own. -/
theorem composed_names (instructions : Str) (tools : List AgentTool)
    (skills : List InstalledSkill) : ∃ provided,
      (composeAgentRuntime instructions tools skills).tools = tools ++ provided ∧
        (provided.map (·.name)).Nodup ∧ ∀ tool ∈ provided, tool.name ∉ tools.map (·.name) := by
  have hstart : OwnNames tools (tools, tools.map (·.name)) :=
    ⟨[], by simp, by simp, by simp, fun tool hmem => List.mem_map_of_mem hmem⟩
  obtain ⟨provided, heq, hnodup, hown, -⟩ : OwnNames tools
      (skills.foldl AgentSkills.addSkill (tools, tools.map (·.name))) :=
    List.foldlRecOn skills _ hstart fun _ h skill _ => h.addSkill skill
  unfold composeAgentRuntime
  split
  · exact ⟨[], by simp, by simp, by simp⟩
  · exact ⟨provided, heq, hnodup, hown⟩

end AgentSkills
