import Colloquy.Proofs.Configuration.Valid
import Mathlib.Data.List.Basic
import Mathlib.Data.List.Nodup
import Mathlib.Data.List.Pairwise

/-!
# Derived ids

The ids of prompts and tools are glued together: the id of the agent, a word between colons, and the
place of the prompt or the name of the tool. An id ends in the digits of the place, so the id of a
prompt can be taken apart again, and no two prompts of a valid configuration have one id. The name of
a tool may have colons of its own. So two tools of one agent have different ids, but the id of an
agent may go on where that of another ends, with what the name of a tool of the other begins with, and
then two tools have one id.
-/

namespace Colloquy

section Glue

/-- What stands behind the last colon can be told from what stands before it. -/
private theorem append_colon_inj {x y : List Char} {d e : List Char} (hd : ':' ∉ d) (he : ':' ∉ e)
    (h : x ++ ':' :: d = y ++ ':' :: e) : x = y ∧ d = e := by
  rcases List.append_eq_append_iff.mp h with ⟨more, rfl, hmore⟩ | ⟨more, rfl, hmore⟩
  · cases more with
    | nil => exact ⟨(List.append_nil x).symm, (List.cons.inj hmore).2⟩
    | cons c more =>
      have hcolon : ':' ∈ d := by
        rw [(List.cons.inj hmore).2]
        simp
      exact absurd hcolon hd
  · cases more with
    | nil => exact ⟨List.append_nil y, (List.cons.inj hmore).2.symm⟩
    | cons c more =>
      have hcolon : ':' ∈ e := by
        rw [(List.cons.inj hmore).2]
        simp
      exact absurd hcolon he

/-- The word between colons that stands in the id of a tool. -/
private def toolWord : List Char :=
  [':', 't', 'o', 'o', 'l', ':']

/-- What comes before the word when it is read a second time: nothing, the word again with anything
behind it, or the word without its last colon, which then begins the second one. -/
private theorem toolWord_append_cases {r t u : List Char}
    (h : toolWord ++ t = r ++ (toolWord ++ u)) :
    r = [] ∧ t = u ∨ (∃ middle, r = toolWord ++ middle ∧ t = middle ++ (toolWord ++ u)) ∨
      r = [':', 't', 'o', 'o', 'l'] ∧ t = 't' :: 'o' :: 'o' :: 'l' :: ':' :: u := by
  simp only [toolWord, List.cons_append, List.nil_append] at h ⊢
  rcases r with _ | ⟨a, _ | ⟨b, _ | ⟨c, _ | ⟨d, _ | ⟨e, _ | ⟨f, r⟩⟩⟩⟩⟩⟩
  · simpa using h
  · simp at h
  · simp at h
  · simp at h
  · simp at h
  · refine .inr (.inr ?_)
    simpa [eq_comm, and_assoc] using h
  · refine .inr (.inl ⟨r, ?_⟩)
    simpa [eq_comm, and_assoc] using h

/-- A number has no colons in its digits. -/
private theorem colon_not_mem_digits (n : Nat) : ':' ∉ (toString n).toList := by
  intro h
  rw [Nat.toString_eq_repr, Nat.toList_repr] at h
  exact absurd (Nat.isDigit_of_mem_toDigits (by decide) (by decide) h) (by decide)

end Glue

section Ids

/-- The id of a prompt can be taken apart. -/
private theorem promptId_eq_iff {id other : String} {n m : Nat} :
    id ++ ":prompt:" ++ toString n = other ++ ":prompt:" ++ toString m ↔ id = other ∧ n = m := by
  constructor
  · intro h
    have hlist : (id.toList ++ ":prompt".toList) ++ ':' :: (toString n).toList =
        (other.toList ++ ":prompt".toList) ++ ':' :: (toString m).toList := by
      simpa using congrArg String.toList h
    obtain ⟨hids, hplaces⟩ := append_colon_inj (colon_not_mem_digits n) (colon_not_mem_digits m) hlist
    have hvalues := congrArg (Nat.ofDigitChars 10 · 0) hplaces
    exact ⟨String.toList_inj.mp (List.append_cancel_right hids), by simpa using hvalues⟩
  · rintro ⟨rfl, rfl⟩
    rfl

/-- An id goes on where another one ends, with what the name of a tool begins with; what is left of
the name is the name of a tool as well. -/
def GoesOn (id name other own : String) : Prop :=
  (∃ middle, other = id ++ ":tool:" ++ middle ∧ name = middle ++ ":tool:" ++ own) ∨
    (other = id ++ ":tool" ∧ name = "tool:" ++ own)

/-- No id goes on where it ends itself. -/
private theorem not_goesOn_self (id : String) {name own : String} : ¬ GoesOn id name id own := by
  rintro (⟨middle, hid, -⟩ | ⟨hid, -⟩)
  · simpa using congrArg String.toList hid
  · simpa using congrArg String.toList hid

private theorem goesOn_of_toList {id name other own : String} {r : List Char}
    (hid : other.toList = id.toList ++ r)
    (h : toolWord ++ name.toList = r ++ (toolWord ++ own.toList)) :
    (id = other ∧ name = own) ∨ GoesOn id name other own := by
  rcases toolWord_append_cases h with ⟨rfl, hname⟩ | ⟨middle, rfl, hname⟩ | ⟨rfl, hname⟩
  · refine .inl ⟨String.toList_inj.mp ?_, String.toList_inj.mp hname⟩
    simpa using hid.symm
  · refine .inr (.inl ⟨String.ofList middle, String.toList_inj.mp ?_, String.toList_inj.mp ?_⟩)
    · simpa [toolWord] using hid
    · simpa [toolWord] using hname
  · refine .inr (.inr ⟨String.toList_inj.mp ?_, String.toList_inj.mp ?_⟩)
    · simpa using hid
    · simpa using hname

/-- Two tools have one id if their agents have one id and they have one name, or if the id of one
agent goes on where that of the other ends. -/
theorem toolId_eq_iff {id name other own : String} :
    id ++ ":tool:" ++ name = other ++ ":tool:" ++ own ↔
      (id = other ∧ name = own) ∨ GoesOn id name other own ∨ GoesOn other own id name := by
  constructor
  · intro h
    have hlist : id.toList ++ (toolWord ++ name.toList) = other.toList ++ (toolWord ++ own.toList) := by
      simpa [toolWord] using congrArg String.toList h
    rcases List.append_eq_append_iff.mp hlist with ⟨r, hid, hbehind⟩ | ⟨r, hid, hbehind⟩
    · rcases goesOn_of_toList hid hbehind with hsame | hgoes
      · exact .inl hsame
      · exact .inr (.inl hgoes)
    · rcases goesOn_of_toList hid hbehind with ⟨rfl, rfl⟩ | hgoes
      · exact .inl ⟨rfl, rfl⟩
      · exact .inr (.inr hgoes)
  · rintro (⟨rfl, rfl⟩ | (⟨middle, rfl, rfl⟩ | ⟨rfl, rfl⟩) | ⟨middle, rfl, rfl⟩ | ⟨rfl, rfl⟩)
    · rfl
    all_goals exact String.toList_inj.mp (by simp)

end Ids

/-- A tool of one agent has the id of a tool of another, whose own id goes on where that of the first
agent ends. -/
def AgentDefinition.ClashesWith (agent other : AgentDefinition) : Prop :=
  ∃ tool ∈ agent.tools, ∃ own ∈ other.tools, GoesOn agent.id tool.name other.id own.name

namespace Configuration

/-- The ids of all prompts of a configuration. -/
def promptIds (config : Configuration) : List String :=
  config.toAgents.flatMap fun agent => agent.prompts.map (·.id)

/-- The ids of all tools of a configuration. -/
def toolIds (config : Configuration) : List String :=
  config.toAgents.flatMap fun agent => agent.tools.map (·.id)

variable {config : Configuration} {agent other : AgentDefinition}

private theorem promptIds_toAgent (agent : AgentDefinition) :
    agent.toAgent.prompts.map (·.id) =
      (List.range agent.prompts.length).map fun place => agent.id ++ ":prompt:" ++ toString place := by
  rw [List.range_eq_range', ← List.zipIdx_map_snd, AgentDefinition.toAgent, List.map_map, List.map_map]
  rfl

private theorem toolIds_toAgent (agent : AgentDefinition) :
    agent.toAgent.tools.map (·.id) = agent.tools.map fun tool => agent.id ++ ":tool:" ++ tool.name := by
  rw [AgentDefinition.toAgent, List.map_map]
  rfl

theorem nodup_promptIds (h : config.Valid) : config.promptIds.Nodup := by
  have hids : config.agents.Pairwise fun agent other => agent.id ≠ other.id :=
    List.pairwise_map.mp h.ids
  rw [promptIds, toAgents, List.flatMap_map, List.nodup_flatMap]
  constructor
  · intro agent hmem
    rw [promptIds_toAgent]
    refine List.nodup_range.map ?_
    intro place next hsame
    exact (promptId_eq_iff.mp hsame).2
  · refine hids.imp ?_
    intro agent other hne id hmem hother
    simp only [promptIds_toAgent] at hmem hother
    obtain ⟨place, -, rfl⟩ := List.mem_map.mp hmem
    obtain ⟨next, -, hsame⟩ := List.mem_map.mp hother
    exact hne (promptId_eq_iff.mp hsame).1.symm

theorem nodup_toolIds_toAgent (h : agent.Valid) : (agent.toAgent.tools.map (·.id)).Nodup := by
  have hlower : agent.tools.Pairwise fun tool own => Text.lower tool.name ≠ Text.lower own.name :=
    List.pairwise_map.mp h.tools
  rw [toolIds_toAgent]
  refine List.pairwise_map.mpr (hlower.imp ?_)
  intro tool own hne hsame
  rcases toolId_eq_iff.mp hsame with ⟨-, hname⟩ | hgoes | hgoes
  · exact hne (congrArg Text.lower hname)
  · exact not_goesOn_self agent.id hgoes
  · exact not_goesOn_self agent.id hgoes

theorem nodup_toolIds_iff (h : config.Valid) : config.toolIds.Nodup ↔
    ∀ agent ∈ config.agents, ∀ other ∈ config.agents, ¬ agent.ClashesWith other := by
  have hids : config.agents.Pairwise fun agent other => agent.id ≠ other.id :=
    List.pairwise_map.mp h.ids
  rw [toolIds, toAgents, List.flatMap_map, List.nodup_flatMap]
  constructor
  · rintro ⟨-, hdisjoint⟩ agent hmem other hother ⟨tool, htool, own, hown, hgoes⟩
    have hne : agent ≠ other := by
      rintro rfl
      exact not_goesOn_self agent.id hgoes
    have hsymm : Std.Symm (Function.onFun List.Disjoint fun agent : AgentDefinition =>
        agent.toAgent.tools.map (·.id)) := ⟨fun _ _ h _ hid hid' => h hid' hid⟩
    have hapart := hdisjoint.forall hmem hother hne
    simp only [Function.onFun, toolIds_toAgent] at hapart
    exact hapart (List.mem_map_of_mem htool)
      (List.mem_map.mpr ⟨own, hown, (toolId_eq_iff.mpr (.inr (.inl hgoes))).symm⟩)
  · intro hclear
    refine ⟨fun agent hmem => nodup_toolIds_toAgent (h.agents agent hmem), ?_⟩
    refine hids.imp_of_mem ?_
    intro agent other hmem hother hne id hid hid'
    simp only [toolIds_toAgent] at hid hid'
    obtain ⟨tool, htool, rfl⟩ := List.mem_map.mp hid
    obtain ⟨own, hown, hsame⟩ := List.mem_map.mp hid'
    rcases toolId_eq_iff.mp hsame with ⟨hsame, -⟩ | hgoes | hgoes
    · exact hne hsame.symm
    · exact hclear other hother agent hmem ⟨own, hown, tool, htool, hgoes⟩
    · exact hclear agent hmem other hother ⟨tool, htool, own, hown, hgoes⟩

/-- In a valid configuration all prompts have different ids, and so have the tools of each agent. All
tools have different ids exactly if no tool of one agent clashes with one of another: the colons of the
ids and of the names are not told from those between them. -/
theorem derivedIds_unique (hvalid : config.violation? = none) :
    config.promptIds.Nodup ∧
      (∀ agent ∈ config.agents, (agent.toAgent.tools.map (·.id)).Nodup) ∧
      (config.toolIds.Nodup ↔
        ∀ agent ∈ config.agents, ∀ other ∈ config.agents, ¬ agent.ClashesWith other) := by
  have h := violation?_eq_none_iff.mp hvalid
  exact ⟨nodup_promptIds h, fun agent hmem => nodup_toolIds_toAgent (h.agents agent hmem),
    nodup_toolIds_iff h⟩

/-- An agent with one prompt and one tool. -/
def soleTool (id name : String) : AgentDefinition :=
  ⟨id, "", defaultModel, [⟨"Be brief.", true⟩], [⟨name, "", .native, true, none⟩]⟩

/-- Two agents may have tools of one name, and even an id with colons. -/
theorem derivedIds_unique_search :
    let config : Configuration :=
      ⟨.standard, .standard, [soleTool "a" "search", soleTool "a:b" "search"]⟩
    config.promptIds = ["a:prompt:0", "a:b:prompt:0"] ∧
      config.toolIds = ["a:tool:search", "a:b:tool:search"] ∧ config.promptIds.Nodup := by
  intro config
  have hvalid : config.violation? = none := by decide +kernel
  exact ⟨by decide +kernel, by decide +kernel, (derivedIds_unique hvalid).1⟩

/-- The tool of one agent has the id of the tool of another, though the configuration is valid. -/
theorem toolIds_clash :
    let config : Configuration :=
      ⟨.standard, .standard, [soleTool "a" "b:tool:c", soleTool "a:tool:b" "c"]⟩
    config.violation? = none ∧ config.toolIds = ["a:tool:b:tool:c", "a:tool:b:tool:c"] ∧
      ¬ config.toolIds.Nodup := by
  decide +kernel

end Configuration

end Colloquy
