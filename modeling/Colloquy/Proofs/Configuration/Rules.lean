import Colloquy.Proofs.Configuration.Addresses
import Colloquy.Proofs.Configuration.Valid
import Colloquy.Proofs.Decimal.Comparison

/-!
# The rules of a configuration

The rules that a configuration has to keep, told in their own terms: bounds of at least one, agents
with ids that are not blank and differ, temperatures that are rational numbers from 0 to 2, and tools
whose names differ in more than letter case. A configuration is valid exactly if it keeps them, and
the rule that is reported of any other is one that it breaks.
-/

namespace Colloquy

/-- A temperature is a rational number from 0 to 2. -/
def Configuration.InRange (temperature : Float32) : Prop :=
  ∃ q, (Decimal.Reading.ofFloat32 temperature).value? = some q ∧ 0 ≤ q ∧ q ≤ 2

/-- The rules that an agent has to keep by itself. -/
structure AgentDefinition.KeepsRules (agent : AgentDefinition) : Prop where
  id : Text.trim agent.id ≠ ""
  temperature : Configuration.InRange agent.model.temperature
  tools : agent.tools.Pairwise fun tool other => Text.lower tool.name ≠ Text.lower other.name

/-- The rules that a configuration has to keep. -/
structure Configuration.KeepsRules (config : Configuration) : Prop where
  historyLimit : 1 ≤ config.settings.historyLimit
  previewChars : 1 ≤ config.settings.previewChars
  maxDepth : 1 ≤ config.settings.maxDepth.toNat
  streamBuffer : 1 ≤ config.settings.streamBuffer
  agents : ∀ agent ∈ config.agents, agent.KeepsRules
  ids : config.agents.Pairwise fun agent other => agent.id ≠ other.id

/-- A configuration breaks the rule that is reported of it. -/
def Violation.BrokenBy (config : Configuration) : Violation → Prop
  | .zeroBound => config.settings.historyLimit = 0 ∨ config.settings.previewChars = 0 ∨
      config.settings.maxDepth = 0 ∨ config.settings.streamBuffer = 0
  | .blankAgentId => ∃ agent ∈ config.agents, Text.trim agent.id = ""
  | .duplicateAgentId id => [id, id].Sublist (config.agents.map (·.id))
  | .temperature id =>
    ∃ agent ∈ config.agents, agent.id = id ∧ ¬ Configuration.InRange agent.model.temperature
  | .duplicateTool id name => ∃ agent ∈ config.agents, agent.id = id ∧ ∃ tool other,
      [other, tool].Sublist agent.tools ∧ tool.name = name ∧ Text.lower other.name = Text.lower name
  | .unknownStorage _ | .depthNotANumber _ => False

namespace Configuration

section Range

private theorem value?_zero : (Decimal.Reading.ofFloat32 0).value? = some 0 := by
  have hreading : Decimal.Reading.ofFloat32 0 = .finite false ⟨0, -149, false⟩ := by rfl
  rw [hreading]
  simp [Decimal.Reading.value?, Decimal.Binary.value]

private theorem value?_two : (Decimal.Reading.ofFloat32 2).value? = some 2 := by
  have hreading : Decimal.Reading.ofFloat32 2 = .finite false ⟨8388608, -22, true⟩ := by rfl
  rw [hreading]
  norm_num [Decimal.Reading.value?, Decimal.Binary.value]

/-- The range of temperatures is one of rational numbers, though it is checked by comparing numbers
of single precision. -/
theorem isTemperature_iff (x : Float32) : isTemperature x = true ↔ InRange x := by
  rw [isTemperature, Bool.and_eq_true, decide_eq_true_iff, decide_eq_true_iff]
  constructor
  · rintro ⟨hleast, hgreatest⟩
    obtain ⟨q, hq⟩ := Decimal.exists_value?_of_between value?_zero value?_two hleast hgreatest
    exact ⟨q, hq, (Decimal.le_iff_value_le value?_zero hq).mp hleast,
      (Decimal.le_iff_value_le hq value?_two).mp hgreatest⟩
  · rintro ⟨q, hq, hleast, hgreatest⟩
    exact ⟨(Decimal.le_iff_value_le value?_zero hq).mpr hleast,
      (Decimal.le_iff_value_le hq value?_two).mpr hgreatest⟩

end Range

section Keeping

private theorem agentKeepsRules_iff (agent : AgentDefinition) : agent.KeepsRules ↔ agent.Valid := by
  have hid : Text.trim agent.id ≠ "" ↔ Text.isBlankText agent.id = false := by
    rw [Ne, Text.trim_eq_empty_iff, Bool.not_eq_true]
  have htools : (agent.tools.map fun tool => Text.lower tool.name).Nodup ↔
      agent.tools.Pairwise fun tool other => Text.lower tool.name ≠ Text.lower other.name :=
    List.pairwise_map
  constructor
  · exact fun h => ⟨hid.mp h.id, (isTemperature_iff _).mpr h.temperature, htools.mpr h.tools⟩
  · exact fun h => ⟨hid.mpr h.id, (isTemperature_iff _).mp h.temperature, htools.mp h.tools⟩

private theorem hasZero_eq_false_iff (settings : TurnSettings) : settings.hasZero = false ↔
    1 ≤ settings.historyLimit ∧ 1 ≤ settings.previewChars ∧ 1 ≤ settings.maxDepth.toNat ∧
      1 ≤ settings.streamBuffer := by
  have hdepth : settings.maxDepth ≠ 0 ↔ 1 ≤ settings.maxDepth.toNat := by
    rw [Ne, ← UInt32.toNat_inj, UInt32.toNat_zero]
    omega
  simp only [TurnSettings.hasZero, Bool.or_eq_false_iff, beq_eq_false_iff_ne, hdepth,
    Nat.one_le_iff_ne_zero, and_assoc]

/-- A configuration breaks no rule exactly if it keeps them all. -/
theorem violation?_eq_none_iff_keepsRules {config : Configuration} :
    config.violation? = none ↔ config.KeepsRules := by
  have hids : (config.agents.map (·.id)).Nodup ↔
      config.agents.Pairwise fun agent other => agent.id ≠ other.id := List.pairwise_map
  rw [violation?_eq_none_iff]
  constructor
  · intro h
    obtain ⟨hhistory, hpreview, hdepth, hbuffer⟩ := (hasZero_eq_false_iff _).mp h.settings
    exact ⟨hhistory, hpreview, hdepth, hbuffer,
      fun agent hmem => (agentKeepsRules_iff agent).mpr (h.agents agent hmem), hids.mp h.ids⟩
  · intro h
    refine ⟨(hasZero_eq_false_iff _).mpr ⟨h.historyLimit, h.previewChars, h.maxDepth,
      h.streamBuffer⟩, fun agent hmem => ?_, hids.mpr h.ids⟩
    exact (agentKeepsRules_iff agent).mp (h.agents agent hmem)

end Keeping

section Breaking

variable {α : Type} {key : α → String} {seen : List String}

/-- What is found to be repeated stands behind another one of its key. -/
private theorem exists_sublist_of_firstRepeated? {before l : List α} {a : α}
    (hseen : ∀ k ∈ seen, ∃ b ∈ before, key b = k) (h : firstRepeated? key seen l = some a) :
    ∃ b, [b, a].Sublist (before ++ l) ∧ key b = key a := by
  induction l generalizing seen before with
  | nil => cases h
  | cons c rest ih =>
    rw [firstRepeated?] at h
    split at h
    · next hrepeated =>
      obtain rfl := Option.some.inj h
      obtain ⟨b, hmem, hkey⟩ := hseen (key c) (by simpa using hrepeated)
      exact ⟨b, (List.singleton_sublist.mpr hmem).append (by simp), hkey⟩
    · have hnow : ∀ k ∈ key c :: seen, ∃ b ∈ before ++ [c], key b = k := by
        intro k hmem
        rcases List.mem_cons.mp hmem with rfl | hmem
        · exact ⟨c, by simp, rfl⟩
        · obtain ⟨b, hb, hkey⟩ := hseen k hmem
          exact ⟨b, List.mem_append_left _ hb, hkey⟩
      simpa using ih hnow h

variable {config : Configuration} {violation : Violation}

private theorem brokenBy_of_agent {before rest : List AgentDefinition} {agent : AgentDefinition}
    (hagents : config.agents = before ++ agent :: rest)
    (hseen : ∀ id ∈ seen, ∃ earlier ∈ before, earlier.id = id)
    (h : agentViolation? seen agent = some violation) : violation.BrokenBy config := by
  have hmem : agent ∈ config.agents := by simp [hagents]
  rw [agentViolation?] at h
  split at h
  · next hblank =>
    obtain rfl := Option.some.inj h
    exact ⟨agent, hmem, (Text.trim_eq_empty_iff _).mpr hblank⟩
  split at h
  · next hrepeated =>
    obtain rfl := Option.some.inj h
    obtain ⟨earlier, hearlier, hid⟩ := hseen agent.id (by simpa using hrepeated)
    have hpair : [earlier, agent].Sublist (before ++ agent :: rest) :=
      (List.singleton_sublist.mpr hearlier).append (by simp)
    have hids := hpair.map (·.id)
    rw [← hagents] at hids
    rwa [List.map_cons, List.map_singleton, hid] at hids
  split at h
  · next htemperature =>
    obtain rfl := Option.some.inj h
    refine ⟨agent, hmem, rfl, ?_⟩
    rw [← isTemperature_iff]
    simpa using htemperature
  · obtain ⟨tool, hrepeated, rfl⟩ := Option.map_eq_some_iff.mp h
    have hnone : ∀ k ∈ ([] : List String), ∃ b ∈ ([] : List ToolDefinition), Text.lower b.name = k :=
      by simp
    obtain ⟨other, hpair, hname⟩ := exists_sublist_of_firstRepeated? hnone hrepeated
    exact ⟨agent, hmem, rfl, tool, other, hpair, rfl, hname⟩

private theorem brokenBy_of_agents {before agents : List AgentDefinition}
    (hagents : config.agents = before ++ agents)
    (hseen : ∀ id ∈ seen, ∃ earlier ∈ before, earlier.id = id)
    (h : agentsViolation? seen agents = some violation) : violation.BrokenBy config := by
  induction agents generalizing seen before with
  | nil => cases h
  | cons agent rest ih =>
    rw [agentsViolation?, Option.or_eq_some_iff] at h
    rcases h with h | ⟨-, h⟩
    · exact brokenBy_of_agent hagents hseen h
    · have hsplit : config.agents = (before ++ [agent]) ++ rest := by simp [hagents]
      refine ih hsplit ?_ h
      intro id hmem
      rcases List.mem_cons.mp hmem with rfl | hmem
      · exact ⟨agent, by simp, rfl⟩
      · obtain ⟨earlier, hearlier, hid⟩ := hseen id hmem
        exact ⟨earlier, List.mem_append_left _ hearlier, hid⟩

/-- A configuration breaks the rule that is reported of it. -/
theorem brokenBy_of_violation? (h : config.violation? = some violation) :
    violation.BrokenBy config := by
  rw [violation?] at h
  split at h
  · next hzero =>
    obtain rfl := Option.some.inj h
    simpa [Violation.BrokenBy, TurnSettings.hasZero, or_assoc] using hzero
  · have hsplit : config.agents = [] ++ config.agents := rfl
    exact brokenBy_of_agents hsplit (by simp) h

end Breaking

/-- A configuration that breaks a rule that is reported does not keep the rules. -/
theorem not_keepsRules_of_brokenBy {config : Configuration} {violation : Violation}
    (h : violation.BrokenBy config) : ¬ config.KeepsRules := by
  intro hkeeps
  cases violation with
  | zeroBound =>
    obtain ⟨hhistory, hpreview, hdepth, hbuffer, -, -⟩ := hkeeps
    rcases h with h | h | h | h
    · omega
    · omega
    · simp [h] at hdepth
    · omega
  | blankAgentId =>
    obtain ⟨agent, hmem, hblank⟩ := h
    exact (hkeeps.agents agent hmem).id hblank
  | duplicateAgentId id =>
    have hnodup : (config.agents.map (·.id)).Nodup := List.pairwise_map.mpr hkeeps.ids
    exact List.nodup_iff_sublist.mp hnodup id h
  | temperature id =>
    obtain ⟨agent, hmem, -, houtside⟩ := h
    exact houtside (hkeeps.agents agent hmem).temperature
  | duplicateTool id name =>
    obtain ⟨agent, hmem, -, tool, other, hpair, rfl, hname⟩ := h
    exact List.pairwise_pair.mp ((hkeeps.agents agent hmem).tools.sublist hpair) hname
  | unknownStorage unknown => exact h
  | depthNotANumber value => exact h

end Configuration

end Colloquy
