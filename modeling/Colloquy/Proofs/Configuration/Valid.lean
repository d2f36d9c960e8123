import Colloquy.Configuration.Validity

/-!
# What validity says

The checks of a configuration told without their order: which configurations break no rule.
-/

namespace Colloquy

/-- A definition of an agent that breaks no rule by itself. -/
structure AgentDefinition.Valid (agent : AgentDefinition) : Prop where
  /-- The id is not blank. -/
  id : Text.isBlankText agent.id = false
  /-- The temperature is in range. -/
  temperature : Configuration.isTemperature agent.model.temperature = true
  /-- The names of the tools differ in more than letter case. -/
  tools : (agent.tools.map fun tool => Text.lower tool.name).Nodup

/-- A configuration that breaks no rule. -/
structure Configuration.Valid (config : Configuration) : Prop where
  /-- No bound is zero. -/
  settings : config.settings.hasZero = false
  /-- No agent breaks a rule by itself. -/
  agents : ∀ agent ∈ config.agents, agent.Valid
  /-- The ids of the agents differ. -/
  ids : (config.agents.map (·.id)).Nodup

namespace Configuration

variable {α : Type} {key : α → String} {seen : List String}

/-- Keys differ from each other and from earlier ones: told of the first and of the others behind
it. -/
private theorem nodup_cons_iff {a : α} {rest : List α} :
    ((a :: rest).map key).Nodup ∧ (∀ b ∈ a :: rest, key b ∉ seen) ↔
      key a ∉ seen ∧ (rest.map key).Nodup ∧ ∀ b ∈ rest, key b ∉ key a :: seen := by
  rw [List.map_cons, List.nodup_cons, List.forall_mem_cons]
  simp only [List.mem_cons, not_or, List.mem_map, not_exists, not_and]
  constructor
  · rintro ⟨⟨hnew, hnodup⟩, hfirst, hrest⟩
    exact ⟨hfirst, hnodup, fun b hb => ⟨hnew b hb, hrest b hb⟩⟩
  · rintro ⟨hfirst, hnodup, hrest⟩
    exact ⟨⟨fun b hb => (hrest b hb).1, hnodup⟩, hfirst, fun b hb => (hrest b hb).2⟩

/-- There is no repetition when the keys differ from each other and from those before them. -/
theorem firstRepeated?_eq_none_iff {l : List α} :
    firstRepeated? key seen l = none ↔ (l.map key).Nodup ∧ ∀ a ∈ l, key a ∉ seen := by
  induction l generalizing seen with
  | nil => simp [firstRepeated?]
  | cons a rest ih =>
    rw [firstRepeated?, nodup_cons_iff]
    by_cases hseen : key a ∈ seen
    · simp [hseen]
    · rw [if_neg (by simpa using hseen), ih]
      simp [hseen]

private theorem agentViolation?_eq_none_iff {agent : AgentDefinition} :
    agentViolation? seen agent = none ↔ agent.Valid ∧ agent.id ∉ seen := by
  have htools : firstRepeated? (fun tool : ToolDefinition => Text.lower tool.name) [] agent.tools =
      none ↔ (agent.tools.map fun tool => Text.lower tool.name).Nodup := by
    simp [firstRepeated?_eq_none_iff]
  rw [agentViolation?]
  split
  · next hblank => exact ⟨nofun, fun h => absurd hblank (by simp [h.1.id])⟩
  · next hblank =>
    split
    · next hseen => exact ⟨nofun, fun h => absurd h.2 (by simpa using hseen)⟩
    · next hseen =>
      split
      · next htemperature =>
        exact ⟨nofun, fun h => absurd htemperature (by simp [h.1.temperature])⟩
      · next htemperature =>
        rw [Option.map_eq_none_iff, htools]
        constructor
        · intro hnodup
          exact ⟨⟨by simpa using hblank, by simpa using htemperature, hnodup⟩, by simpa using hseen⟩
        · exact fun h => h.1.tools

private theorem agentsViolation?_eq_none_iff {agents : List AgentDefinition} :
    agentsViolation? seen agents = none ↔ (∀ agent ∈ agents, agent.Valid) ∧
      (agents.map (·.id)).Nodup ∧ ∀ agent ∈ agents, agent.id ∉ seen := by
  induction agents generalizing seen with
  | nil => simp [agentsViolation?]
  | cons agent rest ih =>
    rw [agentsViolation?, Option.or_eq_none_iff, agentViolation?_eq_none_iff, ih, nodup_cons_iff,
      List.forall_mem_cons]
    exact ⟨fun ⟨⟨hvalid, hseen⟩, hvalids, hids⟩ => ⟨⟨hvalid, hvalids⟩, hseen, hids⟩,
      fun ⟨⟨hvalid, hvalids⟩, hseen, hids⟩ => ⟨⟨hvalid, hseen⟩, hvalids, hids⟩⟩

/-- A configuration breaks no rule when it is valid. -/
theorem violation?_eq_none_iff {config : Configuration} : config.violation? = none ↔ config.Valid := by
  rw [violation?]
  split
  · next hzero => exact ⟨nofun, fun h => absurd hzero (by simp [h.settings])⟩
  · next hzero =>
    rw [agentsViolation?_eq_none_iff]
    constructor
    · rintro ⟨hvalid, hnodup, -⟩
      exact ⟨by simpa using hzero, hvalid, hnodup⟩
    · exact fun h => ⟨h.agents, h.ids, by simp⟩

end Configuration

end Colloquy
