import Colloquy.Agent.Directory
import Colloquy.Proofs.Configuration.Valid
import Colloquy.Proofs.Keyed
import Mathlib.Data.Finset.Card
import Mathlib.Data.List.Pairwise

/-!
# What a directory makes of its insertions

The order and the catalogue of a directory are in step, so that the list of the agents passes over no id
and the size of the catalogue is its length. Seen from outside a directory is one list: an agent that is
inserted takes the place of the one with its id or comes last. The ids grow at their end and only with an
id that is new, and what stands under an id changes only when an agent comes with it. So the directory
lists the ids in the order in which they first came and under each the agent that came with it last. The
agents of a valid configuration are listed just as they are defined.
-/

namespace Colloquy

namespace AgentDirectory

variable {directory : AgentDirectory} {inserted : List Agent}

section Listing

theorem mem_order_iff {id : String} :
    id ∈ directory.order ↔ ∃ agent, directory.find? id = some agent := by
  rw [directory.inStep.mem_iff, Catalogue.contains_eq_isSome_get?, Option.isSome_iff_exists, find?]

/-- An agent that is found has the id under which it was looked up. -/
theorem id_of_find? {id : String} {agent : Agent} (h : directory.find? id = some agent) :
    agent.id = id :=
  directory.inStep.id_of_get? h

/-- No id is passed over when the agents are listed. -/
theorem map_id_agents (directory : AgentDirectory) :
    directory.agents.map (·.id) = directory.order := by
  have hself : ∀ id ∈ directory.order, (directory.held.get? id).map (·.id) = some id := by
    intro id hmem
    obtain ⟨agent, hfound⟩ := mem_order_iff.mp hmem
    rw [find?] at hfound
    rw [hfound, Option.map_some, directory.inStep.id_of_get? hfound]
  rw [agents, List.map_filterMap]
  exact (List.filterMap_congr hself).trans List.filterMap_some

/-- The agents that are listed are those that are found under their ids. -/
theorem mem_agents_iff {agent : Agent} :
    agent ∈ directory.agents ↔ directory.find? agent.id = some agent := by
  rw [agents, List.mem_filterMap]
  constructor
  · rintro ⟨id, -, hfound⟩
    rw [← find?] at hfound
    rwa [id_of_find? hfound]
  · intro hfound
    exact ⟨agent.id, mem_order_iff.mpr ⟨agent, hfound⟩, hfound⟩

/-- What is found under an id is what the list of the agents has with it. -/
theorem find?_eq_some_iff {id : String} {agent : Agent} :
    directory.find? id = some agent ↔ agent ∈ directory.agents ∧ agent.id = id := by
  constructor
  · intro hfound
    obtain rfl := id_of_find? hfound
    exact ⟨mem_agents_iff.mpr hfound, rfl⟩
  · rintro ⟨hmem, rfl⟩
    exact mem_agents_iff.mp hmem

theorem find?_eq_none_iff {id : String} :
    directory.find? id = none ↔ ∀ agent ∈ directory.agents, agent.id ≠ id := by
  rw [Option.eq_none_iff_forall_ne_some]
  constructor
  · intro hnone agent hmem hid
    exact hnone agent (find?_eq_some_iff.mpr ⟨hmem, hid⟩)
  · intro hnone agent hfound
    obtain ⟨hmem, hid⟩ := find?_eq_some_iff.mp hfound
    exact hnone agent hmem hid

/-- The catalogue has as many agents as there are ids in the order. -/
theorem size_eq_length_order (directory : AgentDirectory) :
    directory.size = directory.order.length := by
  have hkeys : (directory.held.entries.map (·.1)).Perm directory.order := by
    rw [List.perm_ext_iff_of_nodup directory.held.nodup directory.inStep.nodup]
    intro id
    rw [← Catalogue.contains_iff_mem, directory.inStep.mem_iff]
  rw [size, Catalogue.size, ← hkeys.length_eq, List.length_map]

theorem size_eq_length_agents (directory : AgentDirectory) :
    directory.size = directory.agents.length := by
  rw [size_eq_length_order, ← map_id_agents, List.length_map]

end Listing

section Insertion

/-- The ids stay as they are if the id of an agent that is inserted is one of them. Otherwise it comes
behind them. -/
theorem order_insert (directory : AgentDirectory) (agent : Agent) :
    (directory.insert agent).order =
      if agent.id ∈ directory.order then directory.order else directory.order ++ [agent.id] := by
  rw [insert]
  exact if_congr (directory.inStep.mem_iff _).symm rfl rfl

/-- An agent that is inserted stands under its id, and nothing else changes. -/
theorem find?_insert (directory : AgentDirectory) (agent : Agent) (id : String) :
    (directory.insert agent).find? id = if agent.id = id then some agent else directory.find? id :=
  Catalogue.get?_insert ..

/-- A list of agents with one more, which takes the place of the one with its id or comes last. -/
def place (agent : Agent) (agents : List Agent) : List Agent :=
  if agent.id ∈ agents.map (·.id) then
    agents.map fun other => if other.id = agent.id then agent else other
  else agents ++ [agent]

/-- On the list of the agents an insertion is one placement. -/
theorem agents_insert (directory : AgentDirectory) (agent : Agent) :
    (directory.insert agent).agents = place agent directory.agents := by
  have hagents : (directory.insert agent).agents = (directory.insert agent).order.filterMap fun id =>
      if agent.id = id then some agent else directory.find? id := by
    rw [agents, ← funext (find?_insert directory agent)]
    rfl
  rw [hagents, place, map_id_agents, order_insert]
  split
  · -- each agent that is listed has the id under which it is listed
    rw [agents, List.map_filterMap]
    refine List.filterMap_congr fun id hmem => ?_
    obtain ⟨other, hfound⟩ := mem_order_iff.mp hmem
    rw [hfound, ← find?, hfound, Option.map_some, id_of_find? hfound, apply_ite some]
    exact if_congr eq_comm rfl rfl
  · next hnew =>
    have hkept : ∀ id ∈ directory.order,
        (if agent.id = id then some agent else directory.find? id) = directory.held.get? id := by
      intro id hmem
      refine if_neg ?_
      rintro rfl
      exact hnew hmem
    rw [List.filterMap_append, List.filterMap_congr hkept, List.filterMap_cons, if_pos rfl,
      List.filterMap_nil, agents]

/-- A directory into which agents are inserted one after another lists them as they are placed one
after another. -/
theorem agents_ofList (inserted : List Agent) :
    (ofList inserted).agents = inserted.foldl (fun agents agent => place agent agents) [] :=
  (List.foldl_hom agents fun directory agent => (agents_insert directory agent).symm).symm

theorem ofList_concat (inserted : List Agent) (agent : Agent) :
    ofList (inserted ++ [agent]) = (ofList inserted).insert agent := by
  rw [ofList, List.foldl_append]
  rfl

end Insertion

/-- What a directory shows of the agents that were inserted into it one after another. -/
structure Reflects (directory : AgentDirectory) (inserted : List Agent) : Prop where
  /-- Under an id stands the last agent that came with it. -/
  last : ∀ id, directory.find? id = inserted.findRev? fun agent => agent.id == id
  /-- The ids are those that came. -/
  ids : ∀ id, id ∈ directory.order ↔ id ∈ inserted.map (·.id)
  /-- They are listed in the order in which they first came, and each of them once. -/
  first : directory.order.Pairwise fun id other =>
    (inserted.map (·.id)).idxOf id < (inserted.map (·.id)).idxOf other

namespace Reflects

theorem empty : Reflects .empty [] :=
  ⟨fun _ => rfl, fun _ => Iff.rfl, .nil⟩

/-- One more insertion is shown too. -/
theorem insert (h : Reflects directory inserted) (agent : Agent) :
    Reflects (directory.insert agent) (inserted ++ [agent]) where
  last id := by rw [find?_insert, findRev?_key_concat, h.last]
  ids id := by
    rw [order_insert, List.map_append, List.mem_append, ← h.ids, List.map_singleton,
      List.mem_singleton]
    split
    · next hmem =>
      constructor
      · exact .inl
      · rintro (hold | rfl)
        · exact hold
        · exact hmem
    · rw [List.mem_append, List.mem_singleton]
  first := by
    -- where an id first came does not change when more agents come
    have hold : ∀ id ∈ directory.order,
        ((inserted ++ [agent]).map (·.id)).idxOf id = (inserted.map (·.id)).idxOf id := by
      intro id hmem
      rw [List.map_append, List.idxOf_append_of_mem ((h.ids id).mp hmem)]
    have hfirst : directory.order.Pairwise fun id other =>
        ((inserted ++ [agent]).map (·.id)).idxOf id <
          ((inserted ++ [agent]).map (·.id)).idxOf other := by
      refine h.first.imp_of_mem fun hid hother hlt => ?_
      rwa [hold _ hid, hold _ hother]
    rw [order_insert]
    split
    · exact hfirst
    · next hnew =>
      refine List.pairwise_append.mpr ⟨hfirst, List.pairwise_singleton _ _, fun id hid other hlast => ?_⟩
      obtain rfl := List.mem_singleton.mp hlast
      have hnot : agent.id ∉ inserted.map (·.id) := fun hmem => hnew ((h.ids _).mpr hmem)
      rw [hold id hid, List.map_append, List.idxOf_append_of_notMem hnot]
      exact Nat.lt_add_right _ (List.idxOf_lt_length_of_mem ((h.ids id).mp hid))

/-- Whatever is inserted is shown. -/
theorem ofList (inserted : List Agent) : Reflects (AgentDirectory.ofList inserted) inserted := by
  induction inserted using List.reverseRecOn with
  | nil => exact .empty
  | append_singleton inserted agent ih =>
    rw [ofList_concat]
    exact ih.insert agent

/-- The agents are the last ones that came with their ids. -/
theorem agents_eq (h : Reflects directory inserted) :
    directory.agents =
      directory.order.filterMap fun id => inserted.findRev? fun agent => agent.id == id := by
  rw [← funext h.last]
  rfl

/-- There are as many agents as different ids that came. -/
theorem size_eq (h : Reflects directory inserted) :
    directory.size = (inserted.map (·.id)).toFinset.card := by
  have hids : directory.order.toFinset = (inserted.map (·.id)).toFinset := by
    ext id
    rw [List.mem_toFinset, List.mem_toFinset, h.ids]
  rw [← hids, List.toFinset_card_of_nodup directory.inStep.nodup, size_eq_length_order]

end Reflects

/-- Agents with different ids are listed as they were inserted. -/
theorem agents_ofList_of_nodup {inserted : List Agent} (h : (inserted.map (·.id)).Nodup) :
    (ofList inserted).agents = inserted := by
  induction inserted using List.reverseRecOn with
  | nil => rfl
  | append_singleton inserted agent ih =>
    obtain ⟨hinserted, -, hnew⟩ := List.nodup_append.mp (List.map_append ▸ h)
    have hnot : agent.id ∉ inserted.map (·.id) :=
      fun hmem => hnew _ hmem agent.id (List.mem_singleton_self _) rfl
    rw [ofList_concat, agents_insert, ih hinserted, place, if_neg hnot]

/-- Agents with different ids stand each under its own. -/
theorem find?_ofList_eq_some_iff {agents : List Agent} (h : (agents.map (·.id)).Nodup) {id : String}
    {agent : Agent} : (ofList agents).find? id = some agent ↔ agent ∈ agents ∧ agent.id = id := by
  rw [find?_eq_some_iff, agents_ofList_of_nodup h]

end AgentDirectory

namespace Configuration

/-- The agents of a valid configuration have different ids. -/
theorem nodup_ids_toAgents {config : Configuration} (hvalid : config.violation? = none) :
    (config.toAgents.map (·.id)).Nodup := by
  rw [toAgents, List.map_map]
  exact (violation?_eq_none_iff.mp hvalid).ids

end Configuration

namespace AgentDirectory

/-- Whatever is inserted into a directory, its order and its catalogue are in step. Under an id stands the
last agent that came with it. The directory lists one agent for each id that came, in the order in which
the ids first came, and each as it came last; the catalogue has as many agents as are listed. The list is
the one that comes about when the agents are placed one after another. One more agent adds its id at the
end if the id is new, and changes nothing but what stands under it. The agents of a valid configuration
are listed as they are defined. -/
theorem ofList_reflects (inserted : List Agent) :
    let directory := ofList inserted
    InStep directory.order directory.held ∧
      directory.Reflects inserted ∧
      (directory.agents.map (·.id) = directory.order ∧
        directory.agents = directory.order.filterMap fun id =>
          inserted.findRev? fun agent => agent.id == id) ∧
      (directory.size = directory.agents.length ∧
        directory.size = (inserted.map (·.id)).toFinset.card) ∧
      directory.agents = inserted.foldl (fun agents agent => place agent agents) [] ∧
      (∀ agent,
        (directory.insert agent).order =
          (if agent.id ∈ directory.order then directory.order else directory.order ++ [agent.id]) ∧
        ∀ id, (directory.insert agent).find? id =
          if agent.id = id then some agent else directory.find? id) ∧
      ∀ config : Configuration, config.violation? = none → config.toAgents = inserted →
        directory.agents = inserted := by
  intro directory
  have hreflects : directory.Reflects inserted := .ofList inserted
  refine ⟨directory.inStep, hreflects, ⟨map_id_agents directory, hreflects.agents_eq⟩,
    ⟨size_eq_length_agents directory, hreflects.size_eq⟩, agents_ofList inserted,
    fun agent => ⟨order_insert directory agent, find?_insert directory agent⟩, ?_⟩
  rintro config hvalid rfl
  exact agents_ofList_of_nodup (Configuration.nodup_ids_toAgents hvalid)

section Bees

/-- The definition of an agent with an id and a name. -/
private def helper (id name : String) : AgentDefinition :=
  ⟨id, name, ⟨"m", 0.5, none⟩, [], []⟩

/-- A configuration with two agents. -/
private def helpers : Configuration :=
  ⟨.standard, .standard, [helper "b" "Bee", helper "a" "Ay"]⟩

/-- Two agents are listed as they are defined, and a third one with the id of the first is listed in its
place. The catalogue, which has the third one at its front, is no longer in the order of the ids. -/
theorem ofList_reflects_helpers :
    helpers.violation? = none ∧ (ofList helpers.toAgents).agents = helpers.toAgents ∧
      let renamed := ofList (helpers.toAgents ++ [(helper "a" "Aye").toAgent])
      renamed.order = ["b", "a"] ∧ renamed.held.entries.map (·.1) = ["a", "b"] ∧
        renamed.find? "a" = some (helper "a" "Aye").toAgent ∧ renamed.find? "c" = none ∧
        renamed.agents = [(helper "b" "Bee").toAgent, (helper "a" "Aye").toAgent] ∧
        renamed.size = 2 := by
  have hvalid : helpers.violation? = none := by decide +kernel
  obtain ⟨-, -, -, -, -, -, hdefined⟩ := ofList_reflects helpers.toAgents
  obtain ⟨-, hreflects, ⟨-, hagents⟩, ⟨-, hsize⟩, -⟩ :=
    ofList_reflects (helpers.toAgents ++ [(helper "a" "Aye").toAgent])
  refine ⟨hvalid, hdefined helpers hvalid rfl, by decide +kernel, by decide +kernel, ?_, ?_,
    hagents.trans ?_, hsize.trans ?_⟩
  · rw [hreflects.last]
    decide +kernel
  · rw [hreflects.last]
    decide +kernel
  · decide +kernel
  · decide +kernel

end Bees

end AgentDirectory

end Colloquy
