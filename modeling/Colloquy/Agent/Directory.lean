import Colloquy.Agent
import Colloquy.Catalogue

/-!
# Directories of agents

Agents looked up by id. A directory keeps its agents in a catalogue, and beside it the ids in the order
in which they first came, since a catalogue has no order of its own. An agent that is inserted again
takes the place of the one before it.
-/

namespace Colloquy

namespace AgentDirectory

/-- An order of ids and a catalogue of agents are in step. -/
structure InStep (order : List String) (held : Catalogue Agent) : Prop where
  /-- No id is listed twice. -/
  nodup : order.Nodup
  /-- The ids that are listed are those under which there is an agent. -/
  mem_iff : ∀ id, id ∈ order ↔ held.contains id = true
  /-- Each agent stands under its own id. -/
  id_of_get? : ∀ {id agent}, held.get? id = some agent → agent.id = id

/-- Without agents there are no ids. -/
theorem InStep.empty : InStep [] .empty :=
  ⟨.nil, fun _ => iff_of_false List.not_mem_nil Bool.false_ne_true, nofun⟩

/-- An order and a catalogue stay in step if an id is listed only when it is new to the catalogue. -/
theorem InStep.insert {order : List String} {held : Catalogue Agent} (h : InStep order held)
    (agent : Agent) :
    InStep (if held.contains agent.id then order else order ++ [agent.id])
      (held.insert agent.id agent) where
  nodup := by
    split
    · exact h.nodup
    · next hnew =>
      refine List.nodup_append.mpr ⟨h.nodup, List.nodup_cons.mpr ⟨List.not_mem_nil, .nil⟩, ?_⟩
      intro id hmem last hlast heq
      obtain rfl := List.mem_singleton.mp hlast
      exact hnew ((h.mem_iff _).mp (heq ▸ hmem))
  mem_iff id := by
    rw [Catalogue.contains_insert, Bool.or_eq_true, beq_iff_eq, ← h.mem_iff id]
    split
    · next hold =>
      constructor
      · exact .inr
      · rintro (rfl | hmem)
        · exact (h.mem_iff _).mpr hold
        · exact hmem
    · rw [List.mem_append, List.mem_singleton, or_comm, eq_comm]
  id_of_get? {id other} hother := by
    rw [Catalogue.get?_insert] at hother
    split at hother
    · next hid => exact Option.some.inj hother ▸ hid
    · exact h.id_of_get? hother

end AgentDirectory

/-- A directory of agents. -/
structure AgentDirectory where
  /-- The ids, in the order in which they were first inserted. -/
  order : List String
  /-- The agents under their ids. -/
  held : Catalogue Agent
  /-- The ids and the agents go together. -/
  inStep : AgentDirectory.InStep order held

namespace AgentDirectory

/-- The directory without agents. -/
def empty : AgentDirectory :=
  ⟨[], .empty, .empty⟩

/-- Inserts an agent. -/
def insert (directory : AgentDirectory) (agent : Agent) : AgentDirectory :=
  ⟨if directory.held.contains agent.id then directory.order else directory.order ++ [agent.id],
    directory.held.insert agent.id agent, directory.inStep.insert agent⟩

/-- The directory of some agents, inserted one after another. -/
def ofList (agents : List Agent) : AgentDirectory :=
  agents.foldl insert empty

/-- The agent of an id. -/
def find? (directory : AgentDirectory) (id : String) : Option Agent :=
  directory.held.get? id

/-- The agents, in the order in which their ids were first inserted. An id without an agent would be
passed over. -/
def agents (directory : AgentDirectory) : List Agent :=
  directory.order.filterMap directory.held.get?

/-- How many agents there are. -/
def size (directory : AgentDirectory) : Nat :=
  directory.held.size

end AgentDirectory

end Colloquy
