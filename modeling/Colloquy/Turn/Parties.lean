import Colloquy.Agent.Directory
import Colloquy.Completion.Script
import Colloquy.Store
import Colloquy.Turn.Effect
import Colloquy.Turn.Settings

/-!
# The parties of a turn

A directory, a store that is also the log, a scripted model and a registry of backends, all of them
values. They answer the effects of a turn; the time and the new names come from outside. Items are
delivered to nobody: whoever runs the turn finds them among the exchanges of the run.
-/

namespace Colloquy

/-- The parties of a turn, with a store and log in a state of type `σ`. -/
structure Parties (σ : Type) where
  /-- The agents. -/
  directory : AgentDirectory
  /-- The sessions and the log. -/
  store : σ
  /-- The model. -/
  model : ScriptedModel
  /-- The backends of the tools. -/
  backends : Registry

namespace Parties

variable {σ : Type}

/-- As many levels as a turn among the parties can come to: one for each answer that the model has left,
and one that it has no answer for. -/
def horizon (parties : Parties σ) : Nat :=
  parties.model.remaining + 1

/-- The answer of the parties to an effect, and the parties behind it; `none` if it never comes. -/
def respond [SessionStore σ] [ExecutionLog σ] (stamp : Stamp) :
    (effect : Effect) → Parties σ → Option (effect.Answer × Parties σ)
  | .findAgent id, parties => some (.ok (parties.directory.find? id), parties)
  | .openSession agentId title, parties =>
    let (answer, store) := SessionStore.openSession stamp agentId title parties.store
    some (answer, { parties with store })
  | .append session draft, parties =>
    let (answer, store) := SessionStore.append stamp session draft parties.store
    some (answer, { parties with store })
  | .recentHistory session limit, parties =>
    some (SessionStore.recentHistory stamp.now session limit parties.store, parties)
  | .complete request, parties =>
    let (answer, model) := parties.model.complete request
    some (answer, { parties with model })
  | .invoke tool parameters, parties =>
    (parties.backends.run tool parameters).map fun reply => ((reply, 0), parties)
  | .writeLog record, parties =>
    let (answer, store) := ExecutionLog.write record parties.store
    some (answer, { parties with store })
  | .deliver _, parties => some ((), parties)
  | .readClock, parties => some (stamp.now, parties)
  | .waitForever, _ => none

end Parties

end Colloquy
