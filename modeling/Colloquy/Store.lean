import Colloquy.Conversation

/-!
# Stores

What a turn asks of the parties that keep things: a session store opens sessions, appends messages and
gives back the recent ones; an execution log takes records. Messages are never changed or taken away.
The time and the new name that an operation needs are handed to it.
-/

namespace Colloquy

/-- What an operation is given from outside: the time, and a name that nothing has yet. -/
structure Stamp where
  /-- The time. -/
  now : Instant
  /-- The new name. -/
  name : String
  deriving DecidableEq, Repr

/-- A store of sessions in a state of type `σ`. -/
class SessionStore (σ : Type) where
  /-- The name of the store. -/
  name : σ → String
  /-- Opens a session with an agent under a new name. -/
  openSession : Stamp → (agentId : String) → (title : Option String) → σ →
    Except StoreFault SessionId × σ
  /-- Appends a message under a new name. A session that was never opened is, without an agent. -/
  append : Stamp → SessionId → Draft → σ → Except StoreFault MessageId × σ
  /-- The last messages of a session, the oldest of them first. -/
  recentHistory : (now : Instant) → SessionId → (limit : Nat) → σ → Except StoreFault (List Message)
  /-- A session, if it was opened. -/
  session? : (now : Instant) → SessionId → σ → Except StoreFault (Option Session)
  /-- The sessions of one agent or of all, the one that was last appended to first. -/
  sessions : (now : Instant) → (agentId : Option String) → σ → Except StoreFault (List Session)

/-- A log of executions in a state of type `σ`. -/
class ExecutionLog (σ : Type) where
  /-- Takes a record. -/
  write : ExecutionRecord → σ → Except StoreFault Unit × σ

/-- A store with a log beside it keeps sessions as the store does. -/
instance {σ τ : Type} [SessionStore σ] : SessionStore (σ × τ) where
  name pair := SessionStore.name pair.1
  openSession stamp agentId title pair :=
    let (answer, store) := SessionStore.openSession stamp agentId title pair.1
    (answer, store, pair.2)
  append stamp session draft pair :=
    let (answer, store) := SessionStore.append stamp session draft pair.1
    (answer, store, pair.2)
  recentHistory now session limit pair := SessionStore.recentHistory now session limit pair.1
  session? now session pair := SessionStore.session? now session pair.1
  sessions now agentId pair := SessionStore.sessions now agentId pair.1

/-- A store with a log beside it takes records as the log does. -/
instance {σ τ : Type} [ExecutionLog τ] : ExecutionLog (σ × τ) where
  write record pair :=
    let (answer, log) := ExecutionLog.write record pair.2
    (answer, pair.1, log)

/-- The log that takes every record and keeps none. -/
structure NoLog where

instance : ExecutionLog NoLog where
  write _ log := (.ok (), log)

/-- The last elements of a list. -/
def lastOf {α : Type} (limit : Nat) (items : List α) : List α :=
  items.drop (items.length - limit)

theorem length_lastOf {α : Type} (limit : Nat) (items : List α) :
    (lastOf limit items).length = min limit items.length := by
  rw [lastOf, List.length_drop]
  omega

theorem lastOf_min {α : Type} {limit bound : Nat} {items : List α}
    (hbound : items.length ≤ bound) : lastOf (min limit bound) items = lastOf limit items := by
  have hdropped : items.length - min limit bound = items.length - limit := by omega
  rw [lastOf, lastOf, hdropped]

theorem lastOf_append_of_le {α : Type} {limit : Nat} (older : List α) {newer : List α}
    (hlimit : limit ≤ newer.length) : lastOf limit (older ++ newer) = lastOf limit newer := by
  have hdropped : (older ++ newer).length - limit = older.length + (newer.length - limit) := by
    rw [List.length_append]
    omega
  rw [lastOf, lastOf, hdropped, List.drop_length_add_append]

theorem map_lastOf {α β : Type} (f : α → β) (limit : Nat) (items : List α) :
    (lastOf limit items).map f = lastOf limit (items.map f) := by
  rw [lastOf, lastOf, List.map_drop, List.length_map]

end Colloquy
