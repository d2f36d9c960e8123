import Colloquy.Proofs.Keyed
import Colloquy.Store.Memory

/-!
# Sessions of the store in memory by name

What the store in memory has under a name, behind each of its operations. An operation changes what
stands under the name of its session and nothing else.
-/

namespace Colloquy.MemoryStore

variable {store : MemoryStore}

section PushInto

variable (message : Message) {logs : List SessionLog}

/-- The session that a message goes to, as it is before the message. -/
private def target (message : Message) (found : Option SessionLog) : SessionLog :=
  found.getD (SessionLog.opened message.session "" none message.createdAt)

private theorem find?_pushInto_self :
    (pushInto message logs).find? (fun log => log.session.id == message.session) =
      some ((target message (logs.find? fun log => log.session.id == message.session)).push
        message) := by
  induction logs with
  | nil => simp [pushInto, target, SessionLog.push, SessionLog.opened]
  | cons log rest ih =>
    rw [pushInto]
    split
    · next hsame => simp [hsame, target, SessionLog.push]
    · next hne =>
      rw [List.find?_cons_of_neg (by simpa using hne), List.find?_cons_of_neg (by simpa using hne)]
      exact ih

private theorem find?_pushInto_other {id : SessionId} (hother : id ≠ message.session) :
    (pushInto message logs).find? (fun log => log.session.id == id) =
      logs.find? fun log => log.session.id == id := by
  induction logs with
  | nil => simp [pushInto, SessionLog.push, SessionLog.opened, Ne.symm hother]
  | cons log rest ih =>
    rw [pushInto]
    split
    · next hsame =>
      have hne : log.session.id ≠ id := fun h => hother (h.symm.trans hsame)
      have hpushed : (log.push message).session.id ≠ id := hne
      rw [List.find?_cons_of_neg (by simpa using hpushed),
        List.find?_cons_of_neg (by simpa using hne)]
    · rw [List.find?_cons, List.find?_cons, ih]

end PushInto

/-- A message goes to its session, which is opened without an agent if it was not there. -/
theorem find?_append_self (stamp : Stamp) (session : SessionId) (draft : Draft) :
    (SessionStore.append stamp session draft store).2.find? session =
      some (((store.find? session).getD (SessionLog.opened session "" none stamp.now)).push
        (draft.toMessage stamp.name session stamp.now)) :=
  find?_pushInto_self (draft.toMessage stamp.name session stamp.now)

/-- A message leaves other sessions as they were. -/
theorem find?_append_other (stamp : Stamp) {session other : SessionId} (hother : other ≠ session)
    (draft : Draft) :
    (SessionStore.append stamp session draft store).2.find? other = store.find? other :=
  find?_pushInto_other (draft.toMessage stamp.name session stamp.now) hother

/-- Under the new name stands the session that is opened, and nothing else changes. -/
theorem find?_openSession (stamp : Stamp) (agentId : String) (title : Option String)
    (id : SessionId) :
    (SessionStore.openSession stamp agentId title store).2.find? id =
      if stamp.name = id then some (SessionLog.opened stamp.name agentId title stamp.now)
      else store.find? id :=
  find?_filter_key_ne_concat store.logs (SessionLog.opened stamp.name agentId title stamp.now) id

theorem find?_openSession_self (stamp : Stamp) (agentId : String) (title : Option String) :
    (SessionStore.openSession stamp agentId title store).2.find? stamp.name =
      some (SessionLog.opened stamp.name agentId title stamp.now) := by
  rw [find?_openSession, if_pos rfl]

theorem find?_openSession_other (stamp : Stamp) {other : SessionId} (hother : other ≠ stamp.name)
    (agentId : String) (title : Option String) :
    (SessionStore.openSession stamp agentId title store).2.find? other = store.find? other := by
  rw [find?_openSession, if_neg hother.symm]

end Colloquy.MemoryStore
