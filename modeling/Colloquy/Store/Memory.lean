import Colloquy.Store

/-!
# The store in memory

Sessions with their messages as values. It never fails.
-/

namespace Colloquy

/-- A session and its messages. -/
structure SessionLog where
  /-- The session. -/
  session : Session
  /-- Its messages in the order of their appending. -/
  messages : List Message

namespace SessionLog

/-- A session that is opened now. -/
def opened (id : SessionId) (agentId : String) (title : Option String) (now : Instant) :
    SessionLog :=
  ⟨⟨id, agentId, title, now, now⟩, []⟩

/-- A session with one more message. -/
def push (log : SessionLog) (message : Message) : SessionLog :=
  ⟨{ log.session with updatedAt := message.createdAt }, log.messages ++ [message]⟩

end SessionLog

/-- The store in memory: sessions, no two of which have one name, in the order of their opening. -/
structure MemoryStore where
  /-- The sessions. -/
  logs : List SessionLog

namespace MemoryStore

/-- The store without sessions. -/
def empty : MemoryStore :=
  ⟨[]⟩

/-- The session of a name with its messages. -/
def find? (store : MemoryStore) (id : SessionId) : Option SessionLog :=
  store.logs.find? fun log => log.session.id == id

/-- Changes the session of a name, which is opened without an agent if it is not there. -/
def pushInto (message : Message) : List SessionLog → List SessionLog
  | [] => [(SessionLog.opened message.session "" none message.createdAt).push message]
  | log :: rest =>
    if log.session.id = message.session then log.push message :: rest
    else log :: pushInto message rest

/-- How many messages there are. -/
def messageCount (store : MemoryStore) : Nat :=
  (store.logs.flatMap (·.messages)).length

/-- Sessions in the order of their last use, the latest first. -/
def byLastUse (sessions : List Session) : List Session :=
  sessions.mergeSort fun s t => !s.updatedAt.before t.updatedAt

instance : SessionStore MemoryStore where
  name _ := "in_memory"
  openSession stamp agentId title store :=
    let others := store.logs.filter fun log => log.session.id != stamp.name
    (.ok stamp.name, ⟨others ++ [SessionLog.opened stamp.name agentId title stamp.now]⟩)
  append stamp session draft store :=
    (.ok stamp.name, ⟨pushInto (draft.toMessage stamp.name session stamp.now) store.logs⟩)
  recentHistory _ session limit store :=
    .ok (((store.find? session).map fun log => lastOf limit log.messages).getD [])
  session? _ session store :=
    .ok ((store.find? session).map (·.session))
  sessions _ agentId store :=
    let listed := (store.logs.map (·.session)).filter fun session =>
      agentId.all (session.agentId == ·)
    .ok (byLastUse listed)

end MemoryStore

/-- A log in memory. -/
structure MemoryLog where
  /-- The records in the order of their writing. -/
  records : List ExecutionRecord

namespace MemoryLog

/-- The log without records. -/
def empty : MemoryLog :=
  ⟨[]⟩

/-- The records of a session. -/
def ofSession (log : MemoryLog) (session : SessionId) : List ExecutionRecord :=
  log.records.filter (·.session == session)

instance : ExecutionLog MemoryLog where
  write record log := (.ok (), ⟨log.records ++ [record]⟩)

end MemoryLog

end Colloquy
