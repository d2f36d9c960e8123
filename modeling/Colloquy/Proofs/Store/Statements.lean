import Colloquy.Store.Database

/-!
# Statements told of the database as a whole

An operation on the database is a chain of statements, each of which may fail for a reason of its
own. Told of the database as a whole, it comes down to this: as long as the new name is new, whether
an operation fails depends only on what the database accepts, and never on what is written.
-/

namespace Colloquy.Database

/-- Whether a name is that of a session or of the session of some message. -/
def NamesSession (name : String) (db : Database) : Prop :=
  (∃ row ∈ db.sessions, row.id = name) ∨ ∃ row ∈ db.messages, row.session = name

/-- Whether a name is that of a message. -/
def NamesMessage (name : String) (db : Database) : Prop :=
  ∃ row ∈ db.messages, row.id = name

/-- The sessions with one of a name, which is added without an agent if it is not there. -/
def withSession (id time : String) (rows : List SessionRow) : List SessionRow :=
  if rows.any (·.id == id) then rows else rows ++ [⟨id, "", none, time, time⟩]

/-- The sessions with the time of last use of one of them set. -/
def touched (id time : String) (rows : List SessionRow) : List SessionRow :=
  rows.map fun row => if row.id == id then { row with updatedAt := time } else row

/-- The database with one more message. -/
def withMessage (message : Message) (db : Database) : Database :=
  let time := message.createdAt.storedText
  { db with
    sessions := touched message.session time (withSession message.session time db.sessions)
    messages := db.messages ++ [MessageRow.ofMessage message] }

/-- Why a database takes no message, if it does not. -/
def appendFault? (db : Database) : Option StoreFault :=
  if !db.isOpen then some (.storage "BEGIN failed")
  else if !db.hasSessions then some (.storage "INSERT session failed")
  else if !db.hasMessages then some (.storage "INSERT message failed")
  else if db.updatesBlocked then some (.storage "UPDATE session failed")
  else none

section Statements

variable (db : Database)

private theorem insertSessionOrIgnore?_eq (id time : String) :
    db.insertSessionOrIgnore? ⟨id, "", none, time, time⟩ =
      if db.hasSessions then some { db with sessions := withSession id time db.sessions }
      else none := by
  rw [insertSessionOrIgnore?, withSession]
  cases db.sessions.any (·.id == id) <;> rfl

private theorem insertMessage?_eq (row : MessageRow) (hnew : ¬ db.NamesMessage row.id) :
    db.insertMessage? row =
      if db.hasMessages then some { db with messages := db.messages ++ [row] } else none := by
  have hall : db.messages.all (·.id != row.id) = true := by
    rw [List.all_eq_true]
    intro other hmem
    simpa using fun hid => hnew ⟨other, hmem, hid⟩
  rw [insertMessage?, hall, Bool.and_true]

private theorem touchSession?_eq (id time : String) :
    db.touchSession? id time =
      if db.hasSessions then
        if db.updatesBlocked then none
        else some { db with sessions := touched id time db.sessions }
      else none := by
  rw [touchSession?]
  cases db.hasSessions <;> cases db.updatesBlocked <;> rfl

end Statements

/-- The statements of an append with a new name come to one more message, or to the fault of a
database that takes none. -/
theorem appended_eq (message : Message) (db : Database) (hnew : ¬ db.NamesMessage message.id) :
    db.appended message =
      match db.appendFault? with
      | some fault => .error fault
      | none => .ok (db.withMessage message) := by
  -- Of what an earlier statement leaves behind, a later one only asks what `db` tells as well.
  have hinsert (sessions : List SessionRow) := insertMessage?_eq { db with sessions }
    (MessageRow.ofMessage message) hnew
  have htouch (sessions : List SessionRow) := touchSession?_eq
    { db with sessions, messages := db.messages ++ [MessageRow.ofMessage message] } message.session
    message.createdAt.storedText
  have hmessages (sessions : List SessionRow) :
      { db with sessions := sessions }.hasMessages = db.hasMessages := rfl
  have hsessions (sessions : List SessionRow) (messages : List MessageRow) :
      { db with sessions := sessions, messages := messages }.hasSessions = db.hasSessions := rfl
  rw [appended, appendFault?, insertSessionOrIgnore?_eq]
  by_cases hopen : db.isOpen = true
  · by_cases hsome : db.hasSessions = true
    · rw [if_pos hsome]
      simp only [orFault, bind, Except.bind, hinsert, hmessages]
      by_cases hmore : db.hasMessages = true
      · simp only [if_pos hmore, htouch, hsessions, if_pos hsome]
        by_cases hblocked : db.updatesBlocked = true
        · simp [hopen, hsome, hmore, hblocked]
        · simp [hopen, hsome, hmore, hblocked, withMessage]
      · simp [hopen, hsome, hmore]
    · simp [hopen, hsome, orFault, bind, Except.bind]
  · simp [hopen, throw, throwThe, MonadExceptOf.throw, bind, Except.bind]

/-- Opening a session under a new name comes to one more session, if the database takes any. -/
theorem openSession_eq (stamp : Stamp) (agentId : String) (title : Option String) (db : Database)
    (hnew : ¬ db.NamesSession stamp.name) :
    SessionStore.openSession stamp agentId title db =
      if db.hasSessions then
        (.ok stamp.name,
          { db with sessions := db.sessions ++
            [⟨stamp.name, agentId, title, stamp.now.storedText, stamp.now.storedText⟩] })
      else (.error (.storage "INSERT session failed"), db) := by
  have hall : db.sessions.all (·.id != stamp.name) = true := by
    rw [List.all_eq_true]
    intro row hmem
    simpa using fun hid => hnew (.inl ⟨row, hmem, hid⟩)
  simp only [SessionStore.openSession, insertSession?, hall, Bool.and_true]
  cases db.hasSessions <;> rfl

/-- Appending under a new name comes to one more message, if the database takes any. -/
theorem append_eq (stamp : Stamp) (session : SessionId) (draft : Draft) (db : Database)
    (hnew : ¬ db.NamesMessage stamp.name) :
    SessionStore.append stamp session draft db =
      match db.appendFault? with
      | some fault => (.error fault, db)
      | none => (.ok stamp.name, db.withMessage (draft.toMessage stamp.name session stamp.now)) := by
  have happended := db.appended_eq (draft.toMessage stamp.name session stamp.now) hnew
  simp only [SessionStore.append, happended]
  cases db.appendFault? <;> rfl

/-- A database that has a message of a name takes no other one under the name. -/
theorem exists_append_eq_of_named (stamp : Stamp) (session : SessionId) (draft : Draft)
    {db : Database} (hnamed : db.NamesMessage stamp.name) :
    ∃ fault, SessionStore.append stamp session draft db = (.error fault, db) := by
  let message := draft.toMessage stamp.name session stamp.now
  have hall : db.messages.all (·.id != message.id) = false := by
    obtain ⟨row, hmem, hid⟩ := hnamed
    rw [List.all_eq_false]
    have hsame : row.id = message.id := hid
    exact ⟨row, hmem, by simpa using hsame⟩
  have hinsert (sessions : List SessionRow) :
      { db with sessions }.insertMessage? (MessageRow.ofMessage message) = none := by
    rw [insertMessage?, if_neg]
    intro hfits
    rw [Bool.and_eq_true] at hfits
    exact absurd (hfits.2.symm.trans hall) (by decide)
  obtain ⟨fault, happended⟩ : ∃ fault, db.appended message = .error fault := by
    rw [appended, insertSessionOrIgnore?_eq]
    by_cases hopen : db.isOpen = true
    · by_cases hsome : db.hasSessions = true
      · rw [if_pos hsome]
        simp only [orFault, bind, Except.bind, hinsert]
        simp [hopen]
      · simp [hopen, hsome, orFault, bind, Except.bind]
    · simp [hopen, throw, throwThe, MonadExceptOf.throw, bind, Except.bind]
  refine ⟨fault, ?_⟩
  simp only [SessionStore.append, message, happended]
  rfl

/-- Opening a session changes nothing but the sessions. -/
theorem exists_openSession_eq (stamp : Stamp) (agentId : String) (title : Option String)
    (db : Database) :
    ∃ sessions, (SessionStore.openSession stamp agentId title db).2 = { db with sessions } := by
  simp only [SessionStore.openSession, insertSession?]
  split
  · exact ⟨_, rfl⟩
  · exact ⟨db.sessions, rfl⟩

/-- A record changes nothing but the executions. -/
theorem exists_write_eq (record : ExecutionRecord) (db : Database) :
    ∃ executions, (ExecutionLog.write record db).2 = { db with executions } := by
  simp only [ExecutionLog.write]
  split
  · exact ⟨_, rfl⟩
  · exact ⟨db.executions, rfl⟩

end Colloquy.Database
