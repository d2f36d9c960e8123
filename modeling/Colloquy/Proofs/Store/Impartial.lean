import Colloquy.Proofs.Attempts
import Colloquy.Proofs.Store.Lookup
import Colloquy.Proofs.Store.Statements

/-!
# Impartial stores

A store is impartial if it does not look at the times and the new names that it is given: whatever it
is asked, it answers in the same way for any of them, and what is said in a session is the same
behind the same messages. Both stores are impartial, the database in whatever state it is.
-/

namespace Colloquy

/-- What a message says to the model. -/
def Message.said (message : Message) : Role × String :=
  (message.role, message.content)

/-- A store that does not look at times and new names. -/
class ImpartialStore (σ : Type) [SessionStore σ] where
  /-- Whether a name is new for a session. -/
  NewSession : String → σ → Prop
  /-- Whether a name is new for a message. -/
  NewMessage : String → σ → Prop
  /-- Whether a session of one state and a session of another hold the same, and take the same. -/
  Alike : SessionId × σ → SessionId × σ → Prop
  alike_refl (session : SessionId) (s : σ) : Alike (session, s) (session, s)
  /-- Two sessions that are opened in the same state under new names are alike, or none is opened. -/
  alike_opened {stamp stamp' : Stamp} (agentId : String) (title : Option String) {s : σ}
    (hnew : NewSession stamp.name s) (hnew' : NewSession stamp'.name s) :
    (∃ fault s₁ s₁', SessionStore.openSession stamp agentId title s = (.error fault, s₁) ∧
        SessionStore.openSession stamp' agentId title s = (.error fault, s₁')) ∨
      ∃ s₁ s₁', SessionStore.openSession stamp agentId title s = (.ok stamp.name, s₁) ∧
        SessionStore.openSession stamp' agentId title s = (.ok stamp'.name, s₁') ∧
        Alike (stamp.name, s₁) (stamp'.name, s₁')
  /-- Sessions that are alike take any two messages, or none of them. They stay alike behind the same
  message, and when none is taken. -/
  alike_appended {stamp stamp' : Stamp} {session session' : SessionId} {s s' : σ}
    (halike : Alike (session, s) (session', s')) (hnew : NewMessage stamp.name s)
    (hnew' : NewMessage stamp'.name s') (draft draft' : Draft) :
    (∃ fault s₁ s₁', SessionStore.append stamp session draft s = (.error fault, s₁) ∧
        SessionStore.append stamp' session' draft' s' = (.error fault, s₁') ∧
        Alike (session, s₁) (session', s₁')) ∨
      ∃ s₁ s₁', SessionStore.append stamp session draft s = (.ok stamp.name, s₁) ∧
        SessionStore.append stamp' session' draft' s' = (.ok stamp'.name, s₁') ∧
        (draft = draft' → Alike (session, s₁) (session', s₁'))
  /-- Sessions that are alike tell the same history. -/
  alike_history {session session' : SessionId} {s s' : σ}
    (halike : Alike (session, s) (session', s')) (now now' : Instant) (limit : Nat) :
    (SessionStore.recentHistory now session limit s).map (·.map Message.said) =
      (SessionStore.recentHistory now' session' limit s').map (·.map Message.said)
  /-- Opening a session takes no name from messages. -/
  new_opened {name : String} {s : σ} (hnew : NewMessage name s) (stamp : Stamp) (agentId : String)
    (title : Option String) : NewMessage name (SessionStore.openSession stamp agentId title s).2
  /-- A message under a new name takes only this name. -/
  new_appended {name : String} {s : σ} (hnew : NewMessage name s) {stamp : Stamp}
    (hstamp : NewMessage stamp.name s) (hname : name ≠ stamp.name) (session : SessionId)
    (draft : Draft) : NewMessage name (SessionStore.append stamp session draft s).2

/-- A log that is kept beside a store or in it, and does not touch what the sessions hold. -/
class ImpartialLog (σ : Type) [SessionStore σ] [ExecutionLog σ] [ImpartialStore σ] : Prop where
  /-- Records leave sessions alike. -/
  alike_written {session session' : SessionId} {s s' : σ}
    (halike : ImpartialStore.Alike (session, s) (session', s')) (record record' : ExecutionRecord) :
    ImpartialStore.Alike (session, (ExecutionLog.write record s).2)
      (session', (ExecutionLog.write record' s').2)
  /-- A record takes no name from messages. -/
  new_written {name : String} {s : σ} (hnew : ImpartialStore.NewMessage name s)
    (record : ExecutionRecord) : ImpartialStore.NewMessage name (ExecutionLog.write record s).2

namespace MemoryStore

/-- The messages of a session, without what the store gave to them. -/
def drafts (store : MemoryStore) (session : SessionId) : List Draft :=
  ((store.find? session).map fun log => log.messages.map Message.draft).getD []

variable {store : MemoryStore}

theorem drafts_append (stamp : Stamp) (session : SessionId) (draft : Draft) :
    drafts (SessionStore.append stamp session draft store).2 session =
      store.drafts session ++ [draft] := by
  rw [drafts, drafts, find?_append_self]
  cases store.find? session with
  | none => rfl
  | some log => simp [SessionLog.push, Message.draft_toMessage]

theorem drafts_openSession (stamp : Stamp) (agentId : String) (title : Option String) :
    drafts (SessionStore.openSession stamp agentId title store).2 stamp.name = [] := by
  rw [drafts, find?_openSession_self]
  rfl

/-- A history is the last drafts of a session. -/
theorem said_recentHistory (now : Instant) (session : SessionId) (limit : Nat) :
    (SessionStore.recentHistory now session limit store).map (·.map Message.said) =
      .ok ((lastOf limit (store.drafts session)).map fun draft => (draft.role, draft.content)) := by
  simp only [SessionStore.recentHistory, drafts]
  cases store.find? session with
  | none => simp [Except.map, lastOf]
  | some log =>
    simp only [Except.map, Option.map_some, Option.getD_some, map_lastOf, List.map_map]
    rfl

instance : ImpartialStore MemoryStore where
  NewSession _ _ := True
  NewMessage _ _ := True
  Alike here there := here.2.drafts here.1 = there.2.drafts there.1
  alike_refl _ _ := rfl
  alike_opened agentId title s _ _ := by
    refine .inr ⟨_, _, rfl, rfl, ?_⟩
    exact (drafts_openSession _ agentId title).trans (drafts_openSession _ agentId title).symm
  alike_appended halike _ _ draft draft' := by
    refine .inr ⟨_, _, rfl, rfl, ?_⟩
    rintro rfl
    exact (drafts_append _ _ draft).trans
      ((congrArg (· ++ [draft]) halike).trans (drafts_append _ _ draft).symm)
  alike_history halike now now' limit := by
    rw [said_recentHistory, said_recentHistory, halike]
  new_opened _ _ _ _ := trivial
  new_appended _ _ _ _ _ _ := trivial

end MemoryStore

/-- What a row of the messages says, with all that decides whether it can be read. -/
structure MessageRow.Saying where
  /-- The name of the role. -/
  role : String
  /-- What is said. -/
  content : String
  /-- How many tokens that is. -/
  tokenCount : Cell
  /-- The records as a JSON list. -/
  toolRecords : String

/-- What a row says. -/
def MessageRow.saying (row : MessageRow) : MessageRow.Saying :=
  ⟨row.role, row.content, row.tokenCount, row.toolRecords⟩

/-- What a saying comes to when it is read. -/
def MessageRow.Saying.said (saying : MessageRow.Saying) : Except StoreFault (Role × String) := do
  let _ ← Column.numberIn? "token_count" saying.tokenCount
  let role ← (Role.ofText? saying.role).mapError fun unknown => .serialization unknown.message
  let _ ← Column.valueIn "tool_records" (Decoder.list ExecutionRecord.decode) saying.toolRecords
  pure (role, saying.content)

private theorem MessageRow.said_message (now : Instant) (row : MessageRow) :
    (row.message now).map Message.said = row.saying.said := by
  simp only [message, Saying.said, saying]
  cases Column.numberIn? "token_count" row.tokenCount with
  | error fault => rfl
  | ok count =>
    cases Role.ofText? row.role with
    | error unknown => rfl
    | ok role =>
      cases Column.valueIn "tool_records" (Decoder.list ExecutionRecord.decode) row.toolRecords with
      | error fault => rfl
      | ok records => rfl

namespace Database

/-- What the rows of a session say. -/
def sayings (session : SessionId) (db : Database) : List MessageRow.Saying :=
  (db.messages.filter (·.session == session)).map (·.saying)

/-- A database accepts what another one does. -/
structure AcceptsLike (db db' : Database) : Prop where
  schema : db.schema = db'.schema
  isOpen : db.isOpen = db'.isOpen
  updatesBlocked : db.updatesBlocked = db'.updatesBlocked

variable {db db' : Database}

theorem AcceptsLike.appendFault?_eq (h : db.AcceptsLike db') :
    db.appendFault? = db'.appendFault? := by
  have hsessions : db.hasSessions = db'.hasSessions := by
    rw [hasSessions, hasSessions, h.schema, h.isOpen]
  have hmessages : db.hasMessages = db'.hasMessages := by
    rw [hasMessages, hasMessages, h.schema, h.isOpen]
  rw [appendFault?, appendFault?, h.isOpen, hsessions, hmessages, h.updatesBlocked]

theorem sayings_withMessage (db : Database) (message : Message) :
    sayings message.session (db.withMessage message) =
      db.sayings message.session ++ [(MessageRow.ofMessage message).saying] := by
  have hself : (MessageRow.ofMessage message).session = message.session := rfl
  simp [sayings, withMessage, hself]

theorem sayings_withMessage_other (db : Database) {message : Message} {session : SessionId}
    (hother : session ≠ message.session) :
    sayings session (db.withMessage message) = db.sayings session := by
  have hself : (MessageRow.ofMessage message).session = message.session := rfl
  simp [sayings, withMessage, hself, hother.symm]

/-- Nothing is said in a session that no message names. -/
theorem sayings_eq_nil {name : String} (h : ¬ db.NamesSession name) : db.sayings name = [] := by
  rw [sayings, List.map_eq_nil_iff, List.filter_eq_nil_iff]
  intro row hmem hsession
  exact h (.inr ⟨row, hmem, by simpa using hsession⟩)

private theorem said_mapM (now : Instant) (rows : List MessageRow) :
    (rows.mapM (MessageRow.message now)).map (·.map Message.said) =
      (rows.map (·.saying)).mapM MessageRow.Saying.said := by
  refine map_mapM_of_forall₂ ?_
  rw [List.forall₂_map_right_iff, List.forall₂_same]
  exact fun row _ => row.said_message now

/-- A history is what the last rows of a session say. -/
theorem said_recentHistory (now : Instant) (session : SessionId) (limit : Nat) :
    (SessionStore.recentHistory now session limit db).map (·.map Message.said) =
      if db.hasMessages then
        (lastOf (min limit Column.maxNumber) (db.sayings session)).mapM MessageRow.Saying.said
      else .error (.query "recent history") := by
  simp only [SessionStore.recentHistory]
  split
  · rw [said_mapM, sayings, map_lastOf]
  · rfl

instance : ImpartialStore Database where
  NewSession name db := ¬ db.NamesSession name
  NewMessage name db := ¬ db.NamesMessage name
  Alike here there := here.2.AcceptsLike there.2 ∧ here.2.sayings here.1 = there.2.sayings there.1
  alike_refl _ _ := ⟨⟨rfl, rfl, rfl⟩, rfl⟩
  alike_opened {stamp stamp'} agentId title db hnew hnew' := by
    rw [openSession_eq stamp agentId title db hnew, openSession_eq stamp' agentId title db hnew']
    split
    · refine .inr ⟨_, _, rfl, rfl, ⟨rfl, rfl, rfl⟩, ?_⟩
      exact (sayings_eq_nil hnew).trans (sayings_eq_nil hnew').symm
    · exact .inl ⟨_, _, _, rfl, rfl⟩
  alike_appended {stamp stamp' session session' db db'} halike hnew hnew' draft draft' := by
    obtain ⟨haccepts, hsayings⟩ := halike
    rw [append_eq stamp session draft db hnew, append_eq stamp' session' draft' db' hnew',
      haccepts.appendFault?_eq]
    cases db'.appendFault? with
    | some fault => exact .inl ⟨_, _, _, rfl, rfl, haccepts, hsayings⟩
    | none =>
      refine .inr ⟨_, _, rfl, rfl, ?_⟩
      rintro rfl
      refine ⟨⟨haccepts.schema, haccepts.isOpen, haccepts.updatesBlocked⟩, ?_⟩
      have hhere := sayings_withMessage db (draft.toMessage stamp.name session stamp.now)
      have hthere := sayings_withMessage db' (draft.toMessage stamp'.name session' stamp'.now)
      exact hhere.trans ((congrArg (· ++ [_]) hsayings).trans hthere.symm)
  alike_history halike now now' limit := by
    obtain ⟨haccepts, hsayings⟩ := halike
    rw [said_recentHistory, said_recentHistory, hsayings, hasMessages, hasMessages,
      haccepts.schema, haccepts.isOpen]
  new_opened {name db} hnew stamp agentId title := by
    obtain ⟨sessions, hopen⟩ := exists_openSession_eq stamp agentId title db
    rw [hopen]
    exact hnew
  new_appended {name db} hnew stamp hstamp hname session draft := by
    rw [append_eq stamp session draft db hstamp]
    cases db.appendFault? with
    | some fault => exact hnew
    | none =>
      rintro ⟨row, hmem, hid⟩
      obtain hmem | hmem := List.mem_append.mp hmem
      · exact hnew ⟨row, hmem, hid⟩
      · obtain rfl := List.mem_singleton.mp hmem
        exact hname hid.symm

instance : ImpartialLog Database where
  alike_written {session session' db db'} halike record record' := by
    obtain ⟨executions, hwrite⟩ := exists_write_eq record db
    obtain ⟨executions', hwrite'⟩ := exists_write_eq record' db'
    obtain ⟨haccepts, hsayings⟩ := halike
    rw [hwrite, hwrite']
    exact ⟨⟨haccepts.schema, haccepts.isOpen, haccepts.updatesBlocked⟩, hsayings⟩
  new_written {name db} hnew record := by
    obtain ⟨executions, hwrite⟩ := exists_write_eq record db
    rw [hwrite]
    exact hnew

end Database

section Beside

variable {σ τ : Type} [SessionStore σ] [ImpartialStore σ]

/-- A store with a log beside it is as impartial as the store. -/
instance : ImpartialStore (σ × τ) where
  NewSession name pair := ImpartialStore.NewSession name pair.1
  NewMessage name pair := ImpartialStore.NewMessage name pair.1
  Alike here there := ImpartialStore.Alike (here.1, here.2.1) (there.1, there.2.1)
  alike_refl session pair := ImpartialStore.alike_refl session pair.1
  alike_opened agentId title pair hnew hnew' := by
    obtain ⟨fault, s, s', h, h'⟩ | ⟨s, s', h, h', halike⟩ :=
      ImpartialStore.alike_opened agentId title hnew hnew'
    · refine .inl ⟨fault, (s, pair.2), (s', pair.2), ?_, ?_⟩
      · simp only [SessionStore.openSession, h]
      · simp only [SessionStore.openSession, h']
    · refine .inr ⟨(s, pair.2), (s', pair.2), ?_, ?_, halike⟩
      · simp only [SessionStore.openSession, h]
      · simp only [SessionStore.openSession, h']
  alike_appended {_ _ _ _ pair pair'} halike hnew hnew' draft draft' := by
    obtain ⟨fault, s, s', h, h', halike'⟩ | ⟨s, s', h, h', halike'⟩ :=
      ImpartialStore.alike_appended halike hnew hnew' draft draft'
    · refine .inl ⟨fault, (s, pair.2), (s', pair'.2), ?_, ?_, halike'⟩
      · simp only [SessionStore.append, h]
      · simp only [SessionStore.append, h']
    · refine .inr ⟨(s, pair.2), (s', pair'.2), ?_, ?_, halike'⟩
      · simp only [SessionStore.append, h]
      · simp only [SessionStore.append, h']
  alike_history halike now now' limit := ImpartialStore.alike_history halike now now' limit
  new_opened hnew stamp agentId title := ImpartialStore.new_opened hnew stamp agentId title
  new_appended hnew _ hstamp hname session draft :=
    ImpartialStore.new_appended hnew hstamp hname session draft

instance [ExecutionLog τ] : ImpartialLog (σ × τ) where
  alike_written halike _ _ := halike
  new_written hnew _ := hnew

end Beside

end Colloquy
