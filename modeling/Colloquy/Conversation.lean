import Colloquy.Agent
import Colloquy.Tool.Record
import Colloquy.Word

/-!
# Conversations

A session is a conversation with one agent: messages in the order in which they were appended, which
are never changed or taken away. A draft is what one hands to a store; the store gives it a name,
a place in a session and a time, and that is a message.
-/

namespace Colloquy

/-- Who speaks. -/
inductive Role where
  /-- The person. -/
  | user
  /-- The model. -/
  | assistant
  /-- The instructions. -/
  | system
  /-- A tool. -/
  | tool
  deriving DecidableEq, Repr

namespace Role

/-- The name of a role. -/
def name : Role → String
  | .user => "user"
  | .assistant => "assistant"
  | .system => "system"
  | .tool => "tool"

/-- All roles. -/
def all : List Role :=
  [.user, .assistant, .system, .tool]

/-- Reads the name of a role as it is written. -/
def ofText? (s : String) : Except UnknownName Role :=
  match all.find? (·.name == s) with
  | some role => .ok role
  | none => .error ⟨"role", s⟩

theorem ofText?_name (role : Role) : ofText? role.name = .ok role := by
  cases role <;> rfl

theorem ofText?_eq_ok_iff {s : String} {role : Role} : ofText? s = .ok role ↔ role.name = s := by
  constructor
  · intro h
    unfold ofText? at h
    split at h
    · next found =>
      cases h
      have hname := List.find?_some found
      exact beq_iff_eq.mp hname
    · cases h
  · rintro rfl
    exact ofText?_name role

theorem ofText?_eq_error_iff {s : String} {unknown : UnknownName} :
    ofText? s = .error unknown ↔ (∀ role : Role, role.name ≠ s) ∧ unknown = ⟨"role", s⟩ := by
  constructor
  · intro h
    refine ⟨fun role hname => ?_, ?_⟩
    · cases (ofText?_eq_ok_iff.mpr hname).symm.trans h
    · unfold ofText? at h
      split at h
      · cases h
      · exact (Except.error.inj h).symm
  · rintro ⟨hnone, rfl⟩
    have hfound : all.find? (·.name == s) = none :=
      List.find?_eq_none.mpr fun role _ => by simpa using hnone role
    rw [ofText?, hfound]

/-- The exchange form of a role is its name. -/
def toJson (role : Role) : Json :=
  .text role.name

/-- Reads the exchange form of a role. -/
def decode : Decoder Role :=
  Decoder.choice (all.map fun role => (role.name, role))

end Role

/-- A conversation with an agent. -/
structure Session where
  /-- The name of the session. -/
  id : SessionId
  /-- The agent. -/
  agentId : String
  /-- What the session is about. -/
  title : Option String
  /-- When it was opened. -/
  createdAt : Instant
  /-- When the last message was appended. -/
  updatedAt : Instant
  deriving DecidableEq, Repr

/-- The exchange form of a session. -/
def Session.toJson (session : Session) : Json :=
  .record <| [("id", .text session.id), ("agent_id", .text session.agentId)] ++
    Json.member? "title" .text session.title ++
    [("created_at", .text session.createdAt.text), ("updated_at", .text session.updatedAt.text)]

/-- Reads the exchange form of a session. -/
def Session.decode : Decoder Session := fun rules d => do
  let fields ← d.fields? ["id", "agent_id", "title", "created_at", "updated_at"] rules
  let id ← fields.required "id" Decoder.text
  let agentId ← fields.required "agent_id" Decoder.text
  let title ← fields.optional "title" Decoder.text
  let createdAt ← fields.required "created_at" ExecutionRecord.decodeInstant
  let updatedAt ← fields.required "updated_at" ExecutionRecord.decodeInstant
  some ⟨id, agentId, title, createdAt, updatedAt⟩

/-- The name that a store gives to a message. -/
abbrev MessageId := String

/-- What is to be appended to a session. -/
structure Draft where
  /-- Who speaks. -/
  role : Role
  /-- What is said. -/
  content : String
  /-- How many tokens that is. -/
  tokenCount : Option UInt32
  /-- The calls that were made on the way. -/
  toolRecords : List ExecutionRecord

/-- A message of a session. -/
structure Message where
  /-- The name of the message. -/
  id : MessageId
  /-- The session that it belongs to. -/
  session : SessionId
  /-- Who speaks. -/
  role : Role
  /-- What is said. -/
  content : String
  /-- How many tokens that is. -/
  tokenCount : Option UInt32
  /-- The calls that were made on the way. -/
  toolRecords : List ExecutionRecord
  /-- When it was appended. -/
  createdAt : Instant

/-- How many tokens a text is taken for: its characters, up to the greatest word of 32 bits. -/
def tokenEstimate (s : String) : UInt32 :=
  (min s.length (Word.count 32 - 1)).toUInt32

theorem toNat_tokenEstimate (s : String) :
    (tokenEstimate s).toNat = min s.length (Word.count 32 - 1) := by
  simp only [tokenEstimate, Word.count_32, Nat.toUInt32_eq, UInt32.toNat_ofNat']
  omega

namespace Draft

/-- What a person says. -/
def user (content : String) : Draft :=
  ⟨.user, content, some (tokenEstimate content), []⟩

/-- What the model says after some calls. -/
def assistant (content : String) (records : List ExecutionRecord) : Draft :=
  ⟨.assistant, content, some (tokenEstimate content), records⟩

/-- The message that a draft becomes. -/
def toMessage (draft : Draft) (id : MessageId) (session : SessionId) (createdAt : Instant) :
    Message :=
  ⟨id, session, draft.role, draft.content, draft.tokenCount, draft.toolRecords, createdAt⟩

/-- The exchange form of a draft. -/
def toJson (draft : Draft) : Json :=
  .record <| [("role", draft.role.toJson), ("content", .text draft.content)] ++
    Json.member? "token_count" .word32 draft.tokenCount ++
    Json.nonEmpty "tool_records" ExecutionRecord.toJson draft.toolRecords

/-- Reads the exchange form of a draft. -/
def decode : Decoder Draft := fun rules d => do
  let fields ← d.fields? ["role", "content", "token_count", "tool_records"] rules
  let role ← fields.required "role" Role.decode
  let content ← fields.required "content" Decoder.text
  let tokenCount ← fields.optional "token_count" Decoder.word32
  let toolRecords ← fields.withDefault "tool_records" (Decoder.list ExecutionRecord.decode) []
  some ⟨role, content, tokenCount, toolRecords⟩

end Draft

namespace Message

/-- The draft that a message holds. -/
def draft (message : Message) : Draft :=
  ⟨message.role, message.content, message.tokenCount, message.toolRecords⟩

theorem draft_toMessage (draft : Draft) (id : MessageId) (session : SessionId) (at_ : Instant) :
    (draft.toMessage id session at_).draft = draft := rfl

/-- The exchange form of a message. -/
def toJson (message : Message) : Json :=
  .record <| [("id", .text message.id), ("session_id", .text message.session),
      ("role", message.role.toJson), ("content", .text message.content)] ++
    Json.member? "token_count" .word32 message.tokenCount ++
    Json.nonEmpty "tool_records" ExecutionRecord.toJson message.toolRecords ++
    [("created_at", .text message.createdAt.text)]

/-- Reads the exchange form of a message. -/
def decode : Decoder Message := fun rules d => do
  let fields ← d.fields? ["id", "session_id", "role", "content", "token_count", "tool_records",
    "created_at"] rules
  let id ← fields.required "id" Decoder.text
  let session ← fields.required "session_id" Decoder.text
  let role ← fields.required "role" Role.decode
  let content ← fields.required "content" Decoder.text
  let tokenCount ← fields.optional "token_count" Decoder.word32
  let toolRecords ← fields.withDefault "tool_records" (Decoder.list ExecutionRecord.decode) []
  let createdAt ← fields.required "created_at" ExecutionRecord.decodeInstant
  some ⟨id, session, role, content, tokenCount, toolRecords, createdAt⟩

end Message

end Colloquy
