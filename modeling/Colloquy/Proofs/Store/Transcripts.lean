import Colloquy.Proofs.Attempts
import Colloquy.Proofs.Store.Pages

/-!
# Transcripts

What was said in a session, from its first message on: who spoke, by the name of the role, and the
words. A history that a store tells is the end of the transcript, a message that it takes comes
behind it, and nothing else that it is asked for changes what was said. Both stores keep
transcripts, the database in whatever state it is; where it fails or finds a row that it cannot
read, it tells no history at all.
-/

namespace Colloquy

/-- What one message says. -/
structure Utterance where
  /-- The name of the role of who speaks. -/
  speaker : String
  /-- The words. -/
  content : String
  deriving DecidableEq, Repr

/-- What a draft says. -/
def Draft.utterance (draft : Draft) : Utterance :=
  ⟨draft.role.name, draft.content⟩

/-- What a message says. -/
def Message.utterance (message : Message) : Utterance :=
  ⟨message.role.name, message.content⟩

/-- What a row says, whether or not it can be read. -/
def MessageRow.Saying.utterance (saying : MessageRow.Saying) : Utterance :=
  ⟨saying.role, saying.content⟩

/-- A store that keeps a transcript of each session. -/
class TranscriptStore (σ : Type) [SessionStore σ] where
  /-- What was said in a session. -/
  transcript : SessionId → σ → List Utterance
  /-- How many messages are read where some number of them is asked for. -/
  window : Nat → Nat
  /-- These are as many as are asked for, unless there are more messages than a column numbers. -/
  window_covers {limit : Nat} {said : List Utterance} (hcount : said.length ≤ Column.maxNumber) :
    lastOf (window limit) said = lastOf limit said
  /-- A history is the end of the transcript. -/
  told {now : Instant} {session : SessionId} {limit : Nat} {s : σ} {history : List Message}
    (htold : SessionStore.recentHistory now session limit s = .ok history) :
    history.map Message.utterance = lastOf (window limit) (transcript session s)
  /-- A message that is taken comes behind the transcript of its session. -/
  taken {stamp : Stamp} {session : SessionId} {draft : Draft} {s s' : σ} {id : MessageId}
    (htaken : SessionStore.append stamp session draft s = (.ok id, s')) (other : SessionId) :
    transcript other s' = transcript other s ++ if other = session then [draft.utterance] else []
  /-- A message that is refused is in no transcript. -/
  refused {stamp : Stamp} {session : SessionId} {draft : Draft} {s s' : σ} {fault : StoreFault}
    (hrefused : SessionStore.append stamp session draft s = (.error fault, s'))
    (other : SessionId) : transcript other s' = transcript other s
  /-- Nothing is said by opening a session under a name under which nothing was said. -/
  opened (stamp : Stamp) (agentId : String) (title : Option String) {s : σ} {session : SessionId}
    (hblank : session = stamp.name → transcript session s = []) :
    transcript session (SessionStore.openSession stamp agentId title s).2 = transcript session s

/-- A log that is kept beside a store or in it, and whose records are in no transcript. -/
class TranscriptLog (σ : Type) [SessionStore σ] [ExecutionLog σ] [TranscriptStore σ] : Prop where
  /-- Nothing is said by writing a record. -/
  written (record : ExecutionRecord) (session : SessionId) (s : σ) :
    TranscriptStore.transcript session (ExecutionLog.write record s).2 =
      TranscriptStore.transcript session s

namespace MemoryStore

/-- What was said in a session. -/
def transcript (session : SessionId) (store : MemoryStore) : List Utterance :=
  (store.drafts session).map Draft.utterance

instance : TranscriptStore MemoryStore where
  transcript := transcript
  window limit := limit
  window_covers _ := rfl
  told {now session limit store history} htold := by
    have hdrafts := store.draft_recentHistory now session limit
    rw [htold] at hdrafts
    rw [transcript, ← map_lastOf, ← Except.ok.inj hdrafts, List.map_map]
    rfl
  taken {stamp session draft store store' id} htaken other := by
    cases htaken
    refine (congrArg (List.map Draft.utterance)
      (drafts_behind_append stamp session draft other)).trans ?_
    rw [List.map_append, transcript]
    split <;> rfl
  refused := by
    intro stamp session draft store store' fault hrefused
    cases hrefused
  opened stamp agentId title store session hblank :=
    congrArg (List.map Draft.utterance) (drafts_behind_openSession stamp agentId title
      fun hsame => List.map_eq_nil_iff.mp (hblank hsame))

end MemoryStore

section Rows

/-- What is read says what it says unread. -/
private theorem MessageRow.Saying.utterance_of_said {saying : MessageRow.Saying}
    {read : Role × String} (h : saying.said = .ok read) :
    (⟨read.1.name, read.2⟩ : Utterance) = saying.utterance := by
  obtain ⟨_, -, hbehind⟩ := bind_eq_ok_iff.mp h
  obtain ⟨role, hrole, hbehind⟩ := bind_eq_ok_iff.mp hbehind
  obtain ⟨_, -, hread⟩ := bind_eq_ok_iff.mp hbehind
  cases hread
  cases hname : Role.ofText? saying.role with
  | error unknown =>
    rw [hname] at hrole
    cases hrole
  | ok named =>
    rw [hname] at hrole
    cases hrole
    rw [Role.ofText?_eq_ok_iff.mp hname, utterance]

end Rows

namespace Database

/-- What was said in a session. -/
def transcript (session : SessionId) (db : Database) : List Utterance :=
  (db.sayings session).map (·.utterance)

variable {db : Database}

private theorem transcript_withMessage (message : Message) (other : SessionId) :
    (db.withMessage message).transcript other =
      db.transcript other ++ if other = message.session then [message.utterance] else [] := by
  rw [transcript, transcript]
  split
  · next hsame =>
    rw [hsame, sayings_withMessage, List.map_append]
    rfl
  · next hother => rw [sayings_withMessage_other db hother, List.append_nil]

/-- A message is refused, and the database is as it was, or it is one more row. -/
private theorem append_cases (stamp : Stamp) (session : SessionId) (draft : Draft) (db : Database) :
    (∃ fault, SessionStore.append stamp session draft db = (.error fault, db)) ∨
      SessionStore.append stamp session draft db =
        (.ok stamp.name, db.withMessage (draft.toMessage stamp.name session stamp.now)) := by
  by_cases hnamed : db.NamesMessage stamp.name
  · exact .inl (exists_append_eq_of_named stamp session draft hnamed)
  · rw [append_eq stamp session draft db hnamed]
    cases db.appendFault? with
    | some fault => exact .inl ⟨fault, rfl⟩
    | none => exact .inr rfl

instance : TranscriptStore Database where
  transcript := transcript
  window limit := min limit Column.maxNumber
  window_covers hcount := lastOf_min hcount
  told := by
    intro now session limit db history htold
    have hsaid := db.said_recentHistory now session limit
    rw [htold] at hsaid
    split at hsaid
    · have hutterances := map_of_mapM_eq_ok
        (fun _ _ => MessageRow.Saying.utterance_of_said) hsaid.symm
      rw [transcript, ← map_lastOf, ← hutterances, List.map_map]
      rfl
    · cases hsaid
  taken := by
    intro stamp session draft db db' id htaken other
    obtain ⟨fault, happend⟩ | happend := append_cases stamp session draft db
    · cases happend.symm.trans htaken
    · cases happend.symm.trans htaken
      exact transcript_withMessage _ other
  refused := by
    intro stamp session draft db db' fault hrefused other
    obtain ⟨fault', happend⟩ | happend := append_cases stamp session draft db
    · cases happend.symm.trans hrefused
      rfl
    · cases happend.symm.trans hrefused
  opened stamp agentId title db session _ := by
    obtain ⟨sessions, hopen⟩ := exists_openSession_eq stamp agentId title db
    rw [hopen]
    rfl

instance : TranscriptLog Database where
  written record session db := by
    obtain ⟨executions, hwrite⟩ := exists_write_eq record db
    rw [hwrite]
    rfl

end Database

section Beside

variable {σ τ : Type} [SessionStore σ] [TranscriptStore σ]

/-- A store with a log beside it keeps the transcripts of the store. -/
instance : TranscriptStore (σ × τ) where
  transcript session pair := TranscriptStore.transcript session pair.1
  window := TranscriptStore.window σ
  window_covers := TranscriptStore.window_covers
  told htold := TranscriptStore.told htold
  taken := by
    intro stamp session draft pair pair' id htaken other
    obtain ⟨hanswer, rfl⟩ := Prod.mk.inj htaken
    exact TranscriptStore.taken (Prod.ext hanswer rfl) other
  refused := by
    intro stamp session draft pair pair' fault hrefused other
    obtain ⟨hanswer, rfl⟩ := Prod.mk.inj hrefused
    exact TranscriptStore.refused (Prod.ext hanswer rfl) other
  opened stamp agentId title _ _ hblank :=
    TranscriptStore.opened stamp agentId title hblank

instance [ExecutionLog τ] : TranscriptLog (σ × τ) where
  written _ _ _ := rfl

end Beside

end Colloquy
