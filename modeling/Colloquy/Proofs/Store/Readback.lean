import Colloquy.Proofs.Store.Impartial
import Colloquy.Proofs.Store.Windows
import Colloquy.Proofs.Turn.Handling

/-!
# What is read back

The database takes a message without looking at it: its records are written to a text, and only who
asks for the message has them read again. So a message that was accepted is read back exactly if its
records are, and a history is read back exactly if every message in it is. Not every record that a
batch of calls can leave is read back: the text of the records has two levels around their
parameters, while the parameters alone may have as many levels as a reader admits.
-/

namespace Colloquy

namespace Draft

/-- The records of a draft in the text in which they are stored. -/
def recordsText (draft : Draft) : String :=
  (Json.list (draft.toolRecords.map (·.toJson))).print

/-- What a draft says as a row. -/
def saying (draft : Draft) : MessageRow.Saying :=
  ⟨draft.role.name, draft.content, (draft.tokenCount.map fun n => Cell.integer n.toNat).getD .null,
    draft.recordsText⟩

/-- The draft with its records as they are read from their text, unless they cannot be. -/
def readBack (draft : Draft) : Except StoreFault Draft :=
  (Column.valueIn "tool_records" (Decoder.list ExecutionRecord.decode) draft.recordsText).map
    fun records => { draft with toolRecords := records }

/-- The records of a draft are read from their text as they were written. -/
def ReadsBack (draft : Draft) : Prop :=
  Json.readAs? (Decoder.list ExecutionRecord.decode) draft.recordsText = some draft.toolRecords

theorem ReadsBack.readBack_eq {draft : Draft} (h : draft.ReadsBack) : draft.readBack = .ok draft := by
  rw [ReadsBack] at h
  rw [readBack, Column.valueIn, h]
  rfl

end Draft

section Rows

/-- A count of tokens is read as a number. -/
private theorem numberIn?_count (count : Option UInt32) :
    Column.numberIn? "token_count" ((count.map fun n => Cell.integer n.toNat).getD .null) =
      .ok (count.map fun n => (n.toNat : Int)) := by
  cases count <;> rfl

/-- The number of a count is the word that it was. -/
private theorem bind_count (count : Option UInt32) :
    ((count.map fun n => (n.toNat : Int)).bind fun n =>
      if 0 ≤ n && n < Word.count 32 then some n.toNat.toUInt32 else none) = count := by
  refine Option.ext fun n => MessageRow.count_eq_some_iff.trans ?_
  rw [Option.map_eq_some_iff]
  simp only [Int.natCast_inj, UInt32.toNat_inj, exists_eq_right]

/-- A row that says what a draft does is read as the draft is. -/
private theorem MessageRow.placed_message (now : Instant) {row : MessageRow} {draft : Draft}
    (hsaying : row.saying = draft.saying) :
    (row.message now).map (·.placed) = draft.readBack.map (row.session, ·) := by
  obtain ⟨id, session, role, content, tokenCount, toolRecords, createdAt⟩ := row
  simp only [MessageRow.saying, Draft.saying, Saying.mk.injEq] at hsaying
  obtain ⟨rfl, rfl, rfl, rfl⟩ := hsaying
  simp only [MessageRow.message, numberIn?_count, Role.ofText?_name, Draft.readBack]
  cases Column.valueIn "tool_records" (Decoder.list ExecutionRecord.decode) draft.recordsText with
  | error fault => rfl
  | ok records =>
    simp only [bind, Except.bind, pure, Except.pure, Except.map, Except.mapError, bind_count]
    rfl

/-- Rows that say what drafts do are read one after another as the drafts are. -/
private theorem placed_mapM (now : Instant) {session : SessionId} {rows : List MessageRow}
    {drafts : List Draft} (hsession : ∀ row ∈ rows, row.session = session)
    (hsaying : rows.map (·.saying) = drafts.map (·.saying)) :
    (rows.mapM (MessageRow.message now)).map (·.map (·.placed)) =
      (drafts.map (session, ·)).mapM fun message =>
        message.2.readBack.map (message.1, ·) := by
  have hsame : List.Forall₂ (fun row draft => row.saying = draft.saying) rows drafts := by
    rwa [← List.forall₂_eq_eq_eq, List.forall₂_map_left_iff, List.forall₂_map_right_iff] at hsaying
  refine map_mapM_of_forall₂ ?_
  rw [List.forall₂_iff_zip] at hsame
  rw [List.forall₂_map_right_iff, List.forall₂_iff_zip]
  refine ⟨hsame.1, fun {row draft} hmem => ?_⟩
  rw [← hsession row (List.of_mem_zip hmem).1]
  exact MessageRow.placed_message now (hsame.2 hmem)

end Rows

namespace Database

variable {db : Database}

/-- Where messages are told, a history is what the rows of a session say, read back. -/
theorem placed_recentHistory_of_hasMessages (hmessages : db.hasMessages = true) (now : Instant)
    {session : SessionId} (limit : Nat) {drafts : List Draft}
    (hsayings : db.sayings session = drafts.map (·.saying)) :
    (SessionStore.recentHistory now session limit db).map (·.map (·.placed)) =
      ((lastOf (min limit Column.maxNumber) drafts).map (session, ·)).mapM fun message =>
        message.2.readBack.map (message.1, ·) := by
  simp only [SessionStore.recentHistory, if_pos hmessages]
  refine placed_mapM now ?_ ?_
  · intro row hmem
    have hrow := List.mem_filter.mp (List.mem_of_mem_drop hmem)
    simpa using hrow.2
  · rw [map_lastOf, map_lastOf, ← hsayings]
    rfl

section Accepting

variable (h : db.AcceptsLike fresh)

include h

theorem hasSessions_of_accepts : db.hasSessions = true := by
  rw [hasSessions, h.isOpen, h.schema]
  decide

theorem hasMessages_of_accepts : db.hasMessages = true := by
  rw [hasMessages, h.isOpen, h.schema]
  decide

theorem appendFault?_of_accepts : db.appendFault? = none := by
  rw [h.appendFault?_eq]
  decide

/-- A history is what the rows of a session say, read back. -/
theorem placed_recentHistory (now : Instant) {session : SessionId} (limit : Nat)
    {drafts : List Draft} (hsayings : db.sayings session = drafts.map (·.saying)) :
    (SessionStore.recentHistory now session limit db).map (·.map (·.placed)) =
      ((lastOf (min limit Column.maxNumber) drafts).map (session, ·)).mapM fun message =>
        message.2.readBack.map (message.1, ·) :=
  placed_recentHistory_of_hasMessages (hasMessages_of_accepts h) now limit hsayings

end Accepting

/-- What may happen to a database as long as nobody but its store touches it. -/
inductive Operation where
  /-- The store is asked for something. -/
  | ask (step : StoreStep)
  /-- The log takes a record. -/
  | log (record : ExecutionRecord)
  /-- The database is opened again. -/
  | reopen

namespace Operation

/-- The database behind an operation. -/
def apply (db : Database) : Operation → Database
  | .ask step => (step.run db).2
  | .log record => (ExecutionLog.write record db).2
  | .reopen =>
    match db.reopened with
    | .ok db => db
    | .error _ => db

/-- The draft that a database accepts for a session in an operation, if it does. -/
def accepted? (session : SessionId) (db : Database) : Operation → Option Draft
  | .ask ⟨stamp, .append other draft⟩ =>
    if other = session && (SessionStore.append stamp other draft db).1.isOk then some draft
    else none
  | _ => none

end Operation

/-- The database behind some operations. -/
def behind (db : Database) (operations : List Operation) : Database :=
  operations.foldl Operation.apply db

/-- The drafts that a database accepts for a session in the course of some operations. -/
def accepted (session : SessionId) : Database → List Operation → List Draft
  | _, [] => []
  | db, operation :: rest =>
    (operation.accepted? session db).toList ++ accepted session (operation.apply db) rest

/-- Opening the database again leaves it as it is. -/
theorem reopened_of_accepts (h : db.AcceptsLike fresh) : db.reopened = .ok db := by
  obtain ⟨schema, sessions, messages, executions, isOpen, updatesBlocked⟩ := db
  obtain ⟨hschema, hopen, -⟩ := h
  simp only at hschema hopen
  subst hschema hopen
  rfl

/-- What an operation comes to: a message that is accepted, or nothing that messages know of. -/
private theorem apply_cases (h : db.AcceptsLike fresh) (operation : Operation) :
    (∃ sessions executions, operation.apply db = { db with sessions, executions } ∧
        ∀ session, operation.accepted? session db = none) ∨
      ∃ (stamp : Stamp) (other : SessionId) (draft : Draft),
        operation.apply db = db.withMessage (draft.toMessage stamp.name other stamp.now) ∧
        ∀ session, operation.accepted? session db = if other = session then some draft else none := by
  cases operation with
  | ask step =>
    obtain ⟨stamp, call⟩ := step
    cases call with
    | openSession agentId title =>
      obtain ⟨sessions, hopen⟩ := exists_openSession_eq stamp agentId title db
      exact .inl ⟨sessions, db.executions, hopen, fun _ => rfl⟩
    | append other draft =>
      have happly : (Operation.ask ⟨stamp, .append other draft⟩).apply db =
          (SessionStore.append stamp other draft db).2 := rfl
      rw [happly]
      by_cases hnamed : db.NamesMessage stamp.name
      · obtain ⟨fault, happend⟩ := exists_append_eq_of_named stamp other draft hnamed
        refine .inl ⟨db.sessions, db.executions, ?_, fun session => ?_⟩
        · rw [happend]
        · simp [Operation.accepted?, happend, Except.isOk, Except.toBool]
      · have happend := append_eq stamp other draft db hnamed
        rw [appendFault?_of_accepts h] at happend
        refine .inr ⟨stamp, other, draft, ?_, fun session => ?_⟩
        · rw [happend]
        · simp [Operation.accepted?, happend, Except.isOk, Except.toBool]
    | recentHistory other limit => exact .inl ⟨db.sessions, db.executions, rfl, fun _ => rfl⟩
    | session? other => exact .inl ⟨db.sessions, db.executions, rfl, fun _ => rfl⟩
    | sessions agentId => exact .inl ⟨db.sessions, db.executions, rfl, fun _ => rfl⟩
  | log record =>
    obtain ⟨executions, hwrite⟩ := exists_write_eq record db
    exact .inl ⟨db.sessions, executions, hwrite, fun _ => rfl⟩
  | reopen =>
    refine .inl ⟨db.sessions, db.executions, ?_, fun _ => rfl⟩
    rw [Operation.apply, reopened_of_accepts h]

/-- A database that accepts whatever a new one does goes on to do so. -/
theorem accepts_apply (h : db.AcceptsLike fresh) (operation : Operation) :
    AcceptsLike (operation.apply db) fresh := by
  obtain ⟨sessions, executions, happly, -⟩ | ⟨stamp, other, draft, happly, -⟩ :=
    apply_cases h operation <;>
  · rw [happly]
    exact ⟨h.schema, h.isOpen, h.updatesBlocked⟩

/-- An operation adds to what is said in a session just the draft that is accepted. -/
private theorem sayings_apply (h : db.AcceptsLike fresh) (session : SessionId)
    (operation : Operation) :
    sayings session (operation.apply db) =
      db.sayings session ++ (operation.accepted? session db).toList.map (·.saying) := by
  obtain ⟨sessions, executions, happly, hnone⟩ | ⟨stamp, other, draft, happly, hsome⟩ :=
    apply_cases h operation
  · rw [happly, hnone]
    exact (List.append_nil _).symm
  · rw [happly, hsome]
    by_cases hsame : other = session
    · subst hsame
      rw [if_pos rfl]
      exact sayings_withMessage db (draft.toMessage stamp.name other stamp.now)
    · have hother : session ≠ (draft.toMessage stamp.name other stamp.now).session := Ne.symm hsame
      rw [if_neg hsame, sayings_withMessage_other db hother]
      exact (List.append_nil _).symm

/-- Operations add to what is said in a session just the drafts that are accepted. -/
theorem sayings_behind (h : db.AcceptsLike fresh) (session : SessionId)
    (operations : List Operation) :
    AcceptsLike (db.behind operations) fresh ∧
      sayings session (db.behind operations) =
        db.sayings session ++ (db.accepted session operations).map (·.saying) := by
  induction operations generalizing db with
  | nil => exact ⟨h, (List.append_nil _).symm⟩
  | cons operation rest ih =>
    obtain ⟨haccepts, hsayings⟩ := ih (accepts_apply h operation)
    refine ⟨haccepts, ?_⟩
    rw [accepted, List.map_append, ← List.append_assoc, ← sayings_apply h session operation]
    exact hsayings

/-- A history consists of the drafts that were last accepted for the session, each as it is read
back. It fails exactly if one of them cannot be read. -/
theorem recentHistory_behind (operations : List Operation) (now : Instant) (session : SessionId)
    (limit : Nat) :
    (SessionStore.recentHistory now session limit (fresh.behind operations)).map
        (·.map (·.placed)) =
      ((lastOf (min limit Column.maxNumber) (fresh.accepted session operations)).map
        (session, ·)).mapM fun message => message.2.readBack.map (message.1, ·) := by
  obtain ⟨haccepts, hsayings⟩ := sayings_behind ⟨rfl, rfl, rfl⟩ session operations
  exact placed_recentHistory haccepts now limit hsayings

section Nested

/-- A tool that tells the weather. -/
def weatherTool : Tool :=
  ⟨"bot:tool:get_weather", "get_weather", "", .native, true, "\x7b\x7d"⟩

/-- An agent with this tool. -/
def weatherAgent : Agent :=
  ⟨"bot", "Bot", [], [weatherTool], ⟨"model", 1, none⟩⟩

/-- A call among whose arguments there is a list in a list, and so on. -/
def nestedCall (levels : Nat) : ToolCall :=
  ⟨"c", "get_weather", String.ofList ("\x7b\"city\":\"Oslo\",\"note\":".toList ++
    List.replicate levels '[' ++ List.replicate levels ']' ++ ['\x7d'])⟩

/-- The call as it is prepared. -/
def nestedPrepared (levels : Nat) : PreparedCall :=
  ⟨weatherTool, parseArguments (nestedCall levels).arguments⟩

/-- What the tool replies at once. -/
def weatherReply : Reply × UInt64 :=
  (.ok (.text "10C, overcast, humidity 85%, wind 30 km/h E"), 0)

/-- The message that ends a turn in which the model made the call. -/
def nestedDraft (levels : Nat) : Draft :=
  .assistant "one" [Batch.replyRecord weatherAgent "s" (nestedCall levels) (nestedPrepared levels)
    weatherReply ⟨0, 0⟩]

private theorem prepare_nestedCall (levels : Nat) :
    prepare (fun _ => true) weatherAgent (nestedCall levels) = .ok (nestedPrepared levels) := by
  have hfound : weatherAgent.findTool? (nestedCall levels).name = some weatherTool := by
    change weatherAgent.findTool? "get_weather" = some weatherTool
    decide +kernel
  rw [prepare, hfound]
  rfl

/-- With 125 lists in each other, the record of the call is nested too deep to be read back. The last of
the lists is one level too many. -/
theorem readBack_nestedDraft :
    (nestedDraft 125).readBack =
      .error (.serialization "tool_records: recursion limit exceeded at line 1 column 235") := by
  -- Texts are taken for their characters, in which they are printed and read.
  have hrefused : (Json.readAs? (Decoder.list ExecutionRecord.decode)
        (nestedDraft 125).recordsText).isSome = false ∧
      ((Json.datum? (nestedDraft 125).recordsText).bind (Decoder.list ExecutionRecord.decode
        { Json.rules with depth := (nestedDraft 125).recordsText.length })).isSome = true ∧
      Json.surplus? (nestedDraft 125).recordsText = some ⟨1, 235⟩ := by
    simp only [Json.readAs?, Json.surplus?, Json.datum?, Draft.recordsText,
      Json.print, nestedDraft, Batch.replyRecord, nestedPrepared, nestedCall, parseArguments,
      Json.read?, String.toList_ofList, String.length_ofList]
    decide +kernel
  obtain ⟨hread, hdeep, hplace⟩ := hrefused
  obtain ⟨records, hdeep⟩ := Option.isSome_iff_exists.mp hdeep
  have hnote : Json.depthNote (Decoder.list ExecutionRecord.decode) (nestedDraft 125).recordsText =
      ": recursion limit exceeded at line 1 column 235" := by
    rw [Json.depthNote, hdeep, hplace]
    dsimp only
    decide +kernel
  rw [Option.isSome_eq_false_iff, Option.isNone_iff_eq_none] at hread
  rw [Draft.readBack, Column.valueIn, hread, hnote]
  rfl

/-- Arguments of 126 levels are still read as parameters, and the message with their record is
accepted. From then on the history of the session cannot be read. -/
theorem recentHistory_nested_error :
    ∃ trace records,
      Batch.Completed (fun _ => true) weatherAgent "s" [nestedCall 125] trace records ∧
      let append := Operation.ask ⟨⟨⟨0, 0⟩, "m0"⟩, .append "s" (.assistant "one" records)⟩
      (append.accepted? "s" fresh).isSome ∧
        SessionStore.recentHistory ⟨1, 0⟩ "s" 1 (fresh.behind [append]) =
          .error (.serialization
            "tool_records: recursion limit exceeded at line 1 column 235") := by
  have hnew : ¬ fresh.NamesMessage "m0" := by
    rintro ⟨row, hmem, -⟩
    exact absurd hmem List.not_mem_nil
  have hfault : fresh.appendFault? = none := by decide
  have happend := append_eq ⟨⟨0, 0⟩, "m0"⟩ "s" (nestedDraft 125) fresh hnew
  rw [hfault] at happend
  have haccepted : (Operation.ask ⟨⟨⟨0, 0⟩, "m0"⟩, .append "s" (nestedDraft 125)⟩).accepted? "s"
      fresh = some (nestedDraft 125) := by
    simp [Operation.accepted?, happend, Except.isOk, Except.toBool]
  obtain ⟨haccepts, hsayings⟩ := sayings_behind ⟨rfl, rfl, rfl⟩ "s"
    [.ask ⟨⟨⟨0, 0⟩, "m0"⟩, .append "s" (nestedDraft 125)⟩]
  have hhistory := placed_recentHistory haccepts ⟨1, 0⟩ 1 hsayings
  have hlast : lastOf (min 1 Column.maxNumber) [nestedDraft 125] = [nestedDraft 125] := by
    rw [lastOf_min (by decide)]
    rfl
  simp only [accepted, haccepted, Option.toList_some, List.append_nil, hlast, List.map_cons,
    List.map_nil, List.mapM_cons, readBack_nestedDraft] at hhistory
  refine ⟨_, _, .cons (.invoked (prepare_nestedCall 125) weatherReply ⟨0, 0⟩ (.ok ())) .nil, ?_, ?_⟩
  · exact Option.isSome_iff_exists.mpr ⟨_, haccepted⟩
  · cases hresult : SessionStore.recentHistory ⟨1, 0⟩ "s" 1 (fresh.behind
      [.ask ⟨⟨⟨0, 0⟩, "m0"⟩, .append "s" (nestedDraft 125)⟩]) with
    | ok messages =>
      rw [hresult] at hhistory
      cases hhistory
    | error fault =>
      rw [hresult] at hhistory
      cases hhistory
      exact hresult

end Nested

end Database

end Colloquy
