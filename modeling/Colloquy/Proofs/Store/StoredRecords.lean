import Colloquy.Proofs.Instant.Reading
import Colloquy.Proofs.Json.Fields
import Colloquy.Proofs.Store.Readback

/-!
# Stored records

A record of a call is read from its text with all that it held, but for one thing: the text does not
tell a result that is null from no result.
-/

namespace Colloquy

namespace ExecutionRecord

/-- The record as it is read from its text, in which a null result is no result. -/
def reread (record : ExecutionRecord) : ExecutionRecord :=
  { record with result := record.result.filter fun v => !(v matches .null) }

/-- What a record holds can be read from its text once it is stored: parameters and result as they
are exchanged, with as many levels as are admitted around them, and a time with a year of four
digits. -/
structure Storable (record : ExecutionRecord) : Prop where
  /-- The parameters are read from their text. -/
  parameters : (Json.record record.parameters).Legible ∧ (Json.record record.parameters).Ordered
  /-- The result is read from its text. -/
  result : ∀ v ∈ record.result, v.Legible ∧ v.Ordered
  /-- The text of records has no more levels than a reader admits. -/
  depth : (Json.list [record.toJson]).depth ≤ Json.rules.depth
  /-- The time is one of the civil calendar. -/
  civil : record.executedAt.Civil

section Members

variable {record : ExecutionRecord}

/-- The names of the members of a record. -/
private def names : List String :=
  ["call_id", "tool_id", "tool_name", "parameters", "result", "success", "error", "duration_ms",
    "session_id", "agent_id", "executed_at"]

/-- The members that a record is printed with. -/
private def members (record : ExecutionRecord) : Json.Members :=
  record.toJson.asRecord?.getD []

private theorem names_members (record : ExecutionRecord) :
    ((members record).map (·.1)).Sublist names := by
  obtain ⟨callId, toolId, toolName, parameters, result, success, error, duration, session, agentId,
    executedAt⟩ := record
  cases toolId <;> cases result <;> cases error <;>
    exact List.isSublist_iff_sublist.mp rfl

private theorem lookup_members (record : ExecutionRecord) :
    let member := fun name => List.lookup name (members record)
    member "call_id" = some (Json.text record.callId) ∧
    member "tool_id" = record.toolId.map .text ∧
    member "tool_name" = some (.text record.toolName) ∧
    member "parameters" = some (.record record.parameters) ∧
    member "result" = record.result.map id ∧
    member "success" = some (.bool record.success) ∧
    member "error" = record.error.map .text ∧
    member "duration_ms" = some (.nat record.duration.toNat) ∧
    member "session_id" = some (.text record.session) ∧
    member "agent_id" = some (.text record.agentId) ∧
    member "executed_at" = some (.text record.executedAt.text) := by
  simp [members, toJson, Json.asRecord?, List.lookup_append, Json.lookup_member?, List.lookup_cons]

end Members

section Reading

variable {record : ExecutionRecord} {rules : Datum.Rules}

/-- The integer that a duration is printed as has 64 bits. -/
private theorem legible_duration (n : UInt64) : (Json.nat n.toNat).Legible := by
  have hbound : n.toNat < Word.count 64 := n.toNat_lt
  exact ⟨by omega, Int.ofNat_lt.mpr hbound⟩

private theorem natBelow_duration (n : UInt64) :
    Decoder.natBelow (Word.count 64) rules (Json.nat n.toNat).datum = some n.toNat := by
  have hbound := (legible_duration n).2
  have hfits : (0 ≤ (n.toNat : Int) && (n.toNat : Int) < Word.count 64) = true := by
    rw [Bool.and_eq_true, decide_eq_true_eq, decide_eq_true_eq]
    exact ⟨Int.natCast_nonneg _, hbound⟩
  rw [Json.nat, Json.datum, Decoder.natBelow, if_pos hfits, Int.toNat_natCast]

private theorem decodeInstant_text {t : Instant} (h : t.Civil) :
    decodeInstant rules (Json.text t.text).datum = some t := by
  rw [decodeInstant, Json.datum, Decoder.text, Option.bind_some, Instant.ofText?_text h]

/-- What a record holds has two levels less than the record in a list. -/
private theorem depth_of_storable (h : record.Storable) :
    (Json.record record.parameters).depth ≤ 125 ∧ ∀ v ∈ record.result, v.depth ≤ 125 := by
  have hdepth : max (max (Json.membersDepth (members record) + 1) 0) 0 + 1 ≤ 127 := h.depth
  have hmembers : Json.membersDepth (members record) ≤ 125 := by omega
  simp only [members, toJson, Json.asRecord?, Option.getD_some, Json.membersDepth_append,
    Json.membersDepth, Nat.max_le] at hmembers
  obtain ⟨⟨⟨⟨⟨-, -, hparameters, -⟩, hresult⟩, -⟩, -⟩, -⟩ := hmembers
  refine ⟨hparameters, fun v hv => ?_⟩
  rw [Option.mem_def.mp hv] at hresult
  exact (Nat.max_le.mp hresult).1

/-- The text of a storable record is read as its tree. -/
theorem legible_toJson (h : record.Storable) : record.toJson.Legible := by
  have htext : ∀ name (o : Option String), Json.LegibleMembers (Json.member? name .text o) :=
    fun _ _ => Json.legibleMembers_member? fun _ _ => trivial
  have hresult : Json.LegibleMembers (Json.member? "result" id record.result) :=
    Json.legibleMembers_member? fun v hv => (h.result v hv).1
  have hmembers : Json.LegibleMembers (members record) := by
    simp only [members, toJson, Json.asRecord?, Option.getD_some, Json.legibleMembers_append, htext,
      hresult, Json.LegibleMembers, Json.Legible, true_and, and_true]
    exact ⟨h.parameters.1, legible_duration record.duration⟩
  exact hmembers

/-- A record is read from its tree, where there are enough levels for it. -/
theorem decode_toJson (h : record.Storable) (rules : Datum.Rules) (hdepth : 126 ≤ rules.depth) :
    decode rules record.toJson.datum = some record.reread := by
  obtain ⟨inner, hinner, hdepth⟩ := Json.inner?_of_lt hdepth
  have hparameters : Json.decodeObject inner (Json.record record.parameters).datum =
      some record.parameters := by
    rw [Json.decodeObject, Json.decode_datum _ h.parameters.1 h.parameters.2 inner
      (Nat.le_trans (depth_of_storable h).1 hdepth)]
    rfl
  have hresult : ∀ v ∈ record.result, Json.decode inner (id v).datum = some v := fun v hv =>
    Json.decode_datum v (h.result v hv).1 (h.result v hv).2 inner
      (Nat.le_trans ((depth_of_storable h).2 v hv) hdepth)
  have hnull : (fun v : Json => !(id v).datum.isNull) = fun v => !(v matches .null) := by
    funext v
    cases v <;> rfl
  have hfields : (record.toJson.datum).fields? names rules =
      some (Datum.printed inner (members record)) :=
    Datum.fields?_memberData hinner (names_members record) (by decide)
  obtain ⟨callId, toolId, toolName, parameters, result, success, error, duration, session, agentId,
    executedAt⟩ := lookup_members record
  rw [decode, ← names, hfields]
  simp only [bind, Option.bind, Datum.required_printed inner Decoder.text callId rfl,
    Datum.optional_printed_text inner toolId,
    Datum.required_printed inner Decoder.text toolName rfl,
    Datum.withDefault_printed inner Json.decodeObject [] parameters hparameters,
    Datum.optional_printed inner Json.decode result hresult,
    Datum.required_printed inner Decoder.bool success rfl,
    Datum.optional_printed_text inner error,
    Datum.required_printed inner _ duration (natBelow_duration record.duration),
    Datum.required_printed inner Decoder.text session rfl,
    Datum.required_printed inner Decoder.text agentId rfl,
    Datum.required_printed inner decodeInstant executedAt (decodeInstant_text h.civil),
    hnull, UInt64.ofNat_toNat, Nat.toUInt64]
  rfl

/-- A record is read from its text as one without a null result. -/
theorem readAs?_print (h : record.Storable) :
    Json.readAs? decode record.toJson.print = some record.reread := by
  rw [Json.readAs?, Json.datum?_print (legible_toJson h)]
  exact decode_toJson h Json.rules (by decide)

/-- Records are read from the text of their list, one after another. -/
theorem readAs?_printList {records : List ExecutionRecord}
    (h : ∀ record ∈ records, record.Storable) :
    Json.readAs? (Decoder.list decode) (Json.list (records.map (·.toJson))).print =
      some (records.map (·.reread)) := by
  have hlegible : (Json.list (records.map (·.toJson))).Legible :=
    Json.legibleItems_map fun record hmem => legible_toJson (h record hmem)
  have hlevels : 126 + 1 ≤ Json.rules.depth := by decide
  rw [Json.readAs?, Json.datum?_print hlegible]
  exact Json.list_datum hlevels fun record hmem => decode_toJson (h record hmem)

end Reading

section NullResults

variable {record : ExecutionRecord}

/-- Nothing but a null result is lost. -/
theorem reread_eq_self_iff : record.reread = record ↔ record.result ≠ some .null := by
  obtain ⟨callId, toolId, toolName, parameters, result, success, error, duration, session, agentId,
    executedAt⟩ := record
  cases result with
  | none => exact ⟨fun _ => nofun, fun _ => rfl⟩
  | some v => cases v <;> simp [reread]

/-- A null result leaves a success without a result. -/
theorem consistent_reread_iff (h : record.Consistent) :
    record.reread.Consistent ↔ record.result ≠ some .null := by
  constructor
  · rintro ⟨hresult, -⟩ hnull
    obtain ⟨hsome, -⟩ := h
    rw [hnull] at hsome
    simp [reread, hnull, hsome] at hresult
  · intro hother
    rwa [reread_eq_self_iff.mpr hother]

/-- A null result is a word in the line of its record, and no result is none. -/
theorem summaryLine_reread_iff (h : record.Consistent) :
    record.reread.summaryLine = record.summaryLine ↔ record.result ≠ some .null := by
  constructor
  · intro hline hnull
    have herror : record.error = none := by
      obtain ⟨hsome, hnone⟩ := h
      rw [hnull] at hsome
      rw [hsome] at hnone
      exact Option.isNone_iff_eq_none.mp hnone.symm
    simp only [summaryLine, reread, hnull, herror, resultText, String.append_right_inj] at hline
    have hword : "" = Json.print .null := hline
    exact absurd hword (by decide)
  · intro hother
    rw [reread_eq_self_iff.mpr hother]

end NullResults

end ExecutionRecord

namespace Draft

/-- The draft with its records as they are read from their text. -/
def reread (draft : Draft) : Draft :=
  { draft with toolRecords := draft.toolRecords.map (·.reread) }

private theorem readBack_eq {draft : Draft} (h : ∀ record ∈ draft.toolRecords, record.Storable) :
    draft.readBack = .ok draft.reread := by
  rw [readBack, recordsText, Column.valueIn, ExecutionRecord.readAs?_printList h]
  rfl

end Draft

namespace Database

/-- The records of a history are those that were appended, each as it is read from its text. -/
theorem recentHistory_storable (operations : List Operation) (now : Instant) (session : SessionId)
    (limit : Nat)
    (h : ∀ draft ∈ fresh.accepted session operations, ∀ record ∈ draft.toolRecords,
      record.Storable) :
    (SessionStore.recentHistory now session limit (fresh.behind operations)).map
        (·.map (·.placed)) =
      .ok ((lastOf (min limit Column.maxNumber) (fresh.accepted session operations)).map
        fun draft => (session, draft.reread)) := by
  obtain ⟨haccepts, hsayings⟩ := sayings_behind ⟨rfl, rfl, rfl⟩ session operations
  rw [placed_recentHistory haccepts now limit hsayings]
  have hread : ∀ message ∈ (lastOf (min limit Column.maxNumber)
      (fresh.accepted session operations)).map (session, ·),
      message.2.readBack.map (message.1, ·) = .ok (message.1, message.2.reread) := by
    intro message hmem
    obtain ⟨draft, hdraft, rfl⟩ := List.mem_map.mp hmem
    dsimp only
    rw [Draft.readBack_eq (h draft (List.mem_of_mem_drop hdraft))]
    rfl
  rw [mapM_eq_ok hread, List.map_map]
  rfl

end Database

namespace ExecutionRecord

/-- Of the outcomes of a call, only a null result is one that the text of its record does not tell
from none. -/
private theorem result_ofOutcome_iff (origin : Origin) (parameters : Json.Members)
    (outcome : Except String Json) (duration : UInt64) (executedAt : Instant) :
    (ofOutcome origin parameters outcome duration executedAt).result ≠ some .null ↔
      outcome ≠ .ok .null := by
  cases outcome <;> simp [ofOutcome]

/-- A record of a call is read from its text as it was, and so is every record of a history, except
that a null result is no result any more. Such a record tells of a success without a result, and its
line has lost a word. -/
theorem reread_ofOutcome (origin : Origin) (parameters : Json.Members)
    (outcome : Except String Json) (duration : UInt64) (executedAt : Instant)
    (operations : List Database.Operation) (now : Instant) (session : SessionId) (limit : Nat) :
    let record := ofOutcome origin parameters outcome duration executedAt
    (record.Storable → Json.readAs? decode record.toJson.print = some record.reread) ∧
    (record.reread = record ↔ outcome ≠ .ok .null) ∧
    (record.reread.Consistent ↔ outcome ≠ .ok .null) ∧
    (record.reread.summaryLine = record.summaryLine ↔ outcome ≠ .ok .null) ∧
    ((∀ draft ∈ Database.fresh.accepted session operations, ∀ record ∈ draft.toolRecords,
        record.Storable) →
      (SessionStore.recentHistory now session limit (Database.fresh.behind operations)).map
          (·.map (·.placed)) =
        .ok ((lastOf (min limit Column.maxNumber) (Database.fresh.accepted session operations)).map
          fun draft => (session, draft.reread))) := by
  have hconsistent := consistent_ofOutcome origin parameters outcome duration executedAt
  have hnull := result_ofOutcome_iff origin parameters outcome duration executedAt
  refine ⟨readAs?_print, ?_, ?_, ?_, Database.recentHistory_storable operations now session limit⟩
  · rw [reread_eq_self_iff, hnull]
  · rw [consistent_reread_iff hconsistent, hnull]
  · rw [summaryLine_reread_iff hconsistent, hnull]

section Forecast

/-- A call that succeeds in a leap second. -/
private def forecast : ExecutionRecord :=
  ofOutcome ⟨"call", some "tool", "forecast", "s", "bot"⟩
    [("city", .text "Oslo"), ("days", .list [.integer 2, .null])]
    (.ok (.record [("rain", .bool true)])) 3 ⟨1483228799, 1500000000⟩

private theorem forecast_storable : forecast.Storable where
  parameters :=
    ⟨⟨trivial, ⟨⟨by decide, by decide⟩, trivial, trivial⟩, trivial⟩,
      by decide, trivial, ⟨trivial, trivial, trivial⟩, trivial⟩
  result := by
    rintro v ⟨⟩
    exact ⟨⟨trivial, trivial⟩, by decide, trivial, trivial⟩
  depth := by decide
  civil := ⟨by decide, by decide, by decide, by decide⟩

/-- A message with the record of a call is appended to a session. -/
private def appended (record : ExecutionRecord) : Database.Operation :=
  .ask ⟨⟨⟨0, 0⟩, "m0"⟩, .append "s" (.assistant "Done." [record])⟩

private theorem accepted_appended (record : ExecutionRecord) :
    Database.fresh.accepted "s" [appended record] = [.assistant "Done." [record]] := by
  rfl

private theorem lastOf_one (draft : Draft) : lastOf (min 1 Column.maxNumber) [draft] = [draft] := by
  have hroom : [draft].length ≤ Column.maxNumber := by
    rw [List.length_singleton]
    decide
  rw [lastOf_min hroom]
  rfl

/-- A forecast is read as it was. -/
theorem reread_ofOutcome_forecast :
    forecast.Storable ∧ Json.readAs? decode forecast.toJson.print = some forecast ∧
      (SessionStore.recentHistory ⟨1, 0⟩ "s" 1
          (Database.fresh.behind [appended forecast])).map (·.map (·.placed)) =
        .ok [("s", .assistant "Done." [forecast])] := by
  obtain ⟨hread, hsame, -, -, hhistory⟩ := reread_ofOutcome
    ⟨"call", some "tool", "forecast", "s", "bot"⟩
    [("city", .text "Oslo"), ("days", .list [.integer 2, .null])]
    (.ok (.record [("rain", .bool true)])) 3 ⟨1483228799, 1500000000⟩
    [appended forecast] ⟨1, 0⟩ "s" 1
  have hsame : forecast.reread = forecast := hsame.mpr (by simp)
  have hread := hread forecast_storable
  rw [accepted_appended, lastOf_one] at hhistory
  have hhistory := hhistory (List.forall_mem_singleton.mpr
    (List.forall_mem_singleton.mpr forecast_storable))
  refine ⟨forecast_storable, hread.trans (congrArg some hsame), hhistory.trans ?_⟩
  rw [List.map_singleton, Draft.reread, Draft.assistant, List.map_singleton, hsame]

end Forecast

section Silence

/-- A call that succeeds and has nothing to tell. -/
private def silence : ExecutionRecord :=
  ofOutcome ⟨"call", some "tool", "clock", "s", "bot"⟩ [] (.ok .null) 3 ⟨1704164645, 0⟩

private theorem silence_storable : silence.Storable where
  parameters := ⟨trivial, by decide, trivial⟩
  result := by
    rintro v ⟨⟩
    exact ⟨trivial, trivial⟩
  depth := by decide
  civil := ⟨by decide, by decide, by decide, by decide⟩

/-- The record of a success with a null result is read as that of a success without a result, and
the history that it was appended to has the other record. -/
theorem reread_silence_ne :
    silence.Storable ∧ Json.readAs? decode silence.toJson.print ≠ some silence ∧
      (∀ record, Json.readAs? decode silence.toJson.print = some record →
        record.success = true ∧ record.result = none ∧ silence.summaryLine = "Tool clock: null" ∧
          record.summaryLine = "Tool clock: ") ∧
      (SessionStore.recentHistory ⟨1, 0⟩ "s" 1
          (Database.fresh.behind [appended silence])).map (·.map (·.placed)) ≠
        .ok [("s", .assistant "Done." [silence])] := by
  have hread := readAs?_print silence_storable
  have hother : silence.reread ≠ silence := fun h => reread_eq_self_iff.mp h rfl
  have hhistory := Database.recentHistory_storable [appended silence] ⟨1, 0⟩ "s" 1
  rw [accepted_appended, lastOf_one] at hhistory
  have hhistory := hhistory (List.forall_mem_singleton.mpr
    (List.forall_mem_singleton.mpr silence_storable))
  refine ⟨silence_storable, ?_, ?_, ?_⟩
  · rw [hread]
    exact fun h => hother (Option.some.inj h)
  · rintro record h
    rw [hread] at h
    cases h
    exact ⟨rfl, rfl, by decide, by decide⟩
  · rw [hhistory]
    simpa [Draft.reread, Draft.assistant] using hother

end Silence

end ExecutionRecord

end Colloquy
