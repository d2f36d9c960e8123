import Colloquy.Proofs.Instant.Reading
import Colloquy.Proofs.Json.Printed
import Colloquy.Proofs.Store.Readback

/-!
# Logged records

A record that is taken apart into the columns of a row and put together again is the record, a null
result included, which as a text is told from no text. So a database that is written to and read for
some session answers as a log in memory does, whatever else is asked of it meanwhile.
-/

namespace Colloquy

namespace ExecutionRecord

/-- What a record holds fits the columns of a row: parameters and result as they are exchanged, each
with as many levels as a reader admits, a duration that is a number of 63 bits, and a time with a year
of four digits. -/
structure Loggable (record : ExecutionRecord) : Prop where
  /-- The parameters are read from their text. -/
  parameters : (Json.record record.parameters).Legible ∧ (Json.record record.parameters).Ordered
  /-- The parameters have no more levels than a reader admits. -/
  parametersDepth : (Json.record record.parameters).depth ≤ Json.rules.depth
  /-- The result is read from its text. -/
  result : ∀ v ∈ record.result, v.Legible ∧ v.Ordered
  /-- The result has no more levels than a reader admits. -/
  resultDepth : ∀ v ∈ record.result, v.depth ≤ Json.rules.depth
  /-- The duration is a number that a column holds. -/
  duration : record.duration.toNat ≤ Column.maxNumber
  /-- The time is one of the civil calendar. -/
  civil : record.executedAt.Civil

end ExecutionRecord

section Columns

variable {record : ExecutionRecord}

private theorem valueIn_print (column : String) {v : Json} (h : v.Legible) (hordered : v.Ordered)
    (hdepth : v.depth ≤ Json.rules.depth) : Column.valueIn column Json.decode v.print = .ok v := by
  have hread : Json.readAs? Json.decode v.print = some v := Json.read?_print h hordered hdepth
  rw [Column.valueIn, hread]

private theorem valueIn_parameters (h : record.Loggable) :
    Column.valueIn "parameters" Json.decodeObject (Json.record record.parameters).print =
      .ok record.parameters := by
  have hread : Json.readAs? Json.decodeObject (Json.record record.parameters).print =
      some record.parameters := by
    rw [Json.readAs?, Json.datum?_print h.parameters.1]
    change Option.bind (Json.decode Json.rules (Json.record record.parameters).datum) _ = _
    rw [Json.decode_datum _ h.parameters.1 h.parameters.2 _ h.parametersDepth]
    rfl
  rw [Column.valueIn, hread]

/-- A number of 63 bits is not cut. -/
private theorem duration_min (h : record.Loggable) :
    (min (record.duration.toNat : Int) Column.maxNumber).toNat.toUInt64 = record.duration := by
  rw [Int.min_eq_left (Int.ofNat_le.mpr h.duration), Int.toNat_natCast]
  exact UInt64.ofNat_toNat

/-- A record is read from its row as it is. -/
theorem ExecutionRow.record_ofRecord (now : Instant) (h : record.Loggable) :
    (ExecutionRow.ofRecord record).record now = .ok record := by
  have hsuccess : ((if record.success then 1 else 0 : Int) != 0) = record.success := by
    cases record.success <;> rfl
  have htime : Column.timeIn now record.executedAt.storedText = record.executedAt := by
    rw [Column.timeIn, Instant.ofStored?_storedText h.civil, Option.getD_some]
  rw [ExecutionRow.record, ofRecord]
  simp only [Column.numberIn, valueIn_parameters h, bind, Except.bind, pure, Except.pure]
  cases hresult : record.result with
  | none =>
    rw [hsuccess, htime, duration_min h]
    change Except.ok { record with result := none } = _
    rw [← hresult]
  | some v =>
    have hread := valueIn_print "result" (h.result v hresult).1 (h.result v hresult).2
      (h.resultDepth v hresult)
    simp only [Option.map_some, hread]
    rw [hsuccess, htime, duration_min h]
    change Except.ok { record with result := some v } = _
    rw [← hresult]

end Columns

namespace Database

variable {db : Database}

/-- The record that an operation writes, if it writes one. -/
def Operation.record? : Operation → Option ExecutionRecord
  | .log record => some record
  | _ => none

private theorem hasExecutions_of_accepts (h : db.AcceptsLike fresh) : db.hasExecutions = true := by
  rw [hasExecutions, h.isOpen, h.schema]
  decide

/-- A database that accepts records takes each of them as its next row. -/
theorem write_eq (h : db.AcceptsLike fresh) (record : ExecutionRecord) :
    ExecutionLog.write record db =
      (.ok (), { db with executions := db.executions ++ [ExecutionRow.ofRecord record] }) := by
  simp only [ExecutionLog.write, if_pos (hasExecutions_of_accepts h)]
  rfl

/-- Whatever a store is asked for, the executions stay as they are. -/
theorem executions_run (step : StoreStep) (db : Database) :
    (step.run db).2.executions = db.executions := by
  obtain ⟨stamp, call⟩ := step
  cases call with
  | openSession agentId title =>
    obtain ⟨sessions, hopen⟩ := exists_openSession_eq stamp agentId title db
    change (SessionStore.openSession stamp agentId title db).2.executions = _
    rw [hopen]
  | append session draft =>
    change (SessionStore.append stamp session draft db).2.executions = _
    by_cases hnamed : db.NamesMessage stamp.name
    · obtain ⟨fault, happend⟩ := exists_append_eq_of_named stamp session draft hnamed
      rw [happend]
    · rw [append_eq stamp session draft db hnamed]
      cases db.appendFault? <;> rfl
  | recentHistory session limit => rfl
  | session? session => rfl
  | sessions agentId => rfl

/-- An operation adds just the record that it writes to the executions. -/
private theorem executions_apply (h : db.AcceptsLike fresh) (operation : Operation) :
    (operation.apply db).executions =
      db.executions ++ operation.record?.toList.map ExecutionRow.ofRecord := by
  cases operation with
  | ask step => exact (executions_run step db).trans (List.append_nil _).symm
  | log record => rw [Operation.apply, write_eq h]; rfl
  | reopen =>
    rw [Operation.apply, reopened_of_accepts h]
    exact (List.append_nil _).symm

/-- Operations add just the records that they write to the executions. -/
theorem executions_behind (h : db.AcceptsLike fresh) (operations : List Operation) :
    AcceptsLike (db.behind operations) fresh ∧
      (db.behind operations).executions =
        db.executions ++ (operations.filterMap Operation.record?).map ExecutionRow.ofRecord := by
  induction operations generalizing db with
  | nil => exact ⟨h, (List.append_nil _).symm⟩
  | cons operation rest ih =>
    obtain ⟨haccepts, hexecutions⟩ := ih (accepts_apply h operation)
    refine ⟨haccepts, ?_⟩
    have hrecords : (operation :: rest).filterMap Operation.record? =
        operation.record?.toList ++ rest.filterMap Operation.record? := by
      rw [List.filterMap_cons]
      cases operation.record? <;> rfl
    rw [hrecords, List.map_append, ← List.append_assoc, ← executions_apply h operation]
    exact hexecutions

end Database

/-- The log behind some records. -/
def MemoryLog.behind (log : MemoryLog) (records : List ExecutionRecord) : MemoryLog :=
  records.foldl (fun log record => (ExecutionLog.write record log).2) log

theorem MemoryLog.records_behind (log : MemoryLog) (records : List ExecutionRecord) :
    (log.behind records).records = log.records ++ records := by
  induction records generalizing log with
  | nil => exact (List.append_nil _).symm
  | cons record records ih =>
    have hrest := ih ⟨log.records ++ [record]⟩
    rw [List.append_assoc] at hrest
    exact hrest

namespace Database

/-- Whatever a database was asked for, it accepts any record, and for every session it answers with
the records that a log in memory answers with. -/
theorem executionsOf_behind (operations : List Operation)
    (hrecords : ∀ record ∈ operations.filterMap Operation.record?, record.Loggable) :
    (∀ record, (ExecutionLog.write record (fresh.behind operations)).1 = .ok ()) ∧
    ∀ now session, (fresh.behind operations).executionsOf now session =
      .ok ((MemoryLog.empty.behind (operations.filterMap Operation.record?)).ofSession session) := by
  have hfresh : fresh.AcceptsLike fresh := ⟨rfl, rfl, rfl⟩
  obtain ⟨haccepts, hexecutions⟩ := executions_behind hfresh operations
  constructor
  · intro record
    rw [write_eq haccepts]
  · intro now session
    obtain ⟨records, hwritten⟩ : ∃ records, records = operations.filterMap Operation.record? :=
      ⟨_, rfl⟩
    rw [← hwritten] at hrecords hexecutions ⊢
    have hrows : (fresh.behind operations).executions = records.map ExecutionRow.ofRecord :=
      hexecutions
    have hfilter : (records.map ExecutionRow.ofRecord).filter (·.session == session) =
        (records.filter (·.session == session)).map ExecutionRow.ofRecord := by
      rw [List.filter_map]
      rfl
    have hread : ∀ record ∈ records.filter (·.session == session),
        (ExecutionRow.record now ∘ ExecutionRow.ofRecord) record = .ok record := fun record hmem =>
      ExecutionRow.record_ofRecord now (hrecords record (List.mem_of_mem_filter hmem))
    rw [executionsOf, if_pos (hasExecutions_of_accepts haccepts), hrows, hfilter, List.mapM_map,
      mapM_eq_ok_self hread, MemoryLog.ofSession, MemoryLog.records_behind]
    rfl

section Visit

/-- A call that takes as long as a column can tell and has nothing to tell itself. -/
private def pause : ExecutionRecord :=
  .ofOutcome ⟨"call", some "tool", "wait", "s", "bot"⟩ [("note", .list [.integer (-1), .null])]
    (.ok .null) 9223372036854775807 ⟨1483228799, 1500000000⟩

/-- A call that fails in another session. -/
private def mishap : ExecutionRecord :=
  .ofOutcome ⟨"call", none, "forecast", "t", "bot"⟩ [] (.error "Unknown tool") 0 ⟨0, 1⟩

private theorem pause_loggable : pause.Loggable where
  parameters :=
    ⟨⟨⟨⟨by decide, by decide⟩, trivial, trivial⟩, trivial⟩,
      by decide, ⟨trivial, trivial, trivial⟩, trivial⟩
  parametersDepth := by decide
  result := by
    rintro v ⟨⟩
    exact ⟨trivial, trivial⟩
  resultDepth := by
    rintro v ⟨⟩
    decide
  duration := by decide
  civil := ⟨by decide, by decide, by decide, by decide⟩

private theorem mishap_loggable : mishap.Loggable where
  parameters := ⟨trivial, by decide, trivial⟩
  parametersDepth := by decide
  result := nofun
  resultDepth := nofun
  duration := by decide
  civil := ⟨by decide, by decide, by decide, by decide⟩

/-- Two sessions are logged, one of them opened and both spoken in meanwhile. -/
private def visit : List Operation :=
  [.ask ⟨⟨⟨0, 0⟩, "s"⟩, .openSession "bot" none⟩, .log pause,
    .ask ⟨⟨⟨1, 0⟩, "m0"⟩, .append "t" (.assistant "Done." [mishap])⟩, .log mishap, .reopen,
    .ask ⟨⟨⟨2, 0⟩, "m1"⟩, .append "s" (.assistant "Done." [pause])⟩, .log pause]

/-- The null result of the one and the longest duration are there again, and the record of the other
session is not. -/
theorem executionsOf_behind_visit :
    (∀ record ∈ visit.filterMap Operation.record?, record.Loggable) ∧
      (fresh.behind visit).executionsOf ⟨3, 0⟩ "s" = .ok [pause, pause] := by
  have hrecords : ∀ record ∈ visit.filterMap Operation.record?, record.Loggable := by
    intro record hmem
    have hwritten : visit.filterMap Operation.record? = [pause, mishap, pause] := rfl
    rw [hwritten] at hmem
    obtain rfl | rfl | rfl : record = pause ∨ record = mishap ∨ record = pause := by
      simpa using hmem
    · exact pause_loggable
    · exact mishap_loggable
    · exact pause_loggable
  refine ⟨hrecords, ((executionsOf_behind visit hrecords).2 ⟨3, 0⟩ "s").trans ?_⟩
  rfl

end Visit

end Database

end Colloquy
