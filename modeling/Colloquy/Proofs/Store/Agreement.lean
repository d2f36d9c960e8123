import Colloquy.Proofs.Store.DatabaseLedger
import Colloquy.Proofs.Store.MemoryLedger
import Mathlib.Logic.Equiv.Basic

/-!
# The two stores agree

Whatever is asked of the store in memory and of the database, at later and later times, they answer
the same: both keep the ledger of what they were asked. The names that they give to sessions may
differ, and so may the drafts where these mention the names; then the answers differ in this alone.
-/

namespace Colloquy

section Witness

/-- A call that no tool was found for. -/
private def lostCall : ExecutionRecord :=
  ⟨"call", none, "clock", [], none, false, some "Tool not found: clock", 3, "#0", "bot", ⟨0, 0⟩⟩

/-- A session is opened under a name, another one is appended to, and then the stores are asked. -/
private def visit (session : SessionId) : List StoreStep :=
  [⟨⟨⟨0, 0⟩, session⟩, .openSession "bot" none⟩,
    ⟨⟨⟨0, 1500000⟩, "m0"⟩, .append "walk-in" (.user "What time is it?")⟩,
    ⟨⟨⟨0, 20000000⟩, "m1"⟩, .append session (.assistant "I cannot tell." [lostCall])⟩,
    ⟨⟨⟨1, 0⟩, ""⟩, .recentHistory session 5⟩,
    ⟨⟨⟨2, 0⟩, ""⟩, .session? "walk-in"⟩,
    ⟨⟨⟨60, 0⟩, ""⟩, .sessions none⟩]

/-- A record that holds neither parameters nor a result, if it is one. -/
private structure Outline where
  origin : Origin
  isBare : Bool
  success : Bool
  error : Option String
  duration : UInt64
  executedAt : Instant
  deriving DecidableEq

private def outline (record : ExecutionRecord) : Outline :=
  ⟨⟨record.callId, record.toolId, record.toolName, record.session, record.agentId⟩,
    record.parameters.isEmpty && record.result.isNone, record.success, record.error,
    record.duration, record.executedAt⟩

private theorem eq_of_outline {record : ExecutionRecord} (h : outline record = outline lostCall) :
    record = lostCall := by
  obtain ⟨callId, toolId, toolName, parameters, result, success, error, duration, session, agentId,
    executedAt⟩ := record
  simp only [outline, lostCall, Outline.mk.injEq, Origin.mk.injEq, List.isEmpty_nil,
    Option.isNone_none, Bool.and_self, Bool.and_eq_true, List.isEmpty_iff,
    Option.isNone_iff_eq_none] at h
  obtain ⟨⟨rfl, rfl, rfl, rfl, rfl⟩, ⟨rfl, rfl⟩, rfl, rfl, rfl, rfl⟩ := h
  rfl

private theorem readsBack_lostCall : (Draft.assistant "I cannot tell." [lostCall]).ReadsBack := by
  have hread : (Json.readAs? (Decoder.list ExecutionRecord.decode)
      (Draft.assistant "I cannot tell." [lostCall]).recordsText).map (·.map outline) =
        some [outline lostCall] := by
    -- The text is taken for its characters, in which it is printed and read.
    simp only [Json.readAs?, Json.datum?, Draft.recordsText, Json.print, String.toList_ofList]
    decide +kernel
  obtain ⟨records, hrecords, houtline⟩ := Option.map_eq_some_iff.mp hread
  obtain ⟨record, rfl, hrecord⟩ := List.map_eq_singleton_iff.mp houtline
  rw [Draft.ReadsBack, hrecords, eq_of_outline hrecord]
  rfl

end Witness

end Colloquy
