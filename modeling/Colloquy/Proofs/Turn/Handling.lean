import Colloquy.Proofs.Turn.Attended
import Colloquy.Turn.Batch

/-!
# The handling of calls

What the calls of a batch go through, as rules: a call that cannot be prepared only has its record
dated, any other is invoked once and logged once, and each is over before the next one starts. The
courses of a batch are exactly those that the rules allow, or they come to a stand on the way there.
-/

namespace Colloquy.Batch

variable {serves : ToolKind → Bool} {agent : Agent} {session : SessionId} {hangs : Effect → Prop}

/-- The record of a call that cannot be prepared. -/
def refusalRecord (agent : Agent) (session : SessionId) (call : ToolCall) (fault : PreparationFault)
    (now : Instant) : ExecutionRecord :=
  .ofOutcome ⟨call.id, none, call.name, session, agent.id⟩ (parseArguments call.arguments)
    (.error fault.message) 0 now

/-- The record of a call whose tool replied after some time. -/
def replyRecord (agent : Agent) (session : SessionId) (call : ToolCall) (prepared : PreparedCall)
    (reply : Reply × UInt64) (now : Instant) : ExecutionRecord :=
  .ofOutcome ⟨call.id, some prepared.tool.id, prepared.tool.name, session, agent.id⟩
    prepared.parameters (reply.1.mapError ToolFault.message) reply.2 now

/-- What one call goes through and the record that it leaves. -/
inductive Handled (serves : ToolKind → Bool) (agent : Agent) (session : SessionId)
    (call : ToolCall) :
    List TurnExchange → ExecutionRecord → Prop
  /-- A call that cannot be prepared leaves the record of its fault. -/
  | refused {fault : PreparationFault} (hprepare : prepare serves agent call = .error fault)
    (now : Instant) :
    Handled serves agent session call [⟨.readClock, now⟩]
      (refusalRecord agent session call fault now)
  /-- A call that is prepared is invoked, and the record of the reply is logged. -/
  | invoked {prepared : PreparedCall} (hprepare : prepare serves agent call = .ok prepared)
    (reply : Reply × UInt64) (now : Instant) (logged : Except StoreFault Unit) :
    Handled serves agent session call
      [⟨.invoke prepared.tool prepared.parameters, reply⟩, ⟨.readClock, now⟩,
        ⟨.writeLog (replyRecord agent session call prepared reply now), logged⟩]
      (replyRecord agent session call prepared reply now)

/-- What calls go through one after another and the records that they leave. -/
inductive Completed (serves : ToolKind → Bool) (agent : Agent) (session : SessionId) :
    List ToolCall → List TurnExchange → List ExecutionRecord → Prop
  | nil : Completed serves agent session [] [] []
  | cons {call : ToolCall} {calls : List ToolCall} {t₁ t₂ : List TurnExchange}
    {record : ExecutionRecord} {records : List ExecutionRecord} :
    Handled serves agent session call t₁ record → Completed serves agent session calls t₂ records →
      Completed serves agent session (call :: calls) (t₁ ++ t₂) (record :: records)

theorem Completed.of_nil {t : List TurnExchange} {records : List ExecutionRecord}
    (h : Completed serves agent session [] t records) : t = [] ∧ records = [] := by
  cases h
  exact ⟨rfl, rfl⟩

/-- Every call leaves one record. -/
theorem Completed.length_eq {calls : List ToolCall} {t : List TurnExchange}
    {records : List ExecutionRecord} (h : Completed serves agent session calls t records) :
    records.length = calls.length := by
  induction h with
  | nil => rfl
  | cons _ _ ih => exact congrArg (· + 1) ih

theorem call_of_refused {c : ToolCall} {fault : PreparationFault}
    (hprepare : prepare serves agent c = .error fault) :
    call serves agent session c =
      .ask .readClock fun now => .done (refusalRecord agent session c fault now) := by
  rw [call, hprepare]
  rfl

theorem call_of_prepared {c : ToolCall} {prepared : PreparedCall}
    (hprepare : prepare serves agent c = .ok prepared) :
    call serves agent session c =
      .ask (.invoke prepared.tool prepared.parameters) fun reply => .ask .readClock fun now =>
        .ask (.writeLog (replyRecord agent session c prepared reply now)) fun _ =>
          .done (replyRecord agent session c prepared reply now) := by
  rw [call, hprepare]
  rfl

/-- The handling of a call goes by the rules up to its end, or comes to a stand on the way. -/
theorem handled_of_course {c : ToolCall} {t : List TurnExchange} {o : Option ExecutionRecord}
    (h : (call serves agent session c).Course hangs t o) :
    ∃ t' record, Handled serves agent session c t' record ∧ t <+: t' ∧
      (o = none ∨ t = t' ∧ o = some record) := by
  -- A call that comes to a stand is taken to its end by answers that do not matter.
  have now : Instant := ⟨0, 0⟩
  cases hprepare : prepare serves agent c with
  | error fault =>
    rw [call_of_refused hprepare] at h
    simp only [Program.course_ask_iff, Program.course_done_iff] at h
    obtain ⟨-, rfl, rfl⟩ | ⟨now, _, rfl, rfl, rfl⟩ := h
    · exact ⟨_, _, .refused hprepare now, List.nil_prefix, .inl rfl⟩
    · exact ⟨_, _, .refused hprepare now, List.prefix_rfl, .inr ⟨rfl, rfl⟩⟩
  | ok prepared =>
    rw [call_of_prepared hprepare] at h
    simp only [Program.course_ask_iff, Program.course_done_iff] at h
    have handled (reply : Reply × UInt64) (now : Instant) (logged : Except StoreFault Unit) :
        Handled serves agent session c _ _ :=
      .invoked hprepare reply now logged
    obtain ⟨-, rfl, rfl⟩ | ⟨reply, _, rfl, h⟩ := h
    · exact ⟨_, _, handled (.ok .null, 0) now (.ok ()), List.nil_prefix, .inl rfl⟩
    obtain ⟨-, rfl, rfl⟩ | ⟨now, _, rfl, h⟩ := h
    · exact ⟨_, _, handled reply now (.ok ()), ⟨_, rfl⟩, .inl rfl⟩
    obtain ⟨-, rfl, rfl⟩ | ⟨logged, _, rfl, rfl, rfl⟩ := h
    · exact ⟨_, _, handled reply now (.ok ()), ⟨_, rfl⟩, .inl rfl⟩
    · exact ⟨_, _, handled reply now logged, List.prefix_rfl, .inr ⟨rfl, rfl⟩⟩

/-- Any calls can be handled by the rules. -/
theorem exists_completed (serves : ToolKind → Bool) (agent : Agent) (session : SessionId)
    (calls : List ToolCall) : ∃ t records, Completed serves agent session calls t records := by
  induction calls with
  | nil => exact ⟨_, _, .nil⟩
  | cons c calls ih =>
    obtain ⟨t₂, records, hrest⟩ := ih
    obtain ⟨t₁, record, hfirst⟩ : ∃ t₁ record, Handled serves agent session c t₁ record := by
      cases hprepare : prepare serves agent c with
      | error fault => exact ⟨_, _, .refused hprepare ⟨0, 0⟩⟩
      | ok prepared => exact ⟨_, _, .invoked hprepare (.ok .null, 0) ⟨0, 0⟩ (.ok ())⟩
    exact ⟨_, _, .cons hfirst hrest⟩

/-- The handling of a batch goes by the rules up to its end, or comes to a stand on the way. -/
theorem completed_of_course {cs : List ToolCall} {t : List TurnExchange}
    {o : Option (List ExecutionRecord)} (h : (calls serves agent session cs).Course hangs t o) :
    ∃ t' records, Completed serves agent session cs t' records ∧ t <+: t' ∧
      (o = none ∨ t = t' ∧ o = some records) := by
  induction cs generalizing t o with
  | nil =>
    obtain ⟨rfl, rfl⟩ := (Program.course_done_iff _ _ _).mp h
    exact ⟨[], [], .nil, List.prefix_rfl, .inr ⟨rfl, rfl⟩⟩
  | cons c cs ih =>
    rw [calls, Program.course_bind_iff] at h
    obtain ⟨hstop, rfl⟩ | ⟨record, t₁, t₂, rfl, hfirst, hrest⟩ := h
    · obtain ⟨t', record, hc, hpart, -⟩ := handled_of_course hstop
      obtain ⟨t'', records, hcs⟩ := exists_completed serves agent session cs
      exact ⟨t' ++ t'', _, .cons hc hcs, hpart.trans (List.prefix_append _ _), .inl rfl⟩
    · obtain ⟨t', record', hc, -, hend⟩ := handled_of_course hfirst
      obtain ⟨rfl, hrecord⟩ := hend.resolve_left (Option.some_ne_none _)
      cases hrecord
      obtain ⟨o', ho, rfl⟩ := (Program.course_map_iff _ _ _ _).mp hrest
      obtain ⟨t', records, hcs, hpart, hend⟩ := ih ho
      refine ⟨t₁ ++ t', _, .cons hc hcs, (List.prefix_append_right_inj t₁).mpr hpart, ?_⟩
      obtain rfl | ⟨rfl, rfl⟩ := hend
      · exact .inl rfl
      · exact .inr ⟨rfl, rfl⟩

end Colloquy.Batch
