import Colloquy.Proofs.Turn.Gains

/-!
# Batches call by call

The calls of a batch do not get in each other's way. Where the backends answer, whatever they
answer, every call comes to its end and leaves a record, and apart from times this record is told by
the agent, the session, the backends and the call alone. So it stays the same when other calls fail,
are left out, come twice or in another order, and when the log does not take what it is given. The
log is given the records of the calls that can be prepared, one behind the other.
-/

namespace Colloquy

/-- Whether backends always answer. -/
def Registry.Answers (registry : Registry) : Prop :=
  ∀ backend ∈ registry.backends, ∀ tool parameters, (backend.run tool parameters).isSome

/-- What is prepared by backends that always answer gets a reply. -/
theorem Registry.Answers.exists_reply {registry : Registry} (hanswers : registry.Answers)
    {agent : Agent} {call : ToolCall} {prepared : PreparedCall}
    (hprepare : prepare registry.serves agent call = .ok prepared) :
    ∃ reply, registry.run prepared.tool prepared.parameters = some reply := by
  unfold prepare at hprepare
  split at hprepare
  · cases hprepare
  · next tool found =>
    split at hprepare
    · next hserves =>
      cases hprepare
      obtain ⟨backend, hbackend⟩ := Option.isSome_iff_exists.mp hserves
      have hmem := List.mem_of_find?_eq_some hbackend
      obtain ⟨reply, hreply⟩ := Option.isSome_iff_exists.mp
        (hanswers backend hmem tool (parseArguments call.arguments))
      exact ⟨reply, by rw [Registry.run, hbackend]; exact hreply⟩
    · cases hprepare

/-- A host runs the tools by some backends, always tells a time and lets some log have the records.
How long the tools run, what time it is and what the log makes of a record is left open. -/
structure Attends {σ : Type} (host : Program.Host Effect Effect.Answer σ) (registry : Registry) :
    Prop where
  /-- The reply of a backend is the reply of the host. -/
  runs : ∀ tool parameters s reply, registry.run tool parameters = some reply →
    ∃ duration next, host (.invoke tool parameters) s = some ((reply, duration), next)
  /-- There is always a time. -/
  dates : ∀ s, ∃ now next, host .readClock s = some (now, next)
  /-- The log takes a record or does not. -/
  logs : ∀ record s, ∃ answer next, host (.writeLog record) s = some (answer, next)

/-- Surroundings in which the tools reply by some backends, with any store and any log. -/
theorem Surroundings.attends {σ : Type} [SessionStore σ] [ExecutionLog σ] {around : Surroundings}
    {registry : Registry} (hreply : around.reply = registry.run) :
    Attends (σ := Scene σ) around.host registry where
  runs := by
    rintro tool parameters ⟨store, requests, moment⟩ reply hrun
    have hanswer : around.reply tool parameters = some reply := by rw [hreply, hrun]
    exact ⟨around.duration moment, ⟨store, requests, moment + 1⟩, by simp [host, hanswer]⟩
  dates := fun _ => ⟨_, _, rfl⟩
  logs := fun _ _ => ⟨_, _, rfl⟩

/-- A record without when and for how long its tool ran. -/
def ExecutionRecord.timeless (record : ExecutionRecord) : ExecutionRecord :=
  { record with duration := 0, executedAt := ⟨0, 0⟩ }

/-- What backends make of a call, whatever calls there are around it. -/
structure Recorded (registry : Registry) (agent : Agent) (session : SessionId) (call : ToolCall)
    (record : ExecutionRecord) : Prop where
  /-- The record goes by the id of the call. -/
  callId : record.callId = call.id
  /-- Its parameters are those of the call, whether or not it can be prepared. -/
  parameters : record.parameters = parseArguments call.arguments
  /-- It belongs to the session of the batch. -/
  session : record.session = session
  /-- It belongs to the agent of the batch. -/
  agentId : record.agentId = agent.id
  /-- It tells of a success exactly when the call can be prepared and its tool gives a value. -/
  success_iff : record.success = true ↔
    ∃ prepared value, prepare registry.serves agent call = .ok prepared ∧
      registry.run prepared.tool prepared.parameters = some (.ok value)
  /-- A call that cannot be prepared leaves the wording of why. -/
  refused : ∀ fault, prepare registry.serves agent call = .error fault →
    record.toolId = none ∧ record.toolName = call.name ∧ record.result = none ∧
      record.error = some fault.message
  /-- Of any other call, the tool's own value or the wording of its fault is left. -/
  replied : ∀ prepared, prepare registry.serves agent call = .ok prepared →
    record.toolId = some prepared.tool.id ∧ record.toolName = prepared.tool.name ∧
      ((∃ value, registry.run prepared.tool prepared.parameters = some (.ok value) ∧
          record.result = some value ∧ record.error = none) ∨
        ∃ fault, registry.run prepared.tool prepared.parameters = some (.error fault) ∧
          record.result = none ∧ record.error = some fault.message)

namespace Batch

variable {σ τ : Type} {host : Program.Host Effect Effect.Answer σ}
  {host' : Program.Host Effect Effect.Answer τ} {registry : Registry} {agent : Agent}
  {session : SessionId} {call : ToolCall}

theorem recorded_refusalRecord {fault : PreparationFault} {now : Instant}
    (hprepare : prepare registry.serves agent call = .error fault) :
    Recorded registry agent session call (refusalRecord agent session call fault now) where
  callId := rfl
  parameters := rfl
  session := rfl
  agentId := rfl
  success_iff := by simp [refusalRecord, ExecutionRecord.ofOutcome, hprepare]
  refused := by
    intro fault' hfault
    cases hprepare.symm.trans hfault
    exact ⟨rfl, rfl, rfl, rfl⟩
  replied := by simp [hprepare]

theorem recorded_replyRecord {prepared : PreparedCall} {reply : Reply} {duration : UInt64}
    {now : Instant} (hprepare : prepare registry.serves agent call = .ok prepared)
    (hreply : registry.run prepared.tool prepared.parameters = some reply) :
    Recorded registry agent session call
      (replyRecord agent session call prepared (reply, duration) now) where
  callId := by cases reply <;> rfl
  parameters := by
    have hparameters : prepared.parameters = parseArguments call.arguments := by
      unfold prepare at hprepare
      split at hprepare
      · cases hprepare
      · split at hprepare
        · cases hprepare
          rfl
        · cases hprepare
    cases reply <;> exact hparameters
  session := by cases reply <;> rfl
  agentId := by cases reply <;> rfl
  success_iff := by
    cases reply with
    | error fault =>
      have hfails : (replyRecord agent session call prepared (.error fault, duration) now).success =
        false := rfl
      simp [hfails, hprepare, hreply]
    | ok value =>
      have hsucceeds : (replyRecord agent session call prepared (.ok value, duration) now).success =
        true := rfl
      simp [hsucceeds, hprepare, hreply]
  refused := by simp [hprepare]
  replied := by
    intro prepared' hprepared
    cases hprepare.symm.trans hprepared
    cases reply with
    | error fault => exact ⟨rfl, rfl, .inr ⟨fault, hreply, rfl, rfl⟩⟩
    | ok value => exact ⟨rfl, rfl, .inl ⟨value, hreply, rfl, rfl⟩⟩

/-- What backends make of a call has one tool, one result and one fault. -/
private theorem outcome_eq_of_recorded {record record' : ExecutionRecord}
    (h : Recorded registry agent session call record)
    (h' : Recorded registry agent session call record') :
    record.toolId = record'.toolId ∧ record.toolName = record'.toolName ∧
      record.result = record'.result ∧ record.error = record'.error := by
  cases hprepare : prepare registry.serves agent call with
  | error fault =>
    obtain ⟨hid, hname, hresult, herror⟩ := h.refused fault hprepare
    obtain ⟨hid', hname', hresult', herror'⟩ := h'.refused fault hprepare
    exact ⟨hid.trans hid'.symm, hname.trans hname'.symm, hresult.trans hresult'.symm,
      herror.trans herror'.symm⟩
  | ok prepared =>
    obtain ⟨hid, hname, hreply⟩ := h.replied prepared hprepare
    obtain ⟨hid', hname', hreply'⟩ := h'.replied prepared hprepare
    refine ⟨hid.trans hid'.symm, hname.trans hname'.symm, ?_⟩
    obtain ⟨value, hrun, hresult, herror⟩ | ⟨fault, hrun, hresult, herror⟩ := hreply
    all_goals
      obtain ⟨value', hrun', hresult', herror'⟩ | ⟨fault', hrun', hresult', herror'⟩ := hreply'
      all_goals cases hrun.symm.trans hrun'
      all_goals exact ⟨hresult.trans hresult'.symm, herror.trans herror'.symm⟩

/-- Apart from times, there is one record that backends make of a call. -/
theorem timeless_eq_of_recorded {record record' : ExecutionRecord}
    (h : Recorded registry agent session call record)
    (h' : Recorded registry agent session call record') : record.timeless = record'.timeless := by
  obtain ⟨hid, hname, hresult, herror⟩ := outcome_eq_of_recorded h h'
  have hsuccess : record.success = record'.success :=
    Bool.eq_iff_iff.mpr (h.success_iff.trans h'.success_iff.symm)
  rw [ExecutionRecord.timeless, ExecutionRecord.timeless, h.callId, h'.callId, h.parameters,
    h'.parameters, h.session, h'.session, h.agentId, h'.agentId, hid, hname, hresult, herror,
    hsuccess]

/-- Records of calls stand where their calls stand. -/
private theorem getElem?_of_recorded {cs : List ToolCall} {records : List ExecutionRecord}
    (h : List.Forall₂ (Recorded registry agent session) cs records) (i : Nat) :
    cs[i]? = none ∧ records[i]? = none ∨
      ∃ c record, cs[i]? = some c ∧ records[i]? = some record ∧
        Recorded registry agent session c record := by
  induction h generalizing i with
  | nil => exact .inl ⟨rfl, rfl⟩
  | cons hfirst _ ih =>
    cases i with
    | zero => exact .inr ⟨_, _, rfl, rfl, hfirst⟩
    | succ i => exact ih i

/-- A call has the same record in two batches, wherever it stands. -/
private theorem timeless_getElem? {cs cs' : List ToolCall}
    {records records' : List ExecutionRecord}
    (h : List.Forall₂ (Recorded registry agent session) cs records)
    (h' : List.Forall₂ (Recorded registry agent session) cs' records') {i j : Nat}
    (hcall : cs[i]? = cs'[j]?) :
    records[i]?.map ExecutionRecord.timeless = records'[j]?.map ExecutionRecord.timeless := by
  obtain ⟨hnone, hrecord⟩ | ⟨c, record, hsome, hrecord, hrecorded⟩ := getElem?_of_recorded h i
  all_goals
    obtain ⟨hnone', hrecord'⟩ | ⟨c', record', hsome', hrecord', hrecorded'⟩ :=
      getElem?_of_recorded h' j
  · rw [hrecord, hrecord']
  · rw [hnone, hsome'] at hcall
    cases hcall
  · rw [hsome, hnone'] at hcall
    cases hcall
  · rw [hsome, hsome'] at hcall
    cases hcall
    rw [hrecord, hrecord', Option.map_some, Option.map_some,
      timeless_eq_of_recorded hrecorded hrecorded']

/-- The records of the calls that can be prepared. -/
def preparedRecords (serves : ToolKind → Bool) (agent : Agent) (calls : List ToolCall)
    (records : List ExecutionRecord) : List ExecutionRecord :=
  ((calls.zip records).filter fun entry => (prepare serves agent entry.1).isOk).map (·.2)

section Run

variable (hattends : Attends host registry) (hanswers : registry.Answers) (agent : Agent)
  (session : SessionId)

include hattends hanswers

/-- A call that is attended to comes to its end, and the log is given its record if it can be
prepared. -/
private theorem exists_run_call (c : ToolCall) (s : σ) :
    ∃ t record next,
      (Batch.call registry.serves agent session c).run host s = ⟨t, some record, next⟩ ∧
        Recorded registry agent session c record ∧
        handed t = if (prepare registry.serves agent c).isOk then [record] else [] := by
  cases hprepare : prepare registry.serves agent c with
  | error fault =>
    obtain ⟨now, next, hdate⟩ := hattends.dates s
    refine ⟨[⟨.readClock, now⟩], refusalRecord agent session c fault now, next, ?_,
      recorded_refusalRecord hprepare, rfl⟩
    rw [call_of_refused hprepare, Program.run, hdate]
    rfl
  | ok prepared =>
    obtain ⟨reply, hreply⟩ := hanswers.exists_reply hprepare
    obtain ⟨duration, s₁, hrun⟩ := hattends.runs _ _ s _ hreply
    obtain ⟨now, s₂, hdate⟩ := hattends.dates s₁
    let record := replyRecord agent session c prepared (reply, duration) now
    obtain ⟨answer, s₃, hlog⟩ := hattends.logs record s₂
    refine ⟨[⟨.invoke prepared.tool prepared.parameters, (reply, duration)⟩, ⟨.readClock, now⟩,
      ⟨.writeLog record, answer⟩], record, s₃, ?_, recorded_replyRecord hprepare hreply, rfl⟩
    rw [call_of_prepared hprepare, Program.run, hrun]
    simp only [Program.run, hdate]
    rw [hlog]

/-- A batch that is attended to comes to its end. -/
theorem exists_run_calls (cs : List ToolCall) (s : σ) :
    ∃ t records next,
      (Batch.calls registry.serves agent session cs).run host s = ⟨t, some records, next⟩ ∧
        List.Forall₂ (Recorded registry agent session) cs records ∧
        handed t = preparedRecords registry.serves agent cs records := by
  induction cs generalizing s with
  | nil => exact ⟨[], [], s, rfl, .nil, rfl⟩
  | cons c cs ih =>
    obtain ⟨t₁, record, s₁, hcall, hrecorded, hfirst⟩ :=
      exists_run_call hattends hanswers agent session c s
    obtain ⟨t₂, records, s₂, hcalls, hall, hrest⟩ := ih s₁
    refine ⟨t₁ ++ t₂, record :: records, s₂, ?_, .cons hrecorded hall, ?_⟩
    · rw [Batch.calls, Program.run_bind, hcall]
      simp only [Program.Run.andThen]
      rw [Program.run_bind, hcalls]
      simp [Program.Run.andThen, Program.run]
    · rw [handed_append, hfirst, hrest, preparedRecords, preparedRecords, List.zip_cons_cons,
        List.filter_cons]
      cases (prepare registry.serves agent c).isOk <;> rfl

end Run

/-- The calls of a batch are handled each by itself. Under any two hosts that run the tools by the
same backends, whatever their logs make of the records, both batches come to their ends. Each call
leaves one record, in the order of the calls, and it is what the backends make of the call; the log
is given the records of the calls that can be prepared, in the same order. A call that stands
anywhere in both batches has the same record in both, apart from times. -/
theorem calls_isolated (hattends : Attends host registry) (hattends' : Attends host' registry)
    (hanswers : registry.Answers) (agent : Agent) (session : SessionId) (cs cs' : List ToolCall)
    (s : σ) (s' : τ) :
    let run := (calls registry.serves agent session cs).run host s
    let run' := (calls registry.serves agent session cs').run host' s'
    ∃ records records', run.outcome = some records ∧ run'.outcome = some records' ∧
      List.Forall₂ (Recorded registry agent session) cs records ∧
      handed run.exchanges = preparedRecords registry.serves agent cs records ∧
      ∀ i j : Nat, cs[i]? = cs'[j]? →
        records[i]?.map ExecutionRecord.timeless = records'[j]?.map ExecutionRecord.timeless := by
  intro run run'
  obtain ⟨t, records, next, hrun, hrecorded, hhanded⟩ :=
    exists_run_calls hattends hanswers agent session cs s
  obtain ⟨t', records', next', hrun', hrecorded', -⟩ :=
    exists_run_calls hattends' hanswers agent session cs' s'
  refine ⟨records, records', ?_, ?_, hrecorded, ?_, ?_⟩
  · exact congrArg Program.Run.outcome hrun
  · exact congrArg Program.Run.outcome hrun'
  · exact (congrArg (fun r => handed r.exchanges) hrun).trans hhanded
  · exact fun i j hcall => timeless_getElem? hrecorded hrecorded' hcall

/-- The log that takes no record. -/
structure FullLog where

instance : ExecutionLog FullLog where
  write _ log := (.error (.storage "The log is full"), log)

/-- A call of a function, between one of an unknown tool and one that fails, has the record that it
has alone, and a log that takes all is as good as one that takes none. -/
theorem calls_isolated_between :
    let tool (name : String) : Tool := ⟨name, name, "", .native, true, emptySchemaText⟩
    let agent : Agent := ⟨"a", "A", [], [tool "echo", tool "fail"], ⟨"m", 0, none⟩⟩
    let echo : NativeFunction := ⟨"echo", fun parameters => .ok (.record parameters)⟩
    let fail : NativeFunction := ⟨"fail", fun _ => .error (.failed "fail" "it always does")⟩
    let registry := Registry.ofList [(NativeTable.ofList [echo, fail]).backend]
    let around : Surroundings := ⟨fun _ => .ok none, registry.run, fun _ => .error (.exhausted 0),
      fun moment => ⟨⟨moment, 0⟩, toString moment⟩, fun _ => 5⟩
    let call : ToolCall := ⟨"c", "Echo", "\x7b\"x\":1\x7d"⟩
    let cs : List ToolCall := [⟨"u", "unknown", "\x7b"⟩, call, ⟨"f", "fail", ""⟩]
    let host : Program.Host Effect Effect.Answer (Scene (MemoryStore × MemoryLog)) := around.host
    let host' : Program.Host Effect Effect.Answer (Scene (MemoryStore × FullLog)) := around.host
    let run := (calls registry.serves agent "s" cs).run host ⟨(.empty, .empty), [], 0⟩
    let run' := (calls registry.serves agent "s" [call]).run host' ⟨(.empty, ⟨⟩), [], 9⟩
    ∃ records records', run.outcome = some records ∧ run'.outcome = some records' ∧
      records.map (·.success) = [false, true, false] ∧
      (handed run.exchanges).map (·.callId) = ["c", "f"] ∧
      records[1]?.map ExecutionRecord.timeless = records'[0]?.map ExecutionRecord.timeless := by
  intro tool agent echo fail registry around call cs host host' run run'
  have hanswers : registry.Answers := by
    intro backend hmem tool parameters
    obtain rfl := List.mem_singleton.mp hmem
    rfl
  have hattends : Attends host registry := Surroundings.attends rfl
  have hattends' : Attends host' registry := Surroundings.attends rfl
  obtain ⟨records, records', hrun, hrun', -, -, hsame⟩ :=
    calls_isolated hattends hattends' hanswers agent "s" cs [call] ⟨(.empty, .empty), [], 0⟩
      ⟨(.empty, ⟨⟩), [], 9⟩
  have hsuccess : run.outcome.map (·.map (·.success)) = some [false, true, false] := by
    decide +kernel
  have hhanded : (handed run.exchanges).map (·.callId) = ["c", "f"] := by decide +kernel
  rw [show run.outcome = some records from hrun] at hsuccess
  exact ⟨records, records', hrun, hrun', Option.some.inj hsuccess, hhanded, hsame 1 0 rfl⟩

end Batch

end Colloquy
