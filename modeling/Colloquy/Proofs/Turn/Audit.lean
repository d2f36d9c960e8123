import Colloquy.Proofs.Turn.Persistence
import Colloquy.Proofs.Turn.Surroundings
import Colloquy.Store.Memory

/-!
# The log and the reply

The log is written call by call while a batch is handled; the reply is put together at the end of a
turn from the records that the batches left. Both tell the same: call by call, the entries of the
log and the records of the batch agree on the successes, and so they do over batches, levels and the
whole turn. An entry stands for one invocation of a tool, and a call that cannot be prepared leaves
none.
-/

namespace Colloquy

variable {σ : Type}

/-- The record that the log takes in an exchange. -/
def TurnExchange.entry? : TurnExchange → Option ExecutionRecord
  | ⟨.writeLog record, .ok _⟩ => some record
  | _ => none

/-- The call that is invoked in an exchange, with what comes of it. -/
def TurnExchange.invocation? : TurnExchange → Option (PreparedCall × Reply × UInt64)
  | ⟨.invoke tool parameters, reply⟩ => some (⟨tool, parameters⟩, reply)
  | _ => none

/-- The records that the log takes in exchanges. -/
def entries (t : List TurnExchange) : List ExecutionRecord :=
  t.filterMap TurnExchange.entry?

/-- The calls that are invoked in exchanges, with what comes of them. -/
def invocations (t : List TurnExchange) : List (PreparedCall × Reply × UInt64) :=
  t.filterMap TurnExchange.invocation?

@[simp]
theorem entries_append (t t' : List TurnExchange) : entries (t ++ t') = entries t ++ entries t' :=
  List.filterMap_append

@[simp]
theorem invocations_append (t t' : List TurnExchange) :
    invocations (t ++ t') = invocations t ++ invocations t' :=
  List.filterMap_append

private theorem filterMap_handling {β : Type} {f : TurnExchange → Option β}
    (hf : ∀ exchange, exchange.1.isWork = false → f exchange = none) (t : List TurnExchange) :
    (handling t).filterMap f = t.filterMap f := by
  rw [handling, List.filterMap_filter]
  refine List.filterMap_congr fun exchange _ => ?_
  cases hwork : exchange.1.isWork with
  | true => rfl
  | false => exact (hf exchange hwork).symm

/-- The log is written only while calls are handled. -/
theorem entries_handling (t : List TurnExchange) : entries (handling t) = entries t :=
  filterMap_handling (fun ⟨effect, _⟩ h => by cases effect <;> first | rfl | cases h) t

/-- Tools are invoked only while calls are handled. -/
theorem invocations_handling (t : List TurnExchange) :
    invocations (handling t) = invocations t :=
  filterMap_handling (fun ⟨effect, _⟩ h => by cases effect <;> first | rfl | cases h) t

/-- A host keeps a log: what the log takes comes behind what it has, and nothing else changes it. -/
def KeepsLog (host : Program.Host Effect Effect.Answer σ) (log : σ → List ExecutionRecord) : Prop :=
  ∀ effect s answer next, host effect s = some (answer, next) →
    log next = log s ++ (TurnExchange.entry? ⟨effect, answer⟩).toList

/-- Behind exchanges, a log that is kept has what it took in them. -/
theorem KeepsLog.of_leads {host : Program.Host Effect Effect.Answer σ}
    {log : σ → List ExecutionRecord} (hkeeps : KeepsLog host log) {s s' : σ}
    {t : List TurnExchange} (hleads : host.Leads s t s') : log s' = log s ++ entries t := by
  induction t generalizing s with
  | nil =>
    obtain rfl : s = s' := hleads
    exact (List.append_nil _).symm
  | cons exchange t ih =>
    obtain ⟨effect, answer⟩ := exchange
    obtain ⟨next, hanswer, hrest⟩ := hleads
    rw [ih hrest, hkeeps effect s answer next hanswer, List.append_assoc, entries, entries,
      List.filterMap_cons]
    cases TurnExchange.entry? ⟨effect, answer⟩ <;> rfl

/-- Exchanges in which the log took all that it was given. -/
def AllLogged (t : List TurnExchange) : Prop :=
  ∀ record fault, ⟨.writeLog record, .error fault⟩ ∉ t

/-- A host whose log refuses nothing leaves exchanges in which the log took all. -/
theorem AllLogged.of_leads {host : Program.Host Effect Effect.Answer σ}
    (htakes : ∀ record s fault next, host (.writeLog record) s ≠ some (.error fault, next))
    {s s' : σ} {t : List TurnExchange} (hleads : host.Leads s t s') : AllLogged t := by
  induction t generalizing s with
  | nil => exact fun _ _ => List.not_mem_nil
  | cons exchange t ih =>
    obtain ⟨next, hanswer, hrest⟩ := hleads
    intro record fault hmem
    obtain rfl | hmem := List.mem_cons.mp hmem
    · exact htakes record s fault next hanswer
    · exact ih hrest record fault hmem

/-- Whatever surrounds a turn, a log in memory is kept. -/
theorem Surroundings.keepsLog_memory (around : Surroundings) :
    KeepsLog around.host fun scene : Scene (MemoryStore × MemoryLog) => scene.store.2.records := by
  intro effect s answer next h
  cases effect with
  | invoke tool parameters =>
    obtain ⟨reply, -, hnext⟩ := Option.map_eq_some_iff.mp h
    cases hnext
    exact (List.append_nil _).symm
  | waitForever => exact answer.elim
  | writeLog record =>
    cases h
    rfl
  | _ =>
    cases h
    exact (List.append_nil _).symm

/-- A call that was invoked. -/
structure InvokedCall where
  /-- The call. -/
  call : ToolCall
  /-- The tool and the parameters that it was resolved to. -/
  prepared : PreparedCall
  /-- What the tool replied, and for how long it ran. -/
  reply : Reply × UInt64
  /-- When it replied. -/
  now : Instant

/-- The record of an invocation. -/
def InvokedCall.record (agent : Agent) (session : SessionId) (invocation : InvokedCall) :
    ExecutionRecord :=
  Batch.replyRecord agent session invocation.call invocation.prepared invocation.reply
    invocation.now

/-- The calls that can be prepared, with what they are resolved to. -/
def preparedCalls (serves : ToolKind → Bool) (agent : Agent) (calls : List ToolCall) :
    List (ToolCall × PreparedCall) :=
  calls.filterMap fun call => (prepare serves agent call).toOption.map (call, ·)

/-- What the log takes while calls are handled, against the calls and the records they leave. -/
structure Audit (serves : ToolKind → Bool) (agent : Agent) (session : SessionId)
    (calls : List ToolCall) (t : List TurnExchange) (records : List ExecutionRecord)
    (invoked : List InvokedCall) : Prop where
  /-- The calls that can be prepared are those that were invoked. -/
  prepared : preparedCalls serves agent calls = invoked.map fun i => (i.call, i.prepared)
  /-- Each of them was invoked once. -/
  invocations : invocations t = invoked.map fun i => (i.prepared, i.reply)
  /-- Each of them left one entry. -/
  entries : entries t = invoked.map (·.record agent session)
  /-- Of successes, the log tells what the records tell. -/
  successes : (Colloquy.entries t).filter (·.success) = records.filter (·.success)

namespace Audit

variable {serves : ToolKind → Bool} {agent : Agent} {session : SessionId}

theorem nil : Audit serves agent session [] [] [] [] :=
  ⟨rfl, rfl, rfl, rfl⟩

/-- Audits one behind the other are one audit. -/
theorem append {calls calls' : List ToolCall} {t t' : List TurnExchange}
    {records records' : List ExecutionRecord} {invoked invoked' : List InvokedCall}
    (h : Audit serves agent session calls t records invoked)
    (h' : Audit serves agent session calls' t' records' invoked') :
    Audit serves agent session (calls ++ calls') (t ++ t') (records ++ records')
      (invoked ++ invoked') where
  prepared := by
    rw [preparedCalls, List.filterMap_append, List.map_append]
    exact congrArg₂ _ h.prepared h'.prepared
  invocations := by rw [invocations_append, List.map_append, h.invocations, h'.invocations]
  entries := by rw [entries_append, List.map_append, h.entries, h'.entries]
  successes := by
    rw [entries_append, List.filter_append, List.filter_append, h.successes, h'.successes]

end Audit

namespace Batch

variable {serves : ToolKind → Bool} {agent : Agent} {session : SessionId}

/-- The audit of one call: it is refused and leaves nothing in the log, or it is invoked and leaves
its record there. -/
private theorem Handled.audit {call : ToolCall} {t : List TurnExchange} {record : ExecutionRecord}
    (h : Handled serves agent session call t record) (hlogged : AllLogged t) :
    ∃ invoked, Audit serves agent session [call] t [record] invoked := by
  cases h with
  | refused hprepare now =>
    have hnone : preparedCalls serves agent [call] = [] := by
      simp [preparedCalls, hprepare, Except.toOption]
    exact ⟨[], hnone, rfl, rfl, rfl⟩
  | @invoked prepared hprepare reply now logged =>
    have hone : preparedCalls serves agent [call] = [(call, prepared)] := by
      simp [preparedCalls, hprepare, Except.toOption]
    cases logged with
    | error fault =>
      refine absurd ?_ (hlogged (replyRecord agent session call prepared reply now) fault)
      simp
    | ok => exact ⟨[⟨call, prepared, reply, now⟩], hone, rfl, rfl, rfl⟩

/-- The audit of a batch. -/
theorem Completed.audit {calls : List ToolCall} {t : List TurnExchange}
    {records : List ExecutionRecord} (h : Completed serves agent session calls t records)
    (hlogged : AllLogged t) :
    ∃ invoked, Audit serves agent session calls t records invoked := by
  induction h with
  | nil => exact ⟨[], .nil⟩
  | cons hfirst _ ih =>
    obtain ⟨first, haudit⟩ := hfirst.audit fun record fault hmem =>
      hlogged record fault (List.mem_append_left _ hmem)
    obtain ⟨rest, haudits⟩ := ih fun record fault hmem =>
      hlogged record fault (List.mem_append_right _ hmem)
    exact ⟨first ++ rest, haudit.append haudits⟩

end Batch

namespace Turn

variable {scope : TurnScope} {turn : Turn} {session : SessionId}

/-- The audit of levels. -/
private theorem audit_levels {levels : List Level}
    (hall : ∀ level ∈ levels, level.Complete scope turn session)
    (hlogged : AllLogged (levels.flatMap (·.work))) :
    ∃ invoked, Audit scope.serves turn.agent session (levels.flatMap (·.stream.calls))
      (levels.flatMap (·.work)) (levels.flatMap (·.batch)) invoked := by
  induction levels with
  | nil => exact ⟨[], .nil⟩
  | cons level levels ih =>
    obtain ⟨hlevel, hall⟩ := List.forall_mem_cons.mp hall
    obtain ⟨first, haudit⟩ := hlevel.completed.audit fun record fault hmem =>
      hlogged record fault (List.mem_append_left _ hmem)
    obtain ⟨rest, haudits⟩ := ih hall fun record fault hmem =>
      hlogged record fault (List.mem_append_right _ hmem)
    exact ⟨first ++ rest, haudit.append haudits⟩

/-- What a turn leaves in the log, against its exchanges. -/
structure Audited (scope : TurnScope) (turn : Turn) (session : SessionId) (t : List TurnExchange)
    (logged : List ExecutionRecord) : Prop where
  /-- The entries of successes are the records of the reply. -/
  told : ∀ reply ∈ replies t, logged.filter (·.success) = reply.2.toolRecords
  /-- If there is no reply, there is no entry of a success. -/
  untold : replies t = [] → logged.filter (·.success) = []
  /-- The calls of the model that can be prepared are those that were invoked. Each of them was
  invoked once and left one entry, and there are no other entries. -/
  invoked : ∃ invoked : List InvokedCall,
    preparedCalls scope.serves turn.agent ((answers t).flatMap (·.calls)) =
        invoked.map (fun i => (i.call, i.prepared)) ∧
      invocations t = invoked.map (fun i => (i.prepared, i.reply)) ∧
      logged = invoked.map (·.record turn.agent session)

/-- What a turn persists agrees with what it logs, if it started without records and the log took
all. -/
private theorem Persists.audited {levels : List Level} {capped : Bool} {t : List TurnExchange}
    (h : Persists scope turn session levels capped t) (hcarried : turn.carried = [])
    (hlogged : AllLogged t) : Audited scope turn session t (entries t) := by
  have hwork : AllLogged (levels.flatMap (·.work)) := by
    intro record fault hmem
    rw [← h.handled] at hmem
    exact hlogged record fault (List.mem_of_mem_filter hmem)
  obtain ⟨invoked, haudit⟩ := audit_levels h.complete hwork
  rw [← h.handled] at haudit
  have hexecuted : turn.executed levels = levels.flatMap (·.batch) := by
    rw [executed, hcarried, List.nil_append]
  have hsuccesses : (entries t).filter (·.success) = (turn.executed levels).filter (·.success) := by
    rw [hexecuted, ← haudit.successes, entries_handling]
  refine ⟨fun reply hmem => ?_, fun hnone => ?_, invoked, ?_, ?_, ?_⟩
  · rw [hsuccesses, (h.reply reply hmem).2.2.1]
  · have hnothing : turn.executed levels = [] := by
      by_contra hsome
      exact h.replied.mpr (.inr hsome) hnone
    rw [hsuccesses, hnothing, List.filter_nil]
  · rw [h.answered, List.flatMap_map]
    exact haudit.prepared
  · rw [← invocations_handling]
    exact haudit.invocations
  · rw [← entries_handling]
    exact haudit.entries

/-- A turn without carried records that ends without a fault, and whose log takes all that it is
given, logs as successes just the records of its reply, and one entry for each call that it
invokes. -/
theorem audited_run (assignment : Assignment) (scope : TurnScope)
    (host : Program.Host Effect Effect.Answer σ) (log : σ → List ExecutionRecord)
    (hkeeps : KeepsLog host log) (s : σ) (turn : Turn)
    (hresolves : assignment.Resolves (assignment.run scope .steady host s).exchanges turn)
    (hcarried : turn.carried = [])
    (hended : (assignment.run scope .steady host s).outcome = some ())
    (hfaultless : ∀ fault,
      .error fault ∉ delivered (assignment.run scope .steady host s).exchanges)
    (hlogged : AllLogged (assignment.run scope .steady host s).exchanges) :
    ∃ session logged, log (assignment.run scope .steady host s).state = log s ++ logged ∧
      Audited scope turn session (assignment.run scope .steady host s).exchanges logged := by
  obtain ⟨lookup, t, hlookup, ht, hperform⟩ :=
    Assignment.performed_of_faultless (assignment.reported_run scope host s) hresolves hended
      hfaultless
  obtain ⟨session, levels, capped, hpersists⟩ := persists_of_performed hlookup hperform rfl
  rw [← ht] at hpersists
  exact ⟨session, _, hkeeps.of_leads (Listener.leads_run ..), hpersists.audited hcarried hlogged⟩

/-- The model calls a tool that replies, one that fails, one that no backend serves and one that
does not exist; only the first two calls are logged. -/
theorem audited_run_mixed :
    let clock : Tool := ⟨"1", "clock", "", .native, true, emptySchemaText⟩
    let sundial : Tool := ⟨"2", "sundial", "", .native, true, emptySchemaText⟩
    let lamp : Tool := ⟨"3", "lamp", "", .mcp, true, emptySchemaText⟩
    let prompt : Prompt := ⟨"p", "Be brief.", true⟩
    let agent : Agent := ⟨"a", "A", [prompt], [clock, sundial, lamp], ⟨"m", 0, none⟩⟩
    let turn : Turn := ⟨agent, prompt, "Hello", none, []⟩
    let scope : TurnScope := ⟨.standard, (· = .native), 3⟩
    let asking : ModelStream :=
      ⟨[.ok ⟨some "Let me see. ", [⟨0, none, some "clock", none⟩, ⟨1, none, some "sundial", none⟩,
        ⟨2, none, some "lamp", none⟩, ⟨3, none, some "oracle", none⟩], true⟩], false⟩
    let answering : ModelStream := ⟨[.ok ⟨some "It is noon.", [], true⟩], false⟩
    let around : Surroundings :=
      ⟨fun _ => .ok none,
        fun tool _ =>
          some (if tool.name = "clock" then .ok .null else .error (.notFound tool.name)),
        fun requests => .ok (if requests.length = 1 then asking else answering),
        fun moment => ⟨⟨moment, 0⟩, NameUse.message.numbered moment⟩, fun _ => 5⟩
    let s : Scene (MemoryStore × MemoryLog) := ⟨(.empty, .empty), [], 0⟩
    let run := (Assignment.prepared turn).run scope .steady around.host s
    ∃ session logged, run.state.store.2.records = [] ++ logged ∧
      Audited scope turn session run.exchanges logged := by
  intro clock sundial lamp prompt agent turn scope asking answering around s run
  refine audited_run (.prepared turn) scope around.host _ around.keepsLog_memory s turn rfl rfl
    ?_ ?_ ?_
  · decide +kernel
  · have hall : (delivered run.exchanges).all Except.isOk = true := by decide +kernel
    intro fault hmem
    cases List.all_eq_true.mp hall _ hmem
  · exact AllLogged.of_leads (fun _ _ _ _ h => by cases h) (Listener.leads_run _ around.host ..)

end Turn

end Colloquy
