import Colloquy.Proofs.Turn.Batches

/-!
# Tools in records

A record has the tool that its call was resolved to, however the tool came out. It has none where no
active tool goes by the name that the model gave, and where no backend serves the kind of the tool that
does: the record of such a call reads as if no tool had been found.
-/

namespace Colloquy

/-- A record has the active tool that goes by the name of a call, and the name as the model gave it if
there is none. -/
def ExecutionRecord.Identifies (agent : Agent) (call : ToolCall) (record : ExecutionRecord) : Prop :=
  match agent.findTool? call.name with
  | some tool => record.toolId = some tool.id ∧ record.toolName = tool.name
  | none => record.toolId = none ∧ record.toolName = call.name

/-- What a record says of the tool of its call, given which kinds of tools some backend serves. -/
structure Resolved (serves : ToolKind → Bool) (agent : Agent) (call : ToolCall)
    (record : ExecutionRecord) : Prop where
  /-- No active tool goes by the name. -/
  unknown : agent.findTool? call.name = none → record.toolId = none ∧ record.toolName = call.name
  /-- The tool that does is served. -/
  served : ∀ tool, agent.findTool? call.name = some tool → serves tool.kind = true →
    record.toolId = some tool.id ∧ record.toolName = tool.name
  /-- The tool that does is not served. -/
  unserved : ∀ tool, agent.findTool? call.name = some tool → serves tool.kind = false →
    record.toolId = none ∧ record.toolName = call.name

variable {serves : ToolKind → Bool} {agent : Agent} {session : SessionId} {call : ToolCall}
  {record : ExecutionRecord}

/-- A record identifies its tool exactly if this is served. -/
theorem Resolved.identifies_iff (h : Resolved serves agent call record) :
    record.Identifies agent call ↔
      ∀ tool, agent.findTool? call.name = some tool → serves tool.kind = true := by
  rw [ExecutionRecord.Identifies]
  cases hfound : agent.findTool? call.name with
  | none => exact iff_of_true (h.unknown hfound) (fun _ => nofun)
  | some tool =>
    constructor
    · rintro ⟨hid, -⟩ _ hsame
      obtain rfl := Option.some.inj hsame
      by_contra hserves
      have hnone := (h.unserved tool hfound (by simpa using hserves)).1
      rw [hid] at hnone
      cases hnone
    · intro hserves
      exact h.served tool hfound (hserves tool rfl)

namespace Batch

private theorem resolved_of_handled {t : List TurnExchange}
    (h : Handled serves agent session call t record) : Resolved serves agent call record := by
  cases h with
  | refused hprepare now =>
    refine ⟨fun _ => ⟨rfl, rfl⟩, ?_, fun _ _ _ => ⟨rfl, rfl⟩⟩
    intro tool hfound hserves
    simp [prepare, hfound, hserves] at hprepare
  | invoked hprepare reply now logged =>
    refine ⟨?_, ?_, ?_⟩
    · intro hfound
      simp [prepare, hfound] at hprepare
    · intro tool hfound hserves
      simp only [prepare, hfound, hserves, if_true] at hprepare
      obtain rfl := Except.ok.inj hprepare
      rcases reply with ⟨_ | _, _⟩ <;> exact ⟨rfl, rfl⟩
    · intro tool hfound hserves
      simp [prepare, hfound, hserves] at hprepare

/-- What the log is given has the tool that ran. -/
private theorem exists_tool_of_handled {t : List TurnExchange}
    (h : Handled serves agent session call t record) : ∀ logged ∈ handed t,
      ∃ tool ∈ agent.activeTools, logged.toolId = some tool.id ∧ logged.toolName = tool.name := by
  cases h with
  | refused hprepare now => exact fun _ => nofun
  | @invoked prepared hprepare reply now taken =>
    obtain ⟨htool, hactive, -⟩ := mem_of_prepare hprepare
    intro logged hlogged
    obtain rfl : logged = replyRecord agent session call prepared reply now :=
      List.mem_singleton.mp hlogged
    refine ⟨prepared.tool, List.mem_filter.mpr ⟨htool, hactive⟩, ?_⟩
    rcases reply with ⟨_ | _, _⟩ <;> exact ⟨rfl, rfl⟩

/-- Calls that are handled one after another leave records that say so of their tools. -/
private theorem resolved_of_completed {cs : List ToolCall} {t : List TurnExchange}
    {records : List ExecutionRecord} (h : Completed serves agent session cs t records) :
    List.Forall₂ (Resolved serves agent) cs records ∧ ∀ logged ∈ handed t,
      ∃ tool ∈ agent.activeTools, logged.toolId = some tool.id ∧ logged.toolName = tool.name := by
  induction h with
  | nil => exact ⟨.nil, by simp [handed]⟩
  | cons hfirst _ ih =>
    obtain ⟨hrecords, hlogged⟩ := ih
    refine ⟨.cons (resolved_of_handled hfirst) hrecords, ?_⟩
    rw [handed_append]
    exact List.forall_mem_append.mpr ⟨exists_tool_of_handled hfirst, hlogged⟩

variable {σ : Type}

/-- When the calls of a batch come to their end, each record has the tool that goes by the name of its
call exactly if a backend serves the kind of this tool; otherwise it has none, and the name as the
model gave it. They come to their end where the backends answer, and what the log is given on the way
always has the tool. -/
theorem tools_recorded (host : Program.Host Effect Effect.Answer σ) (registry : Registry)
    (agent : Agent) (session : SessionId) (cs : List ToolCall) (s : σ) :
    let run := (calls registry.serves agent session cs).run host s
    (∀ records, run.outcome = some records →
      List.Forall₂ (fun call record => Resolved registry.serves agent call record ∧
        (record.Identifies agent call ↔
          ∀ tool, agent.findTool? call.name = some tool → registry.serves tool.kind = true))
        cs records) ∧
      (registry.Answers → Attends host registry → run.outcome.isSome = true) ∧
      ∀ logged ∈ handed run.exchanges,
        ∃ tool ∈ agent.activeTools, logged.toolId = some tool.id ∧ logged.toolName = tool.name := by
  intro run
  obtain ⟨t, records, hcompleted, ⟨rest, hrest⟩, hend⟩ :=
    completed_of_course (Program.course_run host (calls registry.serves agent session cs) s)
  obtain ⟨hresolved, hlogged⟩ := resolved_of_completed hcompleted
  refine ⟨?_, ?_, ?_⟩
  · intro records' houtcome
    rcases hend with hnone | ⟨-, hsome⟩
    · rw [show run.outcome = none from hnone] at houtcome
      cases houtcome
    · obtain rfl := Option.some.inj (houtcome.symm.trans hsome)
      exact hresolved.imp fun call record h => ⟨h, h.identifies_iff⟩
  · intro hanswers hattends
    obtain ⟨t', records', next, hrun, -⟩ := exists_run_calls hattends hanswers agent session cs s
    simp [run, hrun]
  · intro logged hmem
    apply hlogged
    rw [← hrest, handed_append]
    exact List.mem_append_left _ hmem

/-- An agent with a function and a tool of a kind that is seldom served. -/
def twoKinds : Agent :=
  ⟨"bot", "Bot", [], [⟨"t1", "echo", "", .native, true, emptySchemaText⟩,
    ⟨"t2", "remote", "", .mcp, true, emptySchemaText⟩], ⟨"m", 0, none⟩⟩

/-- Of three calls, the first is resolved to a function, the second to a tool that no backend serves,
and the third to none. -/
theorem tools_recorded_three :
    let registry := Registry.ofList
      [(NativeTable.ofList [⟨"echo", fun parameters => .ok (.record parameters)⟩]).backend]
    let around : Surroundings := ⟨fun _ => .ok none, registry.run, fun _ => .error (.exhausted 0),
      fun moment => ⟨⟨moment, 0⟩, toString moment⟩, fun _ => 5⟩
    let host : Program.Host Effect Effect.Answer (Scene (MemoryStore × MemoryLog)) := around.host
    let cs : List ToolCall := [⟨"a", "Echo", ""⟩, ⟨"b", "REMOTE", ""⟩, ⟨"c", "other", ""⟩]
    let run := (calls registry.serves twoKinds "s" cs).run host ⟨(.empty, .empty), [], 0⟩
    ∃ records, run.outcome = some records ∧
      records.map (·.toolId) = [some "t1", none, none] ∧
      records.map (·.toolName) = ["echo", "REMOTE", "other"] ∧
      List.Forall₂ (Resolved registry.serves twoKinds) cs records := by
  intro registry around host cs run
  have hanswers : registry.Answers := by
    intro backend hmem tool parameters
    obtain rfl := List.mem_singleton.mp hmem
    rfl
  have hattends : Attends host registry := Surroundings.attends rfl
  obtain ⟨hrecords, hends, -⟩ :=
    tools_recorded host registry twoKinds "s" cs ⟨(.empty, .empty), [], 0⟩
  obtain ⟨records, hrun⟩ := Option.isSome_iff_exists.mp (hends hanswers hattends)
  have htools : run.outcome.map (·.map (·.toolId)) = some [some "t1", none, none] := by
    decide +kernel
  have hnames : run.outcome.map (·.map (·.toolName)) = some ["echo", "REMOTE", "other"] := by
    decide +kernel
  rw [show run.outcome = some records from hrun] at htools hnames
  exact ⟨records, hrun, Option.some.inj htools, Option.some.inj hnames,
    (hrecords records hrun).imp fun _ _ h => h.1⟩

/-- The record of a call has no tool, though the call is resolved to one. -/
theorem tool_unrecorded :
    let registry := Registry.ofList []
    let around : Surroundings := ⟨fun _ => .ok none, registry.run, fun _ => .error (.exhausted 0),
      fun moment => ⟨⟨moment, 0⟩, toString moment⟩, fun _ => 5⟩
    let host : Program.Host Effect Effect.Answer (Scene (MemoryStore × MemoryLog)) := around.host
    let run := (calls registry.serves twoKinds "s" [⟨"b", "REMOTE", "\x7b\x7d"⟩]).run host
      ⟨(.empty, .empty), [], 0⟩
    (twoKinds.findTool? "REMOTE").map (·.id) = some "t2" ∧
      run.outcome.map (·.map fun record => (record.toolId, record.toolName)) =
        some [(none, "REMOTE")] := by
  decide +kernel

end Batch

end Colloquy
