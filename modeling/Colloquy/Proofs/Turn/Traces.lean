import Colloquy.Proofs.Turn.Handling
import Colloquy.Proofs.Turn.Reading

/-!
# What exchanges tell

What is read off the exchanges of a turn: the answers of the model, the handling of calls, the
replies that sessions took and the faults of the parties. A tool that fails and a log that refuses a
record are no faults: both are answers to the handling of calls like others.
-/

namespace Colloquy

/-- Whether an effect belongs to the handling of calls. -/
def Effect.isWork : Effect → Bool
  | .invoke _ _ | .writeLog _ | .readClock => true
  | _ => false

/-- The fault that an exchange shows: a call of the directory, the store or the model failed, or the
answer of the model breaks off. -/
def TurnExchange.fault? : TurnExchange → Option Fault
  | ⟨.findAgent _, .error fault⟩ | ⟨.openSession _ _, .error fault⟩ | ⟨.append _ _, .error fault⟩
  | ⟨.recentHistory _ _, .error fault⟩ => some (.store fault)
  | ⟨.complete _, .error fault⟩ => some (.model fault)
  | ⟨.complete _, .ok stream⟩ =>
    match stream.ending with
    | .fault fault => some (.model fault)
    | _ => none
  | _ => none

/-- The faults that exchanges show. -/
def faults (t : List TurnExchange) : List Fault :=
  t.filterMap TurnExchange.fault?

/-- The answers of the model among exchanges. -/
def answers (t : List TurnExchange) : List ModelStream :=
  t.filterMap fun
    | ⟨.complete _, .ok stream⟩ => some stream
    | _ => none

/-- The handling of calls among exchanges. -/
def handling (t : List TurnExchange) : List TurnExchange :=
  t.filter (·.1.isWork)

/-- The messages of the assistant that sessions took among exchanges. -/
def replies (t : List TurnExchange) : List (SessionId × Draft) :=
  t.filterMap fun
    | ⟨.append session draft, .ok _⟩ =>
      if draft.role = .assistant then some (session, draft) else none
    | _ => none

@[simp]
theorem delivered_append (t t' : List TurnExchange) :
    delivered (t ++ t') = delivered t ++ delivered t' :=
  List.filterMap_append

@[simp]
theorem requested_append (t t' : List TurnExchange) :
    requested (t ++ t') = requested t ++ requested t' :=
  List.filterMap_append

@[simp]
theorem faults_append (t t' : List TurnExchange) : faults (t ++ t') = faults t ++ faults t' :=
  List.filterMap_append

@[simp]
theorem answers_append (t t' : List TurnExchange) : answers (t ++ t') = answers t ++ answers t' :=
  List.filterMap_append

@[simp]
theorem handling_append (t t' : List TurnExchange) :
    handling (t ++ t') = handling t ++ handling t' :=
  List.filter_append t t'

@[simp]
theorem replies_append (t t' : List TurnExchange) : replies (t ++ t') = replies t ++ replies t' :=
  List.filterMap_append

section Pieces

variable (pieces : List String)

@[simp]
theorem delivered_pieces : delivered (pieces.map TurnExchange.piece) = pieces.map .ok := by
  rw [delivered, List.filterMap_map]
  exact congrFun List.filterMap_eq_map pieces

@[simp]
theorem requested_pieces : requested (pieces.map TurnExchange.piece) = [] := by
  simp [requested, TurnExchange.piece]

@[simp]
theorem faults_pieces : faults (pieces.map .piece) = [] := by
  simp [faults, TurnExchange.fault?, TurnExchange.piece]

@[simp]
theorem answers_pieces : answers (pieces.map .piece) = [] := by
  simp [answers, TurnExchange.piece]

@[simp]
theorem handling_pieces : handling (pieces.map .piece) = [] := by
  simp [handling, Effect.isWork, TurnExchange.piece]

@[simp]
theorem replies_pieces : replies (pieces.map .piece) = [] := by
  simp [replies, TurnExchange.piece]

end Pieces

section Work

variable {t : List TurnExchange} (hwork : ∀ exchange ∈ t, exchange.1.isWork)
include hwork

private theorem filterMap_of_work {β : Type} {f : TurnExchange → Option β}
    (hf : ∀ exchange : TurnExchange, exchange.1.isWork → f exchange = none) : t.filterMap f = [] :=
  List.filterMap_eq_nil_iff.mpr fun exchange hmem => hf exchange (hwork exchange hmem)

theorem delivered_of_work : delivered t = [] :=
  filterMap_of_work hwork fun ⟨effect, _⟩ h => by cases effect <;> first | rfl | cases h

theorem requested_of_work : requested t = [] :=
  filterMap_of_work hwork fun ⟨effect, _⟩ h => by cases effect <;> first | rfl | cases h

theorem faults_of_work : faults t = [] :=
  filterMap_of_work hwork fun ⟨effect, _⟩ h => by cases effect <;> first | rfl | cases h

theorem answers_of_work : answers t = [] :=
  filterMap_of_work hwork fun ⟨effect, _⟩ h => by cases effect <;> first | rfl | cases h

theorem replies_of_work : replies t = [] :=
  filterMap_of_work hwork fun ⟨effect, _⟩ h => by cases effect <;> first | rfl | cases h

theorem handling_of_work : handling t = t :=
  List.filter_eq_self.mpr hwork

end Work

namespace Batch

variable {serves : ToolKind → Bool} {agent : Agent} {session : SessionId}

private theorem isWork_of_handled {call : ToolCall} {t : List TurnExchange}
    {record : ExecutionRecord}
    (h : Handled serves agent session call t record) : ∀ exchange ∈ t, exchange.1.isWork := by
  cases h <;> simp [Effect.isWork]

/-- Handling calls is all that is done in a batch. -/
theorem isWork_of_completed {calls : List ToolCall} {t : List TurnExchange}
    {records : List ExecutionRecord} (h : Completed serves agent session calls t records) :
    ∀ exchange ∈ t, exchange.1.isWork := by
  induction h with
  | nil => simp
  | cons hfirst _ ih =>
    intro exchange hmem
    obtain hmem | hmem := List.mem_append.mp hmem
    · exact isWork_of_handled hfirst exchange hmem
    · exact ih exchange hmem

end Batch

end Colloquy
