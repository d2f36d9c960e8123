import Colloquy.Completion.Stream

/-!
# Scripted models

A model that plays a script: its k-th request is answered by the k-th answer of the script, whatever is
asked. It remembers all requests, those included for which no answer is left.
-/

namespace Colloquy

/-- The answers to a request for a completion. -/
abbrev ModelAnswer := Except ModelFault ModelStream

/-- A scripted model. -/
structure ScriptedModel where
  /-- The answers that are left. -/
  answers : List ModelAnswer
  /-- The requests so far. -/
  requests : List CompletionRequest

namespace ScriptedModel

/-- A model at the start of its script. -/
def ofAnswers (answers : List ModelAnswer) : ScriptedModel :=
  ⟨answers, []⟩

/-- A model at the start of a script of responses, each of which arrives whole. -/
def ofResponses (responses : List (List Delta)) : ScriptedModel :=
  .ofAnswers (responses.map fun response => .ok ⟨response.map .ok, false⟩)

/-- A model that answers once, with a text. -/
def singleText (s : String) : ScriptedModel :=
  .ofResponses [[.ofText s, .last]]

/-- The name of the model. -/
def name : String := "replay"

/-- Reads the responses of a script. -/
def decodeResponses : Decoder (List (List Delta)) := fun rules d => do
  let fields ← d.fields? ["responses"] rules
  fields.required "responses" (Decoder.list (Decoder.list Delta.decode))

/-- Reads a script. -/
def ofJson? (text : String) : Except ModelFault ScriptedModel :=
  match Json.readAs? decodeResponses text with
  | some responses => .ok (.ofResponses responses)
  | none => .error (.notConfigured "invalid replay script")

/-- Answers a request by the next answer of the script. -/
def complete (model : ScriptedModel) (request : CompletionRequest) : ModelAnswer × ScriptedModel :=
  let asked := model.requests ++ [request]
  match model.answers with
  | [] => (.error (.exhausted model.requests.length), ⟨[], asked⟩)
  | answer :: rest => (answer, ⟨rest, asked⟩)

/-- How many answers are left. -/
def remaining (model : ScriptedModel) : Nat :=
  model.answers.length

/-- How many requests were made. -/
def callCount (model : ScriptedModel) : Nat :=
  model.requests.length

end ScriptedModel

end Colloquy
