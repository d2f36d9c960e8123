import Colloquy.Command.Failure
import Colloquy.Command.Invocation
import Colloquy.Toolbox
import Colloquy.Turn
import Colloquy.Turn.Parties

/-!
# A turn in the shell

A turn whose parties are values and whose items are printed as they are delivered. Time and new names come from
the shell, and whatever changes the store is kept at once.
-/

namespace Colloquy

/-- The session of a request, which is opened beforehand if none is given, so that its name can be told. None is
opened for a request that will be turned away; whether it will be is found out here, ahead of its turn. -/
def TurnRequest.enter (request : TurnRequest) : Attempt (Option SessionId) := do
  match request.session with
  | some session => pure (some session)
  | none =>
    let id := Text.trim (request.agentId.getD "")
    if id.isEmpty || Text.isBlankText request.content then pure none
    else
      match ← Attempt.findAgent id with
      | none => pure none
      | some agent =>
        if agent.activePrompt?.isSome then
          some <$> Attempt.openSession id (some (preview request.content Turn.titleChars))
        else pure none

namespace Chat

variable {σ : Type} [SessionStore σ] [ExecutionLog σ]

/-- The stamp of an effect. -/
def stamp (effect : Effect) : Errand Stamp := do
  let now : Instant ← Errand.call .readClock
  match effect.nameUse? with
  | none => pure ⟨now, ""⟩
  | some use => do
    let name : String ← Errand.call (.newName use)
    pure ⟨now, name⟩

/-- What the shell does with an effect besides the answer of the parties: it prints a piece of text, and a fault
makes the command fail. -/
def accompany : Effect → Errand Unit
  | .deliver (.ok piece) => Errand.call (.print piece)
  | .deliver (.error fault) => throw (.turn fault)
  | _ => pure ()

/-- Answers an effect by the parties. -/
def respond (keep : σ → Errand Unit) (effect : Effect) : StateT (Parties σ) Errand effect.Answer := do
  accompany effect
  match (← get).respond (← stamp effect) effect with
  | none => Errand.waitForever
  | some (answer, parties) =>
    set parties
    if effect.mayChangeStore then keep parties.store
    pure answer

/-- Runs a program of effects among parties. -/
def run {α : Type} (keep : σ → Errand Unit) (program : TurnProgram α) :
    StateT (Parties σ) Errand α :=
  program.runIn (respond keep)

/-- Why a command fails when a request could not be given its session. -/
def entryFailure : Fault → Failure
  | .store fault => .store fault
  | fault => .turn fault

/-- Enters the session of a request, tells its name, and runs the turn of the request. -/
def converse (keep : σ → Errand Unit) (settings : TurnSettings) (request : TurnRequest) :
    StateT (Parties σ) Errand Unit := do
  match ← run keep request.enter.run with
  | .error fault => throw (entryFailure fault)
  | .ok session =>
    match session with
    | none => pure ()
    | some id => accompanyEntry id
    let parties ← get
    let scope : TurnScope := ⟨settings, parties.backends.serves, parties.horizon⟩
    run keep (TurnRequest.run scope { request with session })
where
  accompanyEntry (id : SessionId) : Errand Unit :=
    Errand.call (.printError ("session: " ++ id ++ "\n"))

/-- The model of a script in a file. -/
def modelOf (path : String) : Errand ScriptedModel := do
  let found : Except ShellFault String ← Errand.call (.readText path)
  let model := match found with
    | .ok content => ScriptedModel.ofJson? content
    | .error fault =>
      .error (.notConfigured ("cannot read replay script " ++ path ++ ": " ++ fault.message))
  ExceptT.mk (pure (model.mapError .model))

/-- Sends a message to an agent of a configuration and prints the answer. -/
def send (config : Configuration) (keep : σ → Errand Unit) (store : σ) (options : ChatOptions) :
    Errand Unit := do
  let model ← modelOf options.script
  let parties : Parties σ := ⟨.ofList config.toAgents, store, model, Toolbox.registry⟩
  let request : TurnRequest := ⟨some options.agent, options.message, options.session⟩
  let _ ← (converse keep config.settings request).run parties
  Errand.printLines [""]

end Chat

end Colloquy
