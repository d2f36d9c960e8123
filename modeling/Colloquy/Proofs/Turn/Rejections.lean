import Colloquy.Proofs.Configuration.Addresses

/-!
# Requests that are turned away

A request is turned away for what it says and for what the directory holds, and for nothing else. It
is checked in a fixed order, and the notice tells the first thing that is wrong. Nothing else is done
for it then: neither the store nor the log is touched, and the model is not asked. If nothing is wrong
with it, its turn runs, and a turn that ends without a fault has asked the model.
-/

namespace Colloquy

namespace Rejection

/-- What has to be the case for a rejection, whether or not something else is wrong too. -/
def Applies (directory : AgentDirectory) (request : TurnRequest) : Rejection → Prop
  | .noAgentId => ∀ given, request.agentId = some given → Text.trim given = ""
  | .noContent => Text.trim request.content = ""
  | .unknownAgent => ∀ given, request.agentId = some given →
      ∀ agent ∈ directory.agents, agent.id ≠ Text.trim given
  | .noPrompt => ∃ given agent, request.agentId = some given ∧
      directory.find? (Text.trim given) = some agent ∧
        ∀ prompt ∈ agent.prompts, prompt.active = false

/-- The rejections in the order in which they are considered. -/
def order : List Rejection :=
  [.noAgentId, .noContent, .unknownAgent, .noPrompt]

/-- A rejection applies, and none before it does. -/
def ComesFirst (directory : AgentDirectory) (request : TurnRequest) (rejection : Rejection) : Prop :=
  rejection.Applies directory request ∧ ∃ before after, order = before ++ rejection :: after ∧
    ∀ earlier ∈ before, ¬ earlier.Applies directory request

end Rejection

namespace TurnRequest

/-- What a directory makes of a request: the turn that it is for, or a rejection. -/
def verdict (directory : AgentDirectory) (request : TurnRequest) : Except Rejection Turn := do
  let id ← request.addressee
  request.turnOf (directory.find? id)

section Verdict

variable {directory : AgentDirectory} {request : TurnRequest}

/-- A request that is turned away is incomplete, or there is no turn for the agent. -/
theorem cases_of_verdict_error {rejection : Rejection}
    (h : request.verdict directory = .error rejection) :
    request.addressee = .error rejection ∨ ∃ id, request.addressee = .ok id ∧
      request.turnOf (directory.find? id) = .error rejection := by
  rw [verdict] at h
  cases haddressee : request.addressee with
  | error other =>
    rw [haddressee] at h
    exact .inl (congrArg Except.error (Except.error.inj h))
  | ok id =>
    rw [haddressee] at h
    exact .inr ⟨id, rfl, h⟩

theorem exists_of_verdict_ok {turn : Turn} (h : request.verdict directory = .ok turn) :
    ∃ id, request.addressee = .ok id ∧ request.turnOf (directory.find? id) = .ok turn := by
  rw [verdict] at h
  cases haddressee : request.addressee with
  | error other =>
    rw [haddressee] at h
    cases h
  | ok id =>
    rw [haddressee] at h
    exact ⟨id, rfl, h⟩

/-- Nothing is missing in a request with a message and an id in which something is not blank. -/
private theorem addressee_cases (directory : AgentDirectory) (request : TurnRequest) :
    (request.addressee = .error .noAgentId ∧ Rejection.noAgentId.Applies directory request) ∨
      ∃ given, request.agentId = some given ∧ Text.trim given ≠ "" ∧
        (request.addressee = .error .noContent ∧ Rejection.noContent.Applies directory request ∨
          request.addressee = .ok (Text.trim given) ∧
            ¬ Rejection.noContent.Applies directory request) := by
  rw [Rejection.Applies, Rejection.Applies, Text.trim_eq_empty_iff]
  cases hid : request.agentId with
  | none =>
    left
    rw [addressee, hid]
    exact ⟨rfl, fun _ => nofun⟩
  | some given =>
    by_cases hempty : Text.trim given = ""
    · left
      rw [addressee, hid, Option.map_some, hempty]
      refine ⟨rfl, ?_⟩
      rintro _ ⟨⟩
      exact hempty
    · right
      have hsome : Text.isBlankText given = false := by
        rw [← Bool.not_eq_true, ← Text.trim_eq_empty_iff]
        exact hempty
      refine ⟨given, rfl, hempty, ?_⟩
      by_cases hcontent : Text.isBlankText request.content = true
      · left
        rw [addressee, hid, Option.map_some]
        split
        · next hnone => cases hnone
        · next hnone => exact absurd (Option.some.inj hnone) hempty
        · rw [if_pos hcontent]
          exact ⟨rfl, hcontent⟩
      · right
        exact ⟨addressee_eq_ok hid hsome (Bool.not_eq_true _ ▸ hcontent), hcontent⟩

/-- A request comes to an agent and a prompt: the agent is found under its id without the blanks at
the ends, and the prompt is the first one of the agent that is active. -/
structure ComesTo (directory : AgentDirectory) (request : TurnRequest) (given : String)
    (agent : Agent) (prompt : Prompt) : Prop where
  /-- The id is given. -/
  addressed : request.agentId = some given
  /-- The agent is found under it. -/
  found : directory.find? (Text.trim given) = some agent
  /-- The prompt is active, and none before it is. -/
  first : ∃ before after, agent.prompts = before ++ prompt :: after ∧ prompt.active = true ∧
    ∀ other ∈ before, other.active = false

/-- The turn of a request for an agent and a prompt. It has the message as it was written. -/
def turnWith (request : TurnRequest) (agent : Agent) (prompt : Prompt) : Turn :=
  ⟨agent, prompt, request.content, request.session, []⟩

/-- The verdict on a request whose id and message are not blank is that of the directory. -/
private theorem verdict_cases_of_complete {given : String} (hid : request.agentId = some given)
    (haddressee : request.addressee = .ok (Text.trim given))
    (hagentId : ¬ Rejection.noAgentId.Applies directory request)
    (hcontent : ¬ Rejection.noContent.Applies directory request) :
    (∃ rejection : Rejection, request.verdict directory = .error rejection ∧
        rejection.ComesFirst directory request) ∨
      ∃ agent prompt, request.turnOf (some agent) = .ok (request.turnWith agent prompt) ∧
        request.ComesTo directory given agent prompt ∧
        ∀ rejection : Rejection, ¬ rejection.Applies directory request := by
  have hverdict : request.verdict directory =
      request.turnOf (directory.find? (Text.trim given)) := by
    rw [verdict, haddressee]
    rfl
  cases hfound : directory.find? (Text.trim given) with
  | none =>
    rw [hfound] at hverdict
    refine .inl ⟨.unknownAgent, hverdict, ?_, [.noAgentId, .noContent], _, rfl, ?_⟩
    · intro other hother agent hmem
      obtain rfl : given = other := Option.some.inj (hid.symm.trans hother)
      exact AgentDirectory.find?_eq_none_iff.mp hfound agent hmem
    · simpa using ⟨hagentId, hcontent⟩
  | some agent =>
    rw [hfound, turnOf] at hverdict
    have hknown : ¬ Rejection.unknownAgent.Applies directory request := by
      intro hnone
      obtain ⟨hmem, hsame⟩ := AgentDirectory.find?_eq_some_iff.mp hfound
      exact hnone given hid agent hmem hsame
    cases hprompt : agent.activePrompt? with
    | none =>
      simp only [hprompt] at hverdict
      refine .inl ⟨.noPrompt, hverdict, ?_, [.noAgentId, .noContent, .unknownAgent], _, rfl, ?_⟩
      · refine ⟨given, agent, hid, hfound, fun prompt hmem => ?_⟩
        simpa using List.find?_eq_none.mp hprompt prompt hmem
      · simpa using ⟨hagentId, hcontent, hknown⟩
    | some prompt =>
      have hturn : request.turnOf (some agent) = .ok (request.turnWith agent prompt) :=
        turnOf_eq_ok_iff.mpr ⟨agent, prompt, rfl, hprompt, rfl⟩
      obtain ⟨hactive, before, after, hprompts, hbefore⟩ :=
        List.find?_eq_some_iff_append.mp hprompt
      refine .inr ⟨agent, prompt, hturn, ⟨hid, hfound, before, after, hprompts, hactive, ?_⟩, ?_⟩
      · simpa using hbefore
      · rintro (_ | _ | _ | _)
        · exact hagentId
        · exact hcontent
        · exact hknown
        · rintro ⟨other, agent', hother, hfound', hnone⟩
          obtain rfl : given = other := Option.some.inj (hid.symm.trans hother)
          obtain rfl : agent = agent' := Option.some.inj (hfound.symm.trans hfound')
          have hmem : prompt ∈ agent.prompts := by simp [hprompts]
          simp [hnone prompt hmem] at hactive

/-- A directory turns a request away with the first rejection that applies. If none does, the request
comes to an agent and a prompt. -/
theorem verdict_cases (directory : AgentDirectory) (request : TurnRequest) :
    (∃ rejection : Rejection, request.verdict directory = .error rejection ∧
        rejection.ComesFirst directory request) ∨
      ∃ given agent prompt, request.addressee = .ok (Text.trim given) ∧
        request.turnOf (some agent) = .ok (request.turnWith agent prompt) ∧
        request.ComesTo directory given agent prompt ∧
        ∀ rejection : Rejection, ¬ rejection.Applies directory request := by
  obtain ⟨haddressee, happlies⟩ | ⟨given, hid, hsome, hrest⟩ := addressee_cases directory request
  · refine .inl ⟨.noAgentId, ?_, happlies, [], _, rfl, fun _ => nofun⟩
    rw [verdict, haddressee]
    rfl
  have hagentId : ¬ Rejection.noAgentId.Applies directory request := fun h => hsome (h given hid)
  obtain ⟨haddressee, happlies⟩ | ⟨haddressee, hcontent⟩ := hrest
  · refine .inl ⟨.noContent, ?_, happlies, [.noAgentId], _, rfl, ?_⟩
    · rw [verdict, haddressee]
      rfl
    · simpa using hagentId
  · obtain hrejected | ⟨agent, prompt, haccepted⟩ :=
      verdict_cases_of_complete hid haddressee hagentId hcontent
    · exact .inl hrejected
    · exact .inr ⟨given, agent, prompt, haddressee, haccepted⟩

end Verdict

section Programs

variable {σ : Type} {host : Program.Host Effect Effect.Answer σ} {s next : σ}
  {request : TurnRequest} {id : String} {rejection : Rejection}

theorem run_of_incomplete (h : request.addressee = .error rejection) (scope : TurnScope) :
    run scope request = .ask (.deliver (.ok (notice rejection.message))) fun _ => .done () := by
  rw [run, heedful, perform, resolve, h]
  rfl

/-- A complete request comes to what stands behind the look-up of its agent. -/
theorem run_of_found (h : request.addressee = .ok id) {found : Option Agent}
    (hanswer : host (.findAgent id) s = some (.ok found, next)) (scope : TurnScope) :
    (run scope request).run host s =
      let rest := (request.behind scope found).attended.run host next
      ⟨⟨.findAgent id, .ok found⟩ :: rest.exchanges, rest.outcome, rest.state⟩ := by
  rw [run, heedful_eq h]
  change Program.run host (.ask (.findAgent id) _) s = _
  rw [Program.run, hanswer]

theorem behind_of_error {found : Option Agent} (h : request.turnOf found = .error rejection)
    (scope : TurnScope) :
    (request.behind scope found).attended =
      .ask (.deliver (.ok (notice rejection.message))) fun _ => .done () := by
  rw [behind, h]
  rfl

end Programs

end TurnRequest

/-- A host has a directory, keeps a store with a log, and has a model that got some requests. Neither
looking up an agent nor delivering an item touches the store, and the model is asked by nothing but a
request. -/
structure Furnishes {σ τ : Type} (host : Program.Host Effect Effect.Answer σ)
    (directory : AgentDirectory) (store : σ → τ) (requests : σ → List CompletionRequest) : Prop where
  /-- Agents are looked up in the directory. -/
  found : ∀ id s, ∃ next,
    host (.findAgent id) s = some (.ok (directory.find? id), next) ∧ store next = store s
  /-- Items are taken. -/
  taken : ∀ item s, ∃ next, host (.deliver item) s = some ((), next) ∧ store next = store s
  /-- The model gets what it is asked. -/
  counted : ∀ effect s answer next, host effect s = some (answer, next) →
    requests next = requests s ++ requested [⟨effect, answer⟩]

/-- Surroundings whose agents are those of a directory furnish all this. -/
theorem Surroundings.furnishes {σ : Type} [SessionStore σ] [ExecutionLog σ]
    {around : Surroundings} {directory : AgentDirectory}
    (hdirectory : ∀ id, around.agent id = .ok (directory.find? id)) :
    Furnishes around.host directory (Scene.store : Scene σ → σ) Scene.requests where
  found id s := ⟨s.later, by rw [← hdirectory id]; rfl, rfl⟩
  taken item s := ⟨s.later, rfl, rfl⟩
  counted effect s answer next h := by
    cases effect with
    | invoke tool parameters =>
      obtain ⟨reply, -, hnext⟩ := Option.map_eq_some_iff.mp h
      cases hnext
      exact (List.append_nil _).symm
    | complete request =>
      cases h
      rfl
    | waitForever => exact answer.elim
    | _ =>
      cases h
      exact (List.append_nil _).symm

namespace Furnishes

variable {σ τ : Type} {host : Program.Host Effect Effect.Answer σ} {directory : AgentDirectory}
  {store : σ → τ} {requests : σ → List CompletionRequest}

/-- Behind exchanges, the model has got what was asked in them. -/
theorem requests_of_leads (h : Furnishes host directory store requests) {s s' : σ}
    {t : List TurnExchange} (hleads : host.Leads s t s') :
    requests s' = requests s ++ requested t := by
  induction t generalizing s with
  | nil =>
    obtain rfl : s = s' := hleads
    exact (List.append_nil _).symm
  | cons exchange t ih =>
    obtain ⟨next, hanswer, hrest⟩ := hleads
    rw [ih hrest, h.counted _ s _ next hanswer, List.append_assoc, ← requested_append]
    rfl

/-- A notice is delivered, and nothing else is done. -/
theorem run_notice (h : Furnishes host directory store requests) (chunk : String) (s : σ) :
    ∃ next, (Program.ask (.deliver (.ok chunk)) fun _ => .done () : TurnProgram Unit).run host s =
        ⟨[TurnExchange.piece chunk], some (), next⟩ ∧
      store next = store s ∧ requests next = requests s := by
  obtain ⟨next, hanswer, hstore⟩ := h.taken (.ok chunk) s
  refine ⟨next, ?_, hstore, ?_⟩
  · rw [Program.run, hanswer]
    rfl
  · exact (h.counted _ s _ next hanswer).trans (List.append_nil _)

end Furnishes

namespace Turn

variable {hangs : Effect → Prop} {scope : TurnScope} {turn : Turn} {session : SessionId}
  {t : List TurnExchange}

/-- A loop that may begin a level and comes to its end has asked the model. -/
private theorem Loop.requested_ne_nil {progress last : Progress}
    {o : Option (Except Fault Progress)} (h : Loop hangs scope turn session progress t o)
    (ho : o = some (.ok last)) (hmore : ¬ scope.settings.effective.maxDepth < progress.depth) :
    requested t ≠ [] := by
  cases h with
  | unseen | working => cases ho
  | capped _ hdepth => exact absurd hdepth hmore
  | @halted _ _ _ fault => cases fault <;> cases ho
  | last _ level | level _ level =>
    simp [Level.exchanges, Level.opening, requested]

/-- A turn that ends without a fault has asked the model. -/
theorem Performed.requested_ne_nil {o : Option (Except Fault Unit)}
    (h : Performed hangs scope turn t o) (ho : o = some (.ok ())) : requested t ≠ [] := by
  cases h with
  | outside | noSession | unheard | refused => cases ho
  | @halted _ _ _ _ _ fault => cases fault <;> cases ho
  | @concluded entry work behind session henter id progress hloop _ hconclude =>
    have hmore : ¬ scope.settings.effective.maxDepth < turn.start.depth := by
      have hne := scope.settings.maxDepth_effective_ne_zero
      rw [Ne, ← UInt32.toNat_inj] at hne
      have hfirst : turn.start.depth.toNat = 1 := rfl
      have hzero : (0 : UInt32).toNat = 0 := rfl
      rw [UInt32.lt_iff_toNat_lt, hfirst]
      omega
    have hsome := hloop.requested_ne_nil rfl hmore
    intro hnone
    rw [requested_append, ← List.singleton_append, requested_append, requested_append] at hnone
    simp [hsome] at hnone

end Turn

namespace TurnRequest

section Runs

variable {σ τ : Type} {host : Program.Host Effect Effect.Answer σ} {directory : AgentDirectory}
  {store : σ → τ} {requests : σ → List CompletionRequest} {request : TurnRequest}

/-- A request that is turned away gets a notice, and nothing is touched. -/
theorem run_of_verdict_error (hfurnishes : Furnishes host directory store requests)
    {rejection : Rejection} (h : request.verdict directory = .error rejection) (scope : TurnScope)
    (s : σ) :
    let result := (run scope request).run host s
    delivered result.exchanges = [.ok (notice rejection.message)] ∧ result.outcome = some () ∧
      store result.state = store s ∧ requests result.state = requests s := by
  intro result
  obtain haddressee | ⟨id, haddressee, hturn⟩ := cases_of_verdict_error h
  · obtain ⟨next, hrun, hstore, hrequests⟩ :=
      hfurnishes.run_notice (notice rejection.message) s
    have hresult : result = ⟨[TurnExchange.piece (notice rejection.message)], some (), next⟩ := by
      rw [← hrun, ← run_of_incomplete haddressee scope]
    rw [hresult]
    exact ⟨rfl, rfl, hstore, hrequests⟩
  · obtain ⟨found, hanswer, hfound⟩ := hfurnishes.found id s
    have hcounted : requests found = requests s :=
      (hfurnishes.counted _ s _ found hanswer).trans (List.append_nil _)
    obtain ⟨next, hrun, hstore, hrequests⟩ :=
      hfurnishes.run_notice (notice rejection.message) found
    have hresult : result = ⟨[⟨.findAgent id, .ok (directory.find? id)⟩,
        TurnExchange.piece (notice rejection.message)], some (), next⟩ := by
      simp only [result, run_of_found haddressee hanswer, behind_of_error hturn, hrun]
    rw [hresult]
    exact ⟨rfl, rfl, hstore.trans hfound, hrequests.trans hcounted⟩

/-- A request that comes to an agent and a prompt has its turn run behind the look-up. -/
theorem run_of_comesTo (hfurnishes : Furnishes host directory store requests) {given : String}
    {agent : Agent} {prompt : Prompt} (haddressee : request.addressee = .ok (Text.trim given))
    (hturn : request.turnOf (some agent) = .ok (request.turnWith agent prompt))
    (hcomes : request.ComesTo directory given agent prompt) (scope : TurnScope) (s : σ) :
    ∃ next, host (.findAgent (Text.trim given)) s = some (.ok (some agent), next) ∧
      store next = store s ∧ requests next = requests s ∧
      (run scope request).run host s =
        let rest := (Turn.run scope (request.turnWith agent prompt)).run host next
        ⟨⟨.findAgent (Text.trim given), .ok (some agent)⟩ :: rest.exchanges, rest.outcome,
          rest.state⟩ := by
  obtain ⟨next, hanswer, hstore⟩ := hfurnishes.found (Text.trim given) s
  rw [hcomes.found] at hanswer
  have hcounted : requests next = requests s :=
    (hfurnishes.counted _ s _ next hanswer).trans (List.append_nil _)
  refine ⟨next, hanswer, hstore, hcounted, ?_⟩
  rw [run_of_found haddressee hanswer, behind, hturn]
  rfl

/-- A turn that runs for a request and ends without a fault has asked the model. -/
private theorem requests_ne_of_comesTo (hfurnishes : Furnishes host directory store requests)
    {given : String} {agent : Agent} {prompt : Prompt}
    (haddressee : request.addressee = .ok (Text.trim given))
    (hturn : request.turnOf (some agent) = .ok (request.turnWith agent prompt))
    (hcomes : request.ComesTo directory given agent prompt) (scope : TurnScope) (s : σ)
    (hended : ((run scope request).run host s).outcome = some ())
    (hfaultless : ∀ fault, .error fault ∉ delivered ((run scope request).run host s).exchanges) :
    requests ((run scope request).run host s).state ≠ requests s := by
  obtain ⟨next, -, -, -, hrun⟩ := run_of_comesTo hfurnishes haddressee hturn hcomes scope s
  have hsteady : (Assignment.requested request).run scope .steady host s =
      (run scope request).run host s := Listener.run_steady host _ 0 s
  have hreported := (Assignment.requested request).reported_run scope host s
  rw [hsteady] at hreported
  have hresolves : (Assignment.requested request).Resolves
      ((run scope request).run host s).exchanges (request.turnWith agent prompt) := by
    rw [hrun]
    exact ⟨_, some agent, rfl, hturn⟩
  obtain ⟨lookup, t, -, ht, hperform⟩ :=
    Assignment.performed_of_faultless hreported hresolves hended hfaultless
  have hasked : requested ((run scope request).run host s).exchanges ≠ [] := by
    rw [ht, requested_append]
    exact List.append_ne_nil_of_right_ne_nil _ (hperform.requested_ne_nil rfl)
  have hleads := Program.leads_run host (run scope request) s
  rw [hfurnishes.requests_of_leads hleads]
  simpa using hasked

/-- A request gets just one chunk, with the store, the log and the model untouched, if and only if
something is wrong with it, and the chunk is the notice of the first thing that is. Otherwise its turn
runs with the agent that is found and its first active prompt, the message as it was written and the
session as it was given. -/
theorem run_settled (hfurnishes : Furnishes host directory store requests) (scope : TurnScope)
    (request : TurnRequest) (s : σ) :
    let result := (run scope request).run host s
    ((∃ chunk, delivered result.exchanges = [.ok chunk] ∧ result.outcome = some () ∧
        store result.state = store s ∧ requests result.state = requests s) ↔
      ∃ rejection : Rejection, rejection.Applies directory request) ∧
    ((∃ rejection : Rejection, rejection.Applies directory request) →
      ∃ rejection : Rejection, rejection.ComesFirst directory request ∧
        delivered result.exchanges = [.ok (notice rejection.message)]) ∧
    ((∀ rejection : Rejection, ¬ rejection.Applies directory request) →
      ∃ given agent prompt next, request.ComesTo directory given agent prompt ∧
        host (.findAgent (Text.trim given)) s = some (.ok (some agent), next) ∧
        store next = store s ∧ requests next = requests s ∧
        let turn : Turn := ⟨agent, prompt, request.content, request.session, []⟩
        let rest := (Turn.run scope turn).run host next
        result = ⟨⟨.findAgent (Text.trim given), .ok (some agent)⟩ :: rest.exchanges, rest.outcome,
          rest.state⟩) := by
  intro result
  obtain ⟨rejection, hverdict, hfirst⟩ |
      ⟨given, agent, prompt, haddressee, hturn, hcomes, hnone⟩ := verdict_cases directory request
  · obtain ⟨hdelivered, hended, hstore, hrequests⟩ :=
      run_of_verdict_error hfurnishes hverdict scope s
    have happlies := hfirst.1
    refine ⟨?_, fun _ => ⟨rejection, hfirst, hdelivered⟩, fun hnone => ?_⟩
    · exact iff_of_true ⟨_, hdelivered, hended, hstore, hrequests⟩ ⟨rejection, happlies⟩
    · exact absurd happlies (hnone rejection)
  · refine ⟨?_, fun hsome => ?_, fun _ => ?_⟩
    · refine iff_of_false ?_ (fun ⟨rejection, happlies⟩ => hnone rejection happlies)
      rintro ⟨chunk, hdelivered, hended, -, hrequests⟩
      have hfaultless : ∀ fault, .error fault ∉ delivered result.exchanges := by
        intro fault
        simp [hdelivered]
      exact requests_ne_of_comesTo hfurnishes haddressee hturn hcomes scope s hended hfaultless
        hrequests
    · obtain ⟨rejection, happlies⟩ := hsome
      exact absurd happlies (hnone rejection)
    · obtain ⟨next, hanswer, hstore, hrequests, hrun⟩ :=
        run_of_comesTo hfurnishes haddressee hturn hcomes scope s
      exact ⟨given, agent, prompt, next, hcomes, hanswer, hstore, hrequests, hrun⟩

/-- A request for an agent whose only prompt is not active, with blanks around its id. -/
theorem run_settled_asleep :
    let sleeper : Agent := ⟨"bot", "Bot", [⟨"p", "Be brief.", false⟩], [], ⟨"m", 0, none⟩⟩
    let directory := AgentDirectory.ofList [sleeper]
    let around : Surroundings := ⟨fun id => .ok (directory.find? id), fun _ _ => none,
      fun asked => .error (.exhausted asked.length), fun _ => ⟨⟨0, 0⟩, "name"⟩, fun _ => 0⟩
    let request : TurnRequest := ⟨some " bot ", "Hi", none⟩
    let start : Scene (MemoryStore × MemoryLog) := ⟨(.empty, .empty), [], 0⟩
    let result := (run ⟨.standard, fun _ => true, 9⟩ request).run around.host start
    Rejection.noPrompt.Applies directory request ∧
      (∃ chunk, delivered result.exchanges = [.ok chunk] ∧ result.outcome = some () ∧
        result.state.store = start.store ∧ result.state.requests = start.requests) ∧
      ∃ rejection : Rejection, rejection.ComesFirst directory request ∧
        delivered result.exchanges = [.ok (notice rejection.message)] := by
  intro sleeper directory around request start result
  have hfurnishes : Furnishes around.host directory
      (Scene.store : Scene (MemoryStore × MemoryLog) → _) Scene.requests :=
    Surroundings.furnishes fun _ => rfl
  have hfound : directory.find? (Text.trim " bot ") = some sleeper := by decide +kernel
  have hnone : ∀ prompt ∈ sleeper.prompts, prompt.active = false := by simp [sleeper]
  have happlies : Rejection.noPrompt.Applies directory request :=
    ⟨" bot ", sleeper, rfl, hfound, hnone⟩
  obtain ⟨hsettled, hnotice, -⟩ :=
    run_settled hfurnishes ⟨.standard, fun _ => true, 9⟩ request start
  exact ⟨happlies, hsettled.mpr ⟨_, happlies⟩, hnotice ⟨_, happlies⟩⟩

end Runs

end TurnRequest

end Colloquy
