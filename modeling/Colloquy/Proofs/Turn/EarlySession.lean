import Colloquy.Command.Chat
import Colloquy.Proofs.Turn.Gains
import Colloquy.Proofs.Turn.Rejections

/-!
# The session of a request, opened early

A request without a session may be given one before its turn is run, so that the name of the session
can be told. It gets one exactly when its turn would open one itself, with the same agent and the
same title, and then the turn goes as it would have gone: names, times and durations aside, the same
is delivered and the same is kept.
-/

namespace Colloquy

variable {σ : Type}

namespace Turn

/-- The levels do not look at the session that a turn was given. -/
private theorem levels_withSession (scope : TurnScope) (turn : Turn) (given : Option SessionId)
    (session : SessionId) (horizon : Nat) (progress : Progress) :
    levels scope { turn with session := given } session horizon progress =
      levels scope turn session horizon progress := by
  induction horizon generalizing progress with
  | zero => rfl
  | succ horizon ih =>
    rw [levels, levels]
    simp only [ih]
    rfl

theorem within_withSession (scope : TurnScope) (turn : Turn) (given : Option SessionId)
    (session : SessionId) :
    within scope { turn with session := given } session = within scope turn session := by
  rw [within, within]
  simp only [levels_withSession]
  rfl

/-- A turn that was given a session does all in it. -/
theorem heedful_of_session {scope : TurnScope} {turn : Turn} {session : SessionId}
    (h : turn.session = some session) :
    turn.heedful scope = (turn.within scope session).reported := by
  rw [heedful, perform, enter, h]
  rfl

/-- A turn that was given no session opens one first. -/
theorem attended_heedful_of_none {scope : TurnScope} {turn : Turn} (h : turn.session = none) :
    (turn.heedful scope).attended =
      .ask (.openSession turn.agent.id (some (title turn.content))) fun
        | .ok session => (turn.within scope session).reported.attended
        | .error fault => (Heedful.reported (throw (.fault (.store fault)))).attended := by
  have hperform : turn.perform scope =
      Heedful.ofAttempt (Attempt.ofStore (Effect.ask
        (.openSession turn.agent.id (some (title turn.content))))) >>= turn.within scope := by
    rw [perform, enter, h]
    rfl
  refine (HeedfulProgram.attended_bind (turn.perform scope).run _).trans ?_
  rw [hperform, attended_ofStore_bind, Program.bind_assoc]
  refine congrArg (Program.ask _) (funext fun answer => ?_)
  cases answer with
  | error fault => rfl
  | ok session => exact (HeedfulProgram.attended_bind (turn.within scope session).run _).symm

end Turn

namespace TurnRequest

section Verdict

variable {directory : AgentDirectory} {request : TurnRequest}

/-- An agent that is found has the id under which it was looked up. -/
private theorem id_of_turnOf {id : String} {turn : Turn}
    (h : request.turnOf (directory.find? id) = .ok turn) : turn.agent.id = id := by
  obtain ⟨agent, _, hfound, -, rfl⟩ := turnOf_eq_ok_iff.mp h
  exact AgentDirectory.id_of_find? hfound

/-- The session that a request is given is all that it changes in its turn. -/
private theorem turnOf_withSession {found : Option Agent} {turn : Turn}
    (h : request.turnOf found = .ok turn) (given : Option SessionId) :
    turnOf { request with session := given } found = .ok { turn with session := given } := by
  obtain ⟨agent, prompt, rfl, hprompt, rfl⟩ := turnOf_eq_ok_iff.mp h
  exact turnOf_eq_ok_iff.mpr ⟨agent, prompt, rfl, hprompt, rfl⟩

end Verdict

section Programs

variable {request : TurnRequest} {scope : TurnScope} {id : String} {rejection : Rejection}

/-- What is checked ahead of a turn fails where something is missing in the request. -/
private theorem checked_of_incomplete (h : request.addressee = .error rejection) :
    ((Text.trim (request.agentId.getD "")).isEmpty || Text.isBlankText request.content) = true := by
  rw [addressee] at h
  cases hid : request.agentId with
  | none => rfl
  | some given =>
    rw [hid, Option.map_some] at h
    rw [Option.getD_some, Bool.or_eq_true, String.isEmpty_iff]
    split at h
    · next hnone => cases hnone
    · next hempty => exact .inl (Option.some.inj hempty)
    · split at h
      · next hblank => exact .inr hblank
      · cases h

/-- What is checked ahead of a turn holds where nothing is missing, and the id is looked up that the
turn looks up. -/
private theorem checked_of_complete (h : request.addressee = .ok id) :
    Text.trim (request.agentId.getD "") = id ∧
      (id.isEmpty || Text.isBlankText request.content) = false := by
  rw [addressee] at h
  cases hid : request.agentId with
  | none =>
    rw [hid] at h
    cases h
  | some given =>
    rw [hid, Option.map_some] at h
    rw [Option.getD_some]
    split at h
    · next hnone => cases hnone
    · cases h
    · next hsome hother =>
      split at h
      · cases h
      · next hcontent =>
        cases h
        refine ⟨Option.some.inj hother, ?_⟩
        simpa using And.intro hsome hcontent

private theorem enter_of_incomplete (hnone : request.session = none)
    (h : request.addressee = .error rejection) : request.enter.run = .done (.ok none) := by
  rw [enter, hnone]
  dsimp only
  rw [checked_of_incomplete h]
  rfl

private theorem enter_of_complete (hnone : request.session = none)
    (h : request.addressee = .ok id) :
    request.enter.run = .ask (.findAgent id) fun
      | .error fault => .done (.error (.store fault))
      | .ok found => match request.turnOf found with
        | .error _ => .done (.ok none)
        | .ok _ => .ask (.openSession id (some (Turn.title request.content))) fun answer =>
          .done ((answer.mapError .store).map some) := by
  obtain ⟨hid, hchecked⟩ := checked_of_complete h
  rw [enter, hnone]
  dsimp only
  rw [hid, hchecked]
  refine congrArg (Program.ask _) (funext fun answer => ?_)
  obtain fault | _ | agent := answer
  · rfl
  · rfl
  · change ExceptT.run (if agent.activePrompt?.isSome then _ else _) = _
    dsimp only
    rw [turnOf]
    cases agent.activePrompt? with
    | none => rfl
    | some prompt =>
      refine congrArg (Program.ask _) (funext fun answer => ?_)
      cases answer <;> rfl

end Programs

section Runs

variable [SessionStore σ] [ExecutionLog σ] {around : Surroundings} {directory : AgentDirectory}
  {request : TurnRequest}

private theorem host_findAgent (hdirectory : ∀ id, around.agent id = .ok (directory.find? id))
    (id : String) (s : Scene σ) :
    around.host (.findAgent id) s = some (.ok (directory.find? id), s.later) := by
  rw [← hdirectory id]
  rfl

/-- A complete request comes to what stands behind the look-up of its agent. -/
private theorem run_of_complete (hdirectory : ∀ id, around.agent id = .ok (directory.find? id))
    {id : String} (h : request.addressee = .ok id) (scope : TurnScope) (s : Scene σ) :
    (TurnRequest.run scope request).run around.host s =
      let rest := (request.behind scope (directory.find? id)).attended.run around.host s.later
      ⟨⟨.findAgent id, .ok (directory.find? id)⟩ :: rest.exchanges, rest.outcome, rest.state⟩ :=
  run_of_found h (host_findAgent hdirectory id s) scope

/-- A request that is turned away gets a notice, and the model is not asked. -/
private theorem run_of_rejected (hdirectory : ∀ id, around.agent id = .ok (directory.find? id))
    {rejection : Rejection} (h : request.verdict directory = .error rejection) (scope : TurnScope)
    (s : Scene σ) :
    let run := (TurnRequest.run scope request).run around.host s
    delivered run.exchanges = [.ok (notice rejection.message)] ∧ run.outcome = some () ∧
      run.state.store = s.store ∧ run.state.requests = s.requests :=
  run_of_verdict_error (Surroundings.furnishes hdirectory) h scope s

/-- A request that is to be turned away gets no session beforehand. -/
private theorem enter_of_rejected (hdirectory : ∀ id, around.agent id = .ok (directory.find? id))
    (hnone : request.session = none) {rejection : Rejection}
    (h : request.verdict directory = .error rejection) (s : Scene σ) :
    let entry := request.enter.run.run around.host s
    entry.outcome = some (.ok none) ∧ delivered entry.exchanges = [] ∧
      entry.state.store = s.store ∧ entry.state.requests = s.requests := by
  intro entry
  obtain haddressee | ⟨id, haddressee, hturn⟩ := cases_of_verdict_error h
  · simp only [entry, enter_of_incomplete hnone haddressee]
    exact ⟨rfl, rfl, rfl, rfl⟩
  · simp only [entry, enter_of_complete hnone haddressee, Program.run,
      host_findAgent hdirectory id s, hturn]
    exact ⟨trivial, rfl, rfl, rfl⟩

/-- A request that comes to a turn is looked up and gets the session that is opened for it. -/
private theorem enter_of_accepted (hdirectory : ∀ id, around.agent id = .ok (directory.find? id))
    (hnone : request.session = none) {id : String} (haddressee : request.addressee = .ok id)
    {turn : Turn} (hturn : request.turnOf (directory.find? id) = .ok turn) {s t : Scene σ}
    {session : SessionId}
    (hopen : around.host (.openSession id (some (Turn.title request.content))) s.later =
      some (.ok session, t)) :
    request.enter.run.run around.host s =
      ⟨[⟨.findAgent id, .ok (directory.find? id)⟩,
        ⟨.openSession id (some (Turn.title request.content)), .ok session⟩],
        some (.ok (some session)), t⟩ := by
  simp only [enter_of_complete hnone haddressee, Program.run, host_findAgent hdirectory id s, hturn,
    hopen]
  rfl

/-- A request with a session, whose turn does all in it. -/
private theorem run_of_session (hdirectory : ∀ id, around.agent id = .ok (directory.find? id))
    {id : String} (haddressee : request.addressee = .ok id) {turn : Turn}
    (hturn : request.turnOf (directory.find? id) = .ok turn) (scope : TurnScope)
    (session : SessionId) (s : Scene σ) :
    (TurnRequest.run scope { request with session := some session }).run around.host s =
      let rest := (turn.within scope session).reported.attended.run around.host s.later
      ⟨⟨.findAgent id, .ok (directory.find? id)⟩ :: rest.exchanges, rest.outcome, rest.state⟩ := by
  have hbehind : behind { request with session := some session } scope (directory.find? id) =
      (turn.within scope session).reported := by
    rw [behind, turnOf_withSession hturn]
    exact (Turn.heedful_of_session rfl).trans
      (congrArg Heedful.reported (Turn.within_withSession scope turn (some session) session))
  have haddressee' : addressee { request with session := some session } = .ok id := haddressee
  rw [run_of_complete hdirectory haddressee', hbehind]

/-- A request without a session, whose turn opens one and does the rest in it. -/
private theorem run_of_none (hdirectory : ∀ id, around.agent id = .ok (directory.find? id))
    (hnone : request.session = none) {id : String} (haddressee : request.addressee = .ok id)
    {turn : Turn} (hturn : request.turnOf (directory.find? id) = .ok turn) (scope : TurnScope)
    {s t : Scene σ} {session : SessionId}
    (hopen : around.host (.openSession id (some (Turn.title request.content))) s.later =
      some (.ok session, t)) :
    (TurnRequest.run scope request).run around.host s =
      let rest := (turn.within scope session).reported.attended.run around.host t
      ⟨⟨.findAgent id, .ok (directory.find? id)⟩ ::
        ⟨.openSession id (some (Turn.title request.content)), .ok session⟩ :: rest.exchanges,
        rest.outcome, rest.state⟩ := by
  have hid := id_of_turnOf hturn
  rw [run_of_complete hdirectory haddressee, behind, hturn]
  obtain ⟨agent, prompt, -, -, rfl⟩ := turnOf_eq_ok_iff.mp hturn
  dsimp only
  rw [Turn.attended_heedful_of_none hnone, hid, Program.run, hopen]

end Runs

end TurnRequest

namespace Surroundings

variable [SessionStore σ] [ImpartialStore σ] [PagedStore σ]

/-- From some moment on, the names that surroundings give are new, and no page has them. -/
structure NamesAfresh (around : Surroundings) (scene : Scene σ) : Prop extends
    around.NamesAll scene where
  /-- There is no card under the names. -/
  card? : ∀ moment, scene.moment ≤ moment →
    PagedStore.card? (around.stamp moment).name scene.store = none
  /-- There are no drafts under the names. -/
  kept : ∀ moment, scene.moment ≤ moment →
    PagedStore.kept (around.stamp moment).name scene.store = []

theorem NamesAfresh.later {around : Surroundings} {scene : Scene σ}
    (h : around.NamesAfresh scene) : around.NamesAfresh scene.later :=
  ⟨h.toNamesAll.later, fun moment hle => h.card? moment (Nat.le_of_succ_le hle),
    fun moment hle => h.kept moment (Nat.le_of_succ_le hle)⟩

end Surroundings

section Opening

variable [SessionStore σ] [ExecutionLog σ] [ImpartialStore σ] [PagedStore σ] [PagedLog σ]
  {around around' : Surroundings} {s : Scene σ}

/-- Where names are new, sessions that are opened in one scene leave scenes behind that are beside
each other, each with one page more. -/
private theorem exists_opened_beside (hlogs : PagedLog.Logs s.store)
    (hnames : around.NamesAfresh s) (hnames' : around'.NamesAfresh s) (agentId : String)
    (title : Option String) :
    ∃ session session', ∃ t t' : Scene σ,
      around.host (.openSession agentId title) s = some (.ok session, t) ∧
      around'.host (.openSession agentId title) s = some (.ok session', t') ∧
      PagedStore.Grown s.store ⟨session, agentId, title⟩ [] [] t.store ∧
      PagedStore.Grown s.store ⟨session', agentId, title⟩ [] [] t'.store ∧
      Beside around around' session session' t t' := by
  obtain ⟨store, requests, moment⟩ := s
  have hnow := Nat.le_refl moment
  obtain ⟨store₁, hopen, hgrown⟩ := PagedStore.exists_grown_opened hlogs (hnames.card? moment hnow)
    (hnames.kept moment hnow) agentId title
  obtain ⟨store₁', hopen', hgrown'⟩ := PagedStore.exists_grown_opened hlogs
    (hnames'.card? moment hnow) (hnames'.kept moment hnow) agentId title
  have halike : ImpartialStore.Alike ((around.stamp moment).name, store₁)
      ((around'.stamp moment).name, store₁') := by
    obtain ⟨fault, s₁, s₁', h, -⟩ | ⟨s₁, s₁', h, h', halike⟩ := ImpartialStore.alike_opened agentId
      title (hnames.isNewSession moment hnow) (hnames'.isNewSession moment hnow)
    · cases h.symm.trans hopen
    · cases h.symm.trans hopen
      cases h'.symm.trans hopen'
      exact halike
  refine ⟨_, _, ⟨store₁, requests, moment + 1⟩, ⟨store₁', requests, moment + 1⟩, ?_, ?_, hgrown,
    hgrown', halike, rfl, hnames.toNamesMessages.later fun name _ h => ?_,
    hnames'.toNamesMessages.later fun name _ h => ?_⟩
  · rw [Surroundings.host, hopen]
  · rw [Surroundings.host, hopen']
  · have hstill := ImpartialStore.new_opened h (around.stamp moment) agentId title
    rwa [hopen] at hstill
  · have hstill := ImpartialStore.new_opened h (around'.stamp moment) agentId title
    rwa [hopen'] at hstill

end Opening

section Entered

variable [SessionStore σ] [ExecutionLog σ] [ImpartialStore σ] [ImpartialLog σ] [PagedStore σ]
  [PagedLog σ] {around around' : Surroundings} {s : Scene σ}

omit [ExecutionLog σ] [ImpartialLog σ] [PagedStore σ] [PagedLog σ] in
private theorem Beside.later_left {session session' : SessionId} {t t' : Scene σ}
    (h : Beside around around' session session' t t') :
    Beside around around' session session' t.later t' :=
  ⟨h.alike, h.requests, h.names.later fun _ _ hnew => hnew, h.names'⟩

/-- A request without a session is entered and then run in the session that it was given, or run at
once. Both ways, the same items are delivered and the turn ends in the same way. The request is
given a session exactly when it comes to a turn, and then either way a session with the same agent
and title is opened in the store, with the same said in it and the same logged; otherwise nothing
is left behind and the model is not asked. -/
theorem TurnRequest.run_entered (hsame : around.SameParties around') {directory : AgentDirectory}
    (hdirectory : ∀ id, around.agent id = .ok (directory.find? id)) {request : TurnRequest}
    (hnone : request.session = none) (scope : TurnScope) (hlogs : PagedLog.Logs s.store)
    (hnames : around.NamesAfresh s) (hnames' : around'.NamesAfresh s) :
    let entry := request.enter.run.run around.host s
    let single := (TurnRequest.run scope request).run around'.host s
    ∃ entered, entry.outcome = some (.ok entered) ∧
      let rest := (TurnRequest.run scope { request with session := entered }).run around.host
        entry.state
      delivered (entry.exchanges ++ rest.exchanges) = delivered single.exchanges ∧
        rest.outcome = single.outcome ∧
        match request.verdict directory with
        | .error rejection =>
          entered = none ∧ delivered single.exchanges = [.ok (notice rejection.message)] ∧
            entry.state.store = s.store ∧ rest.state.store = s.store ∧
            single.state.store = s.store ∧ rest.state.requests = s.requests ∧
            single.state.requests = s.requests
        | .ok turn =>
          let title := some (Turn.title request.content)
          ∃ session session', entered = some session ∧
            PagedStore.Grown s.store ⟨session, turn.agent.id, title⟩ [] [] entry.state.store ∧
            SameGrowth s.store turn.agent.id title (session, rest.state.store)
              (session', single.state.store) := by
  intro entry single
  have hdirectory' : ∀ id, around'.agent id = .ok (directory.find? id) :=
    fun id => hsame.agent ▸ hdirectory id
  cases hverdict : request.verdict directory with
  | error rejection =>
    have hrequest : { request with session := none } = request := by rw [← hnone]
    obtain ⟨houtcome, hsilent, hstore, hrequests⟩ := enter_of_rejected hdirectory hnone hverdict s
    obtain ⟨hitems, hends, hkept, hasked⟩ := run_of_rejected hdirectory hverdict scope entry.state
    obtain ⟨hitems', hends', hkept', hasked'⟩ := run_of_rejected hdirectory' hverdict scope s
    refine ⟨none, houtcome, ?_⟩
    rw [hrequest]
    refine ⟨?_, hends.trans hends'.symm, rfl, hitems', hstore, hkept.trans hstore, hkept',
      hasked.trans hrequests, hasked'⟩
    rw [delivered_append, hsilent, hitems, hitems', List.nil_append]
  | ok turn =>
    obtain ⟨id, haddressee, hturn⟩ := exists_of_verdict_ok hverdict
    obtain rfl := id_of_turnOf hturn
    obtain ⟨session, session', t, t', hopen, hopen', hgrown, hgrown', hbeside⟩ :=
      exists_opened_beside (s := s.later) hlogs hnames.later hnames'.later turn.agent.id
        (some (Turn.title request.content))
    have hentry := enter_of_accepted hdirectory hnone haddressee hturn hopen
    have hsingle := run_of_none hdirectory' hnone haddressee hturn scope hopen'
    have hrest := run_of_session hdirectory haddressee hturn scope session t
    have hecho := Heedful.echo_reported (Turn.echo_within hsame scope turn hbeside.later_left)
    have hgain := sameGain_of_echoes hecho.exchanges
    obtain ⟨hstays, hstays'⟩ := staysIn_of_echoes hecho.exchanges
    have hpages := grown_of_leads (Program.leads_run around.host _ t.later) hstays
      hbeside.later_left.names hgrown
    have hpages' := grown_of_leads (Program.leads_run around'.host _ t') hstays' hbeside.names'
      hgrown'
    simp only [entry, single, hentry, hsingle]
    refine ⟨some session, rfl, ?_⟩
    rw [hrest]
    refine ⟨hgain.delivered, ?_, session, session', rfl, hgrown, _, _, _, _, hpages, hpages',
      hgain.said, hgain.handed⟩
    obtain ⟨hstalled, hstalled'⟩ | ⟨_, _, hended, hended', -⟩ := hecho.ends
    · exact hstalled.trans hstalled'.symm
    · exact hended.trans hended'.symm

section Noon

/-- A clock. -/
private def clock : Tool :=
  ⟨"1", "clock", "", .native, true, emptySchemaText⟩

/-- An agent with a clock. -/
private def timekeeper : Agent :=
  ⟨"bot", "Bot", [⟨"p", "Be brief.", true⟩], [clock], ⟨"m", 0, none⟩⟩

/-- A request with blanks around the id of its agent. -/
private def question : TurnRequest :=
  ⟨some " bot ", "What time is it?", none⟩

/-- Surroundings with a script that calls the clock and then answers. -/
private def midday (seconds : Int) (letters : Nat) (duration : UInt64) : Surroundings :=
  let script : List ModelAnswer :=
    [.ok ⟨[.ok ⟨some "Let me ", [], false⟩,
        .ok ⟨some "see. ", [⟨0, some "c", some "clock", some "\x7b\x7d"⟩], true⟩], false⟩,
      .ok ⟨[.ok ⟨some "Noon.", [], true⟩], false⟩]
  ⟨fun id => .ok ((AgentDirectory.ofList [timekeeper]).find? id), fun _ _ => some (.ok .null),
    fun asked => script.getD (asked.length - 1) (.error (.exhausted asked.length)),
    fun moment => ⟨⟨seconds + moment, 0⟩, String.ofList (List.replicate (moment + letters) 'n')⟩,
    fun _ => duration⟩

private theorem namesAfresh_midday (seconds : Int) (letters : Nat) (duration : UInt64) :
    (midday seconds letters duration).NamesAfresh
      (⟨(.empty, .empty), [], 0⟩ : Scene (MemoryStore × MemoryLog)) where
  injective := Assignment.injective_letters.comp (add_left_injective letters)
  isNew _ _ := trivial
  isNewSession _ _ := trivial
  card? _ _ := rfl
  kept _ _ := rfl

/-- Entered beforehand, the question is answered in a session of its own as it is when it is run at
once: in three pieces, at other times, under other names and with a slower clock. -/
theorem TurnRequest.run_entered_noon :
    let start : Scene (MemoryStore × MemoryLog) := ⟨(.empty, .empty), [], 0⟩
    let scope : TurnScope := ⟨.standard, fun _ => true, 3⟩
    let entry := question.enter.run.run (midday 0 0 5).host start
    let single := (TurnRequest.run scope question).run (midday 99 7 8).host start
    delivered single.exchanges = [.ok "Let me ", .ok "see. ", .ok "Noon."] ∧
      ∃ session session', entry.outcome = some (.ok (some session)) ∧
        let rest := (TurnRequest.run scope { question with session := some session }).run
          (midday 0 0 5).host entry.state
        delivered (entry.exchanges ++ rest.exchanges) = delivered single.exchanges ∧
          SameGrowth start.store "bot" (some "What time is it?") (session, rest.state.store)
            (session', single.state.store) := by
  intro start scope entry single
  have hverdict : question.verdict (AgentDirectory.ofList [timekeeper]) =
      .ok ⟨timekeeper, ⟨"p", "Be brief.", true⟩, "What time is it?", none, []⟩ := by
    have haddressee : question.addressee = .ok "bot" := by decide +kernel
    rw [verdict, haddressee]
    rfl
  have htitle : Turn.title question.content = "What time is it?" := by decide +kernel
  refine ⟨by decide +kernel, ?_⟩
  have hsame : (midday 0 0 5).SameParties (midday 99 7 8) := ⟨rfl, rfl, rfl⟩
  have hnone : question.session = none := rfl
  obtain ⟨entered, hentered, hitems, -, hkept⟩ := run_entered hsame (fun _ => rfl) hnone scope
    trivial (namesAfresh_midday 0 0 5) (namesAfresh_midday 99 7 8)
  rw [hverdict] at hkept
  obtain ⟨session, session', rfl, -, hgrowth⟩ := hkept
  rw [htitle] at hgrowth
  exact ⟨session, session', hentered, hitems, hgrowth⟩

end Noon

end Entered

end Colloquy
