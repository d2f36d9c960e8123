import Colloquy.Proofs.Turn.Assignment
import Colloquy.Proofs.Turn.Surroundings

/-!
# Turns in tandem

Two runs of one turn in surroundings that differ only in chunks, times and names go side by side. At
each point, they do what is alike, have delivered the same text, and leave scenes behind that are
beside each other; how many pieces the text was delivered in does not matter. The argument goes
along the programs: parts in tandem make wholes in tandem.
-/

namespace Colloquy

variable {α β σ : Type}

/-- Two runs agree if what they do is alike, they deliver the same text, and either none of them
ends or both do as `Ends` says. -/
structure Agree (session session' : SessionId) (Ends : α → α → Scene σ → Scene σ → Prop)
    (run run' : Program.Run Effect.Answer α (Scene σ)) : Prop where
  alike : List.Forall₂ (TurnExchange.Alike session session') (acts run.exchanges)
    (acts run'.exchanges)
  text : spoken run.exchanges = spoken run'.exchanges
  ends : run.outcome = none ∧ run'.outcome = none ∨
    ∃ a a', run.outcome = some a ∧ run'.outcome = some a' ∧ Ends a a' run.state run'.state

namespace Agree

variable {session session' : SessionId} {Ends : α → α → Scene σ → Scene σ → Prop}
  {Ends' : β → β → Scene σ → Scene σ → Prop} {s s' : Scene σ}

theorem done {a a' : α} (h : Ends a a' s s') :
    Agree session session' Ends ⟨[], some a, s⟩ ⟨[], some a', s'⟩ :=
  ⟨.nil, rfl, .inr ⟨a, a', rfl, rfl, h⟩⟩

theorem stalled : Agree session session' Ends ⟨[], none, s⟩ ⟨[], none, s'⟩ :=
  ⟨.nil, rfl, .inl ⟨rfl, rfl⟩⟩

/-- What is alike delivers no text. -/
private theorem piece?_of_alike {exchange exchange' : TurnExchange}
    (h : exchange.Alike session session' exchange') :
    exchange.piece? = none ∧ exchange'.piece? = none := by
  cases h <;> exact ⟨rfl, rfl⟩

theorem single {exchange exchange' : TurnExchange} {a a' : α}
    (halike : TurnExchange.Alike session session' exchange exchange') (h : Ends a a' s s') :
    Agree session session' Ends ⟨[exchange], some a, s⟩ ⟨[exchange'], some a', s'⟩ := by
  obtain ⟨hnone, hnone'⟩ := piece?_of_alike halike
  refine ⟨?_, ?_, .inr ⟨a, a', rfl, rfl, h⟩⟩
  · have hact : acts [exchange] = [exchange] := by simp [acts, hnone]
    have hact' : acts [exchange'] = [exchange'] := by simp [acts, hnone']
    rw [hact, hact']
    exact .cons halike .nil
  · simp [spoken, hnone, hnone']

/-- Pieces that make the same text agree. -/
theorem said {pieces pieces' : List String} (hjoin : String.join pieces = String.join pieces')
    {a a' : α} (h : Ends a a' s s') :
    Agree session session' Ends ⟨pieces.map TurnExchange.piece, some a, s⟩
      ⟨pieces'.map TurnExchange.piece, some a', s'⟩ := by
  refine ⟨?_, ?_, .inr ⟨a, a', rfl, rfl, h⟩⟩
  · rw [acts_pieces, acts_pieces]
    exact .nil
  · rw [spoken_pieces, spoken_pieces, hjoin]

/-- Runs that agree go on to agree. -/
theorem bind {host host' : Program.Host Effect Effect.Answer (Scene σ)} {p p' : TurnProgram α}
    {f f' : α → TurnProgram β}
    (h : Agree session session' Ends (p.run host s) (p'.run host' s'))
    (hf : ∀ a a' t t', Ends a a' t t' →
      Agree session session' Ends' ((f a).run host t) ((f' a').run host' t')) :
    Agree session session' Ends' ((p >>= f).run host s) ((p' >>= f').run host' s') := by
  rw [Program.run_bind, Program.run_bind, Program.Run.andThen, Program.Run.andThen]
  obtain ⟨hacts, hspoken, ⟨hnone, hnone'⟩ | ⟨a, a', ho, ho', hends⟩⟩ := h
  · rw [hnone, hnone']
    exact ⟨hacts, hspoken, .inl ⟨rfl, rfl⟩⟩
  · obtain ⟨hacts₂, hspoken₂, hends₂⟩ := hf a a' _ _ hends
    rw [ho, ho']
    refine ⟨?_, ?_, hends₂⟩
    · rw [acts_append, acts_append]
      exact List.rel_append hacts hacts₂
    · rw [spoken_append, spoken_append, hspoken, hspoken₂]

end Agree

theorem Agree.imp {session session' : SessionId} {Ends Ends' : α → α → Scene σ → Scene σ → Prop}
    {run run' : Program.Run Effect.Answer α (Scene σ)} (h : Agree session session' Ends run run')
    (himp : ∀ a a' t t', Ends a a' t t' → Ends' a a' t t') :
    Agree session session' Ends' run run' :=
  ⟨h.alike, h.text, h.ends.imp_right fun ⟨a, a', ho, ho', hends⟩ =>
    ⟨a, a', ho, ho', himp _ _ _ _ hends⟩⟩

section Runs

variable {host : Program.Host Effect Effect.Answer σ} {s s₁ : σ} {effect : Effect}

private theorem run_ask_of_some {answer : effect.Answer} (h : host effect s = some (answer, s₁)) :
    (Effect.ask effect).run host s = ⟨[⟨effect, answer⟩], some answer, s₁⟩ := by
  rw [Effect.ask, Program.query, Program.run, h]
  rfl

private theorem run_ask_of_none (h : host effect s = none) :
    (Effect.ask effect).run host s = ⟨[], none, s⟩ := by
  rw [Effect.ask, Program.query, Program.run, h]

end Runs

variable [SessionStore σ] [ExecutionLog σ] [ImpartialStore σ]

/-- Two scenes of turns that go on in two sessions are beside each other if nothing but chunks,
times and names tells them apart. -/
structure Beside (around around' : Surroundings) (session session' : SessionId)
    (scene scene' : Scene σ) : Prop where
  alike : ImpartialStore.Alike (session, scene.store) (session', scene'.store)
  requests : scene.requests = scene'.requests
  names : around.NamesMessages scene
  names' : around'.NamesMessages scene'

/-- Two programs of effects are in tandem if they agree on scenes that are beside each other, and
lead to such scenes. -/
def Tandem (σ : Type) [SessionStore σ] [ExecutionLog σ] [ImpartialStore σ]
    (around around' : Surroundings) (session session' : SessionId) (rel : α → α → Prop)
    (p p' : TurnProgram α) : Prop :=
  ∀ s s' : Scene σ, Beside around around' session session' s s' →
    Agree session session'
      (fun a a' t t' => rel a a' ∧ Beside around around' session session' t t')
      (p.run around.host s) (p'.run around'.host s')

namespace Tandem

variable {around around' : Surroundings} {session session' : SessionId}
  {rel : α → α → Prop} {rel' : β → β → Prop}

theorem done {a a' : α} (h : rel a a') :
    Tandem σ around around' session session' rel (.done a) (.done a') :=
  fun _ _ hbeside => .done ⟨h, hbeside⟩

theorem bind {p p' : TurnProgram α} {f f' : α → TurnProgram β}
    (h : Tandem σ around around' session session' rel p p')
    (hf : ∀ a a', rel a a' → Tandem σ around around' session session' rel' (f a) (f' a')) :
    Tandem σ around around' session session' rel' (p >>= f) (p' >>= f') :=
  fun s s' hbeside => (h s s' hbeside).bind fun a a' t t' hends => hf a a' hends.1 t t' hends.2

/-- Both stores answer a reader of the history in the same way. -/
theorem recentHistory (limit : Nat) :
    Tandem σ around around' session session'
      (fun answer answer' => answer.map (·.map Message.said) = answer'.map (·.map Message.said))
      (Effect.ask (.recentHistory session limit)) (Effect.ask (.recentHistory session' limit)) := by
  rintro ⟨store, requests, moment⟩ ⟨store', requests', moment'⟩ ⟨halike, hrequests, hnames, hnames'⟩
  have hsaid := ImpartialStore.alike_history halike (around.stamp moment).now
    (around'.stamp moment').now limit
  rw [run_ask_of_some rfl, run_ask_of_some rfl]
  refine .single (.heard limit hsaid) ⟨hsaid, halike, hrequests, ?_, ?_⟩
  · exact hnames.later fun _ _ hnew => hnew
  · exact hnames'.later fun _ _ hnew => hnew

/-- Both models say the same. -/
theorem complete (hrechunks : around.Rechunks around') (request : CompletionRequest) :
    Tandem σ around around' session session' ModelAnswer.Rechunks
      (Effect.ask (.complete request)) (Effect.ask (.complete request)) := by
  rintro ⟨store, requests, moment⟩ ⟨store', requests', moment'⟩ ⟨halike, rfl, hnames, hnames'⟩
  have hanswer := hrechunks.answer (requests ++ [request])
  rw [run_ask_of_some rfl, run_ask_of_some rfl]
  refine .single (.asked request hanswer) ⟨hanswer, halike, rfl, ?_, ?_⟩
  · exact hnames.later fun _ _ hnew => hnew
  · exact hnames'.later fun _ _ hnew => hnew

/-- Both stores take messages of one substance, or none does. Behind the same message, the scenes are
beside each other again. -/
theorem agree_append {draft draft' : Draft} (hdraft : draft.substance = draft'.substance)
    {s s' : Scene σ} (hbeside : Beside around around' session session' s s') :
    Agree session session'
      (fun answer answer' t t' => answer.map (fun _ => ()) = answer'.map (fun _ => ()) ∧
        (draft = draft' → Beside around around' session session' t t'))
      ((Effect.ask (.append session draft)).run around.host s)
      ((Effect.ask (.append session' draft')).run around'.host s') := by
  obtain ⟨store, requests, moment⟩ := s
  obtain ⟨store', requests', moment'⟩ := s'
  obtain ⟨halike, hrequests, hnames, hnames'⟩ := hbeside
  have hnew := hnames.isNew moment (Nat.le_refl _)
  have hnew' := hnames'.isNew moment' (Nat.le_refl _)
  have hlater : around.NamesMessages ⟨_, requests, moment + 1⟩ :=
    hnames.later fun name hname h => ImpartialStore.new_appended h hnew hname session draft
  have hlater' : around'.NamesMessages ⟨_, requests', moment' + 1⟩ :=
    hnames'.later fun name hname h => ImpartialStore.new_appended h hnew' hname session' draft'
  obtain ⟨fault, s₁, s₁', h, h', halike₁⟩ | ⟨s₁, s₁', h, h', halike₁⟩ :=
    ImpartialStore.alike_appended halike hnew hnew' draft draft'
  · rw [h] at hlater
    rw [h'] at hlater'
    have hhost : around.host (.append session draft) ⟨store, requests, moment⟩ =
        some (.error fault, ⟨s₁, requests, moment + 1⟩) := by rw [Surroundings.host, h]
    have hhost' : around'.host (.append session' draft') ⟨store', requests', moment'⟩ =
        some (.error fault, ⟨s₁', requests', moment' + 1⟩) := by rw [Surroundings.host, h']
    rw [run_ask_of_some hhost, run_ask_of_some hhost']
    exact .single (.refused hdraft fault) ⟨rfl, fun _ => ⟨halike₁, hrequests, hlater, hlater'⟩⟩
  · rw [h] at hlater
    rw [h'] at hlater'
    have hhost : around.host (.append session draft) ⟨store, requests, moment⟩ =
        some (.ok (around.stamp moment).name, ⟨s₁, requests, moment + 1⟩) := by
      rw [Surroundings.host, h]
    have hhost' : around'.host (.append session' draft') ⟨store', requests', moment'⟩ =
        some (.ok (around'.stamp moment').name, ⟨s₁', requests', moment' + 1⟩) := by
      rw [Surroundings.host, h']
    rw [run_ask_of_some hhost, run_ask_of_some hhost']
    refine .single (.appended hdraft _ _) ⟨rfl, fun hsame => ?_⟩
    exact ⟨halike₁ hsame, hrequests, hlater, hlater'⟩

/-- Both stores take a message, or none does. -/
theorem append (draft : Draft) :
    Tandem σ around around' session session'
      (fun answer answer' => answer.map (fun _ => ()) = answer'.map (fun _ => ()))
      (Effect.ask (.append session draft)) (Effect.ask (.append session' draft)) :=
  fun _ _ hbeside => (agree_append rfl hbeside).imp fun _ _ _ _ hends => ⟨hends.1, hends.2 rfl⟩

/-- A tool replies the same, or it never replies. -/
theorem invoke (hrechunks : around.Rechunks around') (tool : Tool) (parameters : Json.Members) :
    Tandem σ around around' session session' (fun answer answer' => answer.1 = answer'.1)
      (Effect.ask (.invoke tool parameters)) (Effect.ask (.invoke tool parameters)) := by
  rintro ⟨store, requests, moment⟩ ⟨store', requests', moment'⟩ ⟨halike, hrequests, hnames, hnames'⟩
  have hreply : around.reply tool parameters = around'.reply tool parameters := by
    rw [hrechunks.reply]
  cases hanswer : around'.reply tool parameters with
  | none =>
    rw [hanswer] at hreply
    have hhost : around.host (.invoke tool parameters) ⟨store, requests, moment⟩ = none := by
      rw [Surroundings.host, hreply, Option.map_none]
    have hhost' : around'.host (.invoke tool parameters) ⟨store', requests', moment'⟩ = none := by
      rw [Surroundings.host, hanswer, Option.map_none]
    rw [run_ask_of_none hhost, run_ask_of_none hhost']
    exact .stalled
  | some reply =>
    rw [hanswer] at hreply
    have hhost : around.host (.invoke tool parameters) ⟨store, requests, moment⟩ =
        some ((reply, around.duration moment), ⟨store, requests, moment + 1⟩) := by
      rw [Surroundings.host, hreply, Option.map_some]
    have hhost' : around'.host (.invoke tool parameters) ⟨store', requests', moment'⟩ =
        some ((reply, around'.duration moment'), ⟨store', requests', moment' + 1⟩) := by
      rw [Surroundings.host, hanswer, Option.map_some]
    rw [run_ask_of_some hhost, run_ask_of_some hhost']
    refine .single (.invoked tool parameters reply _ _) ⟨rfl, halike, hrequests, ?_, ?_⟩
    · exact hnames.later fun _ _ hnew => hnew
    · exact hnames'.later fun _ _ hnew => hnew

theorem readClock :
    Tandem σ around around' session session' (fun _ _ => True) (Effect.ask .readClock)
      (Effect.ask .readClock) := by
  rintro ⟨store, requests, moment⟩ ⟨store', requests', moment'⟩ ⟨halike, hrequests, hnames, hnames'⟩
  rw [run_ask_of_some rfl, run_ask_of_some rfl]
  refine .single (.dated _ _) ⟨trivial, halike, hrequests, ?_, ?_⟩
  · exact hnames.later fun _ _ hnew => hnew
  · exact hnames'.later fun _ _ hnew => hnew

theorem writeLog [ImpartialLog σ] {record record' : ExecutionRecord}
    (hrecord : record.substance = record'.substance) :
    Tandem σ around around' session session' (fun _ _ => True)
      (Effect.ask (.writeLog record)) (Effect.ask (.writeLog record')) := by
  rintro ⟨store, requests, moment⟩ ⟨store', requests', moment'⟩ ⟨halike, hrequests, hnames, hnames'⟩
  rw [run_ask_of_some rfl, run_ask_of_some rfl]
  refine .single (.logged hrecord _ _) ⟨trivial, ?_, hrequests, ?_, ?_⟩
  · exact ImpartialLog.alike_written halike record record'
  · exact hnames.later fun _ _ hnew => ImpartialLog.new_written hnew record
  · exact hnames'.later fun _ _ hnew => ImpartialLog.new_written hnew record'

end Tandem

/-- Two sessions are opened in the same scene, or none is. -/
theorem exists_agree_openSession {around around' : Surroundings} {s : Scene σ}
    (hnames : around.NamesAll s) (hnames' : around'.NamesAll s) (agentId : String)
    (title : Option String) :
    ∃ session session', Agree session session'
      (fun answer answer' t t' => (∃ fault, answer = .error fault ∧ answer' = .error fault) ∨
        answer = .ok session ∧ answer' = .ok session' ∧
          Beside around around' session session' t t')
      ((Effect.ask (.openSession agentId title)).run around.host s)
      ((Effect.ask (.openSession agentId title)).run around'.host s) := by
  obtain ⟨store, requests, moment⟩ := s
  have hnew := hnames.isNewSession moment (Nat.le_refl _)
  have hnew' := hnames'.isNewSession moment (Nat.le_refl _)
  have hlater : around.NamesMessages ⟨_, requests, moment + 1⟩ :=
    hnames.toNamesMessages.later fun name _ h =>
      ImpartialStore.new_opened h (around.stamp moment) agentId title
  have hlater' : around'.NamesMessages ⟨_, requests, moment + 1⟩ :=
    hnames'.toNamesMessages.later fun name _ h =>
      ImpartialStore.new_opened h (around'.stamp moment) agentId title
  refine ⟨(around.stamp moment).name, (around'.stamp moment).name, ?_⟩
  obtain ⟨fault, s₁, s₁', h, h'⟩ | ⟨s₁, s₁', h, h', halike⟩ :=
    ImpartialStore.alike_opened agentId title hnew hnew'
  · have hhost : around.host (.openSession agentId title) ⟨store, requests, moment⟩ =
        some (.error fault, ⟨s₁, requests, moment + 1⟩) := by rw [Surroundings.host, h]
    have hhost' : around'.host (.openSession agentId title) ⟨store, requests, moment⟩ =
        some (.error fault, ⟨s₁', requests, moment + 1⟩) := by rw [Surroundings.host, h']
    rw [run_ask_of_some hhost, run_ask_of_some hhost']
    exact .single (.unopened agentId title fault) (.inl ⟨fault, rfl, rfl⟩)
  · rw [h] at hlater
    rw [h'] at hlater'
    have hhost : around.host (.openSession agentId title) ⟨store, requests, moment⟩ =
        some (.ok (around.stamp moment).name, ⟨s₁, requests, moment + 1⟩) := by
      rw [Surroundings.host, h]
    have hhost' : around'.host (.openSession agentId title) ⟨store, requests, moment⟩ =
        some (.ok (around'.stamp moment).name, ⟨s₁', requests, moment + 1⟩) := by
      rw [Surroundings.host, h']
    rw [run_ask_of_some hhost, run_ask_of_some hhost']
    refine .single (.opened agentId title) (.inr ⟨rfl, rfl, halike, rfl, hlater, hlater'⟩)

omit [ImpartialStore σ] in
/-- Behind a look-up, with the same answer, the runs go on in the same scene. -/
theorem agree_findAgent_bind {around around' : Surroundings} (hrechunks : around.Rechunks around')
    {session session' : SessionId} {Ends : α → α → Scene σ → Scene σ → Prop} {s : Scene σ}
    (id : String) {f : Except StoreFault (Option Agent) → TurnProgram α}
    (hf : Agree session session' Ends ((f (around'.agent id)).run around.host s.later)
      ((f (around'.agent id)).run around'.host s.later)) :
    Agree session session' Ends ((Effect.ask (.findAgent id) >>= f).run around.host s)
      ((Effect.ask (.findAgent id) >>= f).run around'.host s) := by
  let Found (answer answer' : Except StoreFault (Option Agent)) (t t' : Scene σ) : Prop :=
    answer = around'.agent id ∧ answer' = around'.agent id ∧ t = s.later ∧ t' = s.later
  have hfound : Agree session session' Found ((Effect.ask (.findAgent id)).run around.host s)
      ((Effect.ask (.findAgent id)).run around'.host s) := by
    obtain ⟨store, requests, moment⟩ := s
    have hhost : around.host (.findAgent id) (⟨store, requests, moment⟩ : Scene σ) =
        some (around'.agent id, ⟨store, requests, moment + 1⟩) := by
      rw [Surroundings.host, hrechunks.agent]
    rw [run_ask_of_some hhost, run_ask_of_some rfl]
    exact .single (.found id _) ⟨rfl, rfl, rfl, rfl⟩
  refine hfound.bind ?_
  rintro answer answer' t t' ⟨rfl, rfl, rfl, rfl⟩
  exact hf

omit [ImpartialStore σ] in
/-- A fault is delivered in any two scenes. -/
theorem agree_report {around around' : Surroundings} {session session' : SessionId} (fault : Fault)
    (s s' : Scene σ) :
    Agree session session' (fun _ _ _ _ => True)
      ((Effect.ask (.deliver (.error fault))).run around.host s)
      ((Effect.ask (.deliver (.error fault))).run around'.host s') := by
  obtain ⟨store, requests, moment⟩ := s
  obtain ⟨store', requests', moment'⟩ := s'
  rw [run_ask_of_some rfl, run_ask_of_some rfl]
  exact .single (.reported fault) trivial

/-- Records of the same substance, one by one. -/
def SameSubstance (records records' : List ExecutionRecord) : Prop :=
  records.map ExecutionRecord.substance = records'.map ExecutionRecord.substance

namespace Batch

variable {around around' : Surroundings} {session session' : SessionId} [ImpartialLog σ]

/-- A call is handled in tandem. -/
theorem tandem_call (hrechunks : around.Rechunks around') (serves : ToolKind → Bool)
    (agent : Agent) (c : ToolCall) :
    Tandem σ around around' session session'
      (fun record record' => record.substance = record'.substance)
      (call serves agent session c) (call serves agent session' c) := by
  rw [call, call]
  cases prepare serves agent c with
  | error fault =>
    refine Tandem.bind Tandem.readClock fun now now' _ => ?_
    exact .done rfl
  | ok prepared =>
    refine (Tandem.invoke hrechunks prepared.tool prepared.parameters).bind ?_
    rintro ⟨reply, duration⟩ ⟨_, duration'⟩ rfl
    refine Tandem.bind Tandem.readClock fun now now' _ => ?_
    refine Tandem.bind (Tandem.writeLog ?_) fun _ _ _ => ?_
    · cases reply <;> rfl
    · refine .done ?_
      cases reply <;> rfl

/-- Calls are handled in tandem. -/
theorem tandem_calls (hrechunks : around.Rechunks around') (serves : ToolKind → Bool)
    (agent : Agent) (cs : List ToolCall) :
    Tandem σ around around' session session' SameSubstance
      (calls serves agent session cs) (calls serves agent session' cs) := by
  induction cs with
  | nil => exact .done rfl
  | cons c cs ih =>
    refine (tandem_call hrechunks serves agent c).bind fun record record' hrecord => ?_
    refine ih.bind fun records records' hrecords => .done ?_
    rw [SameSubstance, List.map_cons, List.map_cons, hrecord, hrecords]

end Batch

end Colloquy
