import Colloquy.Proofs.Turn.Chunking
import Colloquy.Proofs.Turn.Traces

/-!
# Turns that echo each other

One turn runs twice among the same agents, tools and answers of the model, each time in a session of
its own. Between the sessions, only times, durations and new names make a difference, and so the
runs go side by side exchange by exchange: not only the same text is delivered but the same pieces.
What is known of turns in tandem is used wherever nothing is delivered.
-/

namespace Colloquy

variable {α β σ : Type}

/-- Surroundings that differ only in what comes from outside. -/
structure Surroundings.SameParties (around around' : Surroundings) : Prop where
  /-- The agents are the same. -/
  agent : around.agent = around'.agent
  /-- The tools reply the same. -/
  reply : around.reply = around'.reply
  /-- The model answers the same. -/
  answer : around.answer = around'.answer

theorem ModelStream.Rechunks.refl (stream : ModelStream) : stream.Rechunks stream :=
  ⟨rfl, rfl, fun _ => rfl, fun _ => rfl, fun _ => rfl⟩

theorem ModelAnswer.Rechunks.refl (answer : ModelAnswer) : answer.Rechunks answer := by
  cases answer with
  | error fault => exact .refused fault
  | ok stream => exact .answered (.refl stream)

theorem Surroundings.SameParties.rechunks {around around' : Surroundings}
    (h : around.SameParties around') : around.Rechunks around' :=
  ⟨h.agent, h.reply, fun _ => h.answer ▸ .refl _⟩

/-- Whether an effect neither opens a session nor delivers text. -/
def Effect.isPlain : Effect → Bool
  | .openSession _ _ | .deliver (.ok _) => false
  | _ => true

/-- Programs that neither open sessions nor deliver text. -/
def Plain (p : TurnProgram α) : Prop :=
  ∀ t o, p.Course (fun _ => True) t o → ∀ exchange ∈ t, exchange.1.isPlain

section Plain

theorem Plain.run {p : TurnProgram α} (h : Plain p) (host : Program.Host Effect Effect.Answer σ)
    (s : σ) : ∀ exchange ∈ (p.run host s).exchanges, exchange.1.isPlain :=
  h _ _ ((Program.course_run host p s).mono fun _ _ => trivial)

theorem plain_done (a : α) : Plain (.done a) := by
  intro t o h
  obtain ⟨rfl, -⟩ := (Program.course_done_iff _ _ _).mp h
  exact fun _ => nofun

theorem plain_ask {effect : Effect} (h : effect.isPlain) : Plain (Effect.ask effect) := by
  intro t o hcourse
  obtain ⟨-, rfl, -⟩ | ⟨answer, rfl, -⟩ := (Program.course_query_iff _ _ _).mp hcourse
  · exact fun _ => nofun
  · exact List.forall_mem_singleton.mpr h

theorem Plain.bind {p : TurnProgram α} {f : α → TurnProgram β} (h : Plain p)
    (hf : ∀ a, Plain (f a)) : Plain (p >>= f) := by
  intro t o hcourse
  obtain ⟨hstop, -⟩ | ⟨a, t₁, t₂, rfl, h₁, h₂⟩ := (Program.course_bind_iff _ _ _ _).mp hcourse
  · exact h _ _ hstop
  · exact List.forall_mem_append.mpr ⟨h _ _ h₁, hf a _ _ h₂⟩

theorem Plain.ofStore {p : TurnProgram (Except StoreFault α)} (h : Plain p) :
    Plain (Heedful.ofAttempt (Attempt.ofStore p)).run.attended := by
  rw [Heedful.attended_ofAttempt]
  exact (h.bind fun _ => plain_done _).bind fun _ => plain_done _

/-- Calls are handled without opening sessions and without delivering text. -/
theorem Batch.plain_calls (serves : ToolKind → Bool) (agent : Agent) (session : SessionId)
    (cs : List ToolCall) : Plain (calls serves agent session cs) := by
  intro t o h
  obtain ⟨work, records, hdone, hpart, -⟩ := completed_of_course h
  intro exchange hmem
  have hwork := isWork_of_completed hdone exchange (hpart.subset hmem)
  obtain ⟨effect, answer⟩ := exchange
  cases effect <;> first | rfl | cases hwork

end Plain

/-- Exchanges that echo each other: both deliver one piece of text, or they are alike without
delivering text or opening a session. -/
inductive TurnExchange.Echoes (session session' : SessionId) : TurnExchange → TurnExchange → Prop
  /-- A piece of text is delivered. -/
  | said (piece : String) : Echoes session session' (.piece piece) (.piece piece)
  /-- Something else is done. -/
  | did {exchange exchange' : TurnExchange} (hplain : exchange.1.isPlain)
    (halike : exchange.Alike session session' exchange') :
    Echoes session session' exchange exchange'

/-- Two runs echo each other if their exchanges do, and either none of them ends or both do as
`Ends` says. -/
structure Echo (session session' : SessionId) (Ends : α → α → Scene σ → Scene σ → Prop)
    (run run' : Program.Run Effect.Answer α (Scene σ)) : Prop where
  exchanges : List.Forall₂ (TurnExchange.Echoes session session') run.exchanges run'.exchanges
  ends : run.outcome = none ∧ run'.outcome = none ∨
    ∃ a a', run.outcome = some a ∧ run'.outcome = some a' ∧ Ends a a' run.state run'.state

section Echo

variable {session session' : SessionId} {Ends : α → α → Scene σ → Scene σ → Prop}
  {Ends' : β → β → Scene σ → Scene σ → Prop} {s s' : Scene σ}

namespace Echo

theorem done {a a' : α} (h : Ends a a' s s') :
    Echo session session' Ends ⟨[], some a, s⟩ ⟨[], some a', s'⟩ :=
  ⟨.nil, .inr ⟨a, a', rfl, rfl, h⟩⟩

/-- The same pieces echo each other. -/
theorem said (pieces : List String) {a a' : α} (h : Ends a a' s s') :
    Echo session session' Ends ⟨pieces.map TurnExchange.piece, some a, s⟩
      ⟨pieces.map TurnExchange.piece, some a', s'⟩ := by
  refine ⟨?_, .inr ⟨a, a', rfl, rfl, h⟩⟩
  rw [List.forall₂_map_left_iff, List.forall₂_map_right_iff]
  exact List.forall₂_same.mpr fun piece _ => .said piece

/-- Runs that echo each other go on to do so. -/
theorem bind {host host' : Program.Host Effect Effect.Answer (Scene σ)} {p p' : TurnProgram α}
    {f f' : α → TurnProgram β}
    (h : Echo session session' Ends (p.run host s) (p'.run host' s'))
    (hf : ∀ a a' t t', Ends a a' t t' →
      Echo session session' Ends' ((f a).run host t) ((f' a').run host' t')) :
    Echo session session' Ends' ((p >>= f).run host s) ((p' >>= f').run host' s') := by
  rw [Program.run_bind, Program.run_bind, Program.Run.andThen, Program.Run.andThen]
  obtain ⟨hexchanges, ⟨hnone, hnone'⟩ | ⟨a, a', ho, ho', hends⟩⟩ := h
  · rw [hnone, hnone']
    exact ⟨hexchanges, .inl ⟨rfl, rfl⟩⟩
  · obtain ⟨hexchanges₂, hends₂⟩ := hf a a' _ _ hends
    rw [ho, ho']
    exact ⟨List.rel_append hexchanges hexchanges₂, hends₂⟩

end Echo

private theorem acts_eq_of_plain {t : List TurnExchange}
    (h : ∀ exchange ∈ t, exchange.1.isPlain) : acts t = t := by
  refine List.filter_eq_self.mpr fun ⟨effect, answer⟩ hmem => ?_
  have hplain := h _ hmem
  cases effect with
  | deliver item =>
    cases item with
    | ok piece => cases hplain
    | error fault => rfl
  | _ => rfl

/-- Runs without text that agree echo each other. -/
theorem Agree.echo {run run' : Program.Run Effect.Answer α (Scene σ)}
    (h : Agree session session' Ends run run')
    (hplain : ∀ exchange ∈ run.exchanges, exchange.1.isPlain)
    (hplain' : ∀ exchange ∈ run'.exchanges, exchange.1.isPlain) :
    Echo session session' Ends run run' := by
  have halike := h.alike
  rw [acts_eq_of_plain hplain, acts_eq_of_plain hplain'] at halike
  refine ⟨?_, h.ends⟩
  have hboth := (List.forall₂_and_left _ _).mpr ⟨hplain, halike⟩
  exact hboth.imp fun _ _ hexchange => .did hexchange.1 hexchange.2

end Echo

section Heedful

variable [SessionStore σ] [ExecutionLog σ] [ImpartialStore σ]

/-- Two heedful programs echo each other if what is left of them for a listener who stays does, on
scenes that are beside each other, and leads to such scenes. -/
def Heedful.InEcho (σ : Type) [SessionStore σ] [ExecutionLog σ] [ImpartialStore σ]
    (around around' : Surroundings) (session session' : SessionId) (rel : α → α → Prop)
    (h h' : Heedful α) : Prop :=
  ∀ s s' : Scene σ, Beside around around' session session' s s' →
    Echo session session'
      (fun r r' t t' => Matching rel r r' ∧ Beside around around' session session' t t')
      (h.run.attended.run around.host s) (h'.run.attended.run around'.host s')

namespace Heedful

variable {around around' : Surroundings} {session session' : SessionId}
  {rel : α → α → Prop} {rel' : β → β → Prop}

theorem inEcho_pure {a a' : α} (h : rel a a') :
    InEcho σ around around' session session' rel (pure a) (pure a') :=
  fun _ _ hbeside => .done ⟨h, hbeside⟩

theorem inEcho_throw (i : Interruption) :
    InEcho σ around around' session session' rel (throw i) (throw i) :=
  fun _ _ hbeside => .done ⟨rfl, hbeside⟩

theorem inEcho_waitForever :
    InEcho σ around around' session session' rel waitForever waitForever :=
  fun _ _ _ => ⟨.nil, .inl ⟨rfl, rfl⟩⟩

/-- What follows programs that echo each other has to do so on scenes that are beside each other. -/
theorem InEcho.echo_bind {Ends : Except Interruption β → Except Interruption β → Scene σ →
    Scene σ → Prop} {h h' : Heedful α} {f f' : α → Heedful β}
    (hh : InEcho σ around around' session session' rel h h') {s s' : Scene σ}
    (hbeside : Beside around around' session session' s s')
    (hthrow : ∀ i t t', Beside around around' session session' t t' →
      Ends (.error i) (.error i) t t')
    (hf : ∀ a a' (t t' : Scene σ), rel a a' → Beside around around' session session' t t' →
      Echo session session' Ends ((f a).run.attended.run around.host t)
        ((f' a').run.attended.run around'.host t')) :
    Echo session session' Ends ((h >>= f).run.attended.run around.host s)
      ((h' >>= f').run.attended.run around'.host s') := by
  rw [ExceptT.run_bind, ExceptT.run_bind, HeedfulProgram.attended_bind,
    HeedfulProgram.attended_bind]
  refine (hh s s' hbeside).bind ?_
  rintro (i | a) (i' | a') t t' ⟨hmatch, hbeside⟩
  · obtain rfl : i = i' := hmatch
    exact .done (hthrow i t t' hbeside)
  · exact hmatch.elim
  · exact hmatch.elim
  · exact hf a a' t t' hmatch hbeside

theorem InEcho.bind {h h' : Heedful α} {f f' : α → Heedful β}
    (hh : InEcho σ around around' session session' rel h h')
    (hf : ∀ a a', rel a a' → InEcho σ around around' session session' rel' (f a) (f' a')) :
    InEcho σ around around' session session' rel' (h >>= f) (h' >>= f') :=
  fun _ _ hbeside => hh.echo_bind hbeside (fun _ _ _ hbeside => ⟨rfl, hbeside⟩)
    fun a a' t t' hrel hbeside => hf a a' hrel t t' hbeside

/-- Programs in tandem that are plain echo each other. -/
theorem InTandem.inEcho {h h' : Heedful α}
    (hh : InTandem σ around around' session session' rel h h') (hplain : Plain h.run.attended)
    (hplain' : Plain h'.run.attended) : InEcho σ around around' session session' rel h h' :=
  fun s s' hbeside => (hh s s' hbeside).echo (hplain.run _ _) (hplain'.run _ _)

theorem inEcho_append (draft : Draft) :
    InEcho σ around around' session session' (fun _ _ => True)
      (ofAttempt (Attempt.append session draft)) (ofAttempt (Attempt.append session' draft)) :=
  (inTandem_append draft).inEcho (plain_ask rfl).ofStore (plain_ask rfl).ofStore

theorem inEcho_recentHistory (limit : Nat) :
    InEcho σ around around' session session'
      (fun history history' => history.map Message.said = history'.map Message.said)
      (ofAttempt (Attempt.recentHistory session limit))
      (ofAttempt (Attempt.recentHistory session' limit)) :=
  (inTandem_recentHistory limit).inEcho (plain_ask rfl).ofStore (plain_ask rfl).ofStore

/-- The same model answers with the same stream. -/
theorem inEcho_complete (hsame : around.SameParties around') (request : CompletionRequest) :
    InEcho σ around around' session session' Eq
      (ofAttempt (Attempt.complete request)) (ofAttempt (Attempt.complete request)) := by
  rintro ⟨store, requests, moment⟩ ⟨store', requests', moment'⟩ ⟨halike, rfl, hnames, hnames'⟩
  have hanswer : around.answer (requests ++ [request]) = around'.answer (requests ++ [request]) :=
    congrFun hsame.answer _
  have hrun (around : Surroundings) (store : σ) (moment : Nat) :
      (HeedfulProgram.attended (ofAttempt (Attempt.complete request)).run).run around.host
          ⟨store, requests, moment⟩ =
        ⟨[⟨.complete request, around.answer (requests ++ [request])⟩],
          some (((around.answer (requests ++ [request])).mapError .model).mapError .fault),
          ⟨store, requests ++ [request], moment + 1⟩⟩ := by
    rw [attended_ofAttempt]
    rfl
  rw [hrun, hrun, hanswer]
  refine ⟨.cons (.did rfl (.asked request (.refl _))) .nil, .inr ⟨_, _, rfl, rfl, ?_, halike, rfl,
    hnames.later fun _ _ hnew => hnew, hnames'.later fun _ _ hnew => hnew⟩⟩
  cases around'.answer (requests ++ [request]) <;> exact rfl

end Heedful

end Heedful

namespace Turn

open Heedful

variable [SessionStore σ] [ExecutionLog σ] [ImpartialStore σ] {around around' : Surroundings}
  {session session' : SessionId}

/-- Pieces are delivered in the same way in both scenes. -/
theorem inEcho_forwardAll (pieces : List String) :
    InEcho σ around around' session session' (fun _ _ => True) (forwardAll pieces)
      (forwardAll pieces) := by
  rintro s s' ⟨halike, hrequests, hnames, hnames'⟩
  rw [run_forwardAll, run_forwardAll]
  refine .said pieces ⟨trivial, halike, hrequests, ?_, ?_⟩
  · exact ⟨hnames.injective, fun moment hle => hnames.isNew moment (Nat.le_of_add_right_le hle)⟩
  · exact ⟨hnames'.injective, fun moment hle => hnames'.isNew moment (Nat.le_of_add_right_le hle)⟩

theorem inEcho_say (piece : String) :
    InEcho σ around around' session session' (fun _ _ => True) (say piece) (say piece) :=
  inEcho_forwardAll [piece]

/-- What is in echo stays so when it is put together. -/
theorem congruent_inEcho : Congruent (InEcho σ around around' session session') where
  pure := inEcho_pure
  throw := inEcho_throw
  bind := InEcho.bind
  await := inEcho_pure trivial
  waitForever := inEcho_waitForever

/-- A level hears and says the same in both sessions. -/
theorem inEcho_answer (hsame : around.SameParties around') (settings : TurnSettings) (turn : Turn)
    (content text : String) :
    InEcho σ around around' session session' Eq (answer settings turn session content text)
      (answer settings turn session' content text) := by
  refine congruent_inEcho.answer settings turn (inEcho_recentHistory settings.historyLimit)
    (inEcho_complete hsame) ?_ content text
  rintro text stream _ rfl
  exact congruent_inEcho.forward text (.refl stream) (inEcho_forwardAll stream.texts)

variable [ImpartialLog σ]

/-- Calls are handled in the same way in both sessions. -/
theorem inEcho_calls (hsame : around.SameParties around') (serves : ToolKind → Bool)
    (agent : Agent) (calls : List ToolCall) :
    InEcho σ around around' session session' SameSubstance
      (guard (Batch.calls serves agent session calls))
      (guard (Batch.calls serves agent session' calls)) := by
  have hplain (session : SessionId) :
      Plain (HeedfulProgram.attended (guard (Batch.calls serves agent session calls)).run) := by
    rw [attended_guard]
    exact (Batch.plain_calls serves agent session calls).bind fun _ => plain_done _
  exact (inTandem_guard (Batch.tandem_calls hsame.rechunks serves agent calls)).inEcho
    (hplain session) (hplain session')

/-- The levels echo each other. -/
theorem inEcho_levels (hsame : around.SameParties around') (scope : TurnScope) (turn : Turn)
    (horizon : Nat) {progress progress' : Progress} (h : Abreast progress progress') :
    InEcho σ around around' session session' Abreast (levels scope turn session horizon progress)
      (levels scope turn session' horizon progress') :=
  congruent_inEcho.levels scope turn inEcho_say (inEcho_answer hsame scope.settings turn)
    (inEcho_calls hsame scope.serves turn.agent) horizon h

private theorem plain_conclude (session : SessionId) (progress : Progress) :
    Plain (HeedfulProgram.attended (conclude session progress).run) := by
  rw [conclude]
  split
  · rw [Attempt.append, attended_ofStore_bind]
    refine (plain_ask rfl).bind ?_
    rintro (fault | id) <;> exact plain_done _
  · exact plain_done _

/-- In its sessions, a turn does the same, and ends in the same way. -/
theorem echo_within (hsame : around.SameParties around') (scope : TurnScope) (turn : Turn)
    {s s' : Scene σ} (hbeside : Beside around around' session session' s s') :
    Echo session session' (fun r r' _ _ => r = r')
      ((turn.within scope session).run.attended.run around.host s)
      ((turn.within scope session').run.attended.run around'.host s') := by
  rw [within, within]
  refine (inEcho_append (.user turn.content)).echo_bind hbeside (fun _ _ _ _ => rfl) ?_
  intro _ _ t t' _ hbeside
  have hstart : Abreast turn.start turn.start := ⟨rfl, rfl, rfl, rfl⟩
  refine (inEcho_levels hsame scope turn scope.horizon hstart).echo_bind hbeside
    (fun _ _ _ _ => rfl) ?_
  intro progress progress' u u' habreast hbeside
  exact (agree_conclude habreast hbeside).echo ((plain_conclude session progress).run _ _)
    ((plain_conclude session' progress').run _ _)

end Turn

/-- A fault that ends both is delivered by both. -/
theorem Heedful.echo_reported [SessionStore σ] [ExecutionLog σ] {around around' : Surroundings}
    {session session' : SessionId} {h h' : Heedful Unit} {s s' : Scene σ}
    (hecho : Echo session session' (fun r r' _ _ => r = r')
      (h.run.attended.run around.host s) (h'.run.attended.run around'.host s')) :
    Echo session session' (fun _ _ _ _ => True)
      (h.reported.attended.run around.host s) (h'.reported.attended.run around'.host s') := by
  rw [reported, reported, HeedfulProgram.attended_bind, HeedfulProgram.attended_bind]
  refine hecho.bind ?_
  rintro r _ t t' rfl
  obtain (_ | fault) | _ := r
  · exact .done trivial
  · rw [HeedfulProgram.attended_bind, attended_guard, Program.bind_assoc]
    have hplain : Plain (Effect.ask (.deliver (.error fault))) := plain_ask rfl
    refine ((agree_report fault t t').echo (hplain.run _ _) (hplain.run _ _)).bind ?_
    exact fun _ _ _ _ _ => .done trivial
  · exact .done trivial

end Colloquy
