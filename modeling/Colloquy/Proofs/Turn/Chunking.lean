import Colloquy.Proofs.Turn.Tandem

/-!
# Chunks do not matter

A turn does the same however the model cuts its answers into chunks: it sends the same prompts, has
the same tools run with the same parameters, appends the same messages and delivers the same text.
Of all that happens, only the times, the new names, the durations and the places at which the text
is cut may be different.
-/

namespace Colloquy

variable {α β σ : Type}

/-- Two outcomes that are the same failure, or successes that are related. -/
def Matching {ε : Type} (rel : α → α → Prop) : Except ε α → Except ε α → Prop
  | .ok a, .ok a' => rel a a'
  | .error e, .error e' => e = e'
  | _, _ => False

section Matching

variable {ε : Type} {rel : α → α → Prop} {answer answer' : Except ε α}

private theorem Matching.mapError {ε' : Type} (h : Matching rel answer answer') (f : ε → ε') :
    Matching rel (answer.mapError f) (answer'.mapError f) := by
  cases answer with
  | error e =>
    cases answer' with
    | error e' => exact congrArg f h
    | ok a' => exact h
  | ok a =>
    cases answer' with
    | error e' => exact h
    | ok a' => exact h

private theorem matching_of_map_eq {γ : Type} {f : α → γ}
    (h : answer.map f = answer'.map f) : Matching (fun a a' => f a = f a') answer answer' := by
  cases answer with
  | error e =>
    cases answer' with
    | error e' => exact Except.error.inj h
    | ok a' => cases h
  | ok a =>
    cases answer' with
    | error e' => cases h
    | ok a' => exact Except.ok.inj h

end Matching

/-- A relation between heedful programs, for each relation between what they come to, that is kept
when programs are put together. -/
structure Heedful.Congruent
    (Together : ∀ {α : Type}, (α → α → Prop) → Heedful α → Heedful α → Prop) : Prop where
  pure : ∀ {α : Type} {rel : α → α → Prop} {a a' : α}, rel a a' → Together rel (pure a) (pure a')
  throw : ∀ {α : Type} {rel : α → α → Prop} (i : Interruption), Together rel (throw i) (throw i)
  bind : ∀ {α β : Type} {rel : α → α → Prop} {rel' : β → β → Prop} {h h' : Heedful α}
    {f f' : α → Heedful β}, Together rel h h' →
    (∀ a a', rel a a' → Together rel' (f a) (f' a')) → Together rel' (h >>= f) (h' >>= f')
  await : Together (fun _ _ => True) await await
  waitForever : ∀ {α : Type} {rel : α → α → Prop}, Together rel waitForever waitForever

/-- How far two turns that do the same have come. -/
structure Turn.Abreast (progress progress' : Progress) : Prop where
  content : progress.content = progress'.content
  text : progress.text = progress'.text
  records : SameSubstance progress.records progress'.records
  depth : progress.depth = progress'.depth

theorem Turn.Abreast.after {progress progress' : Progress} (h : Abreast progress progress')
    {batch batch' : List ExecutionRecord} (hbatch : SameSubstance batch batch') (text : String)
    (depth : UInt32) :
    Abreast ⟨followUp batch, text, progress.records ++ batch, depth⟩
      ⟨followUp batch', text, progress'.records ++ batch', depth⟩ := by
  refine ⟨?_, rfl, ?_, rfl⟩
  · rw [← followUp_substance batch, hbatch, followUp_substance]
  · rw [SameSubstance, List.map_append, List.map_append, h.records, hbatch]

/- What two turns do goes together as soon as each thing they do does: the pieces they deliver, what
they ask of the store and of the model, and the calls they have handled. -/
namespace Heedful.Congruent

open Turn

variable {Together : ∀ {α : Type}, (α → α → Prop) → Heedful α → Heedful α → Prop}
  {session session' : SessionId}

/-- Streams that say the same come to the same text and calls. -/
theorem forward (hcongruent : Congruent Together) (text : String) {stream stream' : ModelStream}
    (h : stream.Rechunks stream')
    (hpieces : Together (fun _ _ => True) (forwardAll stream.texts) (forwardAll stream'.texts)) :
    Together Eq (forward text (.ofStream stream)) (forward text (.ofStream stream')) := by
  rw [forward_ofStream, forward_ofStream, ← h.join_texts, ← h.calls, ← h.ending]
  refine hcongruent.bind hpieces fun _ _ _ => ?_
  cases stream.ending with
  | closed => exact hcongruent.bind hcongruent.await fun _ _ _ => hcongruent.pure rfl
  | fault fault => exact hcongruent.bind hcongruent.await fun _ _ _ => hcongruent.throw _
  | never => exact hcongruent.waitForever

/-- A level hears the same if the same has been said before and the model answers the same. -/
theorem answer (hcongruent : Congruent Together) (settings : TurnSettings) (turn : Turn)
    {answers : ModelStream → ModelStream → Prop}
    (hhistory : Together
      (fun history history' => history.map Message.said = history'.map Message.said)
      (ofAttempt (Attempt.recentHistory session settings.historyLimit))
      (ofAttempt (Attempt.recentHistory session' settings.historyLimit)))
    (hcomplete : ∀ request, Together answers (ofAttempt (Attempt.complete request))
      (ofAttempt (Attempt.complete request)))
    (hforward : ∀ text stream stream', answers stream stream' →
      Together Eq (Turn.forward text (.ofStream stream)) (Turn.forward text (.ofStream stream')))
    (content text : String) :
    Together Eq (answer settings turn session content text)
      (answer settings turn session' content text) := by
  refine hcongruent.bind hhistory fun history history' hsaid => ?_
  have hrequest : turn.request settings.previewChars history content =
      turn.request settings.previewChars history' content := by
    have hmap : history.map (fun message => (message.role, message.content)) =
        history'.map fun message => (message.role, message.content) := hsaid
    simp only [request, hmap]
  rw [hrequest]
  exact hcongruent.bind (hcomplete _) (hforward text)

/-- Level by level, turns stay abreast. -/
theorem levels (hcongruent : Congruent Together) (scope : TurnScope) (turn : Turn)
    (hsay : ∀ piece, Together (fun _ _ => True) (say piece) (say piece))
    (hanswer : ∀ content text, Together Eq (Turn.answer scope.settings turn session content text)
      (Turn.answer scope.settings turn session' content text))
    (hcalls : ∀ calls, Together SameSubstance
      (guard (Batch.calls scope.serves turn.agent session calls))
      (guard (Batch.calls scope.serves turn.agent session' calls)))
    (horizon : Nat) {progress progress' : Progress} (h : Abreast progress progress') :
    Together Abreast (levels scope turn session horizon progress)
      (levels scope turn session' horizon progress') := by
  induction horizon generalizing progress progress' with
  | zero => exact hcongruent.waitForever
  | succ horizon ih =>
    rw [Turn.levels, Turn.levels, ← h.depth, ← h.content, ← h.text]
    split
    · exact hcongruent.bind (hsay _) fun _ _ _ => hcongruent.pure h
    refine hcongruent.bind (hanswer _ _) ?_
    rintro ⟨text, calls⟩ _ rfl
    dsimp only
    split
    · exact hcongruent.pure ⟨rfl, rfl, h.records, rfl⟩
    refine hcongruent.bind (hcalls calls) fun batch batch' hbatch => ?_
    exact ih (h.after hbatch text (progress.depth + 1))

end Heedful.Congruent

section Heedful

variable [SessionStore σ] [ExecutionLog σ] [ImpartialStore σ]

/-- Two heedful programs are in tandem if what is left of them for a listener who stays is. -/
def Heedful.InTandem (σ : Type) [SessionStore σ] [ExecutionLog σ] [ImpartialStore σ]
    (around around' : Surroundings) (session session' : SessionId) (rel : α → α → Prop)
    (h h' : Heedful α) : Prop :=
  Tandem σ around around' session session' (Matching rel) h.run.attended h'.run.attended

namespace Heedful

variable {around around' : Surroundings} {session session' : SessionId}
  {rel : α → α → Prop} {rel' : β → β → Prop}

theorem inTandem_pure {a a' : α} (h : rel a a') :
    InTandem σ around around' session session' rel (pure a) (pure a') :=
  .done h

theorem inTandem_throw (i : Interruption) :
    InTandem σ around around' session session' rel (throw i) (throw i) :=
  .done rfl

theorem InTandem.bind {h h' : Heedful α} {f f' : α → Heedful β}
    (hh : InTandem σ around around' session session' rel h h')
    (hf : ∀ a a', rel a a' → InTandem σ around around' session session' rel' (f a) (f' a')) :
    InTandem σ around around' session session' rel' (h >>= f) (h' >>= f') := by
  rw [InTandem, ExceptT.run_bind, ExceptT.run_bind, HeedfulProgram.attended_bind,
    HeedfulProgram.attended_bind]
  refine Tandem.bind hh ?_
  rintro (i | a) (i' | a') hmatch
  · exact .done hmatch
  · exact hmatch.elim
  · exact hmatch.elim
  · exact hf a a' hmatch

theorem inTandem_guard {p p' : TurnProgram α}
    (h : Tandem σ around around' session session' rel p p') :
    InTandem σ around around' session session' rel (guard p) (guard p') := by
  rw [InTandem, attended_guard, attended_guard]
  refine h.bind fun a a' hrel => ?_
  exact .done hrel

/-- Attempts are in tandem if the parties answer in tandem. -/
private theorem inTandem_ofParty {ε : Type} {p p' : TurnProgram (Except ε α)} (wrap : ε → Fault)
    (h : Tandem σ around around' session session' (Matching rel) p p') :
    InTandem σ around around' session session' rel
      (ofAttempt (ExceptT.mk (p >>= fun answer => pure (answer.mapError wrap))))
      (ofAttempt (ExceptT.mk (p' >>= fun answer => pure (answer.mapError wrap)))) := by
  have hattempt : Tandem σ around around' session session' (Matching rel)
      (p >>= fun answer => pure (answer.mapError wrap))
      (p' >>= fun answer => pure (answer.mapError wrap)) :=
    h.bind fun answer answer' hmatch => .done (hmatch.mapError wrap)
  rw [InTandem, attended_ofAttempt, attended_ofAttempt]
  exact hattempt.bind fun answer answer' hmatch => .done (hmatch.mapError Interruption.fault)

theorem inTandem_recentHistory (limit : Nat) :
    InTandem σ around around' session session'
      (fun history history' => history.map Message.said = history'.map Message.said)
      (ofAttempt (Attempt.recentHistory session limit))
      (ofAttempt (Attempt.recentHistory session' limit)) :=
  inTandem_ofParty .store fun s s' hbeside =>
    (Tandem.recentHistory limit s s' hbeside).imp fun _ _ _ _ hends =>
      ⟨matching_of_map_eq hends.1, hends.2⟩

theorem inTandem_complete (hrechunks : around.Rechunks around') (request : CompletionRequest) :
    InTandem σ around around' session session' ModelStream.Rechunks
      (ofAttempt (Attempt.complete request)) (ofAttempt (Attempt.complete request)) := by
  refine inTandem_ofParty .model fun s s' hbeside => ?_
  refine (Tandem.complete hrechunks request s s' hbeside).imp fun answer answer' _ _ hends => ?_
  refine ⟨?_, hends.2⟩
  cases hends.1 with
  | refused fault => exact rfl
  | answered h => exact h

theorem inTandem_append (draft : Draft) :
    InTandem σ around around' session session' (fun _ _ => True)
      (ofAttempt (Attempt.append session draft)) (ofAttempt (Attempt.append session' draft)) := by
  refine inTandem_ofParty .store fun s s' hbeside => ?_
  refine (Tandem.append draft s s' hbeside).imp fun answer answer' _ _ hends => ⟨?_, hends.2⟩
  have hmatch := matching_of_map_eq hends.1
  cases answer <;> cases answer' <;> first | exact hmatch | trivial

end Heedful

namespace Turn

open Heedful

variable {around around' : Surroundings} {session session' : SessionId}

omit [ImpartialStore σ] in
/-- Whatever is delivered is taken, and nothing else happens. -/
theorem run_forwardAll (pieces : List String) (s : Scene σ) :
    (HeedfulProgram.attended (forwardAll pieces).run).run around.host s =
      ⟨pieces.map TurnExchange.piece, some (.ok ()),
        ⟨s.store, s.requests, s.moment + pieces.length⟩⟩ := by
  induction pieces generalizing s with
  | nil => rfl
  | cons piece pieces ih =>
    obtain ⟨store, requests, moment⟩ := s
    have hfirst : HeedfulProgram.attended (forwardAll (piece :: pieces)).run =
        .ask (.deliver (.ok piece)) fun _ => HeedfulProgram.attended (forwardAll pieces).run := rfl
    have htaken : around.host (.deliver (.ok piece)) (⟨store, requests, moment⟩ : Scene σ) =
        some ((), ⟨store, requests, moment + 1⟩) := rfl
    rw [hfirst, Program.run, htaken]
    dsimp only
    rw [ih, List.map_cons, List.length_cons, Nat.add_assoc, Nat.add_comm 1]
    rfl

/-- Pieces that make the same text are delivered in tandem, however many they are. -/
private theorem inTandem_forwardAll {pieces pieces' : List String}
    (hjoin : String.join pieces = String.join pieces') :
    InTandem σ around around' session session' (fun _ _ => True) (forwardAll pieces)
      (forwardAll pieces') := by
  rintro s s' ⟨halike, hrequests, hnames, hnames'⟩
  rw [run_forwardAll, run_forwardAll]
  refine .said hjoin ⟨trivial, halike, hrequests, ?_, ?_⟩
  · exact ⟨hnames.injective, fun moment hle => hnames.isNew moment (Nat.le_of_add_right_le hle)⟩
  · exact ⟨hnames'.injective, fun moment hle => hnames'.isNew moment (Nat.le_of_add_right_le hle)⟩

private theorem inTandem_say (piece : String) :
    InTandem σ around around' session session' (fun _ _ => True) (say piece) (say piece) := by
  have hsame : String.join [piece] = String.join [piece] := rfl
  exact inTandem_forwardAll hsame

/-- What is in tandem stays so when it is put together. -/
private theorem congruent_inTandem :
    Congruent (InTandem σ around around' session session') where
  pure := inTandem_pure
  throw := inTandem_throw
  bind := InTandem.bind
  await := .done trivial
  waitForever := fun _ _ _ => .stalled

/-- A level hears the same in both surroundings. -/
private theorem inTandem_answer (hrechunks : around.Rechunks around') (settings : TurnSettings)
    (turn : Turn) (content text : String) :
    InTandem σ around around' session session' Eq (answer settings turn session content text)
      (answer settings turn session' content text) :=
  congruent_inTandem.answer settings turn (inTandem_recentHistory settings.historyLimit)
    (inTandem_complete hrechunks)
    (fun text _ _ h => congruent_inTandem.forward text h (inTandem_forwardAll h.join_texts))
    content text

variable [ImpartialLog σ]

/-- The levels are in tandem. -/
private theorem inTandem_levels (hrechunks : around.Rechunks around') (scope : TurnScope)
    (turn : Turn) (horizon : Nat) {progress progress' : Progress}
    (h : Abreast progress progress') :
    InTandem σ around around' session session' Abreast (levels scope turn session horizon progress)
      (levels scope turn session' horizon progress') :=
  congruent_inTandem.levels scope turn inTandem_say
    (inTandem_answer hrechunks scope.settings turn)
    (fun calls => inTandem_guard (Batch.tandem_calls hrechunks scope.serves turn.agent calls))
    horizon h

omit [ImpartialLog σ] in
/-- What follows programs in tandem has to agree on scenes that are beside each other. -/
private theorem agree_bind {rel : α → α → Prop} {h h' : Heedful α} {f f' : α → Heedful Unit}
    (hh : InTandem σ around around' session session' rel h h') {s s' : Scene σ}
    (hbeside : Beside around around' session session' s s')
    (hf : ∀ a a' (t t' : Scene σ), rel a a' → Beside around around' session session' t t' →
      Agree session session' (fun r r' _ _ => r = r') ((f a).run.attended.run around.host t)
        ((f' a').run.attended.run around'.host t')) :
    Agree session session' (fun r r' _ _ => r = r')
      ((h >>= f).run.attended.run around.host s) ((h' >>= f').run.attended.run around'.host s') := by
  rw [ExceptT.run_bind, ExceptT.run_bind, HeedfulProgram.attended_bind,
    HeedfulProgram.attended_bind]
  refine (hh s s' hbeside).bind ?_
  rintro (i | a) (i' | a') t t' ⟨hmatch, hbeside⟩
  · exact .done (congrArg Except.error hmatch)
  · exact hmatch.elim
  · exact hmatch.elim
  · exact hf a a' t t' hmatch hbeside

private theorem filter_success_substance (records : List ExecutionRecord) :
    (records.filter (·.success)).map ExecutionRecord.substance =
      (records.map ExecutionRecord.substance).filter (·.success) := by
  rw [List.filter_map]
  rfl

/-- A question to the store, and what follows a good answer. -/
theorem attended_ofStore_bind (p : TurnProgram (Except StoreFault α))
    (f : α → Heedful β) :
    HeedfulProgram.attended (ofAttempt (Attempt.ofStore p) >>= f).run =
      p >>= fun answer => match answer with
        | .error fault => pure (.error (.fault (.store fault)))
        | .ok a => HeedfulProgram.attended (f a).run := by
  rw [ExceptT.run_bind, HeedfulProgram.attended_bind, attended_ofAttempt, Attempt.ofStore,
    ExceptT.run_mk, Program.bind_assoc, Program.bind_assoc]
  refine congrArg (p >>= ·) (funext fun answer => ?_)
  cases answer <;> rfl

omit [ImpartialLog σ] in
/-- What turns append at their ends is of one substance. -/
theorem agree_conclude {progress progress' : Progress} (h : Abreast progress progress')
    {s s' : Scene σ} (hbeside : Beside around around' session session' s s') :
    Agree session session' (fun r r' _ _ => r = r')
      ((conclude session progress).run.attended.run around.host s)
      ((conclude session' progress').run.attended.run around'.host s') := by
  have hempty : progress.records.isEmpty = progress'.records.isEmpty := by
    have hmap := congrArg List.isEmpty h.records
    simpa using hmap
  have hdraft : (Draft.assistant progress.text (progress.records.filter (·.success))).substance =
      (Draft.assistant progress'.text (progress'.records.filter (·.success))).substance := by
    rw [Draft.assistant, Draft.assistant, Draft.substance, Draft.substance, h.text,
      filter_success_substance, filter_success_substance, h.records]
  rw [conclude, conclude, ← hempty, ← h.text]
  split
  · rw [Attempt.append, Attempt.append, attended_ofStore_bind, attended_ofStore_bind]
    refine (Tandem.agree_append (h.text ▸ hdraft) hbeside).bind ?_
    rintro (fault | id) (fault' | id') t t' ⟨hanswer, -⟩
    · cases hanswer
      exact .done rfl
    · cases hanswer
    · cases hanswer
    · exact .done rfl
  · exact .done rfl

/-- What a turn does in its session. -/
def within (scope : TurnScope) (turn : Turn) (session : SessionId) : Heedful Unit := do
  let _ ← ofAttempt (Attempt.append session (.user turn.content))
  let progress ← levels scope turn session scope.horizon turn.start
  conclude session progress

/-- Within their sessions, turns agree. -/
private theorem agree_within (hrechunks : around.Rechunks around') (scope : TurnScope)
    (turn : Turn) {s s' : Scene σ} (hbeside : Beside around around' session session' s s') :
    Agree session session' (fun r r' _ _ => r = r')
      ((turn.within scope session).run.attended.run around.host s)
      ((turn.within scope session').run.attended.run around'.host s') := by
  rw [within, within]
  refine agree_bind (inTandem_append (.user turn.content)) hbeside fun _ _ t t' _ hbeside => ?_
  have hstart : Abreast turn.start turn.start := ⟨rfl, rfl, rfl, rfl⟩
  refine agree_bind (inTandem_levels hrechunks scope turn scope.horizon hstart) hbeside ?_
  intro progress progress' u u' habreast hbeside
  exact agree_conclude habreast hbeside

/-- Two turns that start in the same scene agree, in sessions that are the same if one is given. -/
private theorem exists_agree_perform (hrechunks : around.Rechunks around') (scope : TurnScope)
    (turn : Turn) {s : Scene σ} (hnames : around.NamesAll s) (hnames' : around'.NamesAll s) :
    ∃ session session', (∀ given, turn.session = some given → session = given ∧ session' = given) ∧
      Agree session session' (fun r r' _ _ => r = r')
        ((turn.perform scope).run.attended.run around.host s)
        ((turn.perform scope).run.attended.run around'.host s) := by
  cases hsession : turn.session with
  | some given =>
    refine ⟨given, given, fun other hother => ?_, ?_⟩
    · cases hother
      exact ⟨rfl, rfl⟩
    · have hbeside : Beside around around' given given s s :=
        ⟨ImpartialStore.alike_refl given s.store, rfl, hnames.toNamesMessages,
          hnames'.toNamesMessages⟩
      rw [perform, enter, hsession]
      exact agree_within hrechunks scope turn hbeside
  | none =>
    obtain ⟨session, session', hopened⟩ :=
      exists_agree_openSession hnames hnames' turn.agent.id (some (title turn.content))
    refine ⟨session, session', by simp, ?_⟩
    rw [perform, enter, hsession]
    dsimp only
    rw [Attempt.openSession, attended_ofStore_bind]
    refine hopened.bind ?_
    rintro answer answer' t t' (⟨fault, rfl, rfl⟩ | ⟨rfl, rfl, hbeside⟩)
    · exact .done rfl
    · exact agree_within hrechunks scope turn hbeside

omit [ImpartialLog σ] in
/-- A notice is delivered in tandem. -/
private theorem agree_say {s : Scene σ} (session : SessionId) (piece : String)
    (hnames : around.NamesAll s) (hnames' : around'.NamesAll s) :
    Agree session session (fun r r' _ _ => r = r')
      ((say piece).run.attended.run around.host s) ((say piece).run.attended.run around'.host s) := by
  have hbeside : Beside around around' session session s s :=
    ⟨ImpartialStore.alike_refl session s.store, rfl, hnames.toNamesMessages,
      hnames'.toNamesMessages⟩
  refine (inTandem_say piece s s hbeside).imp ?_
  rintro (i | _) (i' | _) _ _ ⟨hmatch, -⟩
  · exact congrArg Except.error hmatch
  · exact hmatch.elim
  · exact hmatch.elim
  · rfl

end Turn

namespace TurnRequest

variable {around around' : Surroundings} [ImpartialLog σ]

/-- Two requests that start in the same scene agree, in sessions that are the same if one is
given. -/
private theorem exists_agree_perform (hrechunks : around.Rechunks around') (scope : TurnScope)
    (request : TurnRequest) {s : Scene σ} (hnames : around.NamesAll s)
    (hnames' : around'.NamesAll s) :
    ∃ session session',
      (∀ given, request.session = some given → session = given ∧ session' = given) ∧
      Agree session session' (fun r r' _ _ => r = r')
        ((request.perform scope).run.attended.run around.host s)
        ((request.perform scope).run.attended.run around'.host s) := by
  -- Where there is no turn, it does not matter which session it is said to be in.
  have hany : ∀ given, request.session = some given →
      request.session.getD "" = given ∧ request.session.getD "" = given := by
    intro given hgiven
    rw [hgiven]
    exact ⟨rfl, rfl⟩
  rw [perform, resolve]
  cases request.addressee with
  | error rejection => exact ⟨_, _, hany, Turn.agree_say _ _ hnames hnames'⟩
  | ok id =>
    dsimp only
    rw [bind_assoc, Attempt.findAgent, Turn.attended_ofStore_bind]
    cases hanswer : around'.agent id with
    | error fault =>
      refine ⟨_, _, hany, agree_findAgent_bind hrechunks id ?_⟩
      rw [hanswer]
      exact .done rfl
    | ok agent =>
      cases hturn : request.turnOf agent with
      | error rejection =>
        refine ⟨_, _, hany, agree_findAgent_bind hrechunks id ?_⟩
        rw [hanswer]
        dsimp only
        rw [pure_bind, hturn]
        exact Turn.agree_say _ _ hnames.later hnames'.later
      | ok turn =>
        obtain ⟨session, session', hgiven, hagree⟩ :=
          Turn.exists_agree_perform hrechunks scope turn hnames.later hnames'.later
        have hsession : turn.session = request.session := by
          obtain ⟨_, _, -, -, rfl⟩ := turnOf_eq_ok_iff.mp hturn
          rfl
        rw [hsession] at hgiven
        refine ⟨session, session', hgiven, agree_findAgent_bind hrechunks id ?_⟩
        rw [hanswer]
        dsimp only
        rw [pure_bind, hturn]
        exact hagree

end TurnRequest

end Heedful

namespace Assignment

variable [SessionStore σ] [ExecutionLog σ] [ImpartialStore σ] {around around' : Surroundings}

omit [ImpartialStore σ] in
/-- Faults that end two programs are delivered by both. -/
private theorem agree_reported {session session' : SessionId} {h : Heedful Unit} {s : Scene σ}
    (hagree : Agree session session' (fun r r' _ _ => r = r')
      (h.run.attended.run around.host s) (h.run.attended.run around'.host s)) :
    Agree session session' (fun _ _ _ _ => True)
      (h.reported.attended.run around.host s) (h.reported.attended.run around'.host s) := by
  rw [Heedful.reported, HeedfulProgram.attended_bind]
  refine hagree.bind ?_
  rintro r _ t t' rfl
  obtain (_ | fault) | _ := r
  · exact .done trivial
  · rw [HeedfulProgram.attended_bind, Heedful.attended_guard, Program.bind_assoc]
    refine (agree_report fault t t').bind fun _ _ _ _ _ => ?_
    exact .done trivial
  · exact .done trivial

/-- The session that an assignment is to go on with, if one is given. -/
def session? : Assignment → Option SessionId
  | .prepared turn => turn.session
  | .requested request => request.session

variable [ImpartialLog σ]

/-- An assignment does the same for a listener who stays, however the model cuts its answers into
chunks. Times, new names and durations aside, what it does besides delivering text is alike one by
one: the requests to the model, the invocations of tools, the messages that are appended. It
delivers the same text, and it ends if and only if it ends in the other surroundings. -/
theorem run_rechunked (hrechunks : around.Rechunks around') (assignment : Assignment)
    (scope : TurnScope) (s : Scene σ) (hnames : around.NamesAll s) (hnames' : around'.NamesAll s) :
    let run := assignment.run scope .steady around.host s
    let run' := assignment.run scope .steady around'.host s
    ∃ session session',
      (∀ given, assignment.session? = some given → session = given ∧ session' = given) ∧
      List.Forall₂ (TurnExchange.Alike session session') (acts run.exchanges)
        (acts run'.exchanges) ∧
      spoken run.exchanges = spoken run'.exchanges ∧ run.outcome = run'.outcome := by
  intro run run'
  have hagree : ∃ session session',
      (∀ given, assignment.session? = some given → session = given ∧ session' = given) ∧
      Agree session session' (fun _ _ _ _ => True) run run' := by
    simp only [run, run', Assignment.run, Listener.run_steady]
    cases assignment with
    | prepared turn =>
      obtain ⟨session, session', hgiven, hagree⟩ :=
        Turn.exists_agree_perform hrechunks scope turn hnames hnames'
      exact ⟨session, session', hgiven, agree_reported hagree⟩
    | requested request =>
      obtain ⟨session, session', hgiven, hagree⟩ :=
        TurnRequest.exists_agree_perform hrechunks scope request hnames hnames'
      exact ⟨session, session', hgiven, agree_reported hagree⟩
  obtain ⟨session, session', hgiven, halike, htext, hends⟩ := hagree
  refine ⟨session, session', hgiven, halike, htext, ?_⟩
  obtain ⟨hnone, hnone'⟩ | ⟨_, _, ho, ho', -⟩ := hends
  · exact hnone.trans hnone'.symm
  · exact ho.trans ho'.symm

/-- Names that are made of as many letters as effects are over. -/
theorem injective_letters :
    Function.Injective fun moment => String.ofList (List.replicate moment 'n') := by
  intro moment moment' h
  have hlength := congrArg String.length h
  simpa using hlength

/-- A call of a tool and the text before it, as one delta and in pieces, with other clocks and other
durations. -/
theorem run_rechunked_memory :
    let clock : Tool := ⟨"1", "clock", "", .native, true, emptySchemaText⟩
    let prompt : Prompt := ⟨"p", "Be brief.", true⟩
    let turn : Turn := ⟨⟨"a", "A", [prompt], [clock], ⟨"m", 0, none⟩⟩, prompt, "Hello", none, []⟩
    let scope : TurnScope := ⟨{ TurnSettings.standard with maxDepth := 1 }, fun _ => true, 2⟩
    let whole : ModelStream :=
      ⟨[.ok ⟨some "Let me see.", [⟨0, none, some "clock", some "null"⟩], true⟩], false⟩
    let pieces : ModelStream :=
      ⟨[.ok ⟨some "Let me ", [⟨0, none, some "clock", some "nu"⟩], false⟩,
        .ok ⟨some "see.", [⟨0, some "", none, some "ll"⟩], true⟩,
        .ok ⟨some "Too late.", [], false⟩], false⟩
    let around (stream : ModelStream) (seconds : Int) (duration : UInt64) : Surroundings :=
      ⟨fun _ => .ok none, fun _ _ => some (.ok .null), fun _ => .ok stream,
        fun moment => ⟨⟨seconds + moment, 0⟩, String.ofList (List.replicate moment 'n')⟩,
        fun _ => duration⟩
    let s : Scene (MemoryStore × MemoryLog) := ⟨(.empty, .empty), [], 0⟩
    let run := (Assignment.prepared turn).run scope .steady (around whole 0 5).host s
    let run' := (Assignment.prepared turn).run scope .steady (around pieces 99 7).host s
    ∃ session session',
      (∀ given, (Assignment.prepared turn).session? = some given →
        session = given ∧ session' = given) ∧
      List.Forall₂ (TurnExchange.Alike session session') (acts run.exchanges)
        (acts run'.exchanges) ∧
      spoken run.exchanges = spoken run'.exchanges ∧ run.outcome = run'.outcome := by
  intro clock prompt turn scope whole pieces around s run run'
  have hstream : whole.Rechunks pieces := by
    have hwhole : whole.fragments = [⟨0, none, some "clock", some "null"⟩] := rfl
    have hpieces : pieces.fragments =
        [⟨0, none, some "clock", some "nu"⟩, ⟨0, some "", none, some "ll"⟩] := rfl
    refine ⟨rfl, by decide, fun index => ?_, fun index => ?_, fun index => ?_⟩
    all_goals
      rw [hwhole, hpieces]
      by_cases hindex : index = 0
      · subst hindex
        decide
      · simp [Fragment.firstId, Fragment.firstName, Fragment.allArguments, Fragment.ofIndex,
          Ne.symm hindex]
  have hnames (stream : ModelStream) (seconds : Int) (duration : UInt64) :
      (around stream seconds duration).NamesAll s :=
    ⟨⟨injective_letters, fun _ _ => trivial⟩, fun _ _ => trivial⟩
  have hrechunks : (around whole 0 5).Rechunks (around pieces 99 7) :=
    ⟨rfl, rfl, fun _ => .answered hstream⟩
  exact run_rechunked hrechunks (.prepared turn) scope s (hnames whole 0 5) (hnames pieces 99 7)

end Assignment

end Colloquy
