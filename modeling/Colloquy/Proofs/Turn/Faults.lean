import Colloquy.Proofs.Turn.Assignment
import Colloquy.Proofs.Turn.Traces

/-!
# Faults of a turn

A turn stops at the first fault of the directory, the store or the model, and delivers it as its
last item. Nothing but deliveries come behind the call that failed, so that whatever was done before
stays as it is, and the turn has not replied. The failures of tools and of the log are no faults.
-/

namespace Colloquy

/-- Exchanges that end at a fault: one call shows it, and behind this call there are only the pieces
of text that the model gave before its answer broke off. -/
structure BreaksOff (fault : Fault) (t before : List TurnExchange) (call : TurnExchange)
    (pieces : List String) : Prop where
  /-- The call is the last but for the pieces. -/
  trace : t = before ++ call :: pieces.map .piece
  /-- Nothing failed before. -/
  faultless : faults before = []
  /-- The call shows the fault. -/
  fault : call.fault? = some fault
  /-- There was no reply. -/
  replies : replies t = []

/-- Exchanges without a fault that deliver pieces of text only and do not reply. -/
structure Sound (t : List TurnExchange) : Prop where
  spoken : ∃ pieces : List String, delivered t = pieces.map .ok
  faultless : faults t = []
  replies : replies t = []

/-- How exchanges stand to the outcome that they come to: they end at a fault if and only if that is
the outcome, unless an item that should be delivered is not taken. -/
structure Candid {α : Type} (hangs : Effect → Prop) (t : List TurnExchange)
    (o : Option (Except Fault α)) : Prop where
  spoken : ∃ pieces : List String, delivered t = pieces.map .ok
  blame : faults t = [] ∧ (∀ fault, o ≠ some (.error fault)) ∨
    ∃ fault before call pieces, BreaksOff fault t before call pieces ∧
      (o = some (.error fault) ∨ o = none ∧ ∃ item, hangs (.deliver item))

variable {α : Type} {hangs : Effect → Prop} {fault : Fault} {t t' : List TurnExchange}
  {o : Option (Except Fault α)}

namespace Sound

theorem nil : Sound [] :=
  ⟨⟨[], rfl⟩, rfl, rfl⟩

theorem append (h : Sound t) (h' : Sound t') : Sound (t ++ t') := by
  obtain ⟨pieces, hspoken⟩ := h.spoken
  obtain ⟨pieces', hspoken'⟩ := h'.spoken
  refine ⟨⟨pieces ++ pieces', ?_⟩, ?_, ?_⟩
  · rw [delivered_append, hspoken, hspoken', List.map_append]
  · rw [faults_append, h.faultless, h'.faultless, List.append_nil]
  · rw [replies_append, h.replies, h'.replies, List.append_nil]

theorem pieces (pieces : List String) : Sound (pieces.map .piece) :=
  ⟨⟨pieces, delivered_pieces pieces⟩, faults_pieces pieces, replies_pieces pieces⟩

theorem of_work (hwork : ∀ exchange ∈ t, exchange.1.isWork) : Sound t :=
  ⟨⟨[], delivered_of_work hwork⟩, faults_of_work hwork, replies_of_work hwork⟩

/-- What is sound does not come to a fault. -/
theorem candid (h : Sound t) (ho : ∀ fault, o ≠ some (.error fault)) : Candid hangs t o :=
  ⟨h.spoken, .inl ⟨h.faultless, ho⟩⟩

/-- Behind what is sound, everything stands as it does by itself. -/
theorem append_candid (h : Sound t) (h' : Candid hangs t' o) : Candid hangs (t ++ t') o := by
  obtain ⟨pieces, hspoken⟩ := h.spoken
  obtain ⟨⟨pieces', hspoken'⟩, hblame⟩ := h'
  refine ⟨⟨pieces ++ pieces', ?_⟩, ?_⟩
  · rw [delivered_append, hspoken, hspoken', List.map_append]
  obtain ⟨hfaultless, ho⟩ | ⟨fault, before, call, rest, hbreaks, ho⟩ := hblame
  · refine .inl ⟨?_, ho⟩
    rw [faults_append, h.faultless, hfaultless, List.append_nil]
  · refine .inr ⟨fault, t ++ before, call, rest, ⟨?_, ?_, hbreaks.fault, ?_⟩, ho⟩
    · rw [hbreaks.trace, List.append_assoc]
    · rw [faults_append, h.faultless, hbreaks.faultless, List.append_nil]
    · rw [replies_append, h.replies, hbreaks.replies, List.append_nil]

end Sound

namespace Candid

/-- A call that fails ends the exchanges. -/
theorem of_fault {call : TurnExchange} (hfault : call.fault? = some fault)
    (hspoken : delivered [call] = []) (hreplies : replies [call] = []) :
    Candid hangs [call] (some (.error fault) : Option (Except Fault α)) :=
  ⟨⟨[], hspoken⟩, .inr ⟨fault, [], call, [], ⟨rfl, rfl, hfault, hreplies⟩, .inl rfl⟩⟩

/-- Of an outcome that is no success, it does not matter what the success would be. -/
theorem retype {β : Type} {failure : Option Fault}
    (h : Candid hangs t (failure.map .error : Option (Except Fault α))) :
    Candid hangs t (failure.map .error : Option (Except Fault β)) := by
  obtain ⟨hspoken, hblame⟩ := h
  cases failure with
  | none => exact ⟨hspoken, by simpa using hblame⟩
  | some fault => exact ⟨hspoken, by simpa using hblame⟩

/-- What comes to a stand has no fault, unless an item is not taken. -/
theorem of_none (h : Candid hangs t (none : Option (Except Fault α))) :
    faults t = [] ∨ ∃ item, hangs (.deliver item) := by
  obtain ⟨hfaultless, -⟩ | ⟨_, _, _, _, -, hfault | ⟨-, hhangs⟩⟩ := h.blame
  · exact .inl hfaultless
  · cases hfault
  · exact .inr hhangs

/-- What ends well has no fault. -/
theorem of_ok {a : α} (h : Candid hangs t (some (.ok a))) : faults t = [] := by
  obtain ⟨hfaultless, -⟩ | ⟨_, _, _, _, -, hfault | ⟨hnone, -⟩⟩ := h.blame
  · exact hfaultless
  · cases hfault
  · cases hnone

/-- What fails ends at the fault that it fails with. -/
theorem of_error (h : Candid hangs t (some (.error fault) : Option (Except Fault α))) :
    ∃ before call pieces, BreaksOff fault t before call pieces := by
  obtain ⟨-, hnone⟩ | ⟨_, before, call, pieces, hbreaks, hfault | ⟨hnone, -⟩⟩ := h.blame
  · exact absurd rfl (hnone fault)
  · cases hfault
    exact ⟨before, call, pieces, hbreaks⟩
  · cases hnone

end Candid

namespace Turn

variable {scope : TurnScope} {turn : Turn} {session : SessionId} {level : Level}

private theorem opening_cases (hpart : t <+: level.opening scope turn session) :
    let settings := scope.settings.effective
    let heard : TurnExchange := ⟨.recentHistory session settings.historyLimit, .ok level.history⟩
    let asked : TurnExchange :=
      ⟨.complete (turn.request settings.previewChars level.history level.content), .ok level.stream⟩
    t = [] ∨ t = [heard] ∨ ∃ pieces : List String, t = [heard] ++ asked :: pieces.map .piece := by
  intro settings heard asked
  obtain ⟨rest, hrest⟩ := hpart
  match t, hrest with
  | [], _ => exact .inl rfl
  | [_], hrest =>
    cases hrest
    exact .inr (.inl rfl)
  | _ :: _ :: t, hrest =>
    injection hrest with hheard hrest
    injection hrest with hasked hrest
    obtain ⟨pieces, _, -, rfl, -⟩ := List.map_eq_append_iff.mp hrest.symm
    exact .inr (.inr ⟨pieces, by rw [hheard, hasked]; rfl⟩)

private theorem sound_heard (session : SessionId) (limit : Nat) (history : List Message) :
    Sound [⟨.recentHistory session limit, .ok history⟩] :=
  ⟨⟨[], rfl⟩, rfl, rfl⟩

private theorem sound_asked (request : CompletionRequest) {stream : ModelStream}
    (hending : ∀ fault, stream.ending ≠ .fault fault) :
    Sound [⟨.complete request, .ok stream⟩] := by
  refine ⟨⟨[], rfl⟩, ?_, rfl⟩
  cases h : stream.ending with
  | closed | never => simp [faults, TurnExchange.fault?, h]
  | fault fault => exact absurd h (hending fault)

private theorem candid_asked (request : CompletionRequest) {stream : ModelStream}
    {fault : ModelFault}
    (hending : stream.ending = .fault fault) (pieces : List String)
    (ho : o = some (.error (.model fault)) ∨ o = none ∧ ∃ item, hangs (.deliver item)) :
    Candid hangs (⟨.complete request, .ok stream⟩ :: pieces.map .piece) o := by
  have hfault : TurnExchange.fault? ⟨.complete request, .ok stream⟩ = some (.model fault) := by
    rw [TurnExchange.fault?, hending]
  exact ⟨⟨pieces, delivered_pieces pieces⟩,
    .inr ⟨.model fault, [], _, pieces, ⟨rfl, rfl, hfault, replies_pieces pieces⟩, ho⟩⟩

/-- What a level does before the end of the model's answer stands to its outcome as it should. -/
private theorem Halted.candid {content : String} {failure : Option Fault}
    (h : Halted hangs scope turn session content t failure) :
    Candid hangs t (failure.map .error : Option (Except Fault α)) := by
  cases h with
  | stalled level hcontent hpart hstall =>
    obtain rfl | rfl | ⟨pieces, rfl⟩ := opening_cases hpart
    · exact Sound.nil.candid (by simp)
    · exact (sound_heard _ _ _).candid (by simp)
    refine (sound_heard _ _ _).append_candid ?_
    by_cases hending : ∃ fault, level.stream.ending = .fault fault
    · obtain ⟨fault, hending⟩ := hending
      -- The model has broken off, and so only the listener can be waited for.
      obtain hlength | hhangs | hnever := hstall
      · simp at hlength
      · exact candid_asked _ hending pieces (.inr ⟨rfl, hhangs⟩)
      · rw [hending] at hnever
        cases hnever
    · have hasked := sound_asked (turn.request scope.settings.effective.previewChars level.history
        level.content) (not_exists.mp hending)
      exact (hasked.append (.pieces pieces)).candid (by simp)
  | noHistory fault => exact .of_fault rfl rfl rfl
  | noModel history fault => exact (sound_heard _ _ history).append_candid (.of_fault rfl rfl rfl)
  | @brokenOff level hcontent fault hending =>
    exact (sound_heard _ _ _).append_candid (candid_asked _ hending _ (.inl rfl))

private theorem sound_level (hlevel : level.Complete scope turn session) :
    Sound (level.opening scope turn session) ∧ Sound (level.exchanges scope turn session) := by
  have hending : ∀ fault, level.stream.ending ≠ .fault fault := by simp [hlevel.closed]
  have hopening : Sound (level.opening scope turn session) :=
    (sound_heard _ _ _).append ((sound_asked _ hending).append (.pieces level.stream.texts))
  exact ⟨hopening, hopening.append (.of_work (Batch.isWork_of_completed hlevel.completed))⟩

/-- The loop over the levels stands to its outcome as it should. -/
private theorem Loop.candid {progress : Progress} {o : Option (Except Fault Progress)}
    (h : Loop hangs scope turn session progress t o) : Candid hangs t o := by
  induction h with
  | unseen progress => exact Sound.nil.candid (by simp)
  | capped progress hdepth => exact (Sound.pieces [_]).candid (by simp)
  | halted hdepth hhalted => exact hhalted.candid
  | @working _ hdepth level hcontent hlevel t' hpart =>
    have hwork := Batch.isWork_of_completed hlevel.completed
    have hsound : Sound t' := .of_work fun exchange hmem => hwork exchange (hpart.subset hmem)
    exact ((sound_level hlevel).1.append hsound).candid (by simp)
  | last hdepth level hcontent hlevel hcalls => exact (sound_level hlevel).2.candid (by simp)
  | level hdepth level hcontent hlevel hcalls hrest ih =>
    exact (sound_level hlevel).2.append_candid ih

/-- A loop that comes to its end is sound. -/
private theorem Loop.sound {progress last : Progress} {o : Option (Except Fault Progress)}
    (h : Loop hangs scope turn session progress t o) (ho : o = some (.ok last)) : Sound t := by
  induction h with
  | unseen | working => cases ho
  | capped progress hdepth => exact Sound.pieces [_]
  | @halted _ _ _ failure => cases failure <;> cases ho
  | last hdepth level hcontent hlevel hcalls => exact (sound_level hlevel).2
  | level hdepth level hcontent hlevel hcalls hrest ih =>
    exact (sound_level hlevel).2.append (ih ho)

private theorem Concluded.candid {progress : Progress} {o : Option (Except Fault Unit)}
    (h : Concluded session progress t o) : Candid hangs t o := by
  cases h with
  | nothing htext hrecords => exact Sound.nil.candid (by simp)
  | pending => exact Sound.nil.candid (by simp)
  | refused fault => exact .of_fault rfl rfl rfl
  | appended hsome id => exact ⟨⟨[], rfl⟩, .inl ⟨rfl, by simp⟩⟩

private theorem Entered.sound (h : Entered turn t session) : Sound t := by
  cases h with
  | given hsession => exact .nil
  | opened hsession => exact ⟨⟨[], rfl⟩, rfl, rfl⟩

private theorem sound_user (session : SessionId) (content : String) (id : MessageId) :
    Sound [⟨.append session (.user content), .ok id⟩] :=
  ⟨⟨[], rfl⟩, rfl, by simp [replies, Draft.user]⟩

/-- A turn stands to its outcome as it should. -/
theorem Performed.candid {o : Option (Except Fault Unit)} (h : Performed hangs scope turn t o) :
    Candid hangs t o := by
  cases h with
  | outside hsession => exact Sound.nil.candid (by simp)
  | noSession hsession fault => exact .of_fault rfl rfl rfl
  | unheard henter => exact henter.sound.candid (by simp)
  | refused henter fault => exact henter.sound.append_candid (.of_fault rfl rfl rfl)
  | @halted _ t' session henter id failure hloop =>
    have hheard := henter.sound.append (sound_user session turn.content id)
    have hrest : Candid hangs t' (failure.map .error : Option (Except Fault Unit)) :=
      hloop.candid.retype
    have hcandid := hheard.append_candid hrest
    rwa [List.append_assoc] at hcandid
  | @concluded _ t₁ t₂ session henter id progress hloop _ hconclude =>
    have hheard := henter.sound.append (sound_user session turn.content id)
    have hrest : Candid hangs (t₁ ++ t₂) o := (hloop.sound rfl).append_candid hconclude.candid
    have hcandid := hheard.append_candid hrest
    rwa [List.append_assoc] at hcandid

end Turn

namespace TurnRequest

variable {scope : TurnScope} {request : TurnRequest}

private theorem TurnedAway.candid {rejection : Rejection} {o : Option (Except Fault Unit)}
    (h : TurnedAway rejection t o) : Candid hangs t o := by
  cases h with
  | pending => exact Sound.nil.candid (by simp)
  | noticed => exact (Sound.pieces [_]).candid (by simp)

private theorem sound_found (id : String) (agent : Option Agent) :
    Sound [⟨.findAgent id, .ok agent⟩] :=
  ⟨⟨[], rfl⟩, rfl, rfl⟩

/-- A request stands to its outcome as it should. -/
theorem Performed.candid {o : Option (Except Fault Unit)} (h : Performed hangs scope request t o) :
    Candid hangs t o := by
  cases h with
  | incomplete haddressee haway => exact haway.candid
  | unseen haddressee => exact Sound.nil.candid (by simp)
  | noDirectory haddressee fault => exact .of_fault rfl rfl rfl
  | unresolved haddressee hturn haway => exact (sound_found _ _).append_candid haway.candid
  | resolved haddressee hturn hperform => exact (sound_found _ _).append_candid hperform.candid

end TurnRequest

namespace Assignment

private theorem Performed.candid {scope : TurnScope} {assignment : Assignment}
    {o : Option (Except Fault Unit)} (h : assignment.Performed hangs scope t o) :
    Candid hangs t o := by
  cases assignment with
  | prepared turn => exact Turn.Performed.candid h
  | requested request => exact TurnRequest.Performed.candid h

/-- How a run handles the faults of the directory, the store and the model. The failures of tools
and of the log are not among them. -/
structure HandlesFaults {σ : Type} (host : Program.Host Effect Effect.Answer σ) (s : σ)
    (run : Program.Run Effect.Answer Unit σ) : Prop where
  /-- Pieces of text are delivered, and then at most one fault. -/
  items : ∃ (pieces : List String) (told : Option Fault),
    delivered run.exchanges = pieces.map .ok ++ (told.map .error).toList
  /-- A fault that is delivered is the only one that some call shows. -/
  earned : ∀ fault, .error fault ∈ delivered run.exchanges → faults run.exchanges = [fault]
  /-- A fault that a call shows is delivered, unless there is an item that is not taken. -/
  told : ∀ fault ∈ faults run.exchanges,
    .error fault ∈ delivered run.exchanges ∨ ∃ item, host (.deliver item) run.state = none
  /-- When a fault is delivered, there was no reply, and the run ends with it. -/
  last : ∀ fault, .error fault ∈ delivered run.exchanges →
    replies run.exchanges = [] ∧ run.outcome = some () ∧
      run.exchanges.getLast? = some (TurnExchange.report fault)
  /-- When a fault is delivered, the host stays as it was behind the call that failed, in all that
  deliveries do not change. -/
  kept : ∀ fault, .error fault ∈ delivered run.exchanges →
    ∃ before call after next, run.exchanges = before ++ call :: after ∧
      TurnExchange.fault? call = some fault ∧
      (∀ exchange ∈ after, ∃ item, exchange.1 = .deliver item) ∧
      host.Leads s (before ++ [call]) next ∧
      ∀ {κ : Type} (kept : σ → κ),
        (∀ item s₁ s₂, host (.deliver item) s₁ = some ((), s₂) → kept s₂ = kept s₁) →
          kept run.state = kept next

variable {σ : Type} {host : Program.Host Effect Effect.Answer σ} {s : σ}
  {run : Program.Run Effect.Answer Unit σ}

private theorem handlesFaults_of_untold {pieces : List String}
    (hspoken : delivered run.exchanges = pieces.map .ok)
    (hblame : faults run.exchanges = [] ∨ ∃ item, host (.deliver item) run.state = none) :
    HandlesFaults host s run := by
  have hnone (fault : Fault) : .error fault ∉ delivered run.exchanges := by simp [hspoken]
  refine ⟨⟨pieces, none, by simp [hspoken]⟩, fun fault h => absurd h (hnone fault), ?_,
    fun fault h => absurd h (hnone fault), fun fault h => absurd h (hnone fault)⟩
  intro fault hfault
  obtain hfaultless | hhangs := hblame
  · rw [hfaultless] at hfault
    cases hfault
  · exact .inr hhangs

/-- Deliveries lead to a state that is as before in all that they do not change. -/
private theorem kept_of_deliveries {κ : Type} (kept : σ → κ)
    (hkept : ∀ item s₁ s₂, host (.deliver item) s₁ = some ((), s₂) → kept s₂ = kept s₁)
    {after : List TurnExchange} (hafter : ∀ exchange ∈ after, ∃ item, exchange.1 = .deliver item)
    {next last : σ} (hleads : host.Leads next after last) : kept last = kept next := by
  induction after generalizing next with
  | nil => exact congrArg kept (Eq.symm hleads)
  | cons exchange after ih =>
    obtain ⟨effect, answer⟩ := exchange
    obtain ⟨item, rfl⟩ := hafter _ List.mem_cons_self
    obtain ⟨mid, hanswer, hrest⟩ := hleads
    exact (ih (fun exchange hmem => hafter exchange (List.mem_cons_of_mem _ hmem)) hrest).trans
      (hkept item next mid hanswer)

private theorem handlesFaults_of_told {before : List TurnExchange} {call : TurnExchange}
    {pieces spoken : List String} (hspoken : delivered t = spoken.map .ok)
    (hbreaks : BreaksOff fault t before call pieces)
    (ht : run.exchanges = t ++ [.report fault]) (ho : run.outcome = some ())
    (hleads : host.Leads s run.exchanges run.state) : HandlesFaults host s run := by
  have hdelivered : delivered run.exchanges = spoken.map .ok ++ [.error fault] := by
    rw [ht, delivered_append, hspoken]
    rfl
  have honly (f : Fault) (h : .error f ∈ delivered run.exchanges) : f = fault := by
    simpa [hdelivered] using h
  have hfaults : faults run.exchanges = [fault] := by
    rw [ht, hbreaks.trace, faults_append, faults_append, hbreaks.faultless, faults,
      List.filterMap_cons_some hbreaks.fault]
    exact congrArg (fault :: · ++ []) (faults_pieces pieces)
  have hreplies : replies run.exchanges = [] := by
    rw [ht, replies_append, hbreaks.replies]
    rfl
  refine ⟨⟨spoken, some fault, hdelivered⟩, ?_, ?_, ?_, ?_⟩
  · intro f h
    rw [honly f h, hfaults]
  · intro f h
    rw [hfaults, List.mem_singleton] at h
    exact .inl (by simp [hdelivered, h])
  · intro f h
    refine ⟨hreplies, ho, ?_⟩
    rw [honly f h, ht, List.getLast?_concat]
  · intro f h
    obtain rfl := honly f h
    have htrace : run.exchanges =
        (before ++ [call]) ++ (pieces.map TurnExchange.piece ++ [.report f]) := by
      rw [ht, hbreaks.trace]
      simp
    have hafter : ∀ exchange ∈ pieces.map TurnExchange.piece ++ [.report f],
        ∃ item, exchange.1 = .deliver item := by
      intro exchange hmem
      obtain hmem | hmem := List.mem_append.mp hmem
      · obtain ⟨piece, -, rfl⟩ := List.mem_map.mp hmem
        exact ⟨.ok piece, rfl⟩
      · obtain rfl := List.mem_singleton.mp hmem
        exact ⟨.error f, rfl⟩
    rw [htrace, Program.Host.leads_append_iff] at hleads
    obtain ⟨next, hbefore, hrest⟩ := hleads
    refine ⟨before, call, _, next, ?_, hbreaks.fault, hafter, hbefore, fun kept hkept => ?_⟩
    · rw [htrace, List.append_assoc]
      rfl
    · exact kept_of_deliveries kept hkept hafter hrest

/-- Every run for a listener who stays handles faults as it should. -/
theorem handlesFaults_run (assignment : Assignment) (scope : TurnScope)
    (host : Program.Host Effect Effect.Answer σ) (s : σ) :
    HandlesFaults host s (assignment.run scope .steady host s) := by
  have hleads : host.Leads s (assignment.run scope .steady host s).exchanges
      (assignment.run scope .steady host s).state := by
    rw [run, Listener.run_steady]
    exact Program.leads_run host _ s
  have hreported := assignment.reported_run scope host s
  dsimp only at hreported
  generalize assignment.run scope .steady host s = run at hreported hleads ⊢
  generalize ht : run.exchanges = t at hreported
  generalize ho : run.outcome = o at hreported
  cases hreported with
  | stalled hgoes =>
    obtain ⟨pieces, hspoken⟩ := hgoes.candid.spoken
    exact handlesFaults_of_untold (ht ▸ hspoken) (ht ▸ hgoes.candid.of_none)
  | ended hgoes =>
    obtain ⟨pieces, hspoken⟩ := hgoes.candid.spoken
    exact handlesFaults_of_untold (ht ▸ hspoken) (.inl (ht ▸ hgoes.candid.of_ok))
  | untold hgoes hhangs =>
    obtain ⟨pieces, hspoken⟩ := hgoes.candid.spoken
    exact handlesFaults_of_untold (ht ▸ hspoken) (.inr ⟨_, hhangs⟩)
  | told hgoes =>
    obtain ⟨spoken, hspoken⟩ := hgoes.candid.spoken
    obtain ⟨before, call, pieces, hbreaks⟩ := hgoes.candid.of_error
    exact handlesFaults_of_told hspoken hbreaks ht ho hleads

end Assignment

end Colloquy
