import Colloquy.Proofs.Turn.Cancellation

/-!
# The order of effects

The exchanges of a turn have one order, whatever the parties and the listener do: the session, the
message of the person, the levels, a notice and the reply. On a level, the model is called behind
the reading of the history, its answer is delivered to the end, and only then its calls are handled
one after another. A run is a beginning of such exchanges. Only the last call may have another
answer, a fault, and only the delivery of this fault may follow.
-/

namespace Colloquy

namespace Turn

/-- How the exchanges of a turn end behind its complete levels. -/
inductive Finale (scope : TurnScope) (turn : Turn) (session : SessionId) : List TurnExchange → Prop
  /-- With a level whose calls are never handled. -/
  | unfinished (level : Level) : Finale scope turn session (level.opening scope turn session)
  /-- With the notice that the turn went too deep, if it did, but without a reply. -/
  | silent (capped : Bool) : Finale scope turn session ((closing scope capped).map .piece)
  /-- With the notice, if the turn went too deep, and a reply. -/
  | replied (capped : Bool) (draft : Draft) (hrole : draft.role = .assistant) (id : MessageId) :
    Finale scope turn session
      ((closing scope capped).map .piece ++ [⟨.append session draft, .ok id⟩])

/-- The exchanges of a turn in their order. -/
inductive Protocol (scope : TurnScope) (turn : Turn) : List TurnExchange → Prop
  | intro {entry finale : List TurnExchange} {session : SessionId}
    (henter : Entered turn entry session)
    (id : MessageId) (levels : List Level)
    (hlevels : ∀ level ∈ levels, level.Complete scope turn session)
    (hfinale : Finale scope turn session finale) :
    Protocol scope turn (entry ++ [⟨.append session (.user turn.content), .ok id⟩] ++
      (levels.flatMap (·.exchanges scope turn session) ++ finale))

end Turn

/-- The exchanges of a request in their order: those of its turn behind the look-up of the agent, or
only the notice that it is turned away. -/
inductive TurnRequest.Protocol (scope : TurnScope) (request : TurnRequest) :
    List TurnExchange → Prop
  | incomplete {rejection : Rejection} (haddressee : request.addressee = .error rejection) :
    Protocol scope request [.piece (notice rejection.message)]
  | unresolved {id : String} (haddressee : request.addressee = .ok id) {agent : Option Agent}
    {rejection : Rejection} (hturn : request.turnOf agent = .error rejection) :
    Protocol scope request [⟨.findAgent id, .ok agent⟩, .piece (notice rejection.message)]
  | resolved {id : String} (haddressee : request.addressee = .ok id) {agent : Option Agent}
    {turn : Turn} (hturn : request.turnOf agent = .ok turn) {whole : List TurnExchange}
    (hwhole : turn.Protocol scope whole) :
    Protocol scope request (⟨.findAgent id, .ok agent⟩ :: whole)

/-- The exchanges of an assignment in their order. -/
def Assignment.Protocol (scope : TurnScope) : Assignment → List TurnExchange → Prop
  | .prepared turn => turn.Protocol scope
  | .requested request => request.Protocol scope

/-- Exchanges follow others up to some point; the last of them may have another answer, if it shows
a fault. -/
inductive Follows (whole : List TurnExchange) : List TurnExchange → Prop
  | onTheWay {t : List TurnExchange} (hpart : t <+: whole) : Follows whole t
  | failed (t : List TurnExchange) {effect : Effect} {answer : effect.Answer}
    (hfault : (TurnExchange.fault? ⟨effect, answer⟩).isSome) (other : effect.Answer)
    (hpart : t ++ [⟨effect, other⟩] <+: whole) : Follows whole (t ++ [⟨effect, answer⟩])

namespace Follows

variable {whole t t' : List TurnExchange}

/-- What follows does the same effects. -/
theorem effects (h : Follows whole t) : t.map (·.1) <+: whole.map (·.1) := by
  cases h with
  | onTheWay hpart => exact hpart.map _
  | failed t hfault other hpart => simpa using hpart.map (·.1)

theorem append_left (h : Follows whole t) (before : List TurnExchange) :
    Follows (before ++ whole) (before ++ t) := by
  cases h with
  | onTheWay hpart => exact .onTheWay ((List.prefix_append_right_inj before).mpr hpart)
  | failed t hfault other hpart =>
    rw [← List.append_assoc]
    refine .failed _ hfault other ?_
    rw [List.append_assoc]
    exact (List.prefix_append_right_inj before).mpr hpart

/-- A beginning of what follows does so, too. -/
theorem of_part (h : Follows whole t) (hpart : t' <+: t) : Follows whole t' := by
  cases h with
  | onTheWay hpart' => exact .onTheWay (hpart.trans hpart')
  | failed t hfault other hpart' =>
    obtain rfl | hpart := List.prefix_concat_iff.mp hpart
    · exact .failed t hfault other hpart'
    · exact .onTheWay (hpart.trans ((List.prefix_append _ _).trans hpart'))

end Follows

namespace Turn

variable {hangs : Effect → Prop} {scope : TurnScope} {turn : Turn} {session : SessionId}
  {t : List TurnExchange}

/-- A level that comes to a stand or fails follows one that goes on up to the end of the answer. -/
private theorem Halted.follows {content : String} {failure : Option Fault}
    (h : Halted hangs scope turn session content t failure) :
    ∃ level : Level, Follows (level.opening scope turn session) t := by
  cases h with
  | stalled level hcontent hpart hstall => exact ⟨level, .onTheWay hpart⟩
  | noHistory fault =>
    let level : Level := ⟨content, [], ⟨[], false⟩, [], []⟩
    refine ⟨level, .failed [] rfl (.ok []) ?_⟩
    exact ⟨_, rfl⟩
  | noModel history fault =>
    let level : Level := ⟨content, history, ⟨[], false⟩, [], []⟩
    refine ⟨level, .failed [_] rfl (.ok ⟨[], false⟩) ?_⟩
    exact ⟨_, rfl⟩
  | brokenOff level hcontent hending => exact ⟨level, .onTheWay List.prefix_rfl⟩

/-- What the levels come to at most, if they go on as they should. -/
private theorem Loop.follows {progress : Progress} {o : Option (Except Fault Progress)}
    (h : Loop hangs scope turn session progress t o) :
    ∃ (levels : List Level) (finale : List TurnExchange),
      (∀ level ∈ levels, level.Complete scope turn session) ∧ Finale scope turn session finale ∧
        Follows (levels.flatMap (·.exchanges scope turn session) ++ finale) t := by
  induction h with
  | unseen progress => exact ⟨[], _, by simp, .silent false, .onTheWay List.nil_prefix⟩
  | capped progress hdepth => exact ⟨[], _, by simp, .silent true, .onTheWay List.prefix_rfl⟩
  | halted hdepth hhalted =>
    obtain ⟨level, hfollows⟩ := hhalted.follows
    exact ⟨[], _, by simp, .unfinished level, hfollows⟩
  | working hdepth level hcontent hlevel hpart =>
    refine ⟨[level], _, by simpa using hlevel, .silent false, .onTheWay ?_⟩
    rw [List.flatMap_singleton, Level.exchanges, List.append_assoc]
    exact (List.prefix_append_right_inj _).mpr (hpart.trans (List.prefix_append _ _))
  | last hdepth level hcontent hlevel hcalls =>
    refine ⟨[level], _, by simpa using hlevel, .silent false, .onTheWay ?_⟩
    rw [List.flatMap_singleton]
    exact List.prefix_append _ _
  | level hdepth level hcontent hlevel hcalls hrest ih =>
    obtain ⟨levels, finale, hall, hfinale, hfollows⟩ := ih
    refine ⟨level :: levels, finale, by simpa using ⟨hlevel, hall⟩, hfinale, ?_⟩
    rw [List.flatMap_cons, List.append_assoc]
    exact hfollows.append_left _

private theorem Concluded.follows {progress : Progress} {o : Option (Except Fault Unit)}
    (h : Concluded session progress t o) (capped : Bool) :
    ∃ finale, Finale scope turn session finale ∧
      Follows finale ((closing scope capped).map .piece ++ t) := by
  cases h with
  | nothing | pending =>
    rw [List.append_nil]
    exact ⟨_, .silent capped, .onTheWay List.prefix_rfl⟩
  | refused fault =>
    exact ⟨_, .replied capped (answerDraft progress) rfl "", .failed _ rfl (.ok "") List.prefix_rfl⟩
  | appended hsome id =>
    exact ⟨_, .replied capped (answerDraft progress) rfl id, .onTheWay List.prefix_rfl⟩

private theorem protocol_heard {entry : List TurnExchange} (henter : Entered turn entry session)
    (id : MessageId) :
    turn.Protocol scope (entry ++ [⟨.append session (.user turn.content), .ok id⟩]) := by
  have hall : ∀ level ∈ ([] : List Level), level.Complete scope turn session := by simp
  simpa [closing] using Protocol.intro henter id [] hall (.silent false)

private theorem exists_protocol_of_enter {entry : List TurnExchange}
    (henter : Entered turn entry session) {levels : List Level} {finale rest : List TurnExchange}
    (id : MessageId) (hall : ∀ level ∈ levels, level.Complete scope turn session)
    (hfinale : Finale scope turn session finale)
    (hfollows : Follows (levels.flatMap (·.exchanges scope turn session) ++ finale) rest) :
    ∃ whole, turn.Protocol scope whole ∧
      Follows whole (entry ++ ⟨.append session (.user turn.content), .ok id⟩ :: rest) := by
  refine ⟨_, .intro henter id levels hall hfinale, ?_⟩
  have happend := hfollows.append_left (entry ++ [⟨.append session (.user turn.content), .ok id⟩])
  rwa [List.append_assoc entry _ rest] at happend

/-- A turn follows exchanges in their order. -/
private theorem Performed.follows {o : Option (Except Fault Unit)}
    (h : Performed hangs scope turn t o) :
    ∃ whole, turn.Protocol scope whole ∧ Follows whole t := by
  cases h with
  | outside hsession =>
    exact ⟨_, protocol_heard (.opened hsession "") "", .onTheWay List.nil_prefix⟩
  | noSession hsession fault =>
    refine ⟨_, protocol_heard (.opened hsession "") "", .failed [] rfl (.ok "") ?_⟩
    exact ⟨_, rfl⟩
  | unheard henter => exact ⟨_, protocol_heard henter "", .onTheWay (List.prefix_append _ _)⟩
  | refused henter fault =>
    exact ⟨_, protocol_heard henter "", .failed _ rfl (.ok "") List.prefix_rfl⟩
  | halted henter id hloop =>
    obtain ⟨levels, finale, hall, hfinale, hfollows⟩ := hloop.follows
    exact exists_protocol_of_enter henter id hall hfinale hfollows
  | concluded henter id hloop hconclude =>
    obtain ⟨levels, capped, hall, rfl, -⟩ := hloop.levels rfl
    obtain ⟨finale, hfinale, hfollows⟩ := hconclude.follows capped
    refine exists_protocol_of_enter henter id hall hfinale ?_
    rw [List.append_assoc]
    exact hfollows.append_left _

end Turn

private theorem TurnRequest.Performed.follows {hangs : Effect → Prop} {scope : TurnScope}
    {request : TurnRequest} {t : List TurnExchange} {o : Option (Except Fault Unit)}
    (h : request.Performed hangs scope t o) :
    ∃ whole, request.Protocol scope whole ∧ Follows whole t := by
  cases h with
  | incomplete haddressee haway =>
    refine ⟨_, .incomplete haddressee, .onTheWay ?_⟩
    cases haway with
    | pending => exact List.nil_prefix
    | noticed => exact List.prefix_rfl
  | @unseen id haddressee =>
    have hturn : request.turnOf none = .error .unknownAgent := rfl
    exact ⟨_, .unresolved haddressee hturn, .onTheWay List.nil_prefix⟩
  | noDirectory haddressee fault =>
    have hturn : request.turnOf none = .error .unknownAgent := rfl
    exact ⟨_, .unresolved haddressee hturn, .failed [] rfl (.ok none) ⟨_, rfl⟩⟩
  | unresolved haddressee hturn haway =>
    refine ⟨_, .unresolved haddressee hturn, .onTheWay ?_⟩
    cases haway with
    | pending => exact ⟨_, rfl⟩
    | noticed => exact List.prefix_rfl
  | resolved haddressee hturn hperform =>
    obtain ⟨whole, hwhole, hfollows⟩ := hperform.follows
    exact ⟨_, .resolved haddressee hturn hwhole, hfollows.append_left [_]⟩

namespace Assignment

private theorem Performed.follows {hangs : Effect → Prop} {scope : TurnScope}
    {assignment : Assignment}
    {t : List TurnExchange} {o : Option (Except Fault Unit)}
    (h : assignment.Performed hangs scope t o) :
    ∃ whole, assignment.Protocol scope whole ∧ Follows whole t := by
  cases assignment with
  | prepared turn => exact Turn.Performed.follows h
  | requested request => exact TurnRequest.Performed.follows h

private theorem follows_of_reported {hangs : Effect → Prop} {scope : TurnScope}
    {assignment : Assignment}
    {t : List TurnExchange} {o : Option Unit}
    (h : Heedful.Reported hangs (assignment.Performed hangs scope) t o) :
    ∃ whole t', assignment.Protocol scope whole ∧ Follows whole t' ∧
      (t = t' ∨ ∃ fault, t = t' ++ [.report fault]) := by
  cases h with
  | stalled hgoes | ended hgoes | untold hgoes =>
    obtain ⟨whole, hwhole, hfollows⟩ := hgoes.follows
    exact ⟨whole, t, hwhole, hfollows, .inl rfl⟩
  | @told t' fault hgoes =>
    obtain ⟨whole, hwhole, hfollows⟩ := hgoes.follows
    exact ⟨whole, t', hwhole, hfollows, .inr ⟨fault, rfl⟩⟩

/-- Whatever the parties and the listener do, the exchanges of an assignment follow others in their
order, and behind them there is at most the delivery of a fault. -/
theorem run_protocol {σ : Type} (assignment : Assignment) (scope : TurnScope) (listener : Listener)
    (host : Program.Host Effect Effect.Answer σ) (s : σ) :
    ∃ whole t, assignment.Protocol scope whole ∧ Follows whole t ∧ t.map (·.1) <+: whole.map (·.1) ∧
      ((assignment.run scope listener host s).exchanges = t ∨ ∃ fault,
        (assignment.run scope listener host s).exchanges = t ++ [.report fault]) := by
  have hpart : (assignment.run scope listener host s).exchanges <+:
      (assignment.run scope .steady host s).exchanges :=
    (assignment.watchful_heedful scope).exchanges_run_le listener host 0 s
  obtain ⟨whole, t, hwhole, hfollows, ht⟩ :=
    follows_of_reported (assignment.reported_run scope host s)
  obtain ht | ⟨fault, ht⟩ := ht
  · rw [ht] at hpart
    have hleft := hfollows.of_part hpart
    exact ⟨whole, _, hwhole, hleft, hleft.effects, .inl rfl⟩
  · rw [ht] at hpart
    obtain hall | hpart := List.prefix_concat_iff.mp hpart
    · exact ⟨whole, t, hwhole, hfollows, hfollows.effects, .inr ⟨fault, hall⟩⟩
    · have hleft := hfollows.of_part hpart
      exact ⟨whole, _, hwhole, hleft, hleft.effects, .inl rfl⟩

end Assignment

end Colloquy
