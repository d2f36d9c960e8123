import Colloquy.Proofs.Turn.Persistence
import Colloquy.Proofs.Turn.Underway

/-!
# What a turn adds to a session

Of all that a turn does, only what it appends stays in a session. That is the message of the person
and behind it at most one reply, both in one session; and a reply is only there when the turn has
come to its end, so that it holds what was streamed and executed on all levels.
-/

namespace Colloquy

/-- A message that a session took: the session, the name that the message was given, and what was
handed to the store. -/
structure Addition where
  /-- The session. -/
  session : SessionId
  /-- The name of the message. -/
  id : MessageId
  /-- What it says. -/
  draft : Draft

/-- The message that a session takes in an exchange. -/
def TurnExchange.addition? : TurnExchange → Option Addition
  | ⟨.append session draft, .ok id⟩ => some ⟨session, id, draft⟩
  | _ => none

/-- The messages that sessions take in exchanges. -/
def additions (t : List TurnExchange) : List Addition :=
  t.filterMap TurnExchange.addition?

@[simp]
theorem additions_append (t t' : List TurnExchange) :
    additions (t ++ t') = additions t ++ additions t' :=
  List.filterMap_append

@[simp]
theorem additions_pieces (pieces : List String) : additions (pieces.map .piece) = [] := by
  simp [additions, TurnExchange.addition?, TurnExchange.piece]

/-- The replies are the messages of the assistant among the messages that sessions take. -/
theorem replies_eq_additions (t : List TurnExchange) :
    replies t = (additions t).filterMap fun addition =>
      if addition.draft.role = .assistant then some (addition.session, addition.draft)
      else none := by
  rw [replies, additions, List.filterMap_filterMap]
  refine List.filterMap_congr fun exchange _ => ?_
  obtain ⟨effect, answer⟩ := exchange
  cases effect with
  | append session draft => cases answer <;> rfl
  | _ => rfl

/-- Exchanges add nothing if they are among others that add nothing. -/
private theorem additions_of_subset {t t' : List TurnExchange} (hsub : t ⊆ t')
    (h : additions t' = []) : additions t = [] :=
  List.filterMap_eq_nil_iff.mpr fun exchange hmem =>
    List.filterMap_eq_nil_iff.mp h exchange (hsub hmem)

namespace Turn

variable {hangs : Effect → Prop} {scope : TurnScope} {turn : Turn} {session : SessionId}
  {t : List TurnExchange}

private theorem additions_opening (level : Level) :
    additions (level.opening scope turn session) = [] :=
  additions_pieces level.stream.texts

private theorem additions_work {level : Level} (hlevel : level.Complete scope turn session) :
    additions level.work = [] := by
  refine List.filterMap_eq_nil_iff.mpr fun ⟨effect, answer⟩ hmem => ?_
  have hwork := hlevel.isWork _ hmem
  cases effect <;> first | rfl | cases hwork

private theorem additions_exchanges {level : Level} (hlevel : level.Complete scope turn session) :
    additions (level.exchanges scope turn session) = [] := by
  rw [Level.exchanges, additions_append, additions_opening, additions_work hlevel, List.append_nil]

/-- A level that does not come to the end of the model's answer adds nothing. -/
private theorem Halted.additions_eq {content : String} {fault : Option Fault}
    (h : Halted hangs scope turn session content t fault) : additions t = [] := by
  cases h with
  | stalled level hcontent hpart hstall =>
    exact additions_of_subset hpart.subset (additions_opening level)
  | noHistory fault => rfl
  | noModel history fault => rfl
  | brokenOff level hcontent hending => exact additions_opening level

/-- The levels add nothing. -/
theorem Loop.additions_eq {progress : Progress} {o : Option (Except Fault Progress)}
    (h : Loop hangs scope turn session progress t o) : additions t = [] := by
  induction h with
  | unseen | capped => rfl
  | halted hdepth hhalted => exact hhalted.additions_eq
  | working hdepth level hcontent hlevel hpart =>
    rw [additions_append, additions_opening, List.nil_append]
    exact additions_of_subset hpart.subset (additions_work hlevel)
  | last hdepth level hcontent hlevel hcalls => exact additions_exchanges hlevel
  | level hdepth level hcontent hlevel hcalls hrest ih =>
    rw [additions_append, additions_exchanges hlevel, ih, List.append_nil]

theorem Entered.additions_eq (h : Entered turn t session) : additions t = [] := by
  cases h <;> rfl

/-- A turn adds nothing, or the message of the person, or that and a reply, and then it has come to
its end. -/
private theorem Performed.additions_cases {o : Option (Except Fault Unit)}
    (h : Performed hangs scope turn t o) :
    additions t = [] ∨
      (∃ session id, additions t = [⟨session, id, .user turn.content⟩]) ∨
        o = some (.ok ()) ∧ ∃ session id id' progress, additions t =
          [⟨session, id, .user turn.content⟩, ⟨session, id', answerDraft progress⟩] := by
  have heard {before behind : List TurnExchange} {session : SessionId} (id : MessageId)
      (henter : Entered turn before session) :
      additions (before ++ ⟨.append session (.user turn.content), .ok id⟩ :: behind) =
        ⟨session, id, .user turn.content⟩ :: additions behind := by
    rw [additions_append, henter.additions_eq]
    rfl
  cases h with
  | outside | noSession => exact .inl rfl
  | unheard henter => exact .inl henter.additions_eq
  | refused henter fault =>
    rw [additions_append, henter.additions_eq]
    exact .inl rfl
  | halted henter id hloop =>
    rw [heard id henter, hloop.additions_eq]
    exact .inr (.inl ⟨_, id, rfl⟩)
  | concluded henter id hloop hconclude =>
    rw [heard id henter, additions_append, hloop.additions_eq, List.nil_append]
    cases hconclude with
    | nothing | pending | refused => exact .inr (.inl ⟨_, id, rfl⟩)
    | appended hsome id' => exact .inr (.inr ⟨rfl, _, id, id', _, rfl⟩)

/-- A turn that does not come to its end adds no reply. -/
private theorem Performed.additions_of_ne {o : Option (Except Fault Unit)}
    (h : Performed hangs scope turn t o) (hother : o ≠ some (.ok ())) :
    additions t = [] ∨ ∃ session id, additions t = [⟨session, id, .user turn.content⟩] := by
  obtain hnone | hone | ⟨ho, -⟩ := h.additions_cases
  · exact .inl hnone
  · exact .inr hone
  · exact absurd ho hother

/-- The delivery of a fault adds nothing, and behind a fault there is no reply. -/
private theorem additions_of_reported {o : Option Unit}
    (h : Heedful.Reported hangs (turn.Performed hangs scope) t o) :
    (additions t = [] ∨ ∃ session id, additions t = [⟨session, id, .user turn.content⟩]) ∨
      turn.Performed hangs scope t (some (.ok ())) ∧ ∃ session id id' progress, additions t =
        [⟨session, id, .user turn.content⟩, ⟨session, id', answerDraft progress⟩] := by
  cases h with
  | stalled hgoes | untold hgoes => exact .inl (hgoes.additions_of_ne (by simp))
  | ended hgoes =>
    obtain hnone | hone | ⟨-, hboth⟩ := hgoes.additions_cases
    · exact .inl (.inl hnone)
    · exact .inl (.inr hone)
    · exact .inr ⟨hgoes, hboth⟩
  | @told t fault hgoes =>
    have hsame : additions (t ++ [.report fault]) = additions t := by
      rw [additions_append]
      exact List.append_nil _
    rw [hsame]
    exact .inl (hgoes.additions_of_ne (by simp))

end Turn

namespace Assignment

variable {hangs : Effect → Prop} {assignment : Assignment} {scope : TurnScope}
  {t : List TurnExchange}

/-- What the person says. -/
def content : Assignment → String
  | .prepared turn => turn.content
  | .requested request => request.content

/-- The records from before the turn that count as executed in it. -/
def carried : Assignment → List ExecutionRecord
  | .prepared turn => turn.carried
  | .requested _ => []

/-- A turn of an assignment says what the assignment says, and carries what it carries. -/
theorem Resolves.given {turn : Turn} (h : assignment.Resolves t turn) :
    turn.content = assignment.content ∧ turn.carried = assignment.carried := by
  cases assignment with
  | prepared given =>
    obtain rfl : given = turn := h
    exact ⟨rfl, rfl⟩
  | requested request =>
    obtain ⟨id, agent, -, hturn⟩ := h
    obtain ⟨_, _, -, -, rfl⟩ := TurnRequest.turnOf_eq_ok_iff.mp hturn
    exact ⟨rfl, rfl⟩

/-- What an assignment adds to a session with its exchanges. -/
inductive Contributes (assignment : Assignment) (scope : TurnScope) (t : List TurnExchange) : Prop
  /-- Nothing. -/
  | nothing (hadditions : additions t = [])
  /-- The message of the person. -/
  | heard (session : SessionId) (id : MessageId)
    (hadditions : additions t = [⟨session, id, .user assignment.content⟩])
  /-- The message of the person and behind it the reply, which holds what the turn streamed and
  executed. -/
  | replied (session : SessionId) (id id' : MessageId) (turn : Turn) (levels : List Level)
    (capped : Bool) (hresolves : assignment.Resolves t turn)
    (hpersists : Turn.Persists scope turn session levels capped t)
    (hadditions : additions t = [⟨session, id, .user assignment.content⟩,
      ⟨session, id', .assistant (String.join (Turn.streamed levels))
        ((turn.executed levels).filter (·.success))⟩])

theorem Resolves.append {turn : Turn} (h : assignment.Resolves t turn) (rest : List TurnExchange) :
    assignment.Resolves (t ++ rest) turn := by
  cases assignment with
  | prepared given => exact h
  | requested request =>
    obtain ⟨id, agent, hhead, hturn⟩ := h
    refine ⟨id, agent, ?_, hturn⟩
    rw [List.head?_append, hhead]
    rfl

/-- An assignment that comes to no turn adds nothing. -/
private theorem additions_of_unresolved {o : Option (Except Fault Unit)}
    (h : assignment.Performed hangs scope t o) (hnone : ∀ turn, ¬ assignment.Resolves t turn) :
    additions t = [] := by
  cases assignment with
  | prepared turn => exact absurd rfl (hnone turn)
  | requested request =>
    cases h with
    | unseen | noDirectory => rfl
    | incomplete haddressee haway | unresolved haddressee hturn haway => cases haway <;> rfl
    | resolved haddressee hturn hperform => exact absurd ⟨_, _, rfl, hturn⟩ (hnone _)

/-- An assignment that goes by the rules contributes as it should. -/
theorem contributes_of_reported {o : Option Unit}
    (h : Heedful.Reported hangs (assignment.Performed hangs scope) t o) :
    assignment.Contributes scope t := by
  by_cases hresolves : ∃ turn, assignment.Resolves t turn
  · obtain ⟨turn, hresolves⟩ := hresolves
    obtain ⟨lookup, t', hlookup, rfl, hturn⟩ := reported_of_resolves h hresolves
    have hbehind : additions (lookup ++ t') = additions t' := by
      rw [additions_append]
      cases hlookup <;> rfl
    obtain (hnone | ⟨session, id, hone⟩) | ⟨hperform, session, id, id', progress, hboth⟩ :=
      Turn.additions_of_reported hturn
    · exact .nothing (hbehind.trans hnone)
    · refine .heard session id ?_
      rw [hbehind, hone, hresolves.given.1]
    · obtain ⟨_, levels, capped, hpersists⟩ := Turn.persists_of_performed hlookup hperform rfl
      have hreply : (session, Turn.answerDraft progress) ∈ replies (lookup ++ t') := by
        rw [replies_eq_additions, hbehind, hboth]
        simp [Draft.user, Draft.assistant, Turn.answerDraft]
      obtain ⟨rfl, htext, hrecords, -⟩ := hpersists.reply _ hreply
      refine .replied session id id' turn levels capped hresolves hpersists ?_
      rw [hbehind, hboth, hresolves.given.1, ← htext, ← hrecords]
      rfl
  · rw [not_exists] at hresolves
    refine .nothing ?_
    cases h with
    | stalled hgoes | ended hgoes | untold hgoes => exact additions_of_unresolved hgoes hresolves
    | told hgoes =>
      rw [additions_append, additions_of_unresolved hgoes]
      · rfl
      · exact fun turn hturn => hresolves turn (hturn.append _)

/-- Whenever one looks, and however it ends, an assignment contributes as it should. -/
theorem contributes_of_reaches {left : HeedfulProgram Unit}
    (h : (assignment.heedful scope).Reaches t left) : assignment.Contributes scope t := by
  obtain ⟨o, hreported⟩ := reported_of_reaches h
  exact contributes_of_reported hreported

end Assignment

end Colloquy
