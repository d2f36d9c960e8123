import Colloquy.Proofs.Turn.Rules

/-!
# Assignments

What can be run for a listener: a turn whose agent and prompt are known, or a request for one. Its
runs for a listener who stays go by the rules, with the fault that ends it delivered as the last
thing.
-/

namespace Colloquy

/-- What is run for a listener. -/
inductive Assignment where
  /-- A turn. -/
  | prepared (turn : Turn)
  /-- A request for a turn. -/
  | requested (request : TurnRequest)

namespace Assignment

variable {σ : Type}

/-- An assignment as a program that looks for its listener. -/
def heedful (scope : TurnScope) : Assignment → HeedfulProgram Unit
  | .prepared turn => turn.heedful scope
  | .requested request => request.heedful scope

/-- What comes of an assignment for a listener, under a host that answers its effects. -/
def run (assignment : Assignment) (scope : TurnScope) (listener : Listener)
    (host : Program.Host Effect Effect.Answer σ) (s : σ) : Program.Run Effect.Answer Unit σ :=
  listener.run host (assignment.heedful scope) 0 s

/-- Whether an assignment comes to a certain turn, when its exchanges begin in a certain way. -/
def Resolves : Assignment → List TurnExchange → Turn → Prop
  | .prepared given, _, turn => given = turn
  | .requested request, t, turn =>
    ∃ id agent, t.head? = some ⟨.findAgent id, .ok agent⟩ ∧ request.turnOf agent = .ok turn

/-- The rules by which an assignment goes. -/
def Performed (hangs : Effect → Prop) (scope : TurnScope) :
    Assignment → List TurnExchange → Option (Except Fault Unit) → Prop
  | .prepared turn => turn.Performed hangs scope
  | .requested request => request.Performed hangs scope

/-- Every run for a listener who stays goes by the rules, and only that hangs which the host does
not answer at the end. -/
theorem reported_run (assignment : Assignment) (scope : TurnScope)
    (host : Program.Host Effect Effect.Answer σ) (s : σ) :
    let run := assignment.run scope .steady host s
    Heedful.Reported (host · run.state = none)
      (assignment.Performed (host · run.state = none) scope) run.exchanges run.outcome := by
  rw [run, Listener.run_steady]
  have hcourse := Program.course_run host (assignment.heedful scope).attended s
  cases assignment with
  | prepared turn => exact (Turn.goes_perform scope turn).reported hcourse
  | requested request => exact (TurnRequest.goes_perform scope request).reported hcourse

/-- What a look-up of an agent leaves before a turn, if there is one. -/
inductive LookedUp : List TurnExchange → Prop
  | never : LookedUp []
  | once (id : String) (agent : Option Agent) : LookedUp [⟨.findAgent id, .ok agent⟩]

private theorem performed_of_resolves {hangs : Effect → Prop} {scope : TurnScope}
    {assignment : Assignment}
    {t : List TurnExchange} {o : Option (Except Fault Unit)}
    (hperform : assignment.Performed hangs scope t o) {turn : Turn}
    (hresolves : assignment.Resolves t turn) :
    ∃ lookup t', LookedUp lookup ∧ t = lookup ++ t' ∧ turn.Performed hangs scope t' o := by
  cases assignment with
  | prepared given =>
    obtain rfl : given = turn := hresolves
    exact ⟨[], t, .never, rfl, hperform⟩
  | requested request =>
    obtain ⟨id, agent, hhead, hturn⟩ := hresolves
    cases hperform with
    | incomplete haddressee haway => cases haway <;> cases hhead
    | unseen haddressee => cases hhead
    | noDirectory haddressee fault => cases hhead
    | unresolved haddressee hrejected haway =>
      cases hhead
      rw [hturn] at hrejected
      cases hrejected
    | resolved haddressee hfound hperform =>
      cases hhead
      rw [hturn] at hfound
      cases hfound
      exact ⟨[_], _, .once id agent, rfl, hperform⟩

private theorem resolves_of_report {assignment : Assignment} {t : List TurnExchange} {fault : Fault}
    {turn : Turn} (hresolves : assignment.Resolves (t ++ [.report fault]) turn) :
    assignment.Resolves t turn := by
  cases assignment with
  | prepared given => exact hresolves
  | requested request =>
    obtain ⟨id, agent, hhead, hturn⟩ := hresolves
    cases t with
    | nil => cases hhead
    | cons exchange t => exact ⟨id, agent, hhead, hturn⟩

/-- An assignment whose turn is known goes as the turn goes, behind the look-up of its agent if
there is one. -/
theorem reported_of_resolves {hangs : Effect → Prop} {scope : TurnScope} {assignment : Assignment}
    {t : List TurnExchange} {o : Option Unit}
    (hreported : Heedful.Reported hangs (assignment.Performed hangs scope) t o) {turn : Turn}
    (hresolves : assignment.Resolves t turn) :
    ∃ lookup t', LookedUp lookup ∧ t = lookup ++ t' ∧
      Heedful.Reported hangs (turn.Performed hangs scope) t' o := by
  cases hreported with
  | stalled hgoes =>
    obtain ⟨lookup, t', hlookup, rfl, hperform⟩ := performed_of_resolves hgoes hresolves
    exact ⟨lookup, t', hlookup, rfl, .stalled hperform⟩
  | ended hgoes =>
    obtain ⟨lookup, t', hlookup, rfl, hperform⟩ := performed_of_resolves hgoes hresolves
    exact ⟨lookup, t', hlookup, rfl, .ended hperform⟩
  | untold hgoes hhangs =>
    obtain ⟨lookup, t', hlookup, rfl, hperform⟩ := performed_of_resolves hgoes hresolves
    exact ⟨lookup, t', hlookup, rfl, .untold hperform hhangs⟩
  | told hgoes =>
    obtain ⟨lookup, t', hlookup, rfl, hperform⟩ :=
      performed_of_resolves hgoes (resolves_of_report hresolves)
    exact ⟨lookup, _, hlookup, List.append_assoc _ _ _, .told hperform⟩

/-- An assignment that ends without the delivery of a fault goes as its turn goes that ends well. -/
theorem performed_of_faultless {hangs : Effect → Prop} {scope : TurnScope} {assignment : Assignment}
    {t : List TurnExchange} {o : Option Unit}
    (hreported : Heedful.Reported hangs (assignment.Performed hangs scope) t o) {turn : Turn}
    (hresolves : assignment.Resolves t turn) (hended : o = some ())
    (hfaultless : ∀ fault, .error fault ∉ delivered t) :
    ∃ lookup t', LookedUp lookup ∧ t = lookup ++ t' ∧
      turn.Performed hangs scope t' (some (.ok ())) := by
  obtain ⟨lookup, t', hlookup, rfl, hgoes⟩ := reported_of_resolves hreported hresolves
  cases hgoes with
  | stalled | untold => cases hended
  | ended hperform => exact ⟨lookup, t', hlookup, rfl, hperform⟩
  | @told _ fault =>
    refine absurd ?_ (hfaultless fault)
    simp [delivered, TurnExchange.report]

end Assignment

end Colloquy
