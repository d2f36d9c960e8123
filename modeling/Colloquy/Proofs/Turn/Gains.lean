import Colloquy.Proofs.Store.Growth
import Colloquy.Proofs.Turn.Conversations
import Colloquy.Proofs.Turn.Echo

/-!
# What a session gains

A turn that works in one session adds to the page of the session what it appends and to the log what
it hands to it, and touches nothing else. So turns that echo each other leave the same behind: their
sessions and the log have gained drafts and records of one substance.
-/

namespace Colloquy

variable {σ : Type}

/-- The records that the log is handed in exchanges. -/
def handed (t : List TurnExchange) : List ExecutionRecord :=
  t.filterMap fun
    | ⟨.writeLog record, _⟩ => some record
    | _ => none

/-- Whether an exchange opens no session and appends to none but a given one. -/
def TurnExchange.StaysIn (session : SessionId) : TurnExchange → Prop
  | ⟨.openSession _ _, _⟩ => False
  | ⟨.append other _, _⟩ => other = session
  | _ => True

theorem saidIn_append (session : SessionId) (t t' : List TurnExchange) :
    saidIn session (t ++ t') = saidIn session t ++ saidIn session t' := by
  rw [saidIn, additions_append, List.filter_append, List.map_append, saidIn, saidIn]

theorem handed_append (t t' : List TurnExchange) : handed (t ++ t') = handed t ++ handed t' :=
  List.filterMap_append

section Growth

variable [SessionStore σ] [ExecutionLog σ] [ImpartialStore σ] [ImpartialLog σ] [PagedStore σ]
  [PagedLog σ] {around : Surroundings} {start : σ} {card : SessionCard} {drafts : List Draft}
  {records : List ExecutionRecord}

/-- An exchange in a session adds to the page of the session what it appends, and to the log what it
hands to it. -/
private theorem grown_step {effect : Effect} {answer : effect.Answer} {s next : Scene σ}
    (hanswer : around.host effect s = some (answer, next))
    (hstays : TurnExchange.StaysIn card.id ⟨effect, answer⟩) (hnames : around.NamesMessages s)
    (hgrown : PagedStore.Grown start card drafts records s.store) :
    around.NamesMessages next ∧
      PagedStore.Grown start card (drafts ++ saidIn card.id [⟨effect, answer⟩])
        (records ++ handed [⟨effect, answer⟩]) next.store := by
  obtain ⟨store, requests, moment⟩ := s
  have hnew := hnames.isNew moment (Nat.le_refl _)
  -- What neither appends nor writes leaves all as it is.
  have hsame : PagedStore.Grown start card (drafts ++ []) (records ++ []) store := by
    rwa [List.append_nil, List.append_nil]
  cases effect with
  | openSession agentId title => exact hstays.elim
  | append session draft =>
    obtain rfl : session = card.id := hstays
    obtain ⟨store', happend, hgrown'⟩ := hgrown.exists_appended hnew draft
    rw [Surroundings.host, happend] at hanswer
    cases hanswer
    refine ⟨hnames.later fun name hname h => ?_, ?_⟩
    · have hstill := ImpartialStore.new_appended h hnew hname card.id draft
      rwa [happend] at hstill
    · have hsaid : saidIn card.id
          [⟨.append card.id draft, .ok (around.stamp moment).name⟩] = [draft] := by
        simp [saidIn, additions, TurnExchange.addition?]
      rw [hsaid]
      exact (List.append_nil records).symm ▸ hgrown'
  | writeLog record =>
    obtain ⟨store', hwrite, hgrown'⟩ := hgrown.exists_written record
    rw [Surroundings.host, hwrite] at hanswer
    cases hanswer
    refine ⟨hnames.later fun name hname h => ?_, ?_⟩
    · have hstill := ImpartialLog.new_written h record
      rwa [hwrite] at hstill
    · exact (List.append_nil drafts).symm ▸ hgrown'
  | invoke tool parameters =>
    obtain ⟨reply, -, hnext⟩ := Option.map_eq_some_iff.mp hanswer
    cases hnext
    exact ⟨hnames.later fun _ _ hnew => hnew, hsame⟩
  | waitForever => exact answer.elim
  | _ =>
    cases hanswer
    exact ⟨hnames.later fun _ _ hnew => hnew, hsame⟩

/-- Exchanges in a session add to the page of the session what they append, and to the log what they
hand to it. -/
theorem grown_of_leads {s s' : Scene σ} {t : List TurnExchange} (hleads : around.host.Leads s t s')
    (hstays : ∀ exchange ∈ t, exchange.StaysIn card.id) (hnames : around.NamesMessages s)
    (hgrown : PagedStore.Grown start card drafts records s.store) :
    PagedStore.Grown start card (drafts ++ saidIn card.id t) (records ++ handed t) s'.store := by
  induction t generalizing s drafts records with
  | nil =>
    obtain rfl : s = s' := hleads
    have hnothing : PagedStore.Grown start card (drafts ++ []) (records ++ []) s.store := by
      rwa [List.append_nil, List.append_nil]
    exact hnothing
  | cons exchange t ih =>
    obtain ⟨next, hanswer, hrest⟩ := hleads
    obtain ⟨hfirst, hlater⟩ := List.forall_mem_cons.mp hstays
    obtain ⟨hnames', hgrown'⟩ := grown_step hanswer hfirst hnames hgrown
    have hwhole := ih hrest hlater hnames' hgrown'
    rw [List.append_assoc, List.append_assoc, ← saidIn_append, ← handed_append] at hwhole
    exact hwhole

end Growth

section Echoes

variable {session session' : SessionId} {t t' : List TurnExchange}

private theorem TurnExchange.Echoes.staysIn {exchange exchange' : TurnExchange}
    (h : exchange.Echoes session session' exchange') :
    exchange.StaysIn session ∧ exchange'.StaysIn session' := by
  cases h with
  | said piece => exact ⟨trivial, trivial⟩
  | did hplain halike =>
    cases halike with
    | opened | unopened => cases hplain
    | appended | refused => exact ⟨rfl, rfl⟩
    | _ => exact ⟨trivial, trivial⟩

/-- Exchanges that echo each other stay in their sessions. -/
theorem staysIn_of_echoes (h : List.Forall₂ (TurnExchange.Echoes session session') t t') :
    (∀ exchange ∈ t, exchange.StaysIn session) ∧ ∀ exchange ∈ t', exchange.StaysIn session' := by
  induction h with
  | nil => exact ⟨fun _ => nofun, fun _ => nofun⟩
  | cons hfirst _ ih =>
    exact ⟨List.forall_mem_cons.mpr ⟨hfirst.staysIn.1, ih.1⟩,
      List.forall_mem_cons.mpr ⟨hfirst.staysIn.2, ih.2⟩⟩

/-- Two sessions have the same in them behind exchanges if what was delivered is the same, and what
the sessions and the log were given is of one substance. -/
structure SameGain (session session' : SessionId) (t t' : List TurnExchange) : Prop where
  delivered : delivered t = delivered t'
  said : (saidIn session t).map Draft.substance = (saidIn session' t').map Draft.substance
  handed : (handed t).map ExecutionRecord.substance = (handed t').map ExecutionRecord.substance

private theorem SameGain.append {t₁ t₁' : List TurnExchange} (h : SameGain session session' t t')
    (h₁ : SameGain session session' t₁ t₁') : SameGain session session' (t ++ t₁) (t' ++ t₁') where
  delivered := by rw [delivered_append, delivered_append, h.delivered, h₁.delivered]
  said := by rw [saidIn_append, saidIn_append, List.map_append, List.map_append, h.said, h₁.said]
  handed := by
    rw [handed_append, handed_append, List.map_append, List.map_append, h.handed, h₁.handed]

private theorem TurnExchange.Echoes.sameGain {exchange exchange' : TurnExchange}
    (h : exchange.Echoes session session' exchange') :
    SameGain session session' [exchange] [exchange'] := by
  cases h with
  | said piece => exact ⟨rfl, rfl, rfl⟩
  | did hplain halike =>
    cases halike with
    | appended hdraft id id' =>
      refine ⟨rfl, ?_, rfl⟩
      simpa [saidIn, additions, addition?] using hdraft
    | logged hrecord answer answer' => exact ⟨rfl, rfl, congrArg ([·]) hrecord⟩
    | _ => exact ⟨rfl, rfl, rfl⟩

/-- Exchanges that echo each other give the same to their sessions. -/
theorem sameGain_of_echoes (h : List.Forall₂ (TurnExchange.Echoes session session') t t') :
    SameGain session session' t t' := by
  induction h with
  | nil => exact ⟨rfl, rfl, rfl⟩
  | cons hfirst _ ih => exact hfirst.sameGain.append ih

end Echoes

/-- Two stores have come from one by turns that differ only in names, times and durations: each has
a page more, for a session with the same agent and title, and drafts and records of one
substance. -/
def SameGrowth [SessionStore σ] [ExecutionLog σ] [ImpartialStore σ] [PagedStore σ] [PagedLog σ]
    (start : σ) (agentId : String) (title : Option String) (here there : SessionId × σ) : Prop :=
  ∃ drafts drafts' records records',
    PagedStore.Grown start ⟨here.1, agentId, title⟩ drafts records here.2 ∧
    PagedStore.Grown start ⟨there.1, agentId, title⟩ drafts' records' there.2 ∧
    drafts.map Draft.substance = drafts'.map Draft.substance ∧
    records.map ExecutionRecord.substance = records'.map ExecutionRecord.substance

end Colloquy
