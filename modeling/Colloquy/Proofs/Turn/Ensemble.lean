import Colloquy.Proofs.Keyed
import Colloquy.Proofs.Turn.Audit
import Colloquy.Proofs.Turn.Taking
import Mathlib.Logic.Function.Basic

/-!
# Turns at one time

Any number of turns are under way with one store and one log in memory. A step is one look of one
turn or one of its effects; which turn takes the next step is left open, and so is what looks find
and what the directory, the model, the tools and the clock answer. Turns meet only in the store and
in the log. Each of them goes by the rules for a turn that is alone, and the store holds the
messages of all of them in the order in which they were appended.
-/

namespace Colloquy

variable {ι : Type} [DecidableEq ι]

/-- A log in memory has an exchange, and is another one behind it. -/
inductive MemoryLog.Takes : MemoryLog → TurnExchange → MemoryLog → Prop
  /-- It takes a record. -/
  | written {log : MemoryLog} (record : ExecutionRecord) :
    Takes log ⟨.writeLog record, .ok ()⟩ (ExecutionLog.write record log).2
  /-- What it refuses, and what others answer, leaves it as it is. -/
  | kept {log : MemoryLog} {exchange : TurnExchange} (hentry : exchange.entry? = none) :
    Takes log exchange log

theorem MemoryLog.Takes.records_eq {log log' : MemoryLog} {exchange : TurnExchange}
    (h : log.Takes exchange log') : log'.records = log.records ++ entries [exchange] := by
  cases h with
  | written record => rfl
  | kept hentry => simp [entries, hentry]

/-- Turns that are under way with one store and one log. -/
structure Ensemble (ι : Type) where
  /-- The store. -/
  store : MemoryStore
  /-- The log. -/
  log : MemoryLog
  /-- What is left of each turn. -/
  left : ι → HeedfulProgram Unit

namespace Ensemble

/-- Turns before their first steps. -/
def begin (store : MemoryStore) (log : MemoryLog) (jobs : ι → Assignment × TurnScope) :
    Ensemble ι :=
  ⟨store, log, fun i => (jobs i).1.heedful (jobs i).2⟩

/-- One turn takes a step. An effect is told with its answer and the turn whose effect it is. -/
inductive Step : Ensemble ι → List (ι × TurnExchange) → Ensemble ι → Prop
  /-- A turn looks for its listener. -/
  | looked {now : Ensemble ι} (i : ι) {next : Bool → HeedfulProgram Unit}
    (hleft : now.left i = .ask .look next) (gone : Bool) :
    Step now [] { now with left := Function.update now.left i (next gone) }
  /-- A turn glances at its listener. -/
  | glanced {now : Ensemble ι} (i : ι) {next : Bool → HeedfulProgram Unit}
    (hleft : now.left i = .ask .glance next) (gone : Bool) :
    Step now [] { now with left := Function.update now.left i (next gone) }
  /-- An effect of a turn is answered. A message that is taken is given a name that no message
  has. -/
  | answered {now : Ensemble ι} (i : ι) {effect : Effect}
    {next : effect.Answer → HeedfulProgram Unit}
    (hleft : now.left i = .ask (.perform effect) next) (answer : effect.Answer)
    {store : MemoryStore} (hstore : now.store.Takes ⟨effect, answer⟩ store)
    (hname : ∀ addition ∈ additions [⟨effect, answer⟩], now.store.IsNewMessage addition.id)
    {log : MemoryLog} (hlog : now.log.Takes ⟨effect, answer⟩ log) :
    Step now [(i, ⟨effect, answer⟩)] ⟨store, log, Function.update now.left i (next answer)⟩

/-- Turns take steps one after another, in any order. -/
inductive Steps (start : Ensemble ι) : List (ι × TurnExchange) → Ensemble ι → Prop
  | none : Steps start [] start
  | more {events new : List (ι × TurnExchange)} {now next : Ensemble ι}
    (h : Steps start events now) (hstep : now.Step new next) : Steps start (events ++ new) next

/-- The exchanges of one turn among events. -/
def partOf (i : ι) (events : List (ι × TurnExchange)) : List TurnExchange :=
  (events.filter fun event => event.1 = i).map (·.2)

/-- The exchanges of all turns in events. -/
def allOf (events : List (ι × TurnExchange)) : List TurnExchange :=
  events.map (·.2)

omit [DecidableEq ι] in
theorem allOf_append (events new : List (ι × TurnExchange)) :
    allOf (events ++ new) = allOf events ++ allOf new :=
  List.map_append

theorem partOf_append (i : ι) (events new : List (ι × TurnExchange)) :
    partOf i (events ++ new) = partOf i events ++ partOf i new := by
  rw [partOf, List.filter_append, List.map_append]
  rfl

/-- What a turn does stands in its order among what all turns do. -/
theorem partOf_sublist (i : ι) (events : List (ι × TurnExchange)) :
    (partOf i events).Sublist (allOf events) :=
  List.filter_sublist.map _

variable {start now next : Ensemble ι} {events new : List (ι × TurnExchange)}

section OneStep

/-- When one turn goes on, it has had its exchanges, and every other turn is where it was. -/
private theorem reaches_update {p q : HeedfulProgram Unit} {i j : ι} {t : List TurnExchange}
    (hreaches : p.Reaches t (now.left i)) (had : List TurnExchange)
    (hgo : i = j → p.Reaches (t ++ had) q) :
    p.Reaches (t ++ partOf i (had.map fun exchange => (j, exchange)))
      (Function.update now.left j q i) := by
  by_cases hturn : i = j
  · have hpart : partOf i (had.map fun exchange => (j, exchange)) = had := by
      simp [partOf, hturn, List.filter_map, Function.comp_def]
    rw [hpart, hturn, Function.update_self]
    exact hgo hturn
  · have hpart : partOf i (had.map fun exchange => (j, exchange)) = [] := by
      simp [partOf, Ne.symm hturn, List.filter_map, Function.comp_def]
    rw [hpart, List.append_nil, Function.update_of_ne hturn]
    exact hreaches

/-- A step takes one turn further and leaves all others where they are. -/
private theorem Step.reaches (h : now.Step new next) {p : HeedfulProgram Unit} {i : ι}
    {t : List TurnExchange} (hreaches : p.Reaches t (now.left i)) :
    p.Reaches (t ++ partOf i new) (next.left i) := by
  cases h with
  | looked j hleft gone =>
    refine reaches_update hreaches [] fun hturn => ?_
    rw [hturn, hleft] at hreaches
    rw [List.append_nil]
    exact hreaches.looked gone
  | glanced j hleft gone =>
    refine reaches_update hreaches [] fun hturn => ?_
    rw [hturn, hleft] at hreaches
    rw [List.append_nil]
    exact hreaches.glanced gone
  | answered j hleft answer =>
    refine reaches_update hreaches [⟨_, answer⟩] fun hturn => ?_
    rw [hturn, hleft] at hreaches
    exact hreaches.answered answer

private theorem Step.takesAll (h : now.Step new next) :
    now.store.TakesAll (allOf new) next.store := by
  cases h with
  | looked | glanced => rfl
  | answered _ _ _ hstore => exact ⟨_, hstore, rfl⟩

private theorem Step.records_eq (h : now.Step new next) :
    next.log.records = now.log.records ++ entries (allOf new) := by
  cases h with
  | looked | glanced => exact (List.append_nil _).symm
  | answered _ _ _ _ _ hlog => exact hlog.records_eq

/-- A message that is taken in a step has a name that no message had before. -/
private theorem Step.isNewMessage (h : now.Step new next) :
    ∀ addition ∈ additions (allOf new), now.store.IsNewMessage addition.id := by
  cases h with
  | looked | glanced => simp [allOf, additions]
  | answered _ _ _ _ hname => exact hname

private theorem Step.nodup (h : now.Step new next) :
    ((additions (allOf new)).map (·.id)).Nodup := by
  cases h with
  | looked | glanced => exact List.nodup_nil
  | @answered _ effect _ _ answer =>
    rw [allOf, List.map_singleton, additions, List.filterMap_cons]
    cases TurnExchange.addition? ⟨effect, answer⟩ with
    | none => exact List.nodup_nil
    | some addition => exact List.nodup_singleton _

end OneStep

/-- Whatever the others do meanwhile, a turn has gone by its program. -/
theorem Steps.reaches (h : start.Steps events now) (i : ι) :
    (start.left i).Reaches (partOf i events) (now.left i) := by
  induction h with
  | none => exact .start
  | more _ hstep ih =>
    rw [partOf_append]
    exact hstep.reaches ih

theorem Steps.takesAll (h : start.Steps events now) :
    start.store.TakesAll (allOf events) now.store := by
  induction h with
  | none => rfl
  | more _ hstep ih =>
    rw [allOf_append]
    exact ih.append hstep.takesAll

theorem Steps.records_eq (h : start.Steps events now) :
    now.log.records = start.log.records ++ entries (allOf events) := by
  induction h with
  | none => exact (List.append_nil _).symm
  | more _ hstep ih => rw [hstep.records_eq, ih, allOf_append, entries_append, List.append_assoc]

/-- A host keeps a store and a log in memory and gives each message a name that no message has. -/
structure Keeps {σ : Type} (host : Program.Host Effect Effect.Answer σ) (store : σ → MemoryStore)
    (log : σ → MemoryLog) : Prop where
  keepsStore : KeepsStore host store
  keepsLog : ∀ effect s answer next, host effect s = some (answer, next) →
    (log s).Takes ⟨effect, answer⟩ (log next)
  names : ∀ effect s answer next, host effect s = some (answer, next) →
    ∀ addition ∈ additions [⟨effect, answer⟩], (store s).IsNewMessage addition.id

/-- Parties with a store and a log in memory are such a host. -/
theorem keeps_memoryHost : Keeps Parties.memoryHost Parties.memory (·.store.2) where
  keepsStore := Parties.keepsStore_memoryHost
  keepsLog effect parties answer next h := by
    cases effect with
    | writeLog record =>
      cases h
      exact .written record
    | invoke tool parameters =>
      obtain ⟨reply, -, hnext⟩ := Option.map_eq_some_iff.mp h
      cases hnext
      exact .kept rfl
    | waitForever => exact answer.elim
    | _ =>
      cases h
      exact .kept rfl
  names effect parties answer next h := by
    cases effect with
    | append session draft =>
      cases h
      exact List.forall_mem_singleton.mpr parties.memory.isNewMessage_newName
    | _ => exact fun addition hmem => absurd hmem List.not_mem_nil

/-- The run of one turn at such a host, while all others wait, is one way of taking steps. -/
theorem Steps.run {σ : Type} {host : Program.Host Effect Effect.Answer σ} {store : σ → MemoryStore}
    {log : σ → MemoryLog} (hkeeps : Keeps host store log) (h : start.Steps events now) (i : ι)
    (listener : Listener) (moment : Nat) {s : σ} (hstore : now.store = store s)
    (hlog : now.log = log s) :
    ∃ later, start.Steps (events ++ (listener.run host (now.left i) moment s).exchanges.map
        fun exchange => (i, exchange)) later ∧
      later.store = store (listener.run host (now.left i) moment s).state ∧
      later.log = log (listener.run host (now.left i) moment s).state ∧
      ∀ j, j ≠ i → later.left j = now.left j := by
  generalize hleft : now.left i = program
  induction program generalizing events now moment s with
  | done a => exact ⟨now, by simpa [Listener.run] using h, hstore, hlog, fun _ _ => rfl⟩
  | ask inquiry next ih =>
    -- The step of this turn changes what is left of it, and of no other.
    have hother {q : HeedfulProgram Unit} {j : ι} (hj : j ≠ i) :
        Function.update now.left i q j = now.left j := Function.update_of_ne hj ..
    cases inquiry with
    | look =>
      have hstep := h.more (.looked i hleft (listener.isGone moment))
      rw [List.append_nil] at hstep
      obtain ⟨later, hsteps, hstore, hlog, hothers⟩ :=
        ih _ hstep moment hstore hlog (Function.update_self ..)
      exact ⟨later, hsteps, hstore, hlog, fun j hj => (hothers j hj).trans (hother hj)⟩
    | glance =>
      have hstep := h.more (.glanced i hleft (listener.isGone moment && listener.caught moment))
      rw [List.append_nil] at hstep
      obtain ⟨later, hsteps, hstore, hlog, hothers⟩ :=
        ih _ hstep moment hstore hlog (Function.update_self ..)
      exact ⟨later, hsteps, hstore, hlog, fun j hj => (hothers j hj).trans (hother hj)⟩
    | perform effect =>
      rw [Listener.run]
      cases hanswer : host effect s with
      | none => exact ⟨now, by simpa using h, hstore, hlog, fun _ _ => rfl⟩
      | some answered =>
        obtain ⟨answer, s'⟩ := answered
        have htakes := hkeeps.keepsStore effect s answer s' hanswer
        have hlogs := hkeeps.keepsLog effect s answer s' hanswer
        have hnew := hkeeps.names effect s answer s' hanswer
        rw [← hstore] at htakes hnew
        rw [← hlog] at hlogs
        have hstep := h.more (.answered i hleft answer htakes hnew hlogs)
        obtain ⟨later, hsteps, hstore, hlog, hothers⟩ :=
          ih answer hstep (moment + 1) rfl rfl (Function.update_self ..)
        rw [List.append_assoc] at hsteps
        exact ⟨later, hsteps, hstore, hlog, fun j hj => (hothers j hj).trans (hother hj)⟩

/-- A message that was taken has its name in the store from then on. -/
private theorem Steps.not_isNewMessage (h : start.Steps events now) {addition : Addition}
    (hmem : addition ∈ additions (allOf events)) : ¬ now.store.IsNewMessage addition.id := by
  intro hnew
  obtain ⟨added, hbehind, hadded⟩ := h.takesAll.messages_eq addition.session
  have hthere : addition ∈ added.map Message.addition := by
    rw [hadded]
    exact List.mem_filter.mpr ⟨hmem, by simp⟩
  obtain ⟨message, hmessage, rfl⟩ := List.mem_map.mp hthere
  exact hnew _ message (hbehind ▸ List.mem_append_right _ hmessage) rfl

/-- No two messages that are taken have one name, and none has a name from before. -/
private theorem Steps.named (h : start.Steps events now) :
    ((additions (allOf events)).map (·.id)).Nodup ∧
      ∀ addition ∈ additions (allOf events), start.store.IsNewMessage addition.id := by
  induction h with
  | none => exact ⟨List.nodup_nil, by simp [allOf, additions]⟩
  | @more events new now next h hstep ih =>
    obtain ⟨hnodup, hold⟩ := ih
    have hnew := hstep.isNewMessage
    rw [allOf_append, additions_append, List.map_append]
    refine ⟨List.nodup_append.mpr ⟨hnodup, hstep.nodup, ?_⟩, fun addition hmem => ?_⟩
    · intro name hname name' hname' hsame
      obtain ⟨addition, hmem, rfl⟩ := List.mem_map.mp hname
      obtain ⟨addition', hmem', rfl⟩ := List.mem_map.mp hname'
      exact h.not_isNewMessage hmem (hsame ▸ hnew addition' hmem')
    · obtain hmem | hmem := List.mem_append.mp hmem
      · exact hold addition hmem
      · exact h.takesAll.isNewMessage (hnew addition hmem)

/-- A message that is taken is taken in the part of some turn. -/
private theorem exists_mem_partOf {addition : Addition}
    (hmem : addition ∈ additions (allOf events)) :
    ∃ i, addition ∈ additions (partOf i events) := by
  obtain ⟨exchange, hexchange, hadds⟩ := List.mem_filterMap.mp hmem
  obtain ⟨⟨i, exchange⟩, hevent, rfl⟩ := List.mem_map.mp hexchange
  refine ⟨i, List.mem_filterMap.mpr ⟨exchange, ?_, hadds⟩⟩
  exact List.mem_map.mpr ⟨(i, exchange), List.mem_filter.mpr ⟨hevent, by simp⟩, rfl⟩

/-- How turns leave each other alone that were under way at one time. -/
structure Undisturbed (store : MemoryStore) (log : MemoryLog) (jobs : ι → Assignment × TurnScope)
    (events : List (ι × TurnExchange)) (now : Ensemble ι) : Prop where
  /-- A session holds what it held at first and behind that, in their order, just the messages that
  turns appended to it. -/
  messages : ∀ session, ∃ added, now.store.messages session = store.messages session ++ added ∧
    added.map Message.addition =
      (additions (allOf events)).filter fun addition => addition.session = session
  /-- A message that a turn appended stands once in its session and in no other. -/
  once : ∀ addition ∈ additions (allOf events), ∀ session,
    ((now.store.messages session).filter fun message => message.id = addition.id).map
        Message.addition =
      if session = addition.session then [addition] else []
  /-- A message that a turn will append is not there yet. -/
  notBefore : ∀ {new : List (ι × TurnExchange)} {later : Ensemble ι}, now.Steps new later →
    ∀ addition ∈ additions (allOf new), now.store.IsNewMessage addition.id
  /-- A message that is new in a session was appended there by some turn. -/
  written : ∀ session, ∀ message ∈ now.store.messages session,
    message ∈ store.messages session ∨ ∃ i, message.addition ∈ additions (partOf i events)
  /-- The messages of one turn stand in their session in the order in which it appended them. -/
  ordered : ∀ i session, ((additions (partOf i events)).filter fun addition =>
    addition.session = session).Sublist ((now.store.messages session).map Message.addition)
  /-- Each turn appends the message of its person once and then at most one reply, which holds what
  this turn streamed and executed. -/
  own : ∀ i, (jobs i).1.Contributes (jobs i).2 (partOf i events)
  /-- The log holds what it held at first and behind that the records that it took. -/
  logged : now.log.records = log.records ++ entries (allOf events)
  /-- Whatever steps follow, sessions only grow at their ends. -/
  grows : ∀ {new : List (ι × TurnExchange)} {later : Ensemble ι}, now.Steps new later →
    ∀ session, now.store.messages session <+: later.store.messages session

/-- In whatever order turns take their steps, they do not disturb each other. -/
theorem undisturbed_steps {store : MemoryStore} {log : MemoryLog}
    {jobs : ι → Assignment × TurnScope} (h : (begin store log jobs).Steps events now) :
    Undisturbed store log jobs events now := by
  obtain ⟨hnodup, hnew⟩ := h.named
  have hmessages := h.takesAll.messages_eq
  refine ⟨hmessages, ?_, fun hlater => hlater.named.2, ?_, ?_, ?_, h.records_eq, ?_⟩
  · intro addition hmem session
    obtain ⟨added, hbehind, hadded⟩ := hmessages session
    have hbefore : (((begin store log jobs).store.messages session).filter fun message =>
        message.id = addition.id) = [] :=
      List.filter_eq_nil_iff.mpr fun message hmessage => by
        simpa using hnew addition hmem session message hmessage
    have hkeys : (added.filter fun message => message.id = addition.id).map Message.addition =
        (added.map Message.addition).filter fun other => other.id = addition.id := by
      rw [List.filter_map]
      rfl
    rw [hbehind, List.filter_append, hbefore, List.nil_append, hkeys, hadded, List.filter_comm,
      filter_key_eq hnodup hmem, List.filter_singleton]
    by_cases hsession : session = addition.session
    · simp [hsession]
    · simp [hsession, Ne.symm hsession]
  · intro session message hmem
    obtain ⟨added, hbehind, hadded⟩ := hmessages session
    rw [hbehind] at hmem
    obtain hmem | hmem := List.mem_append.mp hmem
    · exact .inl hmem
    · have htaken := List.mem_map_of_mem (f := Message.addition) hmem
      rw [hadded] at htaken
      exact .inr (exists_mem_partOf (List.mem_of_mem_filter htaken))
  · intro i session
    obtain ⟨added, hbehind, hadded⟩ := hmessages session
    rw [hbehind, List.map_append, hadded]
    refine List.Sublist.trans ?_ (List.sublist_append_right _ _)
    exact ((partOf_sublist i events).filterMap _).filter _
  · exact fun i => Assignment.contributes_of_reaches (h.reaches i)
  · intro new later hlater session
    obtain ⟨added, hbehind, -⟩ := hlater.takesAll.messages_eq session
    exact ⟨added, hbehind.symm⟩

/-- Two turns go on in the same session. The second one starts when the message of the first person
is there, and ends before the first one asks the model. -/
theorem undisturbed_steps_overtaken :
    let prompt : Prompt := ⟨"p", "Be brief.", true⟩
    let agent : Agent := ⟨"a", "A", [prompt], [], ⟨"m", 0, none⟩⟩
    let job (content : String) : Assignment × TurnScope :=
      (.prepared ⟨agent, prompt, content, some "s", []⟩, ⟨.standard, fun _ => true, 3⟩)
    let jobs (second : Bool) : Assignment × TurnScope := job (if second then "Hi" else "Hello")
    ∃ events now, Undisturbed .empty .empty jobs events now ∧
      (now.store.drafts "s").map (fun draft => (draft.role, draft.content)) =
        [(.user, "Hello"), (.user, "Hi"), (.assistant, "Noon."), (.assistant, "Past noon.")] := by
  intro prompt agent job jobs
  have hlooked : (begin .empty .empty jobs).Steps [] _ := .more .none (.looked false rfl false)
  have hglanced : (begin .empty .empty jobs).Steps [] _ := .more hlooked (.glanced false rfl false)
  have hheard := hglanced.more <| .answered false rfl _
    (.appended ⟨⟨0, 0⟩, MemoryStore.empty.newName⟩ "s" (.user "Hello"))
    (List.forall_mem_singleton.mpr MemoryStore.empty.isNewMessage_newName) (.kept rfl)
  let parties : Parties (MemoryStore × MemoryLog) :=
    ⟨.empty, ((SessionStore.append ⟨⟨0, 0⟩, MemoryStore.empty.newName⟩ "s" (.user "Hello")
        MemoryStore.empty).2, .empty),
      .ofResponses [[.ofText "Noon.", .last], [.ofText "Past noon.", .last]], .empty⟩
  obtain ⟨mid, hmid, hstore, hlog, hothers⟩ :=
    hheard.run keeps_memoryHost true .steady 0 (s := parties) rfl rfl
  obtain ⟨now, hnow, hend, -, -⟩ := hmid.run keeps_memoryHost false .steady 0 hstore hlog
  refine ⟨_, now, undisturbed_steps hnow, ?_⟩
  rw [hend, hothers false (by decide)]
  decide +kernel

end Ensemble

end Colloquy
