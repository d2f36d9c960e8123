import Colloquy.Proofs.Store.Impartial
import Colloquy.Proofs.Turn.Additions
import Colloquy.Turn.Parties
import Mathlib.Algebra.Order.BigOperators.Group.List
import Mathlib.Algebra.Order.Group.Nat

/-!
# What a store in memory takes

How exchanges change a store in memory, whoever has them: it opens sessions under new names, takes
messages, and is not changed by anything else. Behind any exchanges, a session holds what it held
before and behind that just the messages that it took, in their order.
-/

namespace Colloquy

variable {σ : Type}

/-- The message of a session as a store took it. -/
def Message.addition (message : Message) : Addition :=
  ⟨message.session, message.id, message.draft⟩

/-- Whether a store serves an exchange: it opens a session, takes a message or tells a history. -/
def TurnExchange.isServed : TurnExchange → Bool
  | ⟨.openSession _ _, .ok _⟩ | ⟨.append _ _, .ok _⟩ | ⟨.recentHistory _ _, .ok _⟩ => true
  | _ => false

namespace MemoryStore

/-- The messages of a session; a session that is not there has none. -/
def messages (store : MemoryStore) (session : SessionId) : List Message :=
  ((store.find? session).map (·.messages)).getD []

theorem drafts_eq_messages (store : MemoryStore) (session : SessionId) :
    store.drafts session = (store.messages session).map Message.draft := by
  rw [drafts, messages]
  cases store.find? session <;> rfl

/-- Whether no message has a name. -/
def IsNewMessage (store : MemoryStore) (name : MessageId) : Prop :=
  ∀ session, ∀ message ∈ store.messages session, message.id ≠ name

/-- It is enough to look at the messages session by session as they are kept. -/
theorem isNewMessage_of_logs {store : MemoryStore} {name : MessageId}
    (h : ∀ log ∈ store.logs, ∀ message ∈ log.messages, message.id ≠ name) :
    store.IsNewMessage name := by
  intro session message hmem
  rw [messages] at hmem
  cases hfound : store.find? session with
  | none => simp [hfound] at hmem
  | some log =>
    rw [hfound] at hmem
    exact h log (List.mem_of_find?_eq_some hfound) message hmem

/-- A store in memory has an exchange, and is another one behind it. -/
inductive Takes : MemoryStore → TurnExchange → MemoryStore → Prop
  /-- It opens a session under a name that no session has. -/
  | opened {store : MemoryStore} (stamp : Stamp) (hnew : store.find? stamp.name = none)
    (agentId : String) (title : Option String) :
    Takes store ⟨.openSession agentId title, .ok stamp.name⟩
      (SessionStore.openSession stamp agentId title store).2
  /-- It takes a message. -/
  | appended {store : MemoryStore} (stamp : Stamp) (session : SessionId) (draft : Draft) :
    Takes store ⟨.append session draft, .ok stamp.name⟩
      (SessionStore.append stamp session draft store).2
  /-- It tells a history. -/
  | told {store : MemoryStore} (now : Instant) (session : SessionId) (limit : Nat) :
    Takes store
      ⟨.recentHistory session limit, SessionStore.recentHistory now session limit store⟩ store
  /-- What it refuses, and what others answer, leaves it as it is. -/
  | kept {store : MemoryStore} {exchange : TurnExchange} (hserved : exchange.isServed = false) :
    Takes store exchange store

variable {store store' : MemoryStore}

section Operations

variable (stamp : Stamp) (session other : SessionId)

private theorem messages_openSession (hnew : store.find? stamp.name = none) (agentId : String)
    (title : Option String) :
    messages (SessionStore.openSession stamp agentId title store).2 session =
      store.messages session := by
  by_cases hname : session = stamp.name
  · subst hname
    rw [messages, messages, find?_openSession_self, hnew]
    rfl
  · rw [messages, messages, find?_openSession_other stamp hname]

private theorem messages_append_self (draft : Draft) :
    messages (SessionStore.append stamp session draft store).2 session =
      store.messages session ++ [draft.toMessage stamp.name session stamp.now] := by
  rw [messages, messages, find?_append_self]
  cases store.find? session <;> rfl

private theorem messages_append_other (hother : other ≠ session) (draft : Draft) :
    messages (SessionStore.append stamp session draft store).2 other = store.messages other := by
  rw [messages, messages, find?_append_other stamp hother]

end Operations

/-- An exchange adds to each session the message that the session takes in it, if any. -/
theorem Takes.messages_eq {exchange : TurnExchange} (h : store.Takes exchange store')
    (session : SessionId) :
    ∃ added, store'.messages session = store.messages session ++ added ∧
      added.map Message.addition =
        (additions [exchange]).filter fun addition => addition.session = session := by
  cases h with
  | opened stamp hnew agentId title =>
    refine ⟨[], ?_, rfl⟩
    rw [messages_openSession stamp session hnew, List.append_nil]
  | appended stamp taker draft =>
    by_cases hsession : session = taker
    · subst hsession
      refine ⟨[draft.toMessage stamp.name session stamp.now],
        messages_append_self stamp session draft, ?_⟩
      simp [additions, TurnExchange.addition?, Message.addition, Draft.toMessage, Message.draft]
    · refine ⟨[], ?_, ?_⟩
      · rw [messages_append_other stamp taker session hsession, List.append_nil]
      · simp [additions, TurnExchange.addition?, Ne.symm hsession]
  | told => exact ⟨[], (List.append_nil _).symm, rfl⟩
  | kept hserved =>
    refine ⟨[], (List.append_nil _).symm, ?_⟩
    obtain ⟨effect, answer⟩ := exchange
    cases effect with
    | append taker draft =>
      cases answer with
      | error fault => rfl
      | ok id => cases hserved
    | _ => rfl

/-- A store in memory has exchanges one after another. -/
def TakesAll : MemoryStore → List TurnExchange → MemoryStore → Prop
  | store, [], store' => store = store'
  | store, exchange :: rest, store' => ∃ next, store.Takes exchange next ∧ next.TakesAll rest store'

theorem TakesAll.append {store mid store' : MemoryStore} {t t' : List TurnExchange}
    (h : store.TakesAll t mid) (h' : mid.TakesAll t' store') : store.TakesAll (t ++ t') store' := by
  induction t generalizing store with
  | nil =>
    obtain rfl : store = mid := h
    exact h'
  | cons exchange t ih =>
    obtain ⟨next, hfirst, hrest⟩ := h
    exact ⟨next, hfirst, ih hrest⟩

/-- Behind exchanges, a session holds what it held before and then the messages that it took. -/
theorem TakesAll.messages_eq {t : List TurnExchange} (h : store.TakesAll t store')
    (session : SessionId) :
    ∃ added, store'.messages session = store.messages session ++ added ∧
      added.map Message.addition =
        (additions t).filter fun addition => addition.session = session := by
  induction t generalizing store with
  | nil =>
    obtain rfl : store = store' := h
    exact ⟨[], (List.append_nil _).symm, rfl⟩
  | cons exchange t ih =>
    obtain ⟨next, hfirst, hrest⟩ := h
    obtain ⟨first, hbefore, hadded⟩ := hfirst.messages_eq session
    obtain ⟨rest, hbehind, hrested⟩ := ih hrest
    refine ⟨first ++ rest, by rw [hbehind, hbefore, List.append_assoc], ?_⟩
    rw [List.map_append, hadded, hrested, ← List.filter_append, ← additions_append]
    rfl

/-- A name that is new behind exchanges was new before. -/
theorem TakesAll.isNewMessage {t : List TurnExchange} (h : store.TakesAll t store')
    {name : MessageId} (hnew : store'.IsNewMessage name) : store.IsNewMessage name := by
  intro session message hmem
  obtain ⟨added, hbehind, -⟩ := h.messages_eq session
  exact hnew session message (hbehind ▸ List.mem_append_left added hmem)

end MemoryStore

/-- A host keeps a store in memory: it changes as the exchanges with the host make it change. -/
def KeepsStore (host : Program.Host Effect Effect.Answer σ) (store : σ → MemoryStore) : Prop :=
  ∀ effect s answer next, host effect s = some (answer, next) →
    (store s).Takes ⟨effect, answer⟩ (store next)

theorem KeepsStore.takesAll {host : Program.Host Effect Effect.Answer σ} {store : σ → MemoryStore}
    (hkeeps : KeepsStore host store) {s s' : σ} {t : List TurnExchange}
    (hleads : host.Leads s t s') : (store s).TakesAll t (store s') := by
  induction t generalizing s with
  | nil => exact congrArg store hleads
  | cons exchange t ih =>
    obtain ⟨next, hanswer, hrest⟩ := hleads
    exact ⟨store next, hkeeps exchange.1 s exchange.2 next hanswer, ih hrest⟩

section NewNames

variable (store : MemoryStore)

/-- The names of the sessions and the messages of a store in memory. -/
def MemoryStore.names : List String :=
  store.logs.flatMap fun log => log.session.id :: log.messages.map (·.id)

/-- A name that nothing in a store in memory has: it is longer than all names together. -/
def MemoryStore.newName : String :=
  String.join store.names ++ "n"

private theorem MemoryStore.ne_newName {name : String} (hmem : name ∈ store.names) :
    name ≠ store.newName := by
  rintro rfl
  have hlength : store.newName.length ≤ (String.join store.names).length := by
    rw [String.length_join]
    exact List.le_sum_of_mem (List.mem_map_of_mem hmem)
  have hone : "n".length = 1 := rfl
  rw [newName, String.length_append, hone] at hlength
  omega

theorem MemoryStore.find?_newName : store.find? store.newName = none := by
  refine List.find?_eq_none.mpr fun log hlog hname => ?_
  exact store.ne_newName (List.mem_flatMap.mpr ⟨log, hlog, List.mem_cons_self⟩)
    (beq_iff_eq.mp hname)

theorem MemoryStore.isNewMessage_newName : store.IsNewMessage store.newName := by
  refine isNewMessage_of_logs fun log hlog message hmem => store.ne_newName ?_
  exact List.mem_flatMap.mpr ⟨log, hlog, List.mem_cons_of_mem _ (List.mem_map_of_mem hmem)⟩

end NewNames

/-- The store of parties whose store and log are in memory. -/
def Parties.memory (parties : Parties (MemoryStore × MemoryLog)) : MemoryStore :=
  parties.store.1

/-- Parties with a store in memory, who give new names to whatever they open and take. -/
def Parties.memoryHost : Program.Host Effect Effect.Answer (Parties (MemoryStore × MemoryLog)) :=
  fun effect parties => parties.respond ⟨⟨0, 0⟩, parties.memory.newName⟩ effect

theorem Parties.keepsStore_memoryHost : KeepsStore Parties.memoryHost Parties.memory := by
  intro effect parties answer next h
  cases effect with
  | openSession agentId title =>
    cases h
    exact .opened _ parties.memory.find?_newName agentId title
  | append session draft =>
    cases h
    exact .appended _ session draft
  | recentHistory session limit =>
    cases h
    exact .told ⟨0, 0⟩ session limit
  | invoke tool parameters =>
    obtain ⟨reply, -, hnext⟩ := Option.map_eq_some_iff.mp h
    cases hnext
    exact .kept rfl
  | waitForever => exact answer.elim
  | _ =>
    cases h
    exact .kept rfl

end Colloquy
