import Colloquy.Proofs.Turn.Prompts
import Mathlib.Data.List.TakeWhile

/-!
# The size of a prompt

A prompt shows no more messages than the settings allow, and of each no more characters than they
allow. So it is not longer than its instructions and its content, together with so much for each
message that is shown, whatever the session holds. A message is cut between two characters, never
within the bytes of one.
-/

namespace Colloquy

/-- A text is the first characters of another: as many as are allowed, or all of them. -/
structure IsPreview (most : Nat) (text cut : String) : Prop where
  /-- The rest of the text comes behind it. -/
  front : ∃ rest, text = cut ++ rest
  /-- The place where it ends in the bytes of the text is between two characters. -/
  boundary : cut.rawEndPos.IsValid text
  /-- It has as many characters as are allowed, or as there are. -/
  length_eq : cut.length = min most text.length

theorem isPreview_preview (text : String) (most : Nat) :
    IsPreview most text (preview text most) := by
  have hparts : text = preview text most ++ String.ofList (text.toList.drop most) := by
    rw [preview, ← String.ofList_append, List.take_append_drop, String.ofList_toList]
  refine ⟨⟨_, hparts⟩, ?_, ?_⟩
  · rw [String.Pos.Raw.isValid_iff_exists_append]
    exact ⟨_, _, hparts, rfl⟩
  · rw [preview, String.length_ofList, List.length_take, String.length_toList]

theorem Role.length_name_le (role : Role) : role.name.length ≤ 9 := by
  cases role <;> decide

theorem Text.length_trimEnd_le (s : String) : (trimEnd s).length ≤ s.length := by
  have hdropped := s.toList.reverse.length_dropWhile_le isBlank
  rw [List.length_reverse, String.length_toList] at hdropped
  rwa [trimEnd, String.length_ofList, List.length_reverse]

/-- A line shows a message: who speaks, and the first characters of the words. -/
def Message.IsShownAs (previewChars : Nat) (message : Message) (line : String) : Prop :=
  ∃ cut, IsPreview previewChars message.content cut ∧ line = message.role.name ++ ": " ++ cut

/-- A line is not longer than a role, a colon, a blank and as many characters as are allowed. -/
theorem Message.IsShownAs.length_le {previewChars : Nat} {message : Message} {line : String}
    (h : message.IsShownAs previewChars line) : line.length ≤ previewChars + 11 := by
  obtain ⟨cut, hcut, rfl⟩ := h
  have hname := message.role.length_name_le
  have hlength := hcut.length_eq
  have hcolon : ": ".length = 2 := by decide
  rw [String.length_append, String.length_append, hcolon]
  omega

namespace PromptText

/-- A prompt has its instructions, its history and its content behind each other, with the lines of
the history given. -/
def ofLines (system : String) (lines : List String) (content : String) : String :=
  (if Text.isBlankText system then "" else Text.trimEnd system ++ "\n\n") ++
    (if lines.isEmpty then ""
      else "Conversation history:" ++ String.join (lines.map ("\n" ++ ·)) ++ "\n\n") ++
    ("user: " ++ content)

variable {system content : String} {previewChars : Nat} {history : List Message}

/-- The line of a message. -/
private def lineOf (previewChars : Nat) (message : Message) : String :=
  message.role.name ++ ": " ++ preview message.content previewChars

/-- The section of a history is made of the lines of its messages. -/
private theorem shownSection_eq_lines (previewChars : Nat) (history : List Message) :
    shownSection previewChars (history.map Message.utterance) =
      "Conversation history:" ++
        String.join ((history.map (lineOf previewChars)).map ("\n" ++ ·)) := by
  have hlines : (history.map Message.utterance).map (fun utterance => "\n" ++ utterance.speaker ++
      ": " ++ preview utterance.content previewChars) =
      (history.map (lineOf previewChars)).map ("\n" ++ ·) := by
    rw [List.map_map, List.map_map]
    refine List.map_congr_left fun message _ => ?_
    simp only [Function.comp_apply, lineOf, Message.utterance, String.append_assoc]
  exact congrArg (fun lines => "Conversation history:" ++ String.join lines) hlines

/-- A history is shown by lines, and a prompt is made of these. -/
theorem exists_lines (system : String) (previewChars : Nat) (history : List Message)
    (content : String) :
    ∃ lines, List.Forall₂ (Message.IsShownAs previewChars) history lines ∧
      compose system previewChars (history.map fun message => (message.role, message.content))
        content = ofLines system lines content := by
  refine ⟨history.map (lineOf previewChars), ?_, ?_⟩
  · rw [List.forall₂_map_right_iff, List.forall₂_same]
    intro message _
    exact ⟨_, isPreview_preview message.content previewChars, rfl⟩
  · rw [compose_eq_context, context, shownSection_eq_lines, ofLines, List.isEmpty_map,
      List.isEmpty_map]

/-- The lines of a history with their line breaks are no longer than is allowed for each. -/
private theorem length_lines_le {lines : List String}
    (h : List.Forall₂ (Message.IsShownAs previewChars) history lines) :
    (String.join (lines.map ("\n" ++ ·))).length ≤ history.length * (previewChars + 12) := by
  induction h with
  | nil => simp
  | cons hline hlines ih =>
    have hshort := hline.length_le
    have hbreak : "\n".length = 1 := by decide
    rw [List.map_cons, String.join_cons, String.length_append, String.length_append, hbreak,
      List.length_cons, Nat.add_mul, Nat.one_mul]
    omega

/-- A prompt is no longer than its instructions and its content, thirty-one characters that do not
depend on anything, and so many for each message. -/
theorem length_ofLines_le {lines : List String}
    (h : List.Forall₂ (Message.IsShownAs previewChars) history lines) :
    (ofLines system lines content).length ≤
      system.length + content.length + 31 + history.length * (previewChars + 12) := by
  have hsystem : (if Text.isBlankText system then "" else Text.trimEnd system ++ "\n\n").length ≤
      system.length + 2 := by
    have htrimmed := Text.length_trimEnd_le system
    have hgap : "\n\n".length = 2 := by decide
    split
    · exact Nat.zero_le _
    · rw [String.length_append, hgap]
      omega
  have hhistory : (if lines.isEmpty then "" else
      "Conversation history:" ++ String.join (lines.map ("\n" ++ ·)) ++ "\n\n").length ≤
      23 + history.length * (previewChars + 12) := by
    have hlines := length_lines_le h
    have hheader : "Conversation history:".length = 21 := by decide
    have hgap : "\n\n".length = 2 := by decide
    split
    · exact Nat.zero_le _
    · rw [String.length_append, String.length_append, hheader, hgap]
      omega
  have hmark : "user: ".length = 6 := by decide
  rw [ofLines, String.length_append, String.length_append, String.length_append, hmark]
  omega

end PromptText

section Brief

/-- A store that tells no more messages than are asked for. -/
class BriefStore (σ : Type) [SessionStore σ] : Prop where
  /-- A history has no more messages than are asked for. -/
  length_le {now : Instant} {session : SessionId} {limit : Nat} {s : σ} {history : List Message}
    (htold : SessionStore.recentHistory now session limit s = .ok history) :
    history.length ≤ limit

/-- A history is no longer than the window of its store. -/
private theorem length_le_window {σ : Type} [SessionStore σ] [TranscriptStore σ] {now : Instant}
    {session : SessionId} {limit : Nat} {s : σ} {history : List Message}
    (htold : SessionStore.recentHistory now session limit s = .ok history) :
    history.length ≤ TranscriptStore.window σ limit := by
  have hsaid := congrArg List.length (TranscriptStore.told htold)
  rw [List.length_map, length_lastOf] at hsaid
  omega

instance : BriefStore MemoryStore where
  length_le htold := length_le_window htold

instance : BriefStore Database where
  length_le htold := Nat.le_trans (length_le_window htold) (Nat.min_le_left _ _)

/-- A store with a log beside it is as brief as the store. -/
instance {σ τ : Type} [SessionStore σ] [BriefStore σ] : BriefStore (σ × τ) where
  length_le {_ _ _ pair _} htold := BriefStore.length_le (s := pair.1) htold

variable {σ τ : Type} [SessionStore τ]

/-- A host tells histories of a store. -/
def TellsOf (host : Program.Host Effect Effect.Answer σ) (store : σ → τ) : Prop :=
  ∀ session limit s history next,
    host (.recentHistory session limit) s = some (.ok history, next) →
      ∃ now, SessionStore.recentHistory now session limit (store s) = .ok history

/-- Whatever the time and the new names are, parties tell histories of their store. -/
theorem Parties.tellsOf [ExecutionLog τ] (stamp : Parties τ → Stamp) :
    TellsOf (fun effect parties => parties.respond (stamp parties) effect) Parties.store := by
  intro session limit parties history next h
  obtain ⟨htold, -⟩ := Prod.mk.inj (Option.some.inj h)
  exact ⟨_, htold⟩

/-- A history is what a store told in some exchanges with a host, as the store was just then. -/
def ToldIn (host : Program.Host Effect Effect.Answer σ) (store : σ → τ) (s : σ)
    (t : List TurnExchange) (session : SessionId) (limit : Nat) (history : List Message) : Prop :=
  ∃ before behind mid now,
    t = before ++ ⟨.recentHistory session limit, .ok history⟩ :: behind ∧
      host.Leads s before mid ∧
      SessionStore.recentHistory now session limit (store mid) = .ok history

theorem TellsOf.toldIn {host : Program.Host Effect Effect.Answer σ} {store : σ → τ}
    (htells : TellsOf host store) {s s' : σ} {t : List TurnExchange} (hleads : host.Leads s t s')
    {session : SessionId} {limit : Nat} {history : List Message}
    (hmem : ⟨.recentHistory session limit, .ok history⟩ ∈ t) :
    ToldIn host store s t session limit history := by
  obtain ⟨before, behind, rfl⟩ := List.append_of_mem hmem
  obtain ⟨mid, hbefore, next, hanswer, -⟩ := (host.leads_append_iff s s' _ _).mp hleads
  obtain ⟨now, htold⟩ := htells session limit mid history next hanswer
  exact ⟨before, behind, mid, now, rfl, hbefore, htold⟩

theorem ToldIn.length_le [BriefStore τ] {host : Program.Host Effect Effect.Answer σ}
    {store : σ → τ} {s : σ} {t : List TurnExchange} {session : SessionId} {limit : Nat}
    {history : List Message} (h : ToldIn host store s t session limit history) :
    history.length ≤ limit := by
  obtain ⟨_, _, _, _, -, -, htold⟩ := h
  exact BriefStore.length_le htold

end Brief

namespace Turn

/-- The prompt of a consultation is bounded by settings: its history is shown line by line, and it is
no longer than it has to be. -/
structure Bounded (settings : TurnSettings) (turn : Turn) (consultation : Consultation) : Prop where
  /-- Each message of the history is shown by a line. -/
  shown : ∃ lines,
    List.Forall₂ (Message.IsShownAs settings.previewChars) consultation.history lines ∧
      (turn.asks settings.previewChars consultation).prompt =
        PromptText.ofLines turn.prompt.content lines consultation.content
  /-- The prompt is no longer than it has to be. -/
  length_le : (turn.asks settings.previewChars consultation).prompt.length ≤
    turn.prompt.content.length + consultation.content.length + 31 +
      settings.historyLimit * (settings.previewChars + 12)

/-- A consultation that shows no more messages than the settings allow is bounded. -/
theorem bounded_of_length_le {settings : TurnSettings} {consultation : Consultation} (turn : Turn)
    (hfew : consultation.history.length ≤ settings.historyLimit) :
    turn.Bounded settings consultation := by
  obtain ⟨lines, hlines, hprompt⟩ := PromptText.exists_lines turn.prompt.content
    settings.previewChars consultation.history consultation.content
  refine ⟨⟨lines, hlines, hprompt⟩, ?_⟩
  have hlength : (PromptText.ofLines turn.prompt.content lines consultation.content).length ≤ _ :=
    PromptText.length_ofLines_le hlines
  have hall := Nat.mul_le_mul_right (settings.previewChars + 12) hfew
  change String.length (PromptText.compose _ _ _ _) ≤ _
  rw [hprompt]
  omega

/-- All prompts of a turn are bounded, whatever its session holds, whoever listens and however the
turn ends. -/
theorem bounded_run {σ τ : Type} [SessionStore τ] [BriefStore τ] (assignment : Assignment)
    (scope : TurnScope) (listener : Listener) (host : Program.Host Effect Effect.Answer σ)
    (store : σ → τ) (s : σ) (turn : Turn)
    (hresolves : assignment.Resolves (assignment.run scope listener host s).exchanges turn)
    (htells : TellsOf host store) :
    requested (assignment.run scope listener host s).exchanges = [] ∨
      ∃ session levels consultations,
        turn.WorksIn (assignment.run scope listener host s).exchanges session ∧
        Consulted scope turn session turn.content levels consultations
          (assignment.run scope listener host s).exchanges ∧
        ∀ consultation ∈ consultations,
          ToldIn host store s (assignment.run scope listener host s).exchanges session
              scope.settings.historyLimit consultation.history ∧
            turn.Bounded scope.settings consultation := by
  have hleads := listener.leads_run host (assignment.heedful scope) 0 s
  obtain hnone | ⟨session, levels, consultations, hworks, hconsulted⟩ :=
    consulted_run assignment scope listener host s turn hresolves
  · exact .inl hnone
  refine .inr ⟨session, levels, consultations, hworks, hconsulted, ?_⟩
  intro consultation hmem
  have htold := htells.toldIn hleads (hconsulted.told consultation hmem)
  exact ⟨htold, turn.bounded_of_length_le htold.length_le⟩

/-- A turn over two levels in a session with longer messages, of which five characters are shown:
characters of one byte, of two and of four. -/
theorem bounded_run_memory :
    let clock : Tool := ⟨"1", "clock", "", .native, true, emptySchemaText⟩
    let prompt : Prompt := ⟨"p", "Be brief.", true⟩
    let agent : Agent := ⟨"a", "A", [prompt], [clock], ⟨"m", 0, none⟩⟩
    let turn : Turn := ⟨agent, prompt, "Mittag?", some "s", []⟩
    let scope : TurnScope := ⟨⟨2, 5, 8, 64⟩, fun _ => true, 3⟩
    let said : List Message := [(Draft.user "Hi").toMessage "1" "s" ⟨0, 0⟩,
      (Draft.assistant "Größe 🙂🙂" []).toMessage "2" "s" ⟨0, 0⟩]
    let parties : Parties (MemoryStore × MemoryLog) :=
      ⟨.ofList [agent], (⟨[⟨⟨"s", "a", none, ⟨0, 0⟩, ⟨0, 0⟩⟩, said⟩]⟩, .empty),
        .ofResponses [[⟨none, [⟨0, none, some "watch", none⟩], true⟩],
          [.ofText "Zwölf Uhr.", .last]], .empty⟩
    let run := (Assignment.prepared turn).run scope .steady Parties.memoryHost parties
    let front := "Be brief.\n\nConversation history:\nassistant: Größe\nuser: Mitta\n\nuser: "
    (requested run.exchanges).map (·.prompt) =
        [front ++ "Mittag?",
          front ++ "Tool watch: Error - Tool 'watch' not found or not assigned to this agent."] ∧
      ∃ session levels consultations, turn.WorksIn run.exchanges session ∧
        Consulted scope turn session turn.content levels consultations run.exchanges ∧
        ∀ consultation ∈ consultations,
          ToldIn Parties.memoryHost Parties.store parties run.exchanges session 2
              consultation.history ∧
            turn.Bounded scope.settings consultation := by
  intro clock prompt agent turn scope said parties run front
  have hprompts : (requested run.exchanges).map (·.prompt) =
      [front ++ "Mittag?",
        front ++ "Tool watch: Error - Tool 'watch' not found or not assigned to this agent."] := by
    decide +kernel
  refine ⟨hprompts, ?_⟩
  have htells : TellsOf Parties.memoryHost Parties.store :=
    Parties.tellsOf fun parties => ⟨⟨0, 0⟩, parties.memory.newName⟩
  refine (bounded_run (.prepared turn) scope .steady Parties.memoryHost Parties.store parties turn
    rfl htells).resolve_left fun hnone => ?_
  rw [show requested run.exchanges = [] from hnone] at hprompts
  cases hprompts

end Turn

end Colloquy
