import Colloquy.Conversation

/-!
# The text of a prompt

What a model is asked: the instructions of the agent, the recent messages of the session, each cut to
a preview, and the new content. Sections are separated by an empty line, and a section that has
nothing to say is left out.
-/

namespace Colloquy

/-- The first characters of a text. -/
def preview (s : String) (most : Nat) : String :=
  String.ofList (s.toList.take most)

namespace PromptText

/-- The line of a message in the history. -/
def historyLine (previewChars : Nat) (role : Role) (content : String) : String :=
  "\n" ++ role.name ++ ": " ++ preview content previewChars

/-- The section of the history. -/
def historySection (previewChars : Nat) (history : List (Role × String)) : String :=
  "Conversation history:" ++
    String.join (history.map fun (role, content) => historyLine previewChars role content)

/-- The sections in front of the new content. -/
def sections (system : String) (previewChars : Nat) (history : List (Role × String)) :
    List String :=
  (if Text.isBlankText system then [] else [Text.trimEnd system]) ++
    if history.isEmpty then [] else [historySection previewChars history]

/-- The prompt. -/
def compose (system : String) (previewChars : Nat) (history : List (Role × String))
    (content : String) : String :=
  "\n\n".intercalate (sections system previewChars history ++ ["user: " ++ content])

end PromptText

/-- The content that goes back to the model after a batch of calls: a sentence for each record. -/
def followUp (records : List ExecutionRecord) : String :=
  "\n".intercalate (records.map fun record => record.summaryLine ++ ".")

end Colloquy
