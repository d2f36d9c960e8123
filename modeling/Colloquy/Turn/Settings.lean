import Colloquy.Json

/-!
# Settings of a turn

The bounds within which a turn works. A turn may always call the model once and hand over one piece
of text at a time, whatever the settings say.
-/

namespace Colloquy

/-- The bounds of a turn. -/
structure TurnSettings where
  /-- How many messages of the history go into a prompt. -/
  historyLimit : Nat
  /-- How many characters of each of them. -/
  previewChars : Nat
  /-- How often the model may be called. -/
  maxDepth : UInt32
  /-- How many pieces of text may wait for the caller. -/
  streamBuffer : Nat
  deriving DecidableEq, Repr

namespace TurnSettings

/-- The settings where none are given. -/
def standard : TurnSettings :=
  ⟨10, 200, 8, 64⟩

/-- The settings as a turn uses them. -/
def effective (settings : TurnSettings) : TurnSettings :=
  { settings with
    maxDepth := if settings.maxDepth = 0 then 1 else settings.maxDepth
    streamBuffer := max settings.streamBuffer 1 }

/-- Some bound is zero. -/
def hasZero (settings : TurnSettings) : Bool :=
  settings.historyLimit == 0 || settings.previewChars == 0 || settings.maxDepth == 0 ||
    settings.streamBuffer == 0

/-- The exchange form of settings. -/
def toJson (settings : TurnSettings) : Json :=
  .record [("history_limit", .nat settings.historyLimit),
    ("preview_chars", .nat settings.previewChars), ("max_depth", .word32 settings.maxDepth),
    ("stream_buffer", .nat settings.streamBuffer)]

/-- Reads the exchange form of settings. -/
def decode : Decoder TurnSettings := fun rules d => do
  let fields ← d.fields? ["history_limit", "preview_chars", "max_depth", "stream_buffer"] rules
  let size := Decoder.natBelow (Word.count 64)
  let historyLimit ← fields.withDefault "history_limit" size standard.historyLimit
  let previewChars ← fields.withDefault "preview_chars" size standard.previewChars
  let maxDepth ← fields.withDefault "max_depth" Decoder.word32 standard.maxDepth
  let streamBuffer ← fields.withDefault "stream_buffer" size standard.streamBuffer
  some ⟨historyLimit, previewChars, maxDepth, streamBuffer⟩

theorem maxDepth_effective_ne_zero (settings : TurnSettings) :
    settings.effective.maxDepth ≠ 0 := by
  simp only [effective]
  split
  · decide
  · assumption

end TurnSettings

end Colloquy
