import Colloquy.Proofs.Completion.Gathering
import Colloquy.Proofs.Turn.Reading

/-!
# Streams in other chunks

A completion can be cut into deltas in many ways. Two streams are rechunkings of each other when
they say the same altogether: the same text, for every index the same id, name and arguments, and
the same end. A reader who pulls them to their ends gets the same text and the same calls out of
both.
-/

namespace Colloquy

namespace ModelStream

/-- All text of the deltas that count. -/
def content (stream : ModelStream) : String :=
  String.join (stream.deltas.map (·.content.getD ""))

/-- The pieces of calls in the deltas that count. -/
def fragments (stream : ModelStream) : List Fragment :=
  stream.deltas.flatMap (·.fragments)

/-- Streams that differ only in how they are cut into deltas. -/
structure Rechunks (stream stream' : ModelStream) : Prop where
  /-- They end in the same way. -/
  ending : stream.ending = stream'.ending
  /-- They carry the same text. -/
  content : stream.content = stream'.content
  /-- The first ids that are not empty are the same for each index. -/
  ids : ∀ index, Fragment.firstId index stream.fragments = Fragment.firstId index stream'.fragments
  /-- The first names that are not empty are the same for each index. -/
  names : ∀ index,
    Fragment.firstName index stream.fragments = Fragment.firstName index stream'.fragments
  /-- The arguments are the same for each index. -/
  arguments : ∀ index,
    Fragment.allArguments index stream.fragments = Fragment.allArguments index stream'.fragments

/-- The pieces of text that are pulled out of a stream are all its text: what is passed over is
empty. -/
theorem join_texts (stream : ModelStream) : String.join stream.texts = stream.content := by
  rw [texts, content]
  induction stream.deltas with
  | nil => rfl
  | cons delta deltas ih =>
    rw [List.map_cons, String.join_cons, ← ih]
    cases hcontent : delta.content with
    | none =>
      have hnone : delta.text? = none := by rw [Delta.text?, hcontent, Option.filter_none]
      rw [List.filterMap_cons_none hnone, Option.getD_none, String.empty_append]
    | some s =>
      rw [Option.getD_some]
      by_cases hempty : s = ""
      · have hnone : delta.text? = none := by simp [Delta.text?, hcontent, hempty]
        rw [List.filterMap_cons_none hnone, hempty, String.empty_append]
      · have hsome : delta.text? = some s := by
          simp [Delta.text?, hcontent, Option.filter, hempty]
        rw [List.filterMap_cons_some hsome, String.join_cons]

namespace Rechunks

variable {stream stream' : ModelStream}

theorem join_texts (h : stream.Rechunks stream') :
    String.join stream.texts = String.join stream'.texts := by
  rw [stream.join_texts, stream'.join_texts, h.content]

/-- Streams in other chunks make the same calls. -/
theorem calls (h : stream.Rechunks stream') : stream.calls = stream'.calls := by
  refine Accumulator.finish_pushAll_congr fun index => ?_
  have hid := h.ids index
  have hname := h.names index
  have harguments := h.arguments index
  rw [fragments, fragments] at hid hname harguments
  rw [Fragment.gathered, Fragment.gathered, hid, hname, harguments]

end Rechunks

end ModelStream

end Colloquy
