import Colloquy.Completion.Script
import Colloquy.Proofs.Json.Fields

/-!
# Written scripts

A script that is written delta by delta is read as the responses that it was written from, and the
model that plays it answers with them: the k-th request with the k-th response, piece by piece, a
piece without text told from a piece with an empty one.
-/

namespace Colloquy

section Words

variable {rules : Datum.Rules}

theorem Json.legible_word32 (n : UInt32) : (Json.word32 n).Legible := by
  have hbound : n.toNat < Word.count 64 := Nat.lt_trans n.toNat_lt (by decide)
  exact ⟨by omega, Int.ofNat_lt.mpr hbound⟩

theorem Decoder.word32_datum (n : UInt32) : word32 rules (Json.word32 n).datum = some n := by
  have hbound : (n.toNat : Int) < Word.count 32 := Int.ofNat_lt.mpr n.toNat_lt
  have hfits : (0 ≤ (n.toNat : Int) && (n.toNat : Int) < Word.count 32) = true := by
    rw [Bool.and_eq_true, decide_eq_true_eq, decide_eq_true_eq]
    exact ⟨Int.natCast_nonneg _, hbound⟩
  rw [word32, Json.word32, Json.nat, Json.datum, natBelow, if_pos hfits, Int.toNat_natCast]
  exact congrArg some UInt32.ofNat_toNat

end Words

section Pieces

theorem Fragment.legible_toJson (fragment : Fragment) : fragment.toJson.Legible := by
  have htext : ∀ name (s : Option String), Json.LegibleMembers (Json.member? name .text s) :=
    fun _ _ => Json.legibleMembers_member? fun _ _ => trivial
  have hindex : Json.LegibleMembers [("index", .word32 fragment.index)] :=
    ⟨Json.legible_word32 fragment.index, trivial⟩
  exact Json.legibleMembers_append.mpr ⟨Json.legibleMembers_append.mpr
    ⟨Json.legibleMembers_append.mpr ⟨hindex, htext ..⟩, htext ..⟩, htext ..⟩

/-- A fragment is read as it was written, where there is a level for it. -/
theorem Fragment.decode_toJson (fragment : Fragment) (rules : Datum.Rules)
    (hdepth : 1 ≤ rules.depth) : decode rules fragment.toJson.datum = some fragment := by
  obtain ⟨index, id, name, arguments⟩ := fragment
  obtain ⟨inner, hinner, -⟩ := Json.inner?_of_lt hdepth
  let members : Json.Members := [("index", .word32 index)] ++ Json.member? "id" .text id ++
    Json.member? "name" .text name ++ Json.member? "arguments" .text arguments
  have hnames : (members.map (·.1)).Sublist ["index", "id", "name", "arguments"] := by
    cases id <;> cases name <;> cases arguments <;> exact List.isSublist_iff_sublist.mp rfl
  have hfields : (Fragment.toJson ⟨index, id, name, arguments⟩).datum.fields?
      ["index", "id", "name", "arguments"] rules = some (Datum.printed inner members) :=
    Datum.fields?_memberData hinner hnames (by decide)
  have hindex : members.lookup "index" = some (Json.word32 index) := by simp [members]
  have hid : members.lookup "id" = id.map .text := by
    simp [members, List.lookup_append, Json.lookup_member?, List.lookup_cons]
  have hname : members.lookup "name" = name.map .text := by
    simp [members, List.lookup_append, Json.lookup_member?, List.lookup_cons]
  have harguments : members.lookup "arguments" = arguments.map .text := by
    simp [members, List.lookup_append, Json.lookup_member?, List.lookup_cons]
  rw [decode, hfields, Option.bind_eq_bind, Option.bind_some,
    Datum.required_printed inner Decoder.word32 hindex (Decoder.word32_datum index),
    Option.bind_eq_bind, Option.bind_some, Datum.optional_printed_text inner hid,
    Option.bind_eq_bind, Option.bind_some, Datum.optional_printed_text inner hname,
    Option.bind_some, Datum.optional_printed_text inner harguments, Option.bind_some]

theorem Delta.legible_toJson (delta : Delta) : delta.toJson.Legible := by
  have hcontent : Json.LegibleMembers (Json.member? "content" .text delta.content) :=
    Json.legibleMembers_member? fun _ _ => trivial
  have hfragments : Json.LegibleMembers
      (Json.nonEmpty "tool_calls" Fragment.toJson delta.fragments) :=
    Json.legibleMembers_nonEmpty _ fun fragment _ => fragment.legible_toJson
  exact Json.legibleMembers_append.mpr
    ⟨Json.legibleMembers_append.mpr ⟨hcontent, hfragments⟩, trivial, trivial⟩

/-- A delta is read as it was written, where there are levels for its fragments. -/
theorem Delta.decode_toJson (delta : Delta) (rules : Datum.Rules) (hdepth : 3 ≤ rules.depth) :
    decode rules delta.toJson.datum = some delta := by
  obtain ⟨content, fragments, done⟩ := delta
  obtain ⟨inner, hinner, hdepth⟩ := Json.inner?_of_lt hdepth
  let members : Json.Members := Json.member? "content" .text content ++
    Json.nonEmpty "tool_calls" Fragment.toJson fragments ++ [("done", .bool done)]
  have hnames : (members.map (·.1)).Sublist ["content", "tool_calls", "done"] := by
    cases content <;> cases fragments <;> exact List.isSublist_iff_sublist.mp rfl
  have hfields : (Delta.toJson ⟨content, fragments, done⟩).datum.fields?
      ["content", "tool_calls", "done"] rules = some (Datum.printed inner members) :=
    Datum.fields?_memberData hinner hnames (by decide)
  have hcontent : members.lookup "content" = content.map .text := by
    simp [members, List.lookup_append, Json.lookup_member?, Json.lookup_nonEmpty _ "content",
      List.lookup_cons]
  have hfragments : members.lookup "tool_calls" =
      (Json.nonEmpty "tool_calls" Fragment.toJson fragments).lookup "tool_calls" := by
    cases fragments <;> simp [members, List.lookup_append, Json.lookup_member?, List.lookup_cons]
  have hdone : members.lookup "done" = some (Json.bool done) := by
    simp [members, List.lookup_append, Json.lookup_member?, Json.lookup_nonEmpty _ "done"]
  have hread : Fragment.decode.list inner (Json.list (fragments.map Fragment.toJson)).datum =
      some fragments :=
    (Json.list_datum hdepth fun fragment _ => fragment.decode_toJson).trans
      (congrArg some (List.map_id' fragments))
  rw [decode, hfields]
  simp only [Option.bind_eq_bind, Option.bind_some, Datum.optional_printed_text inner hcontent,
    Datum.withDefault_printed_nonEmpty inner Fragment.decode hfragments hread,
    Datum.withDefault_printed inner Decoder.bool false hdone rfl]

end Pieces

namespace ScriptedModel

section Written

variable (responses : List (List Delta))

/-- A response as it is written. -/
def responseJson (response : List Delta) : Json :=
  .list (response.map Delta.toJson)

/-- Responses as the text of a script. -/
def scriptText : String :=
  (Json.record [("responses", .list (responses.map responseJson))]).print

private theorem legible_responseJson (response : List Delta) : (responseJson response).Legible :=
  Json.legibleItems_map fun delta _ => delta.legible_toJson

private theorem list_responseJson (response : List Delta) (rules : Datum.Rules)
    (hdepth : 4 ≤ rules.depth) :
    Delta.decode.list rules (responseJson response).datum = some response :=
  (Json.list_datum hdepth fun delta _ => delta.decode_toJson).trans
    (congrArg some (List.map_id' response))

/-- A script is read where there are six levels: its own, those of the responses and of each
response, and three for a delta. -/
private theorem decodeResponses_datum (rules : Datum.Rules) (hdepth : 6 ≤ rules.depth) :
    decodeResponses rules (Json.record [("responses", .list (responses.map responseJson))]).datum =
      some responses := by
  obtain ⟨inner, hinner, hdepth⟩ := Json.inner?_of_lt hdepth
  have hread : Delta.decode.list.list inner (Json.list (responses.map responseJson)).datum =
      some responses :=
    (Json.list_datum hdepth fun response _ => list_responseJson response).trans
      (congrArg some (List.map_id' responses))
  have hfields : Datum.fields? ["responses"] rules
      (Json.record [("responses", .list (responses.map responseJson))]).datum =
        some (Datum.printed inner [("responses", .list (responses.map responseJson))]) :=
    Datum.fields?_memberData hinner (List.Sublist.refl _) (by decide)
  rw [decodeResponses, hfields, Option.bind_eq_bind, Option.bind_some]
  exact Datum.required_printed inner _ List.lookup_cons_self hread

/-- A script is read as the responses that it was written from. -/
theorem ofJson?_scriptText : ofJson? (scriptText responses) = .ok (ofResponses responses) := by
  have hlegible : (Json.record [("responses", .list (responses.map responseJson))]).Legible :=
    ⟨Json.legibleItems_map fun response _ => legible_responseJson response, trivial⟩
  have hread : Json.readAs? decodeResponses (scriptText responses) = some responses := by
    rw [scriptText, Json.readAs?, Json.datum?_print hlegible]
    exact decodeResponses_datum responses Json.rules (by decide)
  rw [ofJson?, hread]

end Written

/-- The answers to requests that are made one after another. -/
def answersTo : List CompletionRequest → ScriptedModel → List ModelAnswer
  | [], _ => []
  | request :: requests, model =>
    (model.complete request).1 :: answersTo requests (model.complete request).2

/-- Requests are answered by the script, one answer after another. Behind its end they are refused,
each with the number of requests before it. -/
theorem answersTo_eq (requests : List CompletionRequest) (model : ScriptedModel) :
    model.answersTo requests = model.answers.take requests.length ++
      (List.range' (model.callCount + model.remaining) (requests.length - model.remaining)).map
        fun calls => .error (.exhausted calls) := by
  induction requests generalizing model with
  | nil => simp [answersTo]
  | cons request requests ih =>
    obtain ⟨answers, asked⟩ := model
    rw [answersTo, ih]
    cases answers with
    | nil => simp [complete, callCount, remaining, List.range'_succ]
    | cons answer answers =>
      simp [complete, callCount, remaining, Nat.add_right_comm, Nat.add_assoc]

/-- A script that is written delta by delta gives a model that answers with just these deltas, each
response in its turn and the stream closed behind it. Requests behind the last response are
refused. -/
theorem answersTo_scriptText (responses : List (List Delta)) :
    ∃ model, ofJson? (scriptText responses) = .ok model ∧
      ∀ requests, model.answersTo requests =
        (responses.take requests.length).map (fun response => .ok ⟨response.map .ok, false⟩) ++
          (List.range' responses.length (requests.length - responses.length)).map
            fun calls => .error (.exhausted calls) := by
  refine ⟨_, ofJson?_scriptText responses, fun requests => ?_⟩
  rw [answersTo_eq]
  simp [ofResponses, ofAnswers, callCount, remaining, List.map_take]

end ScriptedModel

end Colloquy
