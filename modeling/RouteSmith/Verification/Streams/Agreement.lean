import RouteSmith.Verification.Streams.Conversion
import Mathlib.Data.List.Forall2

/-! # Whole messages and converted streams

A client gets the completion of the whole message from a converted stream, if the text and the
calls arrive in the order of the blocks and all argument text is that of a call.
-/

namespace RouteSmith.Model

open Control List Json UpstreamEvent ResponseForOpenAi

/-! ## What a client has at the end -/

theorem map_snd_toList {β : Type} {m : Std.TreeMap ℕ β} {l : List β}
    (h : ∀ k : ℕ, m[k]? = l[k]?) : m.toList.map (·.2) = l := by
  have hlist : m.toList = l.zipIdx.map Prod.swap := by
    refine toList_eq_of_sorted ?_ fun ⟨k, v⟩ => ?_
    · rw [pairwise_map, pairwise_iff_getElem]
      intro i j _ _ hij
      simpa using hij
    · simp [h, mem_zipIdx_iff_getElem?]
  rw [hlist, map_map]
  exact zipIdx_map_fst 0 l

def ClientCompletion.callList (c : ClientCompletion) : List ClientCall := c.calls.toList.map (·.2)

theorem map_snd_callsOf (blocks : List (ℕ × UpstreamBlock)) :
    (callsOf blocks).map (·.2) = ((blocks.map (·.2)).filter (·.isTool)).map (·.call) := by
  induction blocks with
  | nil => rfl
  | cons p blocks ih =>
    rw [callsOf] at ih ⊢
    cases htool : p.2.isTool with
    | false =>
      have hcall : p.2.call? = none := by simp [UpstreamBlock.call?, htool]
      simp [hcall, htool, ih]
    | true =>
      have hcall : p.2.call? = some p.2.call := if_pos htool
      simp [hcall, htool, ih]

section

variable {conversion : OpenAiConversion} {frames : SseFrameStream}
  {before : List UpstreamEvent}

theorem completionOf_anthropicStreamToOpenai
    (hevents : upstreamEvents conversion.reader frames = some (before ++ [.stop]))
    (hbefore : ∀ event ∈ before, event ≠ .stop ∧ event ≠ .failed)
    (horder : InOrder ∅ before) :
    (completionOf (anthropicStreamToOpenai conversion frames)).text =
        .join ((upstreamBlocks before).map (·.shownText)) ∧
      (completionOf (anthropicStreamToOpenai conversion frames)).callList =
        ((upstreamBlocks before).filter (·.isTool)).map (·.call) ∧
      (completionOf (anthropicStreamToOpenai conversion frames)).finishReason =
        some (mapAnthropicStopReason ((stopReasonOf before).getD "end_turn")) := by
  have hstart : OpenAiConversion.Follows ∅ none
      { completionId := openaiCompletionId (conversion.uuid 0) none, uuids := 1 } := by
    refine ⟨rfl, fun _ => by rfl, .nil, by decide, fun i k => ?_, rfl, rfl⟩
    change (∅ : Std.TreeMap ℕ ℕ)[i]? = some k ↔ ([] : List (ℕ × ClientCall))[k]?.map (·.1) = some i
    simp
  obtain ⟨_, s, hresult, rfl, htext, hcalls, hreason⟩ :=
    (OpenAiConversion.ensures_run hbefore horder hevents hstart).exits
  rw [anthropicStreamToOpenai, hresult]
  refine ⟨?_, ?_, hreason⟩
  · rw [htext, textOf, upstreamBlocks, map_map]
    rfl
  · rw [upstreamBlocks, ← map_snd_callsOf]
    exact map_snd_toList fun k => by rw [hcalls, getElem?_map]

/-! ## Agreement -/

/-- The argument text of a call is that of its block: the fragments that were added to the block,
or without any a text for the input that it started with. -/
def UpstreamBlock.Takes (reader : Json.Reader) (writer : Json.Writer) (b : UpstreamBlock)
    (arguments : String) : Prop :=
  if b.partialJson = "" then ∃ v, reader.parse arguments = some v ∧
    writer.write v = writer.write ((b.start.get? "input").getD (.object []))
  else arguments = b.partialJson

/-- A call that a client has put together is the given one of the whole response. -/
structure SameCall (reader : Json.Reader) (writer : Json.Writer) (call : ClientCall)
    (whole : Json) : Prop where
  id : call.id = whole.text? "id"
  name : call.name = (whole.get? "function").bind (Json.text? "name")
  arguments : ∃ v, reader.parse call.arguments = some v ∧
    (whole.get? "function").bind (Json.text? "arguments") = some (writer.write v)

/-- A client has put together the response that the message is converted to as a whole. -/
structure SameCompletion (reader : Json.Reader) (writer : Json.Writer)
    (blocks : List UpstreamBlock) (c : ClientCompletion) (whole : Json) : Prop where
  text : c.text = wholeText whole
  calls : List.Forall₂ (SameCall reader writer) c.callList (wholeCalls whole)
  arguments : List.Forall₂ (fun call b => b.Takes reader writer call.arguments) c.callList
    (blocks.filter (·.isTool))
  finishReason : c.finishReason = wholeFinishReason whole

section

variable {reader : Json.Reader} {b : UpstreamBlock} {json : Json}

theorem id_toolCall (converter : ResponseForOpenAi) (htool : b.isTool = true)
    (h : b.json reader = some json) : (converter.toolCall json).text? "id" = some b.callId := by
  rw [← (b.json_tool htool h).2.1]
  simp [toolCall, text?, get?, asStr]

theorem name_toolCall (converter : ResponseForOpenAi) (htool : b.isTool = true)
    (h : b.json reader = some json) :
    ((converter.toolCall json).get? "function").bind (text? "name") = some b.callName := by
  rw [← (b.json_tool htool h).2.2.1]
  simp [toolCall, text?, get?, asStr]

theorem arguments_toolCall (converter : ResponseForOpenAi) (json : Json) :
    ((converter.toolCall json).get? "function").bind (text? "arguments") =
      some (converter.writer.write ((json.get? "input").getD (.object []))) := by
  simp [toolCall, text?, get?, asStr]

theorem sameCall_call_iff (converter : ResponseForOpenAi) (hempty : reader.parse "" = none)
    (htool : b.isTool = true) (hjson : b.json reader = some json) :
    SameCall reader converter.writer b.call (converter.toolCall json) ↔ b.partialJson ≠ "" := by
  constructor
  · rintro ⟨-, -, v, hv, -⟩ hnone
    rw [UpstreamBlock.call, hnone, hempty] at hv
    cases hv
  · intro hsome
    refine ⟨(id_toolCall _ htool hjson).symm, (name_toolCall _ htool hjson).symm, ?_⟩
    obtain ⟨v, hv, hinput⟩ := (b.json_tool htool hjson).2.2.2 hsome
    exact ⟨v, hv, by rw [arguments_toolCall, hinput, Option.getD_some]⟩

end

theorem forall₂_iff_forall_mem {α β : Type} {R S : α → β → Prop} {P : α → Prop} {xs : List α}
    {ys : List β} (hR : Forall₂ R xs ys) (h : ∀ x y, R x y → (S x y ↔ P x)) :
    Forall₂ S xs ys ↔ ∀ x ∈ xs, P x := by
  induction hR with
  | nil => simp
  | cons hxy _ ih => simp [ih, h _ _ hxy]

/-- Where the events are in order, the completion of a converted stream is that of the whole
message exactly if every tool use has argument text. -/
theorem converted_stream_same_iff (converter : ResponseForOpenAi) {message : Json}
    (hempty : conversion.reader.parse "" = none)
    (hevents : upstreamEvents conversion.reader frames = some (before ++ [.stop]))
    (hbefore : ∀ event ∈ before, event ≠ .stop ∧ event ≠ .failed)
    (horder : InOrder ∅ before)
    (hmessage : assembleMessage conversion.reader before = some message) :
    ∃ whole, anthropicResponseToOpenai converter message = .ok whole ∧
      (SameCompletion conversion.reader converter.writer (upstreamBlocks before)
          (completionOf (anthropicStreamToOpenai conversion frames)) whole ↔
        ∀ b ∈ upstreamBlocks before, b.isTool = true → b.partialJson ≠ "") := by
  obtain ⟨whole, tools, hwhole, htools, htext, hcalls, hreason⟩ :=
    anthropicResponseToOpenai_assembled converter hmessage
  obtain ⟨hshownText, hshownCalls, hshownReason⟩ :=
    completionOf_anthropicStreamToOpenai hevents hbefore horder
  have hsame : Forall₂ (SameCall conversion.reader converter.writer)
      (((upstreamBlocks before).filter (·.isTool)).map (·.call)) (wholeCalls whole) ↔
        ∀ b ∈ upstreamBlocks before, b.isTool = true → b.partialJson ≠ "" := by
    rw [hcalls, forall₂_map_left_iff, forall₂_map_right_iff]
    refine (forall₂_iff_forall_mem (P := fun b => b.partialJson ≠ "") htools ?_).trans (by simp)
    intro b json hb
    exact sameCall_call_iff converter hempty hb.1 hb.2
  refine ⟨whole, hwhole, fun h => hsame.mp (hshownCalls ▸ h.calls), fun hsome => ?_⟩
  refine ⟨by rw [hshownText, htext], hshownCalls ▸ hsame.mpr hsome, ?_,
    by rw [hshownReason, hreason]⟩
  rw [hshownCalls, forall₂_map_left_iff, forall₂_same]
  intro b hb
  obtain ⟨hmem, htool⟩ := mem_filter.mp hb
  rw [UpstreamBlock.Takes, if_neg (hsome b hmem htool)]
  rfl

/-! A message that is one tool use. -/

def toolUseBlock : Json :=
  .object [("type", .string "tool_use"), ("id", .string "toolu_1"), ("name", .string "list"),
    ("input", .object [])]

def toolUseReader : Json.Reader where
  parse text :=
    if text = "start" then
      some (.object [("type", .string "content_block_start"), ("index", .ofNat 0),
        ("content_block", toolUseBlock)])
    else if text = "input" then
      some (.object [("type", .string "content_block_delta"), ("index", .ofNat 0),
        ("delta", .object [("type", .string "input_json_delta"),
          ("partial_json", .string "\x7b\x7d")])])
    else if text = "reason" then
      some (.object [("type", .string "message_delta"),
        ("delta", .object [("stop_reason", .string "tool_use")])])
    else if text = "stop" then some (.object [("type", .string "message_stop")])
    else if text = "\x7b\x7d" then some (.object [])
    else none
  report _ := "expected value"
  first _ := none

def toolUseConversion : OpenAiConversion where
  reader := toolUseReader
  uuid := toString
  created := .ofNat _ 0
  requestedModel := "m"
  includeUsage := false

def toolUseConverter : ResponseForOpenAi where
  writer := { float := fun _ => "0.0", numeral := fun _ => Json.numeral_zero }
  uuid := "0"
  now := .ofNat _ 0
  requestedModel := "m"

def toolUseFrames (lines : List String) : List (Except AppError SseFrame) :=
  lines.map fun line => .ok { data := line }

def toolUseEvents : List UpstreamEvent :=
  [.start (some 0) toolUseBlock, .input (some 0) "\x7b\x7d", .stopReason (some "tool_use")]

theorem inPlace_toolUseBlock : InPlace ∅ (.start (some 0) toolUseBlock) :=
  ⟨0, rfl, rfl, by simp [show toolUseBlock.text? "type" = some "tool_use" from rfl]⟩

theorem converted_stream_same_sample : ∃ message whole,
      upstreamEvents toolUseReader (toolUseFrames ["start", "input", "reason", "stop"]) =
        some (toolUseEvents ++ [.stop]) ∧
      assembleMessage toolUseReader toolUseEvents = some message ∧
      anthropicResponseToOpenai toolUseConverter message = .ok whole ∧
      SameCompletion toolUseReader toolUseConverter.writer (upstreamBlocks toolUseEvents)
        (completionOf (anthropicStreamToOpenai toolUseConversion
          (toolUseFrames ["start", "input", "reason", "stop"]))) whole := by
  obtain ⟨whole, hwhole, hiff⟩ := @converted_stream_same_iff toolUseConversion
    (toolUseFrames ["start", "input", "reason", "stop"]) toolUseEvents toolUseConverter _ rfl rfl
    (by simp [toolUseEvents]) ⟨inPlace_toolUseBlock, .inl ⟨0, rfl, by decide⟩, trivial, trivial⟩ rfl
  have hblocks : upstreamBlocks toolUseEvents = [⟨toolUseBlock, "", "\x7b\x7d"⟩] := rfl
  refine ⟨_, whole, rfl, rfl, hwhole, hiff.mpr ?_⟩
  simp [hblocks]

/-- A tool use without argument text loses the input that it started with. -/
theorem input_of_start_not_shown : ∃ events message whole,
      upstreamEvents toolUseReader (toolUseFrames ["start", "reason", "stop"]) =
        some (events ++ [.stop]) ∧
      (∀ event ∈ events, event ≠ .stop ∧ event ≠ .failed) ∧ InOrder ∅ events ∧
      assembleMessage toolUseReader events = some message ∧
      anthropicResponseToOpenai toolUseConverter message = .ok whole ∧
      (wholeCalls whole).map (fun call => (call.get? "function").bind (Json.text? "arguments")) =
        [some "\x7b\x7d"] ∧
      (completionOf (anthropicStreamToOpenai toolUseConversion
        (toolUseFrames ["start", "reason", "stop"]))).callList =
          [⟨some "toolu_1", some "list", ""⟩] ∧
      ¬ SameCompletion toolUseReader toolUseConverter.writer (upstreamBlocks events)
        (completionOf (anthropicStreamToOpenai toolUseConversion
          (toolUseFrames ["start", "reason", "stop"]))) whole := by
  have hcalls : (completionOf (anthropicStreamToOpenai toolUseConversion
      (toolUseFrames ["start", "reason", "stop"]))).callList =
        [⟨some "toolu_1", some "list", ""⟩] := by
    decide
  refine ⟨[.start (some 0) _, .stopReason (some "tool_use")], _, _, rfl, by simp,
    ⟨inPlace_toolUseBlock, trivial, trivial⟩, rfl, rfl, by decide, hcalls, fun hsame => ?_⟩
  have hsameCalls := hsame.calls
  obtain ⟨_, _, hcall, -, -⟩ := forall₂_cons_left_iff.mp hsameCalls
  obtain ⟨v, hv, -⟩ := hcall.arguments
  cases hv

end

end RouteSmith.Model
