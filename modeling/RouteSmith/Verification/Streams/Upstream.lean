import RouteSmith.Control.EarlyExit
import RouteSmith.Model.Exchange
import RouteSmith.Model.Types
import Std.Data.TreeMap.Lemmas

/-! # The messages of an Anthropic upstream

The events of a stream as the conversion reads them, and the message that they make up.
-/

namespace RouteSmith.Model

open Control Json

/-- An event of the upstream: a block is opened at an index, text or argument text is added to the
block of an index, and a stop reason is given. -/
inductive UpstreamEvent where
  | start (index : Option ℕ) (block : Json)
  | text (index : Option ℕ) (text : String)
  | input (index : Option ℕ) (partialJson : String)
  | stopReason (reason : Option String)
  | stop
  | failed
  | other

namespace UpstreamEvent

def ofDelta (index : Option ℕ) (delta : Json) : UpstreamEvent :=
  if delta.text? "type" = some "text_delta" then .text index ((delta.text? "text").getD "")
  else if delta.text? "type" = some "input_json_delta" then
    .input index ((delta.text? "partial_json").getD "")
  else .other

def ofJson (eventType : String) (event : Json) : UpstreamEvent :=
  let index := OpenAiConversion.eventIndex event
  if eventType = "content_block_start" then .start index ((event.get? "content_block").getD .null)
  else if eventType = "content_block_delta" then ofDelta index ((event.get? "delta").getD .null)
  else if eventType = "message_delta" then
    .stopReason ((event.get? "delta").bind (Json.text? "stop_reason"))
  else if eventType = "message_stop" then .stop
  else if eventType = "error" then .failed
  else .other

end UpstreamEvent

/-! ## Reading frames -/

/-- The event of a data line; the terminator of the other protocol is passed over. -/
def lineEvents (reader : Json.Reader) (frame : SseFrame) (data : String) :
    Option (List UpstreamEvent) :=
  if data = "[DONE]" then some []
  else (reader.parse data).map fun event =>
    [UpstreamEvent.ofJson (((event.text? "type").or frame.event).getD "message") event]

def frameEvents (reader : Json.Reader) : Except AppError SseFrame → Option (List UpstreamEvent)
  | .ok frame => gather (lineEvents reader frame) frame.dataLines
  | .error _ => none

/-- The events of a stream without failures. -/
def upstreamEvents (reader : Json.Reader) (frames : List (Except AppError SseFrame)) :
    Option (List UpstreamEvent) :=
  gather (frameEvents reader) frames

/-! ## The message -/

/-- A block with the text and the argument text that was added to it. -/
structure UpstreamBlock where
  start : Json
  text : String := ""
  partialJson : String := ""

namespace UpstreamBlock

variable (b : UpstreamBlock)

def isTool : Bool := b.start.text? "type" = some "tool_use"

/-- The block of the whole message. Argument text gives the input; without any, the input is that
of the start. -/
def json (reader : Json.Reader) : Option Json :=
  if b.start.text? "type" = some "text" then
    some (b.start.set "text" (.string ((b.start.text? "text").getD "" ++ b.text)))
  else if b.isTool && b.partialJson ≠ "" then
    (reader.parse b.partialJson).map (b.start.set "input")
  else some b.start

/-- What the block adds to the text of the message. -/
def shownText : String :=
  if b.start.text? "type" = some "text" then (b.start.text? "text").getD "" ++ b.text else ""

def callId : String := (b.start.text? "id").getD "call_modelport"

def callName : String := (b.start.text? "name").getD "tool"

end UpstreamBlock

/-- One more event; what is added to a block that is not open is lost. -/
def takeUpstream (blocks : Std.TreeMap ℕ UpstreamBlock) :
    UpstreamEvent → Std.TreeMap ℕ UpstreamBlock
  | .start (some index) block => blocks.insert index { start := block }
  | .text (some index) text => blocks.modify index fun b => { b with text := b.text ++ text }
  | .input (some index) partialJson =>
    blocks.modify index fun b => { b with partialJson := b.partialJson ++ partialJson }
  | _ => blocks

def blocksOf (events : List UpstreamEvent) : Std.TreeMap ℕ UpstreamBlock :=
  events.foldl takeUpstream ∅

/-- The blocks of a message in the order of their indices. -/
def upstreamBlocks (events : List UpstreamEvent) : List UpstreamBlock :=
  (blocksOf events).toList.map (·.2)

def takeReason (reason : Option String) : UpstreamEvent → Option String
  | .stopReason given => given
  | _ => reason

/-- The stop reason that was given last. -/
def stopReasonOf (events : List UpstreamEvent) : Option String := events.foldl takeReason none

/-- The message with its blocks and its stop reason, if all argument texts are JSON. -/
def assembleMessage (reader : Json.Reader) (events : List UpstreamEvent) : Option Json :=
  (gather (fun b => (b.json reader).map ([·])) (upstreamBlocks events)).map fun content =>
    .object [("content", .array content),
      ("stop_reason", (stopReasonOf events).elim .null .string)]

/-! ## The whole response -/

def wholeMessage (response : Json) : Json :=
  (responseMessage response).getD .null

def wholeText (response : Json) : String := ((wholeMessage response).text? "content").getD ""

def wholeCalls (response : Json) : List Json :=
  (((wholeMessage response).get? "tool_calls").bind Json.asArray).getD []

def wholeFinishReason (response : Json) : Option String :=
  (responseChoice response).bind (Json.text? "finish_reason")

section

variable {reader : Json.Reader} {b : UpstreamBlock} {json : Json}

/-- A tool block stays one, with the input that its argument text holds. -/
theorem UpstreamBlock.json_tool (htool : b.isTool = true) (h : b.json reader = some json) :
    json.text? "type" = some "tool_use" ∧ (json.text? "id").getD "call_modelport" = b.callId ∧
      (json.text? "name").getD "tool" = b.callName ∧
      (b.partialJson ≠ "" → ∃ v, reader.parse b.partialJson = some v ∧
        json.get? "input" = some v) := by
  have htype : b.start.text? "type" = some "tool_use" := by simpa [isTool] using htool
  rw [UpstreamBlock.json, htype, if_neg (by decide), htool] at h
  split_ifs at h with hpartial
  · obtain ⟨v, hv, rfl⟩ := Option.map_eq_some_iff.mp h
    obtain ⟨_, hmembers⟩ := exists_eq_object htype
    refine ⟨?_, ?_, ?_, fun _ => ⟨v, hv, ?_⟩⟩
    · rw [text?_set_of_ne (by decide), htype]
    · rw [text?_set_of_ne (by decide), callId]
    · rw [text?_set_of_ne (by decide), callName]
    · rw [hmembers, get?_set_self]
  · cases h
    exact ⟨htype, rfl, rfl, fun hne => absurd hne (by simpa using hpartial)⟩

theorem ResponseForOpenAi.convertBlock_json (converter : ResponseForOpenAi)
    (h : b.json reader = some json) (converted : ConvertedBlocks) :
    converter.convertBlock converted json =
      { text := converted.text ++ b.shownText
        toolCalls := converted.toolCalls ++
          if b.isTool then [converter.toolCall json] else [] } := by
  by_cases htool : b.isTool = true
  · have htype : b.start.text? "type" = some "tool_use" := by
      simpa [UpstreamBlock.isTool] using htool
    rw [convertBlock, (b.json_tool htool h).1, if_neg (by decide), if_pos rfl, htool, if_pos rfl,
      UpstreamBlock.shownText, htype, if_neg (by decide), String.append_empty]
  · have hnotTool : b.start.text? "type" ≠ some "tool_use" := by
      simpa [UpstreamBlock.isTool] using htool
    rw [if_neg htool, List.append_nil, UpstreamBlock.shownText]
    rw [UpstreamBlock.json, Bool.eq_false_iff.mpr htool, Bool.false_and] at h
    by_cases htext : b.start.text? "type" = some "text"
    · rw [if_pos htext] at h
      obtain ⟨_, hmembers⟩ := exists_eq_object htext
      have htype : json.text? "type" = some "text" := by
        rw [← Option.some.inj h, text?_set_of_ne (by decide), htext]
      have hcontent : json.text? "text" = some ((b.start.text? "text").getD "" ++ b.text) := by
        rw [← Option.some.inj h, hmembers, text?, get?_set_self]
        rfl
      rw [convertBlock, htype, if_pos rfl, hcontent, if_pos htext, Option.getD_some]
    · rw [if_neg htext] at h
      cases h
      rw [convertBlock, if_neg htext, if_neg hnotTool, if_neg htext, String.append_empty]

/-- The blocks of a message add their texts, and the tool blocks give the calls. -/
theorem ResponseForOpenAi.foldl_convertBlock (converter : ResponseForOpenAi)
    {blocks : List UpstreamBlock} {content : List Json}
    (h : gather (fun b => (b.json reader).map ([·])) blocks = some content)
    (converted : ConvertedBlocks) :
    ∃ tools, List.Forall₂ (fun b json => b.isTool = true ∧ b.json reader = some json)
        (blocks.filter (·.isTool)) tools ∧
      content.foldl converter.convertBlock converted =
        { text := converted.text ++ .join (blocks.map (·.shownText))
          toolCalls := converted.toolCalls ++ tools.map converter.toolCall } := by
  induction blocks generalizing content converted with
  | nil =>
    cases h
    exact ⟨[], .nil, by simp⟩
  | cons b _ ih =>
    obtain ⟨_, _, hy, hrest, rfl⟩ := gather_cons.mp h
    obtain ⟨json, hjson, rfl⟩ := Option.map_eq_some_iff.mp hy
    rw [List.singleton_append, List.foldl_cons, converter.convertBlock_json hjson]
    obtain ⟨tools, htools, hfold⟩ := ih hrest _
    rw [hfold]
    by_cases htool : b.isTool = true
    · refine ⟨json :: tools, ?_, ?_⟩
      · rw [List.filter_cons_of_pos htool]
        exact .cons ⟨htool, hjson⟩ htools
      · simp [htool, String.append_assoc]
    · refine ⟨tools, ?_, ?_⟩
      · rwa [List.filter_cons_of_neg htool]
      · simp [htool, String.append_assoc]

theorem ResponseForOpenAi.content_message (converted : ConvertedBlocks) :
    ((message converted).text? "content").getD "" = converted.text := by
  rw [message]
  by_cases hnull : (Text.isEmpty converted.text && !converted.toolCalls.isEmpty) = true
  · have hempty : converted.text = "" := by
      simpa [Text.isEmpty] using (Bool.and_eq_true_iff.mp hnull).1
    split_ifs <;> simp [text?, get?, asStr, hempty]
  · split_ifs <;> simp [text?, get?, asStr]

theorem ResponseForOpenAi.toolCalls_message (converted : ConvertedBlocks) :
    (((message converted).get? "tool_calls").bind asArray).getD [] = converted.toolCalls := by
  rw [message]
  by_cases hnil : converted.toolCalls = []
  · simp [get?, hnil]
  · simp [get?, asArray, hnil]

theorem anthropicResponseToOpenai_assembled (converter : ResponseForOpenAi)
    {events : List UpstreamEvent} {message : Json}
    (h : assembleMessage reader events = some message) :
    ∃ whole tools, anthropicResponseToOpenai converter message = .ok whole ∧
      List.Forall₂ (fun b json => b.isTool = true ∧ b.json reader = some json)
        ((upstreamBlocks events).filter (·.isTool)) tools ∧
      wholeText whole = .join ((upstreamBlocks events).map (·.shownText)) ∧
      wholeCalls whole = tools.map converter.toolCall ∧
      wholeFinishReason whole =
        some (mapAnthropicStopReason ((stopReasonOf events).getD "end_turn")) := by
  obtain ⟨content, hcontent, rfl⟩ := Option.map_eq_some_iff.mp h
  obtain ⟨tools, htools, hfold⟩ := converter.foldl_convertBlock hcontent {}
  have hblocks : ((object [("content", .array content),
      ("stop_reason", (stopReasonOf events).elim .null .string)]).get? "content").bind
        asArray = some content := by
    simp [get?, asArray]
  have hreason : (object [("content", .array content),
      ("stop_reason", (stopReasonOf events).elim .null .string)]).text? "stop_reason" =
        stopReasonOf events := by
    cases stopReasonOf events <;> simp [text?, get?, asStr]
  rw [anthropicResponseToOpenai, hblocks]
  dsimp only
  rw [hfold, hreason]
  refine ⟨_, tools, rfl, htools, ?_, ?_, ?_⟩
  · refine trans ?_ (ResponseForOpenAi.content_message
      ⟨.join _, tools.map converter.toolCall⟩)
    simp [wholeText, wholeMessage, responseMessage, responseChoice, get?, asArray]
  · refine trans ?_ (ResponseForOpenAi.toolCalls_message
      ⟨.join ((upstreamBlocks events).map (·.shownText)), tools.map _⟩)
    simp [wholeCalls, wholeMessage, responseMessage, responseChoice, get?, asArray]
  · simp [wholeFinishReason, responseChoice, text?, get?, asArray, asStr,
      mapAnthropicStopReason]

end

end RouteSmith.Model
