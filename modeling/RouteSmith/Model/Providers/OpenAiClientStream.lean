import RouteSmith.Model.Providers.OpenAiStream

/-! # Streams for OpenAI clients

The stream of an OpenAI-compatible upstream is passed on chunk by chunk. A response that was
buffered is cut into the chunks of a stream.
-/

namespace RouteSmith.Model

open Numeric Text

/-! ## Events -/

inductive OpenAiData where
  | done
  | chunk (json : Json)

structure OpenAiEvent where
  data : OpenAiData
  id : Option String := none
  retry : Option ℕ := none
  comments : List String := []

def openaiEvent (data : OpenAiData) : OpenAiEvent := { data }

/-- An event with the identifier, retry time and comments of the frame it comes from. -/
def eventWithMetadata (frame : SseFrame) (data : OpenAiData) : OpenAiEvent where
  data := data
  id := frame.id
  retry := frame.retry
  comments := frame.comments

def openaiErrorJson (message : String) : Json :=
  .object [("error", .object
    [("message", .string message), ("type", .string "api_error"),
      ("code", .string "upstream_stream_error")])]

def openaiErrorEvent (error : AppError) : OpenAiEvent :=
  openaiEvent (.chunk (openaiErrorJson error.display))

/-- A chunk of the completion `id`. -/
def openaiChunk (id : String) (created : U64) (model : String) (delta finishReason : Json) :
    Json :=
  .object
    [("id", .string id), ("object", .string "chat.completion.chunk"),
      ("created", .number (.posInt created)), ("model", .string model),
      ("choices", .array [.object
        [("index", Json.ofNat 0), ("delta", delta), ("logprobs", .null),
          ("finish_reason", finishReason)]])]

def openaiUsageValue (usage : TokenUsageBreakdown) : Json :=
  let promptTokens := usage.inputTokens + usage.cacheWriteTokens + usage.cacheReadTokens
  .object
    [("prompt_tokens", .number (.posInt promptTokens)),
      ("completion_tokens", .number (.posInt usage.outputTokens)),
      ("total_tokens", .number (.posInt (promptTokens + usage.outputTokens))),
      ("prompt_tokens_details", .object
        [("cached_tokens", .number (.posInt usage.cacheReadTokens))])]

def openaiUsageChunk (id : String) (created : U64) (model : String)
    (usage : TokenUsageBreakdown) : Json :=
  .object
    [("id", .string id), ("object", .string "chat.completion.chunk"),
      ("created", .number (.posInt created)), ("model", .string model),
      ("choices", .array []), ("usage", openaiUsageValue usage)]

/-- The upstream's identifier of a completion, or one of our own. -/
def openaiCompletionId (uuid : String) (upstreamId : Option String) : String :=
  (upstreamId.filter (startsWith · "chatcmpl-")).getD ("chatcmpl-" ++ uuid)

/-! ## Passing a stream on -/

def chunkChoices (chunk : Json) : List Json :=
  ((chunk.get? "choices").bind Json.asArray).getD []

def hasFinishReason (chunk : Json) : Bool :=
  (chunkChoices chunk).any fun choice => (choice.get? "finish_reason").any (!·.isNull)

/-- The number of calls that a list of tool call deltas is evidence of. The sum wraps. -/
def toolCallEvidence (calls : List Json) : ℕ :=
  match (calls.filterMap fun call => ((call.get? "index").bind Json.asU64).map (·.val)).max? with
  | none => calls.length
  | some index => (index + 1) % (usizeMax + 1)

def observeChoice (observed : ResponseObservation) (choice : Json) : ResponseObservation :=
  let delta := (choice.get? "delta").getD .null
  let calls := (delta.get? "tool_calls").bind Json.asArray
  let functionCall := (delta.get? "function_call").any Json.isObject
  { toolCallCount :=
      max (max observed.toolCallCount (calls.elim 0 toolCallEvidence)) functionCall.toNat
    textPresent := observed.textPresent ||
      ((delta.get? "content").bind Json.asStr).any fun text => !isEmpty text
    stopReason := ((choice.get? "finish_reason").bind Json.asStr).or observed.stopReason }

def observeOpenaiStreamChunk (chunk : Json) : LifecycleUpdate :=
  let observed := (chunkChoices chunk).foldl observeChoice {}
  .fragment observed.toolCallCount observed.textPresent observed.stopReason

/-- The arguments of `openai_stream_passthrough`, the JSON reader and the compact text of a
value. -/
structure OpenAiPassthrough where
  reader : Json.Reader
  render : Json → String
  requestedModel : String

structure PassthroughState where
  sawChunk : Bool := false
  sawFinishReason : Bool := false
  trace : List (StreamAction OpenAiEvent) := []

abbrev PassthroughM := EStateM Halt PassthroughState

namespace OpenAiPassthrough

def act (action : StreamAction OpenAiEvent) : PassthroughM Unit :=
  modify fun s => { s with trace := s.trace ++ [action] }

def fail {α : Type} (error : AppError) : PassthroughM α := do
  act (.update (.failed error.display))
  act (.event (openaiErrorEvent error))
  throw .returned

def succeed {α : Type} (event : OpenAiEvent) : PassthroughM α := do
  act (.update .completed)
  act (.event event)
  throw .returned

variable (passthrough : OpenAiPassthrough)

/-- The chunk under the name of the model that was requested. -/
def nameModel (chunk : Json) : Json :=
  if (chunk.get? "model").isSome then chunk.set "model" (.string passthrough.requestedModel)
  else chunk

def errorReport (chunk : Json) : AppError :=
  .upstreamProtocol
    ("OpenAI-compatible stream returned an error event: " ++ passthrough.render chunk)

def noteUsage (chunk : Json) : PassthroughM Unit :=
  match openaiUsageIfPresent chunk with
  | none => pure ()
  | some usage => act (.update (.usage usage))

def relayChunk (frame : SseFrame) (chunk : Json) : PassthroughM Unit := do
  modify fun s => { s with sawChunk := true }
  if (chunk.get? "error").isSome then
    act (.update (.failed (passthrough.errorReport chunk).display))
    act (.event (eventWithMetadata frame (.chunk chunk)))
    throw .returned
  else
    noteUsage chunk
    act (.update (observeOpenaiStreamChunk chunk))
    modify fun s => { s with sawFinishReason := s.sawFinishReason || hasFinishReason chunk }
    act (.event (eventWithMetadata frame (.chunk chunk)))

def relayData (frame : SseFrame) (data : String) : PassthroughM Unit := do
  if data = "[DONE]" then
    let s ← get
    if s.sawChunk then succeed (eventWithMetadata frame .done)
    else fail (.upstreamProtocol "OpenAI-compatible stream ended before sending any chunks")
  else
    match passthrough.reader.parse data with
    | some chunk => passthrough.relayChunk frame (passthrough.nameModel chunk)
    | none =>
      fail (.upstreamProtocol ("invalid OpenAI-compatible SSE chunk: " ++
        passthrough.reader.report data ++ "; data: " ++ data))

def relayItem : Except AppError SseFrame → PassthroughM Unit
  | .ok frame => do
    for data in frame.dataLines do
      passthrough.relayData frame data
  | .error error => do
    let s ← get
    if s.sawFinishReason then succeed (openaiEvent .done) else fail error

def run (frames : List (Except AppError SseFrame)) : PassthroughM Unit := do
  for item in frames do
    passthrough.relayItem item
  let s ← get
  if s.sawChunk && s.sawFinishReason then succeed (openaiEvent .done)
  else fail (.upstreamProtocol "OpenAI-compatible stream ended without [DONE] or finish_reason")

end OpenAiPassthrough

/-- Everything a passed-on stream does for the frames of its upstream. -/
def openaiStreamPassthrough (passthrough : OpenAiPassthrough)
    (frames : List (Except AppError SseFrame)) : List (StreamAction OpenAiEvent) :=
  match passthrough.run frames {} with
  | .ok _ s | .error .returned s => s.trace
  | .error (.failed error) s => s.trace ++ [.error error]

/-! ## Converting an Anthropic stream -/

def mapAnthropicStopReason (reason : String) : String :=
  if reason = "max_tokens" then "length"
  else if reason = "tool_use" then "tool_calls"
  else "stop"

/-- The arguments of `anthropic_stream_to_openai`, the JSON reader, the clock and the identifiers
that are drawn. -/
structure OpenAiConversion where
  reader : Json.Reader
  uuid : ℕ → String
  created : U64
  requestedModel : String
  includeUsage : Bool

structure ConversionState where
  completionId : String
  uuids : ℕ
  messageStarted : Bool := false
  finishEmitted : Bool := false
  toolIndexes : Std.TreeMap ℕ ℕ := ∅
  nextToolIndex : ℕ := 0
  textPresent : Bool := false
  trace : List (StreamAction OpenAiData) := []

abbrev ConversionM := EStateM Halt ConversionState

/-- The role comes first, with empty content. -/
def roleDelta : Json := .object [("role", .string "assistant"), ("content", .string "")]

def contentDelta (text : String) : Json := .object [("content", .string text)]

def toolCallDelta (toolIndex : ℕ) (id name : String) : Json :=
  .object [("tool_calls", .array [.object
    [("index", Json.ofNat toolIndex), ("id", .string id), ("type", .string "function"),
      ("function", .object [("name", .string name), ("arguments", .string "")])]])]

def argumentsDelta (toolIndex : ℕ) (arguments : String) : Json :=
  .object [("tool_calls", .array [.object
    [("index", Json.ofNat toolIndex),
      ("function", .object [("arguments", .string arguments)])]])]

namespace OpenAiConversion

def act (action : StreamAction OpenAiData) : ConversionM Unit :=
  modify fun s => { s with trace := s.trace ++ [action] }

def fail {α : Type} (error : AppError) : ConversionM α := do
  act (.update (.failed error.display))
  act (.event (.chunk (openaiErrorJson error.display)))
  throw .returned

variable (conversion : OpenAiConversion)

def chunk (delta finishReason : Json) : ConversionM Unit := do
  let s ← get
  act (.event (.chunk (openaiChunk s.completionId conversion.created conversion.requestedModel
    delta finishReason)))

/-- The identifier of the completion; a new one is drawn where the upstream has none. -/
def drawCompletionId (upstreamId : Option String) : ConversionM Unit :=
  modify fun s => { s with
    completionId := openaiCompletionId (conversion.uuid s.uuids) upstreamId
    uuids := s.uuids + 1 }

def noteUsage (event : Json) : ConversionM Unit :=
  match ((event.get? "message").bind anthropicUsageIfPresent).or
    (anthropicUsageIfPresent event) with
  | none => pure ()
  | some usage => act (.update (.usage usage))

def eventIndex (event : Json) : Option ℕ := ((event.get? "index").bind Json.asU64).map (·.val)

def startMessage (event : Json) : ConversionM Unit := do
  conversion.drawCompletionId ((event.get? "message").bind (Json.text? "id"))
  modify fun s => { s with messageStarted := true }
  conversion.chunk roleDelta .null

def ensureStarted : ConversionM Unit := do
  let s ← get
  if !s.messageStarted then
    modify fun s => { s with messageStarted := true }
    conversion.chunk roleDelta .null

def startTool (event block : Json) : ConversionM Unit := do
  let s ← get
  let toolIndex := s.nextToolIndex
  modify fun s => { s with
    nextToolIndex := min (toolIndex + 1) usizeMax
    toolIndexes := s.toolIndexes.insert ((eventIndex event).getD toolIndex) toolIndex }
  act (.update (.fragment (min (toolIndex + 1) usizeMax) s.textPresent none))
  conversion.chunk (toolCallDelta toolIndex ((block.text? "id").getD "call_modelport")
    ((block.text? "name").getD "tool")) .null

def startBlock (event : Json) : ConversionM Unit := do
  conversion.ensureStarted
  let block := (event.get? "content_block").getD .null
  if block.text? "type" = some "tool_use" then conversion.startTool event block

def noteText (text : String) : ConversionM Unit :=
  if isEmpty text then pure ()
  else do
    let s ← get
    modify fun s => { s with textPresent := true }
    act (.update (.fragment s.nextToolIndex true none))

def relayText (delta : Json) : ConversionM Unit := do
  let text := (delta.text? "text").getD ""
  noteText text
  conversion.chunk (contentDelta text) .null

def relayArguments (event delta : Json) : ConversionM Unit := do
  let s ← get
  let toolIndex := s.toolIndexes[(eventIndex event).getD 0]?.getD 0
  conversion.chunk (argumentsDelta toolIndex ((delta.text? "partial_json").getD "")) .null

def relayDelta (event : Json) : ConversionM Unit :=
  let delta := (event.get? "delta").getD .null
  let deltaType := delta.text? "type"
  if deltaType = some "text_delta" then conversion.relayText delta
  else if deltaType = some "input_json_delta" then conversion.relayArguments event delta
  else pure ()

def relayStopReason (event : Json) : ConversionM Unit := do
  let stopReason := ((event.get? "delta").bind (Json.text? "stop_reason")).getD "end_turn"
  let s ← get
  modify fun s => { s with finishEmitted := true }
  act (.update (.fragment s.nextToolIndex s.textPresent (some stopReason)))
  conversion.chunk (.object []) (.string (mapAnthropicStopReason stopReason))

def ensureFinished : ConversionM Unit := do
  let s ← get
  if !s.finishEmitted then conversion.chunk (.object []) (.string "stop")

/-- The usage that the record of the stream holds. -/
def relayUsage : ConversionM Unit := do
  let s ← get
  let usage := (s.trace.foldl (StreamAction.apply 0) {}).usage
  match if conversion.includeUsage then usage else none with
  | none => pure ()
  | some usage =>
    act (.event (.chunk
      (openaiUsageChunk s.completionId conversion.created conversion.requestedModel usage)))

def stopMessage : ConversionM Unit := do
  conversion.ensureFinished
  act (.update .completed)
  conversion.relayUsage
  act (.event .done)
  throw .returned

def relayError (event : Json) : ConversionM Unit := do
  let message := ((event.get? "error").bind (Json.text? "message")).getD
    "Anthropic stream returned an error event"
  act (.update (.failed message))
  act (.event (.chunk (openaiErrorJson message)))
  throw .returned

def relayEvent (eventType : String) (event : Json) : ConversionM Unit := do
  noteUsage event
  if eventType = "message_start" then conversion.startMessage event
  else if eventType = "content_block_start" then conversion.startBlock event
  else if eventType = "content_block_delta" then conversion.relayDelta event
  else if eventType = "message_delta" then conversion.relayStopReason event
  else if eventType = "message_stop" then conversion.stopMessage
  else if eventType = "error" then relayError event
  else pure ()

def relayData (frame : SseFrame) (data : String) : ConversionM Unit :=
  if data = "[DONE]" then pure ()
  else
    match conversion.reader.parse data with
    | some event =>
      conversion.relayEvent (((event.text? "type").or frame.event).getD "message") event
    | none =>
      fail (.upstreamProtocol ("invalid Anthropic SSE event: " ++ conversion.reader.report data ++
        "; data: " ++ data))

def relayItem : Except AppError SseFrame → ConversionM Unit
  | .ok frame => do
    for data in frame.dataLines do
      conversion.relayData frame data
  | .error error => fail error

def run (frames : List (Except AppError SseFrame)) : ConversionM Unit := do
  for item in frames do
    conversion.relayItem item
  fail (.upstreamProtocol "Anthropic stream ended without a message_stop event")

end OpenAiConversion

/-- Everything a converted stream does for the frames of its upstream; its events carry no
metadata. -/
def anthropicStreamToOpenai (conversion : OpenAiConversion)
    (frames : List (Except AppError SseFrame)) : List (StreamAction OpenAiData) :=
  match conversion.run frames
      { completionId := openaiCompletionId (conversion.uuid 0) none, uuids := 1 } with
  | .ok _ s | .error .returned s => s.trace
  | .error (.failed error) s => s.trace ++ [.error error]

/-! ## Cutting a buffered response -/

/-- The tool calls of a message as one delta. -/
def completeToolCalls (calls : List Json) : Json :=
  .array (calls.zipIdx.map fun (call, index) => .object
    [("index", Json.ofNat index),
      ("id", (call.get? "id").getD (.string "call_modelport")),
      ("type", .string "function"),
      ("function", (call.get? "function").getD
        (.object [("name", .string "tool"), ("arguments", .string "\x7b\x7d")]))])

/-- The chunks of a message, without the usage and the terminator. -/
def completeChunks (chunk : Json → Json → Json) (choice message : Json) : List Json :=
  let content := ((message.get? "content").bind Json.asStr).filter fun text => !isEmpty text
  let calls := (message.get? "tool_calls").bind Json.asArray
  [chunk (.object [("role", .string "assistant"), ("content", .string "")]) .null] ++
    content.toList.map (fun text => chunk (.object [("content", .string text)]) .null) ++
    calls.toList.map (fun calls =>
      chunk (.object [("tool_calls", completeToolCalls calls)]) .null) ++
    [chunk (.object []) ((choice.get? "finish_reason").getD (.string "stop"))]

/-- The items of a stream made of a whole response; `uuid` and `now` are what would be drawn for
an identifier and a time that the response lacks. -/
def openaiCompleteToStream (uuid : String) (now : U64) (response : Json) (requestedModel : String)
    (includeUsage : Bool) : List (Except AppError OpenAiEvent) :=
  let id := openaiCompletionId uuid ((response.get? "id").bind Json.asStr)
  let created := ((response.get? "created").bind Json.asU64).getD now
  match (((response.get? "choices").bind Json.asArray).bind List.head?) with
  | none => [.error (.upstreamProtocol "OpenAI-compatible response has no choices")]
  | some choice =>
    match choice.get? "message" with
    | none => [.error (.upstreamProtocol "OpenAI-compatible response has no message")]
    | some message =>
      let usage := if includeUsage then openaiUsageIfPresent response else none
      let chunks := completeChunks (openaiChunk id created requestedModel) choice message ++
        usage.toList.map (openaiUsageChunk id created requestedModel)
      chunks.map (fun chunk => .ok (openaiEvent (.chunk chunk))) ++ [.ok (openaiEvent .done)]

def StreamAction.ofItem {ε : Type} : Except AppError ε → StreamAction ε
  | .ok e => .event e
  | .error e => .error e

/-- What is noted of a buffered response. -/
def noteBuffered {ε : Type} (upstream : Json) : List (StreamAction ε) :=
  let observed := (({} : StreamLifecycle).observeOpenaiResponse upstream).response
  [.update (.openaiResponse upstream)] ++
    (if 0 < observed.toolCallCount || observed.textPresent then [.update .semanticEvent] else []) ++
    (openaiUsageIfPresent upstream).toList.map fun usage => .update (.usage usage)

/-- `chat_completions` with `buffer_stream_text`: the record is complete before the stream that
is made of the response is consumed. -/
def bufferedChatCompletions (uuid : String) (now : U64) (upstream : Json)
    (requestedModel : String) (includeUsage : Bool) : List (StreamAction OpenAiEvent) :=
  noteBuffered upstream ++ .update .completed ::
    (openaiCompleteToStream uuid now upstream requestedModel includeUsage).map StreamAction.ofItem

end RouteSmith.Model
