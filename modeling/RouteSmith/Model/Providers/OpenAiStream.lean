import RouteSmith.Model.Http
import RouteSmith.Model.StreamLifecycle
import RouteSmith.Model.ToolUse

/-! # OpenAI-compatible streams for Anthropic clients

Chunks of an upstream stream are decoded one data line at a time and turned into the events of an
Anthropic message. A stream that fails ends with an error event, or with an error in place of an
event where the failure is raised from within.
-/

namespace RouteSmith.Model

open Numeric Text

/-! ## Chunks -/

/-- The data lines of a frame that are looked at. -/
def SseFrame.dataLines (frame : SseFrame) : List String :=
  ((lines frame.data).map trim).filter fun data => !isEmpty data

structure OpenAiFunctionDelta where
  name : Option String := none
  arguments : Option String := none
  deriving DecidableEq

structure OpenAiToolCallDelta where
  index : U64
  id : Option String := none
  function : Option OpenAiFunctionDelta := none
  deriving DecidableEq

structure OpenAiStreamDelta where
  content : Option String := none
  toolCalls : Option (List OpenAiToolCallDelta) := none
  functionCall : Option OpenAiFunctionDelta := none
  deriving DecidableEq

structure OpenAiStreamChoice where
  delta : OpenAiStreamDelta := {}
  finishReason : Option String := none
  deriving DecidableEq

structure OpenAiStreamChunk where
  choices : List OpenAiStreamChoice := []
  usage : Option Json := none

section

open Json.Decoder

def OpenAiFunctionDelta.decode (json : Json) : Option OpenAiFunctionDelta := do
  let field ← fields ["name", "arguments"] json
  return {
    name := ← defaulted (option string) none (field "name")
    arguments := ← defaulted (option string) none (field "arguments") }

def OpenAiToolCallDelta.decode (json : Json) : Option OpenAiToolCallDelta := do
  let field ← fields ["index", "id", "function"] json
  return {
    index := ← required u64 (field "index")
    id := ← defaulted (option string) none (field "id")
    function := ← defaulted (option OpenAiFunctionDelta.decode) none (field "function") }

def OpenAiStreamDelta.decode (json : Json) : Option OpenAiStreamDelta := do
  let field ← fields ["content", "tool_calls", "function_call"] json
  return {
    content := ← defaulted (option string) none (field "content")
    toolCalls := ←
      defaulted (option (list OpenAiToolCallDelta.decode)) none (field "tool_calls")
    functionCall := ←
      defaulted (option OpenAiFunctionDelta.decode) none (field "function_call") }

def OpenAiStreamChoice.decode (json : Json) : Option OpenAiStreamChoice := do
  let field ← fields ["delta", "finish_reason"] json
  return {
    delta := ← defaulted OpenAiStreamDelta.decode {} (field "delta")
    finishReason := ← defaulted (option string) none (field "finish_reason") }

/-- Members other than `choices` and `usage` are passed over. -/
def OpenAiStreamChunk.decode (json : Json) : Option OpenAiStreamChunk := do
  let field ← fields ["choices", "usage"] json
  return {
    choices := ← defaulted (list OpenAiStreamChoice.decode) [] (field "choices")
    usage := ← defaulted (option value) none (field "usage") }

end

/-! ## Text and tool arguments -/

/-- The longest start of the content, of two characters at least, that ends the text seen. -/
def suffixPrefixOverlap (seen content : String) : ℕ :=
  (List.range (content.toList.length + 1)).foldl (fun best width =>
    if 2 ≤ width && endsWith seen (String.ofList (content.toList.take width)) then width
    else best) 0

/-- The text a fragment adds, and all the text seen after it. -/
def textDelta (seen content : String) (deduplicate : Bool) : String × String :=
  if isEmpty content then ("", seen)
  else if !deduplicate then (content, seen ++ content)
  else if startsWith content seen then (dropChars seen.toList.length content, content)
  else if startsWith seen content then ("", seen)
  else if endsWith seen content then ("", seen)
  else if 3 ≤ content.toList.length && contains seen content then ("", seen)
  else
    let delta := dropChars (suffixPrefixOverlap seen content) content
    (delta, seen ++ delta)

structure ToolState where
  index : ℕ
  upstreamId : Option String := none
  name : Option String := none
  started : Bool := false
  argumentsSeen : String := ""
  rawArguments : List String := []
  pendingArguments : String := ""
  allArguments : String := ""
  deriving DecidableEq

def collectCompleteJsonObjects (reader : Json.Reader) (source : String) (best : Option String) :
    Option String :=
  source.toList.tails.foldl (fun best slice =>
    match slice.head?, reader.first (String.ofList slice) with
    | some '\x7b', some (.object _, width) =>
      let candidate := String.ofList (slice.take width)
      if width ≠ 0 ∧ best.all (len · < len candidate) then some candidate else best
    | _, _ => best) best

def bestCompleteJsonObject (reader : Json.Reader) (sources : List String) : Option String :=
  sources.foldl (fun best source => collectCompleteJsonObjects reader source best) none

namespace ToolState

def hasArgumentData (state : ToolState) : Bool :=
  !isEmpty state.argumentsSeen || !state.rawArguments.isEmpty || !isEmpty state.pendingArguments

def completeArguments (reader : Json.Reader) (state : ToolState) : Option String :=
  bestCompleteJsonObject reader ([state.argumentsSeen, state.pendingArguments,
    String.join state.rawArguments] ++ state.rawArguments)

def ingestToolArguments (state : ToolState) (arguments : String) (deduplicate : Bool) :
    ToolState :=
  if isEmpty arguments then state
  else if deduplicate then
    let (delta, seen) := textDelta state.argumentsSeen arguments true
    { state with
      allArguments := state.allArguments ++ arguments
      rawArguments := state.rawArguments ++ [arguments]
      argumentsSeen := seen
      pendingArguments := state.pendingArguments ++ delta }
  else
    { state with
      allArguments := state.allArguments ++ arguments
      pendingArguments := state.pendingArguments ++ arguments }

end ToolState

/-- A fragment of a tool call, from `tool_calls` or from the legacy `function_call`. -/
structure ToolFragment where
  key : ℕ
  id : Option String
  name : Option String
  arguments : Option String
  /-- The number of calls the fragment is evidence of. -/
  observed : ℕ
  deriving DecidableEq

def usizeMax : ℕ := 2 ^ 64 - 1

def OpenAiToolCallDelta.fragment (call : OpenAiToolCallDelta) : ToolFragment where
  key := call.index.val
  id := call.id
  name := call.function.bind (·.name)
  arguments := call.function.bind (·.arguments)
  observed := min (call.index.val + 1) usizeMax

def OpenAiFunctionDelta.fragment (call : OpenAiFunctionDelta) : ToolFragment where
  key := usizeMax
  id := none
  name := call.name
  arguments := call.arguments
  observed := 1

/-- The fragments of a delta in the order they are handled. -/
def OpenAiStreamDelta.fragments (delta : OpenAiStreamDelta) : List ToolFragment :=
  (delta.toolCalls.getD []).map OpenAiToolCallDelta.fragment ++
    delta.functionCall.toList.map OpenAiFunctionDelta.fragment

def ToolState.take (state : ToolState) (fragment : ToolFragment) (deduplicate : Bool) :
    ToolState :=
  let state := { state with
    upstreamId := fragment.id.or state.upstreamId
    name := fragment.name.or state.name }
  match fragment.arguments with
  | none => state
  | some arguments => state.ingestToolArguments arguments deduplicate

/-! ## Events -/

inductive AnthropicEvent where
  | messageStart (id model : String)
  | textBlockStart (index : ℕ)
  | toolUseBlockStart (index : ℕ) (id name : String)
  | textDelta (index : ℕ) (text : String)
  | inputJsonDelta (index : ℕ) (partialJson : String)
  | contentBlockStop (index : ℕ)
  | messageDelta (stopReason : String)
  | messageStop
  | error (kind message : String)
  deriving DecidableEq

/-- The `type` of an error event. -/
def AppError.anthropicKind : AppError → String
  | .invalidRequest _ | .idempotencyConflict _ | .stateConflict _ | .notFound _
  | .providerNotFound _ => "invalid_request_error"
  | .auth => "authentication_error"
  | .forbidden _ => "permission_error"
  | .quotaExceeded _ | .rateLimited _ _ => "rate_limit_error"
  | .missingSecret _ | .config _ | .database _ | .sqlx _ | .notReady _ => "server_error"
  | .transport _ | .upstream _ _ | .upstreamProtocol _ | .toolArgumentsInvalid _ _ _ => "api_error"
  | .io _ | .json _ => "server_error"

def anthropicErrorEvent (error : AppError) : AnthropicEvent :=
  .error error.anthropicKind error.display

def mapFinishReason (reason : String) : String :=
  match reason with
  | "length" => "max_tokens"
  | "tool_calls" | "function_call" => "tool_use"
  | _ => "end_turn"

/-! ## The relay -/

/-- The arguments of `openai_stream_to_anthropic`, the JSON reader and the identifiers drawn. -/
structure AnthropicRelay where
  reader : Json.Reader
  uuid : ℕ → String
  model : String
  deduplicateStreamText : Bool
  deduplicateToolArguments : Bool
  toolPolicy : ToolResponsePolicy

/-- The variables of the generator, with what it has done so far. -/
structure RelayState where
  messageStarted : Bool := false
  nextIndex : ℕ := 0
  textIndex : Option ℕ := none
  textSeen : String := ""
  tools : Std.TreeMap ℕ ToolState := ∅
  finishReason : String := "end_turn"
  upstreamFinishReason : Option String := none
  streamDone : Bool := false
  sawFinishReason : Bool := false
  /-- The number of identifiers drawn; the first is the message's own. -/
  uuids : ℕ := 1
  trace : List (StreamAction AnthropicEvent) := []

/-- The calls in the order of their keys. -/
def toolStates (tools : Std.TreeMap ℕ ToolState) : List ToolState := tools.toList.map (·.2)

/-- How a generator ends before its last line: by `return`, or by an error raised with `?`. -/
inductive Halt where
  | returned
  | failed (error : AppError)

abbrev RelayM := EStateM Halt RelayState

namespace AnthropicRelay

def act (action : StreamAction AnthropicEvent) : RelayM Unit :=
  modify fun s => { s with trace := s.trace ++ [action] }

def emit (event : AnthropicEvent) : RelayM Unit := act (.event event)

def fail {α : Type} (error : AppError) : RelayM α := do
  act (.update (.failed error.display))
  emit (anthropicErrorEvent error)
  throw .returned

variable (relay : AnthropicRelay)

def messageId : String := "msg_" ++ relay.uuid 0

def startMessage : RelayM Unit := do
  let s ← get
  if s.messageStarted then return
  else
    emit (.messageStart relay.messageId relay.model)
    modify fun s => { s with messageStarted := true }

/-- The upstream's identifier of a call, or one of our own. -/
def toolId (state : ToolState) : RelayM String := do
  match state.upstreamId with
  | some id => return id
  | none =>
    let s ← get
    set { s with uuids := s.uuids + 1 }
    return "toolu_" ++ relay.uuid s.uuids

def startToolState (state : ToolState) : RelayM ToolState := do
  let id ← relay.toolId state
  match relay.toolPolicy.validateName state.name with
  | .error error => throw (.failed error)
  | .ok name =>
    emit (.toolUseBlockStart state.index id name)
    return { state with started := true }

/-- `pending_tool_arguments_event`, yielded where there is one. -/
def flushToolArguments (state : ToolState) : RelayM ToolState := do
  if relay.deduplicateToolArguments || isEmpty state.pendingArguments then return state
  else
    emit (.inputJsonDelta state.index state.pendingArguments)
    return { state with pendingArguments := "" }

/-- `pending_tool_arguments_event_if_started`. -/
def flushToolArgumentsIfStarted (started : Bool) (state : ToolState) : RelayM ToolState :=
  if started then relay.flushToolArguments state else pure state

/-- `tools.entry(key).or_insert_with(..)`. -/
def toolEntry (key : ℕ) : RelayM ToolState := do
  let s ← get
  match s.tools[key]? with
  | some state => return state
  | none =>
    set { s with nextIndex := s.nextIndex + 1 }
    return { index := s.nextIndex }

/-- A call that has a name by now is started. -/
def startNamedTool (observed : ℕ) (state : ToolState) : RelayM ToolState :=
  if !state.started && state.name.isSome then do
    let s ← get
    act (.update (.fragment observed (!isEmpty s.textSeen) s.upstreamFinishReason))
    let state ← relay.startToolState state
    relay.flushToolArguments state
  else pure state

def relayToolFragment (fragment : ToolFragment) : RelayM Unit := do
  let entry ← toolEntry fragment.key
  let flushed ← relay.flushToolArgumentsIfStarted entry.started
    (entry.take fragment relay.deduplicateToolArguments)
  let state ← relay.startNamedTool fragment.observed flushed
  modify fun s => { s with tools := s.tools.insert fragment.key state }

/-- The text block, opened where there is none yet. -/
def textBlock : RelayM ℕ := do
  let s ← get
  match s.textIndex with
  | some index => return index
  | none =>
    set { s with nextIndex := s.nextIndex + 1, textIndex := some s.nextIndex }
    emit (.textBlockStart s.nextIndex)
    return s.nextIndex

def relayToolFragments (delta : OpenAiStreamDelta) : RelayM Unit := do
  for fragment in delta.fragments do
    relay.relayToolFragment fragment

def noteFinishReason : Option String → RelayM Unit
  | none => pure ()
  | some reason => modify fun s => { s with
    finishReason := mapFinishReason reason
    upstreamFinishReason := some reason
    sawFinishReason := true
    streamDone := true }

/-- Content that adds no text ends the choice, before its tool calls. -/
def relayContent (content : String) (delta : OpenAiStreamDelta) : RelayM Unit := do
  let s ← get
  let read := textDelta s.textSeen content relay.deduplicateStreamText
  set { s with textSeen := read.2 }
  if isEmpty read.1 then return
  else
    act (.update (.fragment s.tools.size true s.upstreamFinishReason))
    let index ← textBlock
    emit (.textDelta index read.1)
    relay.relayToolFragments delta

def relayChoice (choice : OpenAiStreamChoice) : RelayM Unit := do
  noteFinishReason choice.finishReason
  match choice.delta.content with
  | none => relay.relayToolFragments choice.delta
  | some content => relay.relayContent content choice.delta

/-- The usage a chunk reports. -/
def noteUsage (usage : Option Json) : RelayM Unit :=
  match usage.bind fun usage => openaiUsageIfPresent (.object [("usage", usage)]) with
  | none => pure ()
  | some usage => act (.update (.usage usage))

def relayChunk (chunk : OpenAiStreamChunk) : RelayM Unit := do
  noteUsage chunk.usage
  relay.startMessage
  for choice in chunk.choices do
    relay.relayChoice choice

def decodeChunk (data : String) : Option OpenAiStreamChunk :=
  (relay.reader.parse data).bind OpenAiStreamChunk.decode

def relayData (data : String) : RelayM Unit := do
  if data = "[DONE]" then
    relay.startMessage
    modify fun s => { s with streamDone := true }
  else
    match relay.decodeChunk data with
    | some chunk => relay.relayChunk chunk
    | none =>
      fail (.upstreamProtocol ("invalid OpenAI-compatible SSE chunk: " ++
        relay.reader.report data ++ "; data: " ++ data))

def relayFrame (frame : SseFrame) : RelayM Unit := do
  for data in frame.dataLines do
    relay.relayData data
    let s ← get
    if s.streamDone then break

/-- The loop over the frames of the upstream. -/
def relayFrames (frames : List (Except AppError SseFrame)) : RelayM Unit := do
  for frame in frames do
    match frame with
    | .ok frame =>
      relay.relayFrame frame
      let s ← get
      if s.streamDone then break
    | .error error =>
      let s ← get
      if s.sawFinishReason then break
      fail error

def toolArguments (state : ToolState) : String :=
  if relay.deduplicateToolArguments then (state.completeArguments relay.reader).getD ""
  else state.allArguments

/-- The check of one tool call, with the upstream identifiers met so far. -/
def validateTool (ids : List String) (state : ToolState) : Except AppError (List String) := do
  let name ← relay.toolPolicy.validateName state.name
  let ids ← match state.upstreamId with
    | some id =>
      if relay.toolPolicy.isStrict then
        if id ∈ ids then
          .error (.upstreamProtocol
            ("OpenAI-compatible upstream returned duplicate tool call id `" ++ id ++ "`"))
        else pure (id :: ids)
      else pure ids
    | none => pure ids
  let _ ← relay.toolPolicy.parseArguments relay.reader name (relay.toolArguments state)
  return ids

/-- The checks made before a stream is declared complete. -/
def validateTools (tools : List ToolState) (finishReason : Option String) :
    Except AppError Unit := do
  let _ ← tools.foldlM relay.validateTool []
  relay.toolPolicy.validateCallSummary tools.length finishReason

/-- A call that was never started gets its block at the end. -/
def startLateTool (state : ToolState) : RelayM ToolState :=
  if !state.started && (state.name.isSome || state.hasArgumentData) then
    relay.startToolState state
  else pure state

/-- The arguments that are still to be sent. -/
def closeToolArguments (state : ToolState) : RelayM Unit := do
  match if relay.deduplicateToolArguments then state.completeArguments relay.reader else none with
  | some arguments => emit (.inputJsonDelta state.index arguments)
  | none => let _ ← relay.flushToolArguments state

def closeTool (state : ToolState) : RelayM Unit := do
  let state ← relay.startLateTool state
  if state.started then
    relay.closeToolArguments state
    emit (.contentBlockStop state.index)

def closeText : Option ℕ → RelayM Unit
  | none => pure ()
  | some index => emit (.contentBlockStop index)

def complete : RelayM Unit := do
  let s ← get
  act (.update (.fragment s.tools.size (!isEmpty s.textSeen) s.upstreamFinishReason))
  act (.update .completed)
  closeText s.textIndex
  for state in toolStates s.tools do
    relay.closeTool state
  emit (.messageDelta s.finishReason)
  emit .messageStop

def run (frames : List (Except AppError SseFrame)) : RelayM Unit := do
  relay.relayFrames frames
  let s ← get
  if !s.streamDone && !s.sawFinishReason then
    fail (.upstreamProtocol "OpenAI-compatible stream ended without [DONE] or finish_reason")
  else if !s.messageStarted then
    fail (.upstreamProtocol "upstream stream ended before sending any SSE chunks")
  else
    match relay.validateTools (toolStates s.tools) s.upstreamFinishReason with
    | .error error => fail error
    | .ok _ => relay.complete

end AnthropicRelay

/-- Everything a stream does for the frames of its upstream. -/
def openaiStreamToAnthropic (relay : AnthropicRelay) (frames : List (Except AppError SseFrame)) :
    List (StreamAction AnthropicEvent) :=
  match relay.run frames {} with
  | .ok _ s | .error .returned s => s.trace
  | .error (.failed error) s => s.trace ++ [.error error]

end RouteSmith.Model
