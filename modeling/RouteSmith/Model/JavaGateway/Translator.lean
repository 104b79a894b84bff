import RouteSmith.Json.Node
import RouteSmith.Model.JavaGateway.Budget

/-! # The Java gateway's protocol translator

`ProtocolTranslator`, with the request profile that routing reads and the estimates that a budget
reservation is made for.
-/

namespace RouteSmith.Model.JavaGateway

open Numeric

inductive Protocol where
  | openai
  | anthropic
  deriving DecidableEq

/-- `Character.isWhitespace`: no-break spaces are none. -/
def isJavaWhitespace (c : Char) : Bool :=
  let n := c.toNat
  (0x09 ≤ n && n ≤ 0x0D) || (0x1C ≤ n && n ≤ 0x20) || n == 0x1680 ||
    (0x2000 ≤ n && n ≤ 0x200A && n != 0x2007) || n == 0x2028 || n == 0x2029 || n == 0x205F ||
    n == 0x3000

def isBlank (s : String) : Bool := s.toList.all isJavaWhitespace

def badRequest {α : Type} (message : String) : Except Throwable α :=
  .error (.gatewayException .badRequest message)

section Translator

variable (mapper : JsonNode.Mapper)

/-! ## Helpers -/

def requireMessages (source : ObjectNode) : Except Throwable (List JsonNode) :=
  match source.path "messages" with
  | .array (message :: messages) => .ok (message :: messages)
  | _ => badRequest "messages must be a non-empty array"

def positiveInt (source : ObjectNode) (field : String) (fallback : ℤ) : Except Throwable ℤ :=
  let value := (source.path field).asInt mapper fallback
  if value ≤ 0 then badRequest (field ++ " must be greater than zero") else .ok value

def copyIfPresent (source target : ObjectNode) (fields : List String) : ObjectNode :=
  fields.foldl (fun target field =>
    (source.get? field).elim target fun value => target.put field value) target

/-- The text of one block of a message's content. -/
def blockText (block : JsonNode) : String :=
  match block with
  | .text s => s
  | block =>
    if (block.path "type").asText mapper = "text" then (block.path "text").asText mapper else ""

def textContent (content : JsonNode) : String :=
  match content with
  | .text s => s
  | .array blocks => String.join (blocks.map (blockText mapper))
  | _ => ""

def parseObject (raw : String) : ObjectNode :=
  match mapper.readTree raw with
  | some (.object members) => members
  | _ => []

def mapAnthropicStop (reason : String) : String :=
  match reason with
  | "end_turn" => "stop"
  | "max_tokens" => "length"
  | "tool_use" => "tool_calls"
  | _ => "stop"

def mapOpenAiStop (reason : String) : String :=
  match reason with
  | "stop" => "end_turn"
  | "length" => "max_tokens"
  | "tool_calls" => "tool_use"
  | _ => "end_turn"

def openAiStops (stop : JsonNode) : Except Throwable JsonNode :=
  match stop with
  | .array items => .ok (.array items)
  | .text s => .ok (.array [.text s])
  | _ => badRequest "stop must be a string or array"

/-! ## Tools -/

def openAiToolToAnthropic (tool : JsonNode) : Except Throwable JsonNode :=
  let function := tool.path "function"
  let name := (function.path "name").asText mapper
  if (tool.path "type").asText mapper ≠ "function" ∨ isBlank name then
    badRequest "OpenAI tools must contain a named function"
  else
    let target := [("name", .text name)]
    let target := (function.get? "description").elim target (ObjectNode.put target "description")
    .ok (.object (ObjectNode.put target "input_schema"
      ((function.get? "parameters").getD (.object [("type", .text "object")]))))

def openAiToolsToAnthropic (tools : JsonNode) : Except Throwable JsonNode :=
  match tools with
  | .array items => do return .array (← items.mapM (openAiToolToAnthropic mapper))
  | _ => badRequest "tools must be an array"

def anthropicToolToOpenAi (tool : JsonNode) : Except Throwable JsonNode :=
  let name := (tool.path "name").asText mapper
  if isBlank name then badRequest "Anthropic tools must contain a name"
  else
    let function := [("name", .text name)]
    let function := (tool.get? "description").elim function (ObjectNode.put function "description")
    let function := ObjectNode.put function "parameters"
      ((tool.get? "input_schema").getD (.object [("type", .text "object")]))
    .ok (.object [("type", .text "function"), ("function", .object function)])

def anthropicToolsToOpenAi (tools : JsonNode) : Except Throwable JsonNode :=
  match tools with
  | .array items => do return .array (← items.mapM (anthropicToolToOpenAi mapper))
  | _ => badRequest "tools must be an array"

def openAiToolChoiceToAnthropic (choice : JsonNode) : Except Throwable (Option JsonNode) :=
  match choice with
  | .missing => .ok none
  | .null => .ok none
  | .text "auto" => .ok (some (.object [("type", .text "auto")]))
  | .text "required" => .ok (some (.object [("type", .text "any")]))
  | .text "none" => .ok none
  | .text _ => badRequest "unsupported OpenAI tool_choice"
  | choice =>
    let name := ((choice.path "function").path "name").asText mapper
    if isBlank name then badRequest "tool_choice function name is required"
    else .ok (some (.object [("type", .text "tool"), ("name", .text name)]))

def anthropicToolChoiceToOpenAi (choice : JsonNode) : Except Throwable (Option JsonNode) :=
  if choice.isAbsent then .ok none
  else
    match (choice.path "type").asText mapper with
    | "auto" => .ok (some (.text "auto"))
    | "any" => .ok (some (.text "required"))
    | "tool" =>
      let name := (choice.path "name").asText mapper
      if isBlank name then badRequest "tool_choice name is required"
      else .ok (some (.object
        [("type", .text "function"), ("function", .object [("name", .text name)])]))
    | _ => badRequest "unsupported Anthropic tool_choice"

/-! ## Messages -/

/-- A tool call as a `tool_use` block. -/
def toolCallToBlock (toolCall : JsonNode) : JsonNode :=
  let function := toolCall.path "function"
  .object [
    ("type", .text "tool_use"),
    ("id", .text ((toolCall.path "id").asText mapper)),
    ("name", .text ((function.path "name").asText mapper)),
    ("input", .object (parseObject mapper ((function.path "arguments").asTextOr mapper "{}")))]

/-- The text block of a message, if it has text. -/
def textBlocks (text : String) : List JsonNode :=
  if text = "" then [] else [.object [("type", .text "text"), ("text", .text text)]]

/-- The blocks of a message's text and tool calls, shared by requests and responses. -/
def convertOpenAiContent (message : JsonNode) : List JsonNode :=
  textBlocks (textContent mapper (message.path "content")) ++
    (message.path "tool_calls").elements.map (toolCallToBlock mapper)

/-- A `tool_use` block as a tool call. -/
def blockToToolCall (block : JsonNode) : JsonNode :=
  .object [
    ("id", .text ((block.path "id").asText mapper)),
    ("type", .text "function"),
    ("function", .object [
      ("name", .text ((block.path "name").asText mapper)),
      ("arguments", .text (mapper.write (block.path "input")))])]

/-- Whether a block is of a type. -/
def isBlock (type : String) (block : JsonNode) : Bool := (block.path "type").asText mapper = type

/-- The texts of the text blocks of a content, run together. -/
def contentText (content : JsonNode) : String :=
  String.join ((content.elements.filter (isBlock mapper "text")).map
    fun block => (block.path "text").asText mapper)

/-- The `tool_use` blocks of a content, as tool calls. -/
def contentToolCalls (content : JsonNode) : List JsonNode :=
  (content.elements.filter (isBlock mapper "tool_use")).map (blockToToolCall mapper)

/-- The content is returned; the tool calls are set on the message. -/
def convertAnthropicContent (content : JsonNode) (message : ObjectNode) : JsonNode × ObjectNode :=
  if content.isTextual then (content, message)
  else
    let toolCalls := contentToolCalls mapper content
    (.text (contentText mapper content),
      if toolCalls.isEmpty then message else message.put "tool_calls" (.array toolCalls))

/-- The running state of the loop over an OpenAI request's messages: the system text collected so
far, and the converted messages. -/
structure Collected where
  system : String
  messages : List JsonNode

def convertOpenAiMessage (acc : Collected) (message : JsonNode) : Collected :=
  let role := (message.path "role").asText mapper
  if role = "system" then
    { acc with system := (if acc.system = "" then "" else acc.system ++ "\n") ++
        textContent mapper (message.path "content") }
  else if role = "tool" then
    { acc with messages := acc.messages ++ [.object [
        ("role", .text "user"),
        ("content", .array [.object [
          ("type", .text "tool_result"),
          ("tool_use_id", .text ((message.path "tool_call_id").asText mapper)),
          ("content", .text (textContent mapper (message.path "content")))]])]] }
  else
    { acc with messages := acc.messages ++ [.object [
        ("role", .text (if role = "assistant" then "assistant" else "user")),
        ("content", .array (convertOpenAiContent mapper message))]] }

def convertAnthropicMessage (message : JsonNode) : JsonNode :=
  let converted : ObjectNode := [("role", .text ((message.path "role").asTextOr mapper "user"))]
  let (content, converted) := convertAnthropicContent mapper (message.path "content") converted
  .object (converted.put "content" content)

/-! ## Requests -/

def putIfSome (target : ObjectNode) (field : String) (value : Option JsonNode) : ObjectNode :=
  value.elim target (target.put field)

/-- What both request translations start with. -/
def startRequest (source : ObjectNode) (model : String) : Except Throwable ObjectNode := do
  let target : ObjectNode := [("model", .text model)]
  let maxTokens ← positiveInt mapper source "max_tokens" 1024
  return copyIfPresent source (target.put "max_tokens" (.integer maxTokens))
    ["temperature", "top_p"]

def openAiRequestToAnthropic (source : ObjectNode) (model : String) :
    Except Throwable ObjectNode := do
  let target ← startRequest mapper source model
  let stops ← (source.get? "stop").mapM openAiStops
  let target := putIfSome target "stop_sequences" stops
  let tools ← (source.get? "tools").mapM (openAiToolsToAnthropic mapper)
  let target := putIfSome target "tools" tools
  let toolChoice ← openAiToolChoiceToAnthropic mapper (source.path "tool_choice")
  let target := putIfSome target "tool_choice" toolChoice
  let collected := (← requireMessages source).foldl (convertOpenAiMessage mapper) ⟨"", []⟩
  let target := target.put "messages" (.array collected.messages)
  let target := if collected.system = "" then target
    else target.put "system" (.text collected.system)
  return target.put "stream" (.boolean ((source.path "stream").asBoolean false))

def anthropicRequestToOpenAi (source : ObjectNode) (model : String) :
    Except Throwable ObjectNode := do
  let target ← startRequest mapper source model
  let target := putIfSome target "stop" (source.get? "stop_sequences")
  let tools ← (source.get? "tools").mapM (anthropicToolsToOpenAi mapper)
  let target := putIfSome target "tools" tools
  let toolChoice ← anthropicToolChoiceToOpenAi mapper (source.path "tool_choice")
  let target := putIfSome target "tool_choice" toolChoice
  let system := (source.get? "system").elim [] fun system =>
    [.object [("role", .text "system"), ("content", .text (textContent mapper system))]]
  let messages := (← requireMessages source).map (convertAnthropicMessage mapper)
  let target := target.put "messages" (.array (system ++ messages))
  return target.put "stream" (.boolean ((source.path "stream").asBoolean false))

def request (client upstream : Protocol) (source : ObjectNode) (model : String) :
    Except Throwable ObjectNode :=
  if client = upstream then .ok (source.put "model" (.text model))
  else if client = .openai then openAiRequestToAnthropic mapper source model
  else anthropicRequestToOpenAi mapper source model

/-! ## Responses -/

/-- What a translated response takes from elsewhere. -/
structure ResponseContext where
  exposedModel : String
  -- the identifier made up where the upstream gives none
  freshId : String
  created : ℤ

def anthropicResponseToOpenAi (source : JsonNode) (context : ResponseContext) : JsonNode :=
  let content := source.path "content"
  let toolCalls := contentToolCalls mapper content
  let message : ObjectNode := [
    ("role", .text "assistant"), ("content", .text (contentText mapper content))]
  let message := if toolCalls.isEmpty then message else message.put "tool_calls" (.array toolCalls)
  let prompt := ((source.path "usage").path "input_tokens").asInt mapper 0
  let completion := ((source.path "usage").path "output_tokens").asInt mapper 0
  .object [
    ("id", .text ((source.path "id").asTextOr mapper ("chatcmpl-" ++ context.freshId))),
    ("object", .text "chat.completion"),
    ("created", .integer context.created),
    ("model", .text context.exposedModel),
    ("choices", .array [.object [
      ("index", .integer 0),
      ("message", .object message),
      ("finish_reason", .text (mapAnthropicStop ((source.path "stop_reason").asText mapper)))]]),
    ("usage", .object [
      ("prompt_tokens", .integer prompt),
      ("completion_tokens", .integer completion),
      ("total_tokens", .integer ((prompt + completion).bmod (2 ^ 32)))])]

def openAiResponseToAnthropic (source : JsonNode) (context : ResponseContext) : JsonNode :=
  let choice := (source.path "choices").item 0
  .object [
    ("id", .text ((source.path "id").asTextOr mapper ("msg_" ++ context.freshId))),
    ("type", .text "message"),
    ("role", .text "assistant"),
    ("model", .text context.exposedModel),
    ("content", .array (convertOpenAiContent mapper (choice.path "message"))),
    ("stop_reason", .text (mapOpenAiStop ((choice.path "finish_reason").asText mapper))),
    ("stop_sequence", .null),
    ("usage", .object [
      ("input_tokens", .integer (((source.path "usage").path "prompt_tokens").asInt mapper 0)),
      ("output_tokens", .integer
        (((source.path "usage").path "completion_tokens").asInt mapper 0))])]

def response (upstream client : Protocol) (source : JsonNode)
    (context : ResponseContext) : JsonNode :=
  if upstream = client then source
  else if upstream = .anthropic then anthropicResponseToOpenAi mapper source context
  else openAiResponseToAnthropic mapper source context

/-! ## Estimates -/

/-- `String.length`: the number of UTF-16 units. -/
def utf16Length (s : String) : ℕ := (s.toList.map fun c => if c.toNat < 0x10000 then 1 else 2).sum

/-- The least integer above a double, for the quotients an estimate is made of. -/
def ceiling : F64 → ℤ
  | .fin q => ⌈q⌉
  | _ => 0

/-- The double that the literal `3.2` denotes. -/
def charactersPerToken : ℚ := 3602879701896397 / 1125899906842624

def estimateInputTokens (request : ObjectNode) : ℤ :=
  let characters := (["messages", "system", "tools", "tool_choice"].map fun field =>
    utf16Length (mapper.write (request.path field))).sum
  max 1 (ceiling (F64.divRat charactersPerToken (F64.ofNat characters)))

def maxOutputTokens (request : ObjectNode) : ℤ :=
  let value :=
    if request.has "max_completion_tokens" then
      (request.path "max_completion_tokens").asInt mapper 1024
    else (request.path "max_tokens").asInt mapper 1024
  max 1 value

/-- The tokens a budget reservation is made for. -/
def reservationTokens (request : ObjectNode) : ℤ :=
  estimateInputTokens mapper request + maxOutputTokens mapper request

structure RoutingRequestProfile where
  estimatedInputTokens : ℤ
  maxOutputTokens : ℤ
  toolCount : ℕ
  streaming : Bool
  latencySloMs : Option ℤ
  clientProtocol : Protocol

def RoutingRequestProfile.from (request : ObjectNode) (estimatedInputTokens : ℤ)
    (latencySloMs : Option ℤ) (clientProtocol : Protocol) : RoutingRequestProfile :=
  let maxOutputTokens :=
    if request.has "max_completion_tokens" then
      (request.path "max_completion_tokens").asInt mapper 1024
    else (request.path "max_tokens").asInt mapper 1024
  let tools := request.path "tools"
  { estimatedInputTokens
    maxOutputTokens := max 1 maxOutputTokens
    toolCount := if tools.isArray then tools.elements.length else 0
    streaming := (request.path "stream").asBoolean false
    latencySloMs
    clientProtocol }

end Translator

end RouteSmith.Model.JavaGateway
