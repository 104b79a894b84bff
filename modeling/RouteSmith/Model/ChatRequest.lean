import RouteSmith.Json.Render
import RouteSmith.Model.Tooling

/-! # Chat completion requests

A request of an OpenAI client is checked and parsed into an exchange, and rendered from it for an
Anthropic upstream.
-/

namespace RouteSmith.Model

open Numeric Text

def defaultOpenaiMaxOutputTokens : U64 := .ofNat _ 4096

structure OpenAiChatRequest where
  model : String
  messages : List Json := []
  maxCompletionTokens : Option U64 := none
  maxTokens : Option U64 := none
  stream : Option Bool := none
  /-- The members of other names. -/
  extra : Json := .object []

inductive ClientRequest where
  | anthropic (request : AnthropicRequest)
  | openAiChat (request : OpenAiChatRequest)

inductive ExchangeRole where
  | system
  | developer
  | user
  | assistant
  | tool
  deriving DecidableEq

inductive ExchangeContent where
  | text (text : String)
  | toolCall (id name arguments : String)
  | toolResult (toolCallId content : String)
  deriving DecidableEq

structure ExchangeMessage where
  role : ExchangeRole
  content : List ExchangeContent
  deriving DecidableEq

structure ExchangeTool where
  name : String
  description : Option String
  inputSchema : Json
  strict : Option Bool

inductive ExchangeToolChoice where
  | none
  | auto
  | required
  | function (name : String)
  deriving DecidableEq

structure Exchange.Request where
  source : ClientRequest
  requestedModel : String
  maxOutputTokens : Option U64
  stream : Bool
  messages : List ExchangeMessage
  tools : List ExchangeTool
  toolChoice : Option ExchangeToolChoice
  parallelToolCalls : Option Bool
  parameters : Json

/-! ## Members -/

namespace Exchange

/-- The names of the members of an object, in their order. -/
def keys : Json → List String
  | .object members => (Json.ordered members).map (·.1)
  | _ => []

/-- A check that an object has members of the given names only. -/
def ensureKeys (json : Json) (allowed : List String) (message : String → String) :
    Except AppError Unit :=
  match (keys json).find? fun key => !allowed.contains key with
  | none => .ok ()
  | some key => .error (.invalidRequest (message key))

def requiredString (value : Json) (key path : String) : Except AppError String :=
  orInvalid ((value.text? key).filter fun text => !isEmpty (trim text))
    (path ++ "." ++ key ++ " is required")

def validateToolName (name path : String) : Except AppError Unit :=
  ensure (!isEmpty name && (name.toList.map Char.utf8Size).sum ≤ 64 &&
      name.toList.all fun c => c.isAlphanum || c = '_' || c = '-')
    (path ++ " must be 1-64 ASCII letters, digits, underscores, or hyphens")

/-- A member that is absent, or that the given function reads. -/
def optionalMember {α : Type} (value : Json) (key : String) (read : Json → Option α)
    (message : String) : Except AppError (Option α) :=
  match value.get? key with
  | none => .ok none
  | some member => some <$> orInvalid (read member) message

/-! ## The shape of a request -/

def isNumber : Json → Bool
  | .number _ => true
  | _ => false

def isInteger : Json → Bool
  | .number (.float _) => false
  | .number _ => true
  | _ => false

def validateOptionalNumber (extra : Json) (field : String) : Except AppError Unit :=
  ensure ((extra.get? field).all fun value => value.isNull || isNumber value)
    (field ++ " must be a number or null")

def supportedFields : List String :=
  ["temperature", "top_p", "presence_penalty", "frequency_penalty", "seed", "stop", "tools",
    "tool_choice", "parallel_tool_calls", "response_format", "stream_options", "n"]

def validateStreamOptions (stream : Option Bool) (options : Json) : Except AppError Unit := do
  ensure (stream = some true) "stream_options requires stream=true"
  ensure options.isObject "stream_options must be an object"
  ensure ((keys options).all (· = "include_usage") &&
      (options.get? "include_usage").all Json.isBool)
    "only stream_options.include_usage is supported"

def validateResponseFormat (format : Json) : Except AppError Unit := do
  ensure format.isObject "response_format must be an object"
  ensure ((keys format).length = 1 && format.text? "type" = some "text")
    ("only response_format.type=text is supported in the current Chat Completions " ++
      "compatibility slice")

def isStop : Json → Bool
  | .null => true
  | .string _ => true
  | .array values => !values.isEmpty && values.length ≤ 4 && values.all Json.isString
  | _ => false

end Exchange

open Exchange

def validateOpenaiRequestShape (request : OpenAiChatRequest) : Except AppError Unit := do
  ensure (!isEmpty (trim request.model)) "model is required"
  ensure (!request.messages.isEmpty) "messages must not be empty"
  ensure (request.maxCompletionTokens.all fun n => request.maxTokens.all (n = ·))
    "max_completion_tokens and max_tokens must not conflict"
  ensure ((request.maxCompletionTokens.or request.maxTokens).all (·.val ≠ 0))
    "max_completion_tokens/max_tokens must be greater than 0"
  let unsupported := (keys request.extra).filter fun key => !supportedFields.contains key
  ensure unsupported.isEmpty
    ("unsupported Chat Completions field(s): " ++ ", ".intercalate unsupported)
  ensure ((request.extra.get? "n").all fun n => n.asU64 = some (.ofNat _ 1)) "only n=1 is supported"
  (request.extra.get? "stream_options").elim (.ok ()) (validateStreamOptions request.stream)
  (request.extra.get? "response_format").elim (.ok ()) validateResponseFormat
  validateOptionalNumber request.extra "temperature"
  validateOptionalNumber request.extra "top_p"
  validateOptionalNumber request.extra "presence_penalty"
  validateOptionalNumber request.extra "frequency_penalty"
  ensure ((request.extra.get? "seed").all fun seed => seed.isNull || isInteger seed)
    "seed must be an integer or null"
  ensure ((request.extra.get? "stop").all isStop)
    "stop must be null, a string, or an array of 1 to 4 strings"

/-! ## Parsing -/

def openaiTextBlock (path : String) (entry : Json × ℕ) : Except AppError String := do
  let (block, index) := entry
  let path := path ++ "[" ++ toString index ++ "]"
  ensure block.isObject (path ++ " must be an object")
  ensure ((keys block).all ["type", "text"].contains) (path ++ " contains unsupported fields")
  ensure (block.text? "type" = some "text")
    (path ++ " only supports text content in the current Exchange IR")
  orInvalid (block.text? "text") (path ++ ".text is required")

def openaiTextContent (value : Json) (path : String) : Except AppError String :=
  match value with
  | .string text => .ok text
  | .array blocks => do return String.join (← blocks.zipIdx.mapM (openaiTextBlock path))
  | _ => .error (.invalidRequest (path ++ " must be a string or array"))

def parseRole (role : Option String) (path : String) : Except AppError ExchangeRole :=
  match role with
  | some "system" => .ok .system
  | some "developer" => .ok .developer
  | some "user" => .ok .user
  | some "assistant" => .ok .assistant
  | some "tool" => .ok .tool
  | some role => .error (.invalidRequest (path ++ ".role `" ++ role ++ "` is not supported"))
  | none => .error (.invalidRequest (path ++ ".role is required"))

def allowedKeys : ExchangeRole → List String
  | .assistant => ["role", "content", "tool_calls"]
  | .tool => ["role", "content", "tool_call_id"]
  | _ => ["role", "content"]

def parseToolCall (path : String) (entry : Json × ℕ) : Except AppError ExchangeContent := do
  let (call, index) := entry
  let path := path ++ ".tool_calls[" ++ toString index ++ "]"
  ensure call.isObject (path ++ " must be an object")
  ensureKeys call ["id", "type", "function"] fun key => path ++ "." ++ key ++ " is not supported"
  let function ← orInvalid (call.get? "function") (path ++ ".function is required")
  ensure (call.text? "type" = some "function") (path ++ ".type must be function")
  ensure function.isObject (path ++ ".function must be an object")
  ensureKeys function ["name", "arguments"] fun key =>
    path ++ ".function." ++ key ++ " is not supported"
  let id ← requiredString call "id" path
  let name ← requiredString function "name" (path ++ ".function")
  let arguments ← requiredString function "arguments" (path ++ ".function")
  return .toolCall id name arguments

def parseToolCalls (message : Json) (path : String) : Except AppError (List ExchangeContent) :=
  match message.get? "tool_calls" with
  | none => .ok []
  | some toolCalls => do
    let toolCalls ← orInvalid toolCalls.asArray (path ++ ".tool_calls must be an array")
    toolCalls.zipIdx.mapM (parseToolCall path)

/-- The content of a message that is not a result. -/
def parseText (message : Json) (path : String) : Except AppError (List ExchangeContent) :=
  match (message.get? "content").filter fun value => !value.isNull with
  | none => .ok []
  | some value => do
    let text ← openaiTextContent value (path ++ ".content")
    return if isEmpty text then [] else [.text text]

def parseResult (message : Json) (path : String) : Except AppError (List ExchangeContent) := do
  let toolCallId ← orInvalid (message.text? "tool_call_id") (path ++ ".tool_call_id is required")
  let content ← openaiTextContent ((message.get? "content").getD .null) (path ++ ".content")
  return [.toolResult toolCallId content]

def parseOpenaiMessage (entry : Json × ℕ) : Except AppError ExchangeMessage := do
  let (message, index) := entry
  let path := "messages[" ++ toString index ++ "]"
  ensure message.isObject (path ++ " must be an object")
  let role ← parseRole (message.text? "role") path
  ensureKeys message (allowedKeys role) fun key => path ++ "." ++ key ++ " is not supported"
  let content ← (if role = .tool then parseResult message path else parseText message path)
  let toolCalls ← (if role = .assistant then parseToolCalls message path else .ok [])
  ensure (!(content ++ toolCalls).isEmpty || role = .assistant)
    (path ++ ".content must not be empty")
  return { role, content := content ++ toolCalls }

def defaultParameters : Json := .object [("type", .string "object"), ("properties", .object [])]

/-- One more tool, with the tools before it. -/
def parseOpenaiTool (tools : List ExchangeTool) (entry : Json × ℕ) :
    Except AppError (List ExchangeTool) := do
  let (tool, index) := entry
  let path := "tools[" ++ toString index ++ "]"
  ensure tool.isObject (path ++ " must be an object")
  ensureKeys tool ["type", "function"] fun key => path ++ "." ++ key ++ " is not supported"
  ensure (tool.text? "type" = some "function") (path ++ ".type must be function")
  let function ← orInvalid (tool.get? "function") (path ++ ".function is required")
  ensure function.isObject (path ++ ".function must be an object")
  ensureKeys function ["name", "description", "parameters", "strict"] fun key =>
    path ++ ".function." ++ key ++ " is not supported"
  let name ← requiredString function "name" (path ++ ".function")
  Exchange.validateToolName name (path ++ ".function.name")
  ensure (!(tools.map (·.name)).contains name) (path ++ ".function.name duplicates another tool")
  let description ← optionalMember function "description" Json.asStr
    (path ++ ".function.description must be a string")
  let inputSchema := (function.get? "parameters").getD defaultParameters
  ensure inputSchema.isObject (path ++ ".function.parameters must be an object")
  let strict ← optionalMember function "strict" Json.asBool
    (path ++ ".function.strict must be a boolean")
  return tools ++ [{ name, description, inputSchema, strict }]

def parseOpenaiTools (value : Json) : Except AppError (List ExchangeTool) := do
  let tools ← orInvalid value.asArray "tools must be an array"
  tools.zipIdx.foldlM parseOpenaiTool []

def parseOpenaiToolChoice (value : Json) : Except AppError ExchangeToolChoice :=
  match value with
  | .string "none" => .ok .none
  | .string "auto" => .ok .auto
  | .string "required" => .ok .required
  | .string _ => .error (.invalidRequest
      "tool_choice must be none, auto, required, or a function object")
  | value => do
    ensure value.isObject "tool_choice must be a string or object"
    ensureKeys value ["type", "function"] fun key => "tool_choice." ++ key ++ " is not supported"
    let function ← orInvalid (value.get? "function") "tool_choice.function is required"
    ensure function.isObject "tool_choice.function must be an object"
    ensureKeys function ["name"] fun key => "tool_choice.function." ++ key ++ " is not supported"
    ensure (value.text? "type" = some "function") "tool_choice.type must be function"
    return .function (← requiredString function "name" "tool_choice.function")

def ExchangeToolChoice.name? : ExchangeToolChoice → Option String
  | function name => some name
  | _ => Option.none

def keptParameters : List String :=
  ["temperature", "top_p", "presence_penalty", "frequency_penalty", "seed", "stop",
    "response_format", "stream_options", "n"]

def keepMembers (names : List String) : Json → Json
  | .object members => .object (members.filter fun member => names.contains member.1)
  | _ => .object []

def Exchange.Request.fromOpenai (request : OpenAiChatRequest) :
    Except AppError Exchange.Request := do
  validateOpenaiRequestShape request
  let messages ← request.messages.zipIdx.mapM parseOpenaiMessage
  let tools ← (request.extra.get? "tools").elim (.ok []) parseOpenaiTools
  let toolChoice ← (request.extra.get? "tool_choice").elim (.ok none) fun value =>
    some <$> parseOpenaiToolChoice value
  ensure ((toolChoice.bind (·.name?)).all (tools.map (·.name)).contains)
    ("tool_choice function `" ++ ((toolChoice.bind (·.name?)).getD "") ++
      "` is not declared in tools")
  ensure (!(toolChoice.any (fun choice => choice = .required || choice.name?.isSome) &&
      tools.isEmpty))
    "required or named tool_choice requires at least one tool"
  let parallelToolCalls ← optionalMember request.extra "parallel_tool_calls" Json.asBool
    "parallel_tool_calls must be a boolean"
  ensure (!(parallelToolCalls.isSome && tools.isEmpty))
    "parallel_tool_calls requires at least one tool"
  return {
    source := .openAiChat request
    requestedModel := request.model
    maxOutputTokens := request.maxCompletionTokens.or request.maxTokens
    stream := request.stream.getD false
    messages, tools, toolChoice, parallelToolCalls
    parameters := keepMembers keptParameters request.extra }

/-! ## What an Anthropic upstream can take -/

def ExchangeRole.isConversation (role : ExchangeRole) : Bool :=
  role = .user || role = .assistant || role = .tool

def Exchange.Request.validateOpenaiToAnthropicFidelity (request : Exchange.Request) :
    Except AppError Unit := do
  let unsupported := ["presence_penalty", "frequency_penalty", "seed"].filter fun key =>
    (request.parameters.get? key).any fun value => !value.isNull
  ensure unsupported.isEmpty ("parameter(s) " ++ ", ".intercalate unsupported ++
    " cannot be preserved by the selected Anthropic provider")
  ensure ((request.parameters.get? "response_format").all fun format =>
      format.text? "type" = some "text")
    ("response_format is not supported when routing Chat Completions to an Anthropic " ++
      "provider")
  ensure (!request.tools.any fun tool => tool.strict = some true)
    "strict function schemas cannot be preserved by the selected Anthropic provider"
  let conversation := request.messages.dropWhile fun message => !message.role.isConversation
  ensure (!conversation.any fun message => !message.role.isConversation)
    ("system/developer messages after conversation start cannot be preserved by an " ++
      "Anthropic provider")

/-! ## Rendering -/

def renderedText (text : String) : Json :=
  .object [("type", .string "text"), ("text", .string text)]

def renderedUse (id name : String) (input : Json) : Json :=
  .object [("type", .string "tool_use"), ("id", .string id), ("name", .string name),
    ("input", input)]

def renderedResult (toolCallId content : String) : Json :=
  .object [("type", .string "tool_result"), ("tool_use_id", .string toolCallId),
    ("content", .string content)]

def ExchangeContent.text? : ExchangeContent → Option String
  | text content => some content
  | _ => none

def ExchangeContent.resultBlock? : ExchangeContent → Option Json
  | toolResult toolCallId content => some (renderedResult toolCallId content)
  | _ => none

def renderAssistantContent (reader : Json.Reader) : ExchangeContent → Except AppError Json
  | .text text => .ok (renderedText text)
  | .toolCall id name arguments => do
    let input ← orInvalid (reader.parse arguments) ("tool call `" ++ id ++
      "` arguments must be valid JSON for an Anthropic provider: " ++ reader.report arguments)
    ensure input.isObject ("tool call `" ++ id ++
      "` arguments must be a JSON object for an Anthropic provider")
    return renderedUse id name input
  | .toolResult _ _ => .error (.invalidRequest "tool results cannot appear in an assistant message")

def blocksMessage (role : String) (blocks : List Json) : Json :=
  .object [("role", .string role), ("content", .array blocks)]

/-- The message for an Anthropic upstream; messages of the system are kept apart. -/
def renderMessage (reader : Json.Reader) (message : ExchangeMessage) :
    Except AppError (List Json) :=
  match message.role with
  | .system | .developer => .ok []
  | .user => .ok [blocksMessage "user" (message.content.filterMap fun content =>
      content.text?.map renderedText)]
  | .assistant => do
    let blocks ← message.content.mapM (renderAssistantContent reader)
    return [blocksMessage "assistant" blocks]
  | .tool => .ok [blocksMessage "user" (message.content.filterMap (·.resultBlock?))]

def Exchange.Request.systemParts (request : Exchange.Request) : List String :=
  (request.messages.filter fun message => !message.role.isConversation).flatMap fun message =>
    message.content.filterMap (·.text?)

def renderTool (tool : ExchangeTool) : Json :=
  .object [("name", .string tool.name),
    ("description", tool.description.elim .null .string),
    ("input_schema", tool.inputSchema)]

def ExchangeToolChoice.members : ExchangeToolChoice → List (String × Json)
  | none => [("type", .string "none")]
  | auto => [("type", .string "auto")]
  | required => [("type", .string "any")]
  | function name => [("type", .string "tool"), ("name", .string name)]

def parallelMember (parallel : Option Bool) : List (String × Json) :=
  (parallel.map fun parallel => ("disable_parallel_tool_use", Json.bool !parallel)).toList

def renderToolChoice (toolChoice : Option ExchangeToolChoice) (parallel : Option Bool) :
    List (String × Json) :=
  match toolChoice with
  | some .none => []
  | some choice => [("tool_choice", .object (choice.members ++ parallelMember parallel))]
  | none =>
    if parallel.isSome then
      [("tool_choice", .object (ExchangeToolChoice.auto.members ++ parallelMember parallel))]
    else []

/-- A parameter that is present and not `null`. -/
def parameter (parameters : Json) (key : String) : Option Json :=
  (parameters.get? key).filter fun value => !value.isNull

def stopSequences : Json → Json
  | .string text => .array [.string text]
  | stop => stop

def u64Json (n : U64) : Json := .number (.posInt n)

def ofOption {α : Type} (render : α → Json) (value : Option α) : Json := value.elim .null render

/-- `anthropic_request_value`. -/
def anthropicRequestValue (request : AnthropicRequest) (model : String) : Json :=
  .object ([("model", .string model), ("max_tokens", ofOption u64Json request.maxTokens),
    ("messages", .array request.messages), ("system", ofOption id request.system),
    ("stream", ofOption .bool request.stream)] ++
    match request.extra with
    | .object members => members
    | _ => [])

def Exchange.Request.toAnthropicRequest (request : Exchange.Request) (reader : Json.Reader)
    (model : String) (stream : Bool) : Except AppError Json :=
  match request.source with
  | .anthropic source => .ok (anthropicRequestValue { source with stream := some stream } model)
  | .openAiChat _ => do
    let messages ← request.messages.mapM (renderMessage reader)
    let toolsDisabled := request.toolChoice = some .none
    return .object ([("model", .string model),
        ("max_tokens", u64Json (request.maxOutputTokens.getD defaultOpenaiMaxOutputTokens)),
        ("messages", .array messages.flatten), ("stream", .bool stream)] ++
      (if request.systemParts.isEmpty then []
        else [("system", .string ("\n\n".intercalate request.systemParts))]) ++
      ["temperature", "top_p", "top_k"].flatMap (fun key =>
        ((parameter request.parameters key).map fun value => (key, value)).toList) ++
      ((parameter request.parameters "stop").map fun stop =>
        ("stop_sequences", stopSequences stop)).toList ++
      (if request.tools.isEmpty || toolsDisabled then []
        else [("tools", .array (request.tools.map renderTool))]) ++
      renderToolChoice request.toolChoice request.parallelToolCalls)

/-! ## Reading a request -/

def AnthropicRequest.fieldNames : List String :=
  ["model", "max_tokens", "messages", "system", "stream"]

/-- An Anthropic request as it is read from its body. -/
def AnthropicRequest.ofBody : Json → Option AnthropicRequest
  | .object members => do
    let fields ← Json.Decoder.fields fieldNames (.object members)
    return {
      model := ← Json.Decoder.required .string (fields "model")
      maxTokens := ← Json.Decoder.defaulted (.option .u64) none (fields "max_tokens")
      messages := ← Json.Decoder.defaulted (.list .value) [] (fields "messages")
      system := ← Json.Decoder.defaulted (.option .value) none (fields "system")
      stream := ← Json.Decoder.defaulted (.option Json.asBool) none (fields "stream")
      extra := .object (members.filter fun member => !fieldNames.contains member.1) }
  | _ => none

end RouteSmith.Model
