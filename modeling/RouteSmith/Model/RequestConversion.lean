import RouteSmith.Json.Render
import RouteSmith.Model.Tooling

/-! # Anthropic requests for OpenAI-compatible upstreams -/

namespace RouteSmith.Model

open Numeric Text

/-! ## Texts -/

mutual

def contentToText : Json → String
  | .string text => text
  | .array blocks => "\n".intercalate (blockTexts blocks)
  | _ => ""

/-- The texts of the blocks that have one. -/
def blockTexts : List Json → List String
  | [] => []
  | block :: blocks => (blockText block).toList ++ blockTexts blocks

def blockText : Json → Option String
  | .object members =>
    match (Json.object members).text? "type" with
    | some "text" => (Json.object members).text? "text"
    | some "tool_result" => some ((contentMemberText members).getD "")
    | some "thinking" => (Json.object members).text? "thinking"
    | _ => none
  | _ => none

/-- The text of the last member `content`. -/
def contentMemberText : List (String × Json) → Option String
  | [] => none
  | member :: members =>
    (contentMemberText members).or (if member.1 = "content" then some (memberText member) else none)

def memberText : String × Json → String
  | (_, value) => contentToText value

end

def toolResultToText (block : Json) : String :=
  let content := contentToText ((block.get? "content").getD .null)
  if (block.get? "is_error").bind Json.asBool = some true then
    if isEmpty content then "ModelPort tool execution error"
    else "ModelPort tool execution error:\n" ++ content
  else content

/-! ## Messages -/

/-- The arguments of `anthropic_to_openai_request` beside the request, the text of JSON values, the
identifiers drawn and the compiler of schemas. -/
structure RequestConverter where
  writer : Json.Writer
  uuid : ℕ → String
  validatorFor : SchemaCompiler
  model : String
  stream : Bool
  maxTokensField : MaxTokensField

def plainMessage (role content : String) : Json :=
  .object [("role", .string role), ("content", .string content)]

/-- The text and the calls of an assistant message, and the number of identifiers drawn. -/
structure AssistantParts where
  text : String := ""
  toolCalls : List Json := []
  uuids : ℕ

namespace RequestConverter

variable (converter : RequestConverter)

def toolCall (id name : String) (input : Json) : Json :=
  .object
    [("id", .string id), ("type", .string "function"),
      ("function", .object
        [("name", .string name), ("arguments", .string (converter.writer.write input))])]

def convertAssistantBlock (parts : AssistantParts) (block : Json) :
    Except AppError AssistantParts :=
  if block.text? "type" = some "text" then
    .ok { parts with text := parts.text ++ (block.text? "text").getD "" }
  else if block.text? "type" = some "tool_use" then do
    let id := block.text? "id"
    let name ← orInvalid (block.text? "name") "tool_use.name is required"
    return { parts with
      toolCalls := parts.toolCalls ++ [converter.toolCall
        (id.getD ("toolu_" ++ converter.uuid parts.uuids)) name
        ((block.get? "input").getD (.object []))]
      uuids := if id.isSome then parts.uuids else parts.uuids + 1 }
  else .ok parts

def assistantMessage (parts : AssistantParts) : Json :=
  .object ([("role", .string "assistant"), ("content", .string parts.text)] ++
    if parts.toolCalls.isEmpty then [] else [("tool_calls", .array parts.toolCalls)])

def convertAssistantMessage (uuids : ℕ) (blocks : List Json) : Except AppError (List Json × ℕ) := do
  let parts ← blocks.foldlM converter.convertAssistantBlock { uuids }
  return ([assistantMessage parts], parts.uuids)

end RequestConverter

/-- The messages of a user message, and the texts that wait for one. -/
structure UserParts where
  messages : List Json := []
  textParts : List String := []

def UserParts.flush (parts : UserParts) : UserParts where
  messages := parts.messages ++ [plainMessage "user" ("\n".intercalate parts.textParts)]

def toolMessage (block : Json) : Json :=
  .object
    [("role", .string "tool"),
      ("tool_call_id", .string ((block.text? "tool_use_id").getD "toolu_missing")),
      ("content", .string (toolResultToText block))]

def convertUserBlock (parts : UserParts) (block : Json) : UserParts :=
  if block.text? "type" = some "text" then
    { parts with textParts := parts.textParts ++ (block.text? "text").toList }
  else if block.text? "type" = some "tool_result" then
    let parts := if parts.textParts.isEmpty then parts else parts.flush
    { parts with messages := parts.messages ++ [toolMessage block] }
  else parts

def convertUserMessage (blocks : List Json) : List Json :=
  let parts := blocks.foldl convertUserBlock {}
  (if !parts.textParts.isEmpty || parts.messages.isEmpty then parts.flush else parts).messages

namespace RequestConverter

variable (converter : RequestConverter)

def convertMessage (uuids : ℕ) (message : Json) : Except AppError (List Json × ℕ) := do
  let role ← orInvalid (message.text? "role") "message.role is required"
  let content := (message.get? "content").getD .null
  match content with
  | .array blocks =>
    if role = "assistant" then converter.convertAssistantMessage uuids blocks
    else if role = "user" then return (convertUserMessage blocks, uuids)
    else return ([plainMessage role (contentToText content)], uuids)
  | _ => return ([plainMessage role (contentToText content)], uuids)

/-- The messages converted so far, and the number of identifiers drawn. -/
def convertNext (converted : List Json × ℕ) (message : Json) : Except AppError (List Json × ℕ) := do
  let (messages, uuids) ← converter.convertMessage converted.2 message
  return (converted.1 ++ messages, uuids)

def systemMessages (system : Option Json) : List Json :=
  match system with
  | none => []
  | some system =>
    if isEmpty (contentToText system) then [] else [plainMessage "system" (contentToText system)]

def convertMessages (request : AnthropicRequest) : Except AppError (List Json) := do
  let (messages, _) ← request.messages.foldlM converter.convertNext
    (systemMessages request.system, 0)
  return messages

/-! ## Requests -/

def convertTool (tool : Json) : Json :=
  .object
    [("type", .string "function"),
      ("function", .object
        ([("name", (tool.get? "name").getD (.string "tool")),
            ("description", (tool.get? "description").getD (.string "")),
            ("parameters", (tool.get? "input_schema").getD
              (.object [("type", .string "object"), ("properties", .object [])]))] ++
          ((tool.get? "strict").map fun strict => ("strict", strict)).toList))]

def convertTools (tools : Json) : Except AppError Json := do
  let tools ← orInvalid tools.asArray "tools must be an array"
  return .array (tools.map convertTool)

def convertToolChoice (toolChoice : Json) : Json :=
  match toolChoice.text? "type", toolChoice.text? "name" with
  | some "none", _ => .string "none"
  | some "auto", _ => .string "auto"
  | some "any", _ => .string "required"
  | some "tool", some name =>
    .object [("type", .string "function"), ("function", .object [("name", .string name)])]
  | _, _ => toolChoice

def maxTokensMembers (maxTokens : Option U64) : List (String × Json) :=
  match maxTokens with
  | none => []
  | some maxTokens =>
    let value := Json.number (.posInt maxTokens)
    match converter.maxTokensField with
    | .maxCompletionTokens => [("max_completion_tokens", value)]
    | .maxTokens => [("max_tokens", value)]
    | .both => [("max_completion_tokens", value), ("max_tokens", value)]

def copyOptional (extra : Json) (key : String) : List (String × Json) :=
  ((extra.get? key).map fun value => (key, value)).toList

def toolsMembers (extra : Json) : Except AppError (List (String × Json)) :=
  match extra.get? "tools" with
  | none => .ok []
  | some tools => do return [("tools", ← convertTools tools)]

def toolChoiceMembers (extra : Json) : List (String × Json) :=
  match extra.get? "tool_choice" with
  | none => []
  | some toolChoice =>
    ("tool_choice", convertToolChoice toolChoice) ::
      (((toolChoice.get? "disable_parallel_tool_use").bind Json.asBool).map fun disabled =>
        ("parallel_tool_calls", .bool !disabled)).toList

end RequestConverter

def anthropicToOpenaiRequest (converter : RequestConverter) (request : AnthropicRequest) :
    Except AppError Json := do
  validateAnthropicTooling converter.validatorFor request
  let messages ← converter.convertMessages request
  let tools ← RequestConverter.toolsMembers request.extra
  return .object ([("model", .string converter.model), ("stream", .bool converter.stream)] ++
    converter.maxTokensMembers request.maxTokens ++ [("messages", .array messages)] ++
    ["temperature", "top_p", "top_k", "presence_penalty", "frequency_penalty", "seed"].flatMap
      (RequestConverter.copyOptional request.extra) ++
    ((request.extra.get? "stop_sequences").map fun value => ("stop", value)).toList ++
    tools ++ RequestConverter.toolChoiceMembers request.extra)

end RouteSmith.Model
