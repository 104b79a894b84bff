import RouteSmith.Model.Providers.OpenAiClientStream

/-! # Anthropic responses for OpenAI clients -/

namespace RouteSmith.Model

open Numeric Text

/-- The text and the tool calls of the blocks met so far. -/
structure ConvertedBlocks where
  text : String := ""
  toolCalls : List Json := []

/-- The text of JSON values, and what is drawn for an identifier and a time. -/
structure ResponseForOpenAi where
  writer : Json.Writer
  uuid : String
  now : U64
  requestedModel : String

namespace ResponseForOpenAi

variable (converter : ResponseForOpenAi)

def toolCall (block : Json) : Json :=
  .object
    [("id", .string ((block.text? "id").getD "call_modelport")),
      ("type", .string "function"),
      ("function", .object
        [("name", .string ((block.text? "name").getD "tool")),
          ("arguments", .string
            (converter.writer.write ((block.get? "input").getD (.object []))))])]

def convertBlock (converted : ConvertedBlocks) (block : Json) : ConvertedBlocks :=
  let blockType := block.text? "type"
  if blockType = some "text" then
    { converted with text := converted.text ++ (block.text? "text").getD "" }
  else if blockType = some "tool_use" then
    { converted with toolCalls := converted.toolCalls ++ [converter.toolCall block] }
  else converted

def message (converted : ConvertedBlocks) : Json :=
  let content := if isEmpty converted.text && !converted.toolCalls.isEmpty then .null
    else .string converted.text
  .object ([("role", .string "assistant"), ("content", content)] ++
    if converted.toolCalls.isEmpty then [] else [("tool_calls", .array converted.toolCalls)])

end ResponseForOpenAi

def anthropicResponseToOpenai (converter : ResponseForOpenAi) (response : Json) :
    Except AppError Json :=
  match (response.get? "content").bind Json.asArray with
  | none => .error (.upstreamProtocol "Anthropic response has no content array")
  | some blocks =>
    let converted := blocks.foldl converter.convertBlock {}
    let stopReason := (response.text? "stop_reason").getD "end_turn"
    let finishReason := if stopReason = "max_tokens" then "length"
      else if stopReason = "tool_use" then "tool_calls"
      else "stop"
    .ok (.object
      [("id", .string (openaiCompletionId converter.uuid (response.text? "id"))),
        ("object", .string "chat.completion"),
        ("created", .number (.posInt converter.now)),
        ("model", .string converter.requestedModel),
        ("choices", .array [.object
          [("index", Json.ofNat 0), ("message", ResponseForOpenAi.message converted),
            ("logprobs", .null), ("finish_reason", .string finishReason)]]),
        ("usage", openaiUsageValue (anthropicUsage response))])

end RouteSmith.Model
